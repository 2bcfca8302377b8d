import RvgGateway.Xhttp.Held
import RvgGateway.Xhttp.StreamUp

/-!
# What does a packet that is sent again do to a packet-up session?

A client that gets no answer sends its packet again, with the same number.  `packet_up_upload` asks
only whether the session has a connection and whether it is the turn of the number.  The first
answer is out of date behind the `await` of the connect, and the second one does not tell a packet
that is early from one that was written before.

* `Session.Single` : the session has at most one connection, each packet is written to it once at
  most, and what is buffered behind the connect is early.
* `Session.InTime` : the packet is not one that came before, and if it makes the connection, then it
  is the only one that does.
* `single_of_timely` : **a session all of whose packets come in time is single in every state.**
-/

namespace RvgGateway

namespace Xhttp

open Relay (Parsed)
open Reorder (Gathered)
open Upload (Aside passes_aside)

/-! ### The engine with the bodies of its packets -/

/-- An engine, and what its `packet-up` requests read. -/
structure Packets where
  engine : EngineState
  /-- The bodies with their object and number, the newest last. -/
  bodies : List (ℕ × ℤ × Bytes)

/-- The body that the task takes, with its number. -/
def Handler.body? (h : Handler) (inp : Input) : Option (ℤ × Bytes) :=
  match h.role, h.phase, inp with
  | .packetUp seq, .input, .data data => if data = [] then none else some (seq, data)
  | _, _, _ => none

/-- The body that is read in a step. -/
def bodyRead (s : EngineState) : Label → Option (ℕ × ℤ × Bytes)
  | .resume k pid inp _ =>
    ((s.objects[k]?).bind (·.handler? pid)).bind fun h => (h.body? inp).map (k, ·)
  | _ => none

namespace Packets

/-- An engine without sessions. -/
def init (world : World) : Packets := ⟨.init world, []⟩

/-- A request of the object `k` read the body `body` of the packet `seq`. -/
def Sent (s : Packets) (k : ℕ) (seq : ℤ) (body : Bytes) : Prop := (k, seq, body) ∈ s.bodies

end Packets

/-- The engine with its record of bodies. -/
def packetMachine (e : Engine) : Machine Packets Label where
  step s l := ((machine e).step s.engine l).map fun engine =>
    ⟨engine, s.bodies ++ (bodyRead s.engine l).toList⟩

/-! ### The claim and its condition -/

/-- The packet `seq` is written as `piece`: a body of that number, of the first packet what follows
the header. -/
def Piece (sent : ℤ → Bytes → Prop) (seq : ℤ) (piece : Bytes) : Prop :=
  if seq = 0 then ∃ chunk header, sent 0 chunk ∧ HeaderIn chunk header ∧ piece = header.payload
  else sent seq piece

/-- What the session is for, whatever is sent again. -/
structure Session.Single (sent : ℤ → Bytes → Prop) (o : Session) : Prop where
  /-- At most one connection was opened. -/
  one : o.writers.length ≤ 1
  /-- It got the packets in their order, each of them once. -/
  once : ∀ c ∈ o.writers, ∃ (d : ℤ → Bytes) (n : ℕ),
    c.written = Reorder.span d 0 n ∧ ∀ i : ℕ, i < n → Piece sent i (d i)
  /-- Nothing that was written is still buffered. -/
  early : o.writer ≠ none → ∀ seq body, o.seqBuf.get? seq = some body → o.nextSeq < seq

/-- The task has found the session without a connection and is in `_open_tcp_for_session`. -/
def Handler.opens (h : Handler) : Bool :=
  match h.role, h.phase with
  | .packetUp _, .connect .. | .packetUp _, .payload .. => true
  | _, _ => false

/-- No connection was opened for the session, and no packet is about to open one. -/
def Session.Unopened (o : Session) : Prop :=
  o.writers = [] ∧ ∀ t ∈ o.tasks, ∀ h ∈ t.handler?, h.opens = false

/-- The packet `seq` is not one that came before: behind the connect its number was not written,
and before the connect it is not negative, and if it is 0, then no other one makes a connection. -/
def Session.InTime (o : Session) (seq : ℤ) : Prop :=
  (o.writer = none → 0 ≤ seq ∧ (seq = 0 → o.Unopened)) ∧ (o.writer ≠ none → o.nextSeq ≤ seq)

/-- The packet that the task comes to the gate with. -/
def Handler.puts? (h : Handler) (inp : Input) : Option (ℤ × Bytes) :=
  match h.role, h.phase, inp with
  | .packetUp seq, .meter data, .go => some (seq, data)
  | _, _, _ => none

/-- The gate lets the packet pass, and the entry of the session in `connections` is there. -/
def Session.LetsPass (e : Engine) (m : Moment) (h : Handler) (world : World) (o : Session)
    (data : Bytes) : Prop :=
  ((o.ensureGate e.kind h.uuid m.reading.monotonic).add data.length m.reading world.accounts).1 =
    true ∧ o.connBytes ≠ none

/-- A packet that gets to the test of its number is in time. -/
def Handler.Timely (e : Engine) (inp : Input) (m : Moment) (h : Handler) (world : World)
    (o : Session) : Prop :=
  ∀ p ∈ h.puts? inp, o.LetsPass e m h world p.2 → o.InTime p.1

/-- The packets of the session are in time. -/
def Timely (e : Engine) (k : ℕ) (s : Packets) : Label → Prop
  | .resume i pid inp m => i = k → ∀ o ∈ s.engine.objects[k]?, ∀ h ∈ o.handler? pid,
      h.Timely e inp m s.engine.world o
  | _ => True

/-- The task is a `stream-up` request. -/
def Handler.isStreamUp (h : Handler) : Bool :=
  match h.role with
  | .streamUp _ => true
  | _ => false

/-- The session is written by `packet-up` requests only. -/
def PacketsOnly (k : ℕ) (s : Packets) : Label → Prop
  | .resume i pid _ _ => i = k → ∀ o ∈ s.engine.objects[k]?, ∀ h ∈ o.handler? pid,
      h.isStreamUp = false
  | _ => True

instance (o : Session) : Decidable o.Unopened := inferInstanceAs (Decidable (_ ∧ ∀ t ∈ _, _))

instance (o : Session) (seq : ℤ) : Decidable (o.InTime seq) :=
  inferInstanceAs (Decidable ((_ → _ ∧ (_ → o.Unopened)) ∧ (_ → _)))

instance (e : Engine) (m : Moment) (h : Handler) (world : World) (o : Session) (data : Bytes) :
    Decidable (o.LetsPass e m h world data) := inferInstanceAs (Decidable (_ ∧ _))

instance (e : Engine) (inp : Input) (m : Moment) (h : Handler) (world : World) (o : Session) :
    Decidable (h.Timely e inp m world o) :=
  inferInstanceAs (Decidable (∀ p ∈ h.puts? inp, o.LetsPass e m h world p.2 → o.InTime p.1))

instance (e : Engine) (k : ℕ) (s : Packets) (l : Label) : Decidable (Timely e k s l) :=
  match l with
  | .resume i pid inp m => inferInstanceAs (Decidable (i = k → ∀ o ∈ s.engine.objects[k]?,
      ∀ h ∈ o.handler? pid, h.Timely e inp m s.engine.world o))
  | .packetUp .. | .streamUp .. | .downlink .. | .lose .. | .reap _ | .sweep | .other .. =>
    inferInstanceAs (Decidable True)

instance (k : ℕ) (s : Packets) (l : Label) : Decidable (PacketsOnly k s l) :=
  match l with
  | .resume i pid _ _ => inferInstanceAs (Decidable (i = k → ∀ o ∈ s.engine.objects[k]?,
      ∀ h ∈ o.handler? pid, h.isStreamUp = false))
  | .packetUp .. | .streamUp .. | .downlink .. | .lose .. | .reap _ | .sweep | .other .. =>
    inferInstanceAs (Decidable True)

/-! ### What is kept -/

/-- How far the session is. -/
inductive Session.Progress (sent : ℤ → Bytes → Prop) (o : Session) : Prop
  /-- No connection is entered, perhaps one has the payload of the header. -/
  | waiting (hwriter : o.writer = none)
      (hwriters : o.writers = [] ∨
        ∃ payload, Piece sent 0 payload ∧ o.writers.map Writer.written = [payload])
      (hnext : o.nextSeq = 0) (hbuf : Gathered (Piece sent) 0 o.seqBuf [])
  | flowing {out : Bytes} (hwriter : o.writer = some 0)
      (hwriters : o.writers.map Writer.written = [out]) (hpos : 0 < o.nextSeq)
      (hbuf : Gathered (Piece sent) o.nextSeq o.seqBuf out)
  /-- The connection was closing when it was entered, and the loop behind it raised. -/
  | broken {payload : Bytes} (hwriter : o.writer = some 0) (hpayload : Piece sent 0 payload)
      (hwriters : o.writers.map Writer.written = [payload]) (hnext : o.nextSeq = 0)
      (hclosing : o.isClosing 0 = true)
      (hearly : ∀ seq body, o.seqBuf.get? seq = some body → 0 < seq)

/-- What the request of the packet `seq` has in its hands. -/
def Session.Holds (sent : ℤ → Bytes → Prop) (o : Session) (seq : ℤ) : Phase → Prop
  | .meter data => sent seq data
  | .connect header _ => seq = 0 ∧ Piece sent 0 header.payload ∧ o.writer = none ∧ o.writers = []
  | .payload w _ => seq = 0 ∧ w = 0 ∧ o.writer = none ∧ o.writers ≠ []
  | _ => True

/-- What is so of a session whose packets are in time.  Nothing is said of the task `torn`. -/
structure Session.Paced (sent : ℤ → Bytes → Prop) (torn : Option ℕ) (o : Session) : Prop where
  holds : ∀ pid h seq, torn ≠ some pid → o.handler? pid = some h → h.role = .packetUp seq →
    o.Holds sent seq h.phase
  /-- One request at most makes a connection. -/
  alone : ∀ pid pid' h h', torn ≠ some pid → torn ≠ some pid' → o.handler? pid = some h →
    o.handler? pid' = some h' → h.opens = true → h'.opens = true → pid = pid'
  progress : o.Progress sent

/-- Nothing happens to the session but what `_teardown`, downloads and the client do. -/
structure Session.Idles (o o' : Session) : Prop extends o.Rests o', o.Shrinks o' where
  nextSeq_eq : o'.nextSeq = o.nextSeq
  seqBuf_eq : o'.seqBuf = o.seqBuf

section Paced

variable {sent sent' : ℤ → Bytes → Prop} {torn : Option ℕ} {o o₁ o' : Session} {pid : ℕ}
  {h : Handler} {seq : ℤ}

theorem Piece.mono {piece : Bytes} (hpiece : Piece sent seq piece)
    (hsub : ∀ k v, sent k v → sent' k v) : Piece sent' seq piece := by
  unfold Piece at hpiece ⊢
  split_ifs at hpiece ⊢
  · obtain ⟨chunk, header, hsent, hin⟩ := hpiece
    exact ⟨chunk, header, hsub _ _ hsent, hin⟩
  · exact hsub _ _ hpiece

theorem piece_of_header {chunk : Bytes} {header : Parsed} (hsent : sent 0 chunk)
    (hin : HeaderIn chunk header) : Piece sent 0 header.payload := by
  unfold Piece
  rw [if_pos rfl]
  exact ⟨chunk, header, hsent, hin, rfl⟩

theorem piece_of_body {body : Bytes} (hsent : sent seq body) (hseq : seq ≠ 0) :
    Piece sent seq body := by
  unfold Piece
  rwa [if_neg hseq]

theorem opens_iff : h.opens = true ↔ (∃ seq, h.role = .packetUp seq) ∧
    ((∃ header isTrojan, h.phase = .connect header isTrojan) ∨
      ∃ w isTrojan, h.phase = .payload w isTrojan) := by
  unfold Handler.opens
  cases h.role <;> cases h.phase <;> simp

theorem Session.Holds.congr {phase : Phase} (hholds : o.Holds sent seq phase)
    (hwriter : o'.writer = o.writer) (hnil : o'.writers = [] ↔ o.writers = []) :
    o'.Holds sent seq phase := by
  cases phase with
  | connect header isTrojan =>
    exact ⟨hholds.1, hholds.2.1, hwriter.trans hholds.2.2.1, hnil.2 hholds.2.2.2⟩
  | payload w isTrojan =>
    exact ⟨hholds.1, hholds.2.1, hwriter.trans hholds.2.2.1, fun heq => hholds.2.2.2 (hnil.1 heq)⟩
  | _ => exact hholds

/-- What the other requests have in their hands does not depend on the connections. -/
theorem Session.Holds.of_closed (hholds : o.Holds sent seq h.phase) (hrole : h.role = .packetUp seq)
    (hopens : h.opens = false) : o'.Holds sent seq h.phase := by
  unfold Handler.opens at hopens
  rw [hrole] at hopens
  cases hphase : h.phase with
  | connect | payload => rw [hphase] at hopens; cases hopens
  | _ => rw [hphase] at hholds; exact hholds

theorem Session.Holds.mono {phase : Phase} (hholds : o.Holds sent seq phase)
    (hsub : ∀ k v, sent k v → sent' k v) : o.Holds sent' seq phase := by
  cases phase with
  | meter data => exact hsub _ _ hholds
  | connect header isTrojan => exact ⟨hholds.1, hholds.2.1.mono hsub, hholds.2.2⟩
  | _ => exact hholds

/-- The progress does not depend on anything but the connections, the numbers and the buffer. -/
theorem Session.Progress.congr (hp : o.Progress sent) (hwriter : o'.writer = o.writer)
    (hwriters : o'.writers.map Writer.written = o.writers.map Writer.written)
    (hclosing : o.isClosing 0 = true → o'.isClosing 0 = true) (hnext : o'.nextSeq = o.nextSeq)
    (hbuf : o'.seqBuf = o.seqBuf) : o'.Progress sent := by
  cases hp with
  | waiting hw hws hn hb =>
    refine .waiting (hwriter.trans hw) ?_ (hnext.trans hn) (hbuf ▸ hb)
    rw [hwriters]
    refine hws.imp_left fun hnil => ?_
    rwa [hnil, List.map_nil, List.map_eq_nil_iff] at hwriters
  | flowing hw hws hpos hb =>
    refine .flowing (hwriter.trans hw) (hwriters.trans hws) (hnext ▸ hpos) ?_
    rw [hnext, hbuf]
    exact hb
  | broken hw hpay hws hn hc he =>
    refine .broken (hwriter.trans hw) hpay (hwriters.trans hws) (hnext.trans hn) (hclosing hc) ?_
    rw [hbuf]
    exact he

theorem Session.Progress.mono (hp : o.Progress sent) (hsub : ∀ k v, sent k v → sent' k v) :
    o.Progress sent' := by
  have hpiece : ∀ k v, Piece sent k v → Piece sent' k v := fun k v hpiece => hpiece.mono hsub
  cases hp with
  | waiting hw hws hn hb =>
    refine .waiting hw (hws.imp_right ?_) hn (hb.mono hpiece)
    rintro ⟨payload, hpay, heq⟩
    exact ⟨payload, hpiece _ _ hpay, heq⟩
  | flowing hw hws hpos hb => exact .flowing hw hws hpos (hb.mono hpiece)
  | broken hw hpay hws hn hc he => exact .broken hw (hpiece _ _ hpay) hws hn hc he

theorem Session.Paced.mono (ho : o.Paced sent torn) (hsub : ∀ k v, sent k v → sent' k v) :
    o.Paced sent' torn where
  holds pid h seq hpid hh hrole := (ho.holds pid h seq hpid hh hrole).mono hsub
  alone := ho.alone
  progress := ho.progress.mono hsub

/-- The claim for a session that is paced. -/
theorem Session.Paced.single (ho : o.Paced sent torn) : o.Single sent := by
  have hpaid : ∀ payload, Piece sent 0 payload → o.writers.map Writer.written = [payload] →
      o.writers.length ≤ 1 ∧ ∀ c ∈ o.writers, ∃ (d : ℤ → Bytes) (n : ℕ),
        c.written = Reorder.span d 0 n ∧ ∀ i : ℕ, i < n → Piece sent i (d i) := by
    intro payload hpay hwriters
    have hlen := congrArg List.length hwriters
    refine ⟨by simpa using hlen.le, fun c hc => ⟨fun _ => payload, 1, ?_, fun i hi => ?_⟩⟩
    · have hmem := List.mem_map_of_mem (f := Writer.written) hc
      rw [hwriters] at hmem
      simpa [Reorder.span] using hmem
    · obtain rfl : i = 0 := by omega
      exact hpay
  cases ho.progress with
  | waiting hwriter hwriters hnext hbuf =>
    have hearly : o.writer ≠ none →
        ∀ seq body, o.seqBuf.get? seq = some body → o.nextSeq < seq := fun hne => absurd hwriter hne
    obtain hnil | ⟨payload, hpay, heq⟩ := hwriters
    · exact ⟨by simp [hnil], fun c hc => by simp [hnil] at hc, hearly⟩
    · obtain ⟨hone, honce⟩ := hpaid payload hpay heq
      exact ⟨hone, honce, hearly⟩
  | flowing hwriter hwriters hpos hbuf =>
    have hlen := congrArg List.length hwriters
    obtain ⟨d, n, hout, hpieces⟩ := hbuf.out_eq
    refine ⟨by simpa using hlen.le, fun c hc => ⟨d, n, ?_, hpieces⟩, fun _ seq body hget =>
      (hbuf.early hget).1⟩
    have hmem := List.mem_map_of_mem (f := Writer.written) hc
    rw [hwriters, List.mem_singleton] at hmem
    exact hmem.trans hout
  | broken hwriter hpay hwriters hnext hclosing hearly =>
    obtain ⟨hone, honce⟩ := hpaid _ hpay hwriters
    exact ⟨hone, honce, fun _ seq body hget => hnext ▸ hearly seq body hget⟩

end Paced

/-! ### What leaves the requests alone -/

section Idles

variable {sent : ℤ → Bytes → Prop} {torn actor : Option ℕ} {o o₁ o' : Session} {pid : ℕ}
  {h : Handler}

theorem nextSeq_tolerates : Session.Tolerates fun o o' => o'.nextSeq = o.nextSeq :=
  Session.tolerates_field (fun _ => rfl) (fun _ _ => rfl) fun _ _ => rfl

theorem seqBuf_tolerates : Session.Tolerates fun o o' => o'.seqBuf = o.seqBuf :=
  Session.tolerates_field (fun _ => rfl) (fun _ _ => rfl) fun _ _ => rfl

theorem idles_tends (ht : Session.Tends actor o o') : o.Idles o' where
  toRests := rests_tends ht
  toShrinks := Session.shrinks_tolerates.follows (fun _ _ _ => ⟨rfl, fun _ hw => hw⟩) (.single ht)
  nextSeq_eq := nextSeq_tolerates.follows (fun _ _ _ => rfl) (.single ht)
  seqBuf_eq := seqBuf_tolerates.follows (fun _ _ _ => rfl) (.single ht)

theorem idles_close (o : Session) (w : ℕ) : o.Idles (o.close w) where
  toRests := rests_of_tended (.close o w) (alike_close o w)
  toShrinks := Session.shrinks_close o w
  nextSeq_eq := rfl
  seqBuf_eq := rfl

theorem idles_serve {kind : Kind} {l : Label} {r : Request} (hr : l.request? kind = some r)
    (o : Session) : o.Idles ({ o with lastSeen := r.now }.serve r.serve) := by
  have hrests : o.Rests ({ o with lastSeen := r.now }.serve r.serve) := by
    obtain ⟨hwriter, hcontents, htasks, hhandler⟩ := rests_serve hr { o with lastSeen := r.now }
    exact ⟨hwriter, hcontents, htasks, hhandler⟩
  have hsame : (r.serve { o with lastSeen := r.now }).1.writers = o.writers ∧
      (r.serve { o with lastSeen := r.now }).1.nextSeq = o.nextSeq ∧
      (r.serve { o with lastSeen := r.now }).1.seqBuf = o.seqBuf := by
    cases l <;> cases hr
    · exact ⟨rfl, rfl, rfl⟩
    · unfold serveStreamUp
      dsimp only
      split <;> exact ⟨rfl, rfl, rfl⟩
    · exact ⟨rfl, rfl, rfl⟩
  obtain ⟨-, heq⟩ | ⟨-, heq⟩ := Serves.serve_cases r.serve { o with lastSeen := r.now }
  · rw [heq] at hrests ⊢
    exact ⟨hrests, ⟨rfl, fun _ hw => hw⟩, rfl, rfl⟩
  · have hclosing : ∀ w, o.isClosing w = true →
        ({ o with lastSeen := r.now }.serve r.serve).isClosing w = true := by
      intro w hw
      unfold Session.isClosing at hw ⊢
      rw [heq, hsame.1]
      exact hw
    refine ⟨hrests, ⟨hrests.writer_eq, hclosing⟩, ?_, ?_⟩
    · rw [heq]
      exact hsame.2.1
    · rw [heq]
      exact hsame.2.2

theorem idles_aside {e : Engine} {inp : Input} {m : Moment} {world : World} {out : Outcome}
    (hh : o.handler? pid = some h) (haside : Aside h)
    (hout : proceed e inp m h world o = some out) :
    o.Idles (out.session.setTask pid (out.next.left h)) := by
  have hpasses := passes_aside haside hout
  refine ⟨rests_aside hh haside hout, ⟨hpasses.writer_eq, fun w hw => ?_⟩, hpasses.nextSeq_eq,
    hpasses.seqBuf_eq⟩
  unfold Session.isClosing at hw ⊢
  show ((out.session.writers[w]?.map Writer.closing).getD true) = true
  rw [hpasses.writers_eq]
  exact hw

theorem not_aside_of_packet {seq : ℤ} (hrole : h.role = .packetUp seq) : ¬ Aside h := by
  intro haside
  obtain heq | ⟨w, gate, first, heq⟩ := haside <;> (rw [heq] at hrole; cases hrole)

/-- A request that makes a connection has been at it. -/
theorem Session.Rests.opens_of (hr : o.Rests o') {h' : Handler} (hh' : o'.handler? pid = some h')
    (hopens : h'.opens = true) : ∃ h, o.handler? pid = some h ∧ h.opens = true := by
  obtain ⟨⟨seq, hrole'⟩, hphase'⟩ := opens_iff.1 hopens
  have hnot : ¬ Aside h' := not_aside_of_packet hrole'
  obtain ⟨h, hh, hrole, hphase | htorn⟩ | ⟨h, -, -, haside⟩ | ⟨-, hinput | haside⟩ :=
    hr.handler_of pid h' hh'
  · refine ⟨h, hh, opens_iff.2 ⟨⟨seq, hrole ▸ hrole'⟩, ?_⟩⟩
    rw [hphase] at hphase'
    exact hphase'
  · obtain ⟨_, _, heq⟩ | ⟨_, _, heq⟩ := hphase' <;> (rw [heq] at htorn; cases htorn)
  · exact absurd haside hnot
  · obtain ⟨_, _, heq⟩ | ⟨_, _, heq⟩ := hphase' <;> (rw [heq] at hinput; cases hinput)
  · exact absurd haside hnot

/-- What leaves the requests alone keeps the session paced. -/
theorem Session.Paced.idles (ho : o.Paced sent torn) (hi : o.Idles o') : o'.Paced sent torn where
  holds pid h' seq hpid hh' hrole' := by
    have hnot : ¬ Aside h' := not_aside_of_packet hrole'
    have hnil : o'.writers = [] ↔ o.writers = [] := by
      rw [← List.length_eq_zero_iff, hi.toRests.length_eq, List.length_eq_zero_iff]
    obtain ⟨h, hh, hrole, hphase | htorn⟩ | ⟨h, -, -, haside⟩ | ⟨-, hinput | haside⟩ :=
      hi.handler_of pid h' hh'
    · rw [hphase]
      exact (ho.holds pid h seq hpid hh (hrole ▸ hrole')).congr hi.toRests.writer_eq hnil
    · cases hphase : h'.phase with
      | teardown => trivial
      | _ => rw [hphase] at htorn; cases htorn
    · exact absurd haside hnot
    · rw [hinput]
      trivial
    · exact absurd haside hnot
  alone pid pid' h h' hpid hpid' hh hh' hopens hopens' := by
    obtain ⟨h₀, hh₀, hopens₀⟩ := hi.toRests.opens_of hh hopens
    obtain ⟨h₁, hh₁, hopens₁⟩ := hi.toRests.opens_of hh' hopens'
    exact ho.alone pid pid' h₀ h₁ hpid hpid' hh₀ hh₁ hopens₀ hopens₁
  progress := by
    have hwritten : o'.writers.map Writer.written = o.writers.map Writer.written := by
      simpa [Writer.content, Function.comp_def] using congrArg (List.map (·.2.2)) hi.contents_eq
    exact ho.progress.congr hi.toRests.writer_eq hwritten (hi.closing 0) hi.nextSeq_eq hi.seqBuf_eq

theorem Session.Paced.follows (ho : o.Paced sent torn)
    (ht : Relation.ReflTransGen (Session.Tends actor) o o') : o'.Paced sent torn := by
  induction ht with
  | refl => exact ho
  | tail _ htend ih => exact ih.idles (idles_tends htend)

/-- When the task that was left out is in `_teardown`, all is said. -/
theorem Session.Paced.settle (ho : o.Paced sent (some pid))
    (htorn : ∀ h, o.handler? pid = some h → h.phase.outside = false) : o.Paced sent none where
  holds pid' h seq _ hh hrole := by
    by_cases hpid : pid = pid'
    · subst hpid
      have hphase := htorn h hh
      cases heq : h.phase with
      | teardown => trivial
      | _ => rw [heq] at hphase; cases hphase
    · exact ho.holds pid' h seq (by simpa using hpid) hh hrole
  alone pid₁ pid₂ h₁ h₂ _ _ hh₁ hh₂ hopens₁ hopens₂ := by
    have hne : ∀ pid' h, o.handler? pid' = some h → h.opens = true → some pid ≠ some pid' := by
      rintro pid' h hh hopens heq
      cases heq
      have hphase := htorn h hh
      obtain ⟨-, ⟨_, _, heq⟩ | ⟨_, _, heq⟩⟩ := opens_iff.1 hopens <;>
        (rw [heq] at hphase; cases hphase)
    exact ho.alone pid₁ pid₂ h₁ h₂ (hne pid₁ h₁ hh₁ hopens₁) (hne pid₂ h₂ hh₂ hopens₂) hh₁ hh₂
      hopens₁ hopens₂
  progress := ho.progress

end Idles

/-! ### The stretches of a packet -/

/-- The task that the stretch leaves for `_teardown`. -/
def Next.torn (pid : ℕ) : Next → Option ℕ
  | .teardown _ => some pid
  | _ => none

/-- The stretch of the task `pid` leaves the session paced. -/
def Outcome.Paces (sent : ℤ → Bytes → Prop) (pid : ℕ) (h : Handler) (out : Outcome) : Prop :=
  (out.session.setTask pid (out.next.left h)).Paced sent (out.next.torn pid)

/-- No request of the session but `pid` makes a connection. -/
def Session.Leads (o : Session) (pid : ℕ) : Prop :=
  ∀ pid' h', o.handler? pid' = some h' → h'.opens = true → pid' = pid

section Stretches

variable {e : Engine} {m : Moment} {world : World} {sent : ℤ → Bytes → Prop} {o o₁ : Session}
  {pid : ℕ} {h : Handler} {seq : ℤ} {data : Bytes} {inp : Input} {out : Outcome}

/-- A task that runs behind the stretch of `pid`. -/
theorem left_cases {t : Task} {h' : Handler} {pid' : ℕ}
    (htasks : o₁.tasks = o.tasks ∨ ∃ pump, Aside pump ∧ o₁.tasks = o.tasks ++ [.running pump])
    (hh' : (o₁.setTask pid t).handler? pid' = some h') :
    (pid' = pid ∧ t = .running h') ∨ (pid' ≠ pid ∧ o.handler? pid' = some h') ∨ Aside h' := by
  obtain heq | hold | ⟨-, haside⟩ := (moved_setTask pid t htasks).handler_of pid' h' hh'
  · exact .inl heq
  · exact .inr (.inl hold)
  · exact .inr (.inr haside)

/-- A task goes on outside `_teardown` only if its stretch ends in a wait. -/
theorem Next.wait_of_left {next : Next} {h' : Handler} (htorn : next.torn pid ≠ some pid)
    (hleft : next.left h = .running h') : next = .wait h' := by
  cases next with
  | wait h₁ =>
    cases hleft
    rfl
  | ends reply => cases hleft
  | teardown reply => exact absurd rfl htorn

/-- Whoever makes a connection behind a stretch has the lead, or did so before. -/
theorem opens_behind (htasks : out.session.tasks = o.tasks ∨
      ∃ pump, Aside pump ∧ out.session.tasks = o.tasks ++ [.running pump])
    (hwait : ∀ h', out.next = .wait h' → h'.opens = true → o.Leads pid)
    {pid' : ℕ} {h' : Handler} (htorn : out.next.torn pid ≠ some pid')
    (hh' : (out.session.setTask pid (out.next.left h)).handler? pid' = some h')
    (hopens : h'.opens = true) :
    (pid' = pid ∧ o.Leads pid) ∨ (pid' ≠ pid ∧ o.handler? pid' = some h') := by
  obtain ⟨⟨seq', hrole'⟩, -⟩ := opens_iff.1 hopens
  obtain ⟨rfl, hleft⟩ | hold | haside := left_cases htasks hh'
  · exact .inl ⟨rfl, hwait h' (Next.wait_of_left htorn hleft) hopens⟩
  · exact .inr hold
  · exact absurd haside (not_aside_of_packet hrole')

/-- A stretch that leaves the connections alone, or that of the only request which makes one. -/
theorem Session.Paced.stretched (ho : o.Paced sent none)
    (htasks : out.session.tasks = o.tasks ∨
      ∃ pump, Aside pump ∧ out.session.tasks = o.tasks ++ [.running pump])
    (hothers : out.session.writer = o.writer ∧ (out.session.writers = [] ↔ o.writers = []) ∨
      o.Leads pid)
    (hwait : ∀ h', out.next = .wait h' → ∀ seq, h'.role = .packetUp seq →
      out.session.Holds sent seq h'.phase ∧ (h'.opens = true → o.Leads pid))
    (hprogress : out.session.Progress sent) : out.Paces sent pid h where
  holds pid' h' seq htorn hh' hrole' := by
    obtain ⟨rfl, hleft⟩ | ⟨hne, hh⟩ | haside := left_cases htasks hh'
    · exact (hwait h' (Next.wait_of_left htorn hleft) seq hrole').1
    · have hholds := ho.holds pid' h' seq (by simp) hh hrole'
      obtain ⟨hwriter, hnil⟩ | hleads := hothers
      · exact hholds.congr hwriter hnil
      · refine hholds.of_closed hrole' (Bool.eq_false_iff.2 fun hopens => hne ?_)
        exact hleads pid' h' hh hopens
    · exact absurd haside (not_aside_of_packet hrole')
  alone pid₁ pid₂ h₁ h₂ htorn₁ htorn₂ hh₁ hh₂ hopens₁ hopens₂ := by
    have hlead : ∀ h', out.next = .wait h' → h'.opens = true → o.Leads pid := by
      intro h' hnext hopens
      obtain ⟨⟨seq', hrole'⟩, -⟩ := opens_iff.1 hopens
      exact (hwait h' hnext seq' hrole').2 hopens
    obtain ⟨rfl, hleads⟩ | ⟨hne₁, hold₁⟩ := opens_behind htasks hlead htorn₁ hh₁ hopens₁
    · obtain ⟨rfl, -⟩ | ⟨hne₂, hold₂⟩ := opens_behind htasks hlead htorn₂ hh₂ hopens₂
      · rfl
      · exact absurd (hleads pid₂ h₂ hold₂ hopens₂) hne₂
    · obtain ⟨rfl, hleads⟩ | ⟨hne₂, hold₂⟩ := opens_behind htasks hlead htorn₂ hh₂ hopens₂
      · exact absurd (hleads pid₁ h₁ hold₁ hopens₁) hne₁
      · exact ho.alone pid₁ pid₂ h₁ h₂ (by simp) (by simp) hold₁ hold₂ hopens₁ hopens₂
  progress := hprogress.congr rfl rfl id rfl rfl

/-- A packet that fails goes to `_teardown`. -/
theorem fail_packet (hrole : h.role = .packetUp seq) :
    fail m h world o = ⟨world, o, .teardown (.error 502 "write failed"), []⟩ := by
  unfold fail abandon
  rw [hrole]

theorem Session.Paced.fails (ho : o.Paced sent none) (hrole : h.role = .packetUp seq) :
    (fail m h world o).Paces sent pid h := by
  rw [fail_packet hrole]
  exact ho.stretched (.inl rfl) (.inl ⟨rfl, Iff.rfl⟩) (fun h' heq => by cases heq) ho.progress

/-- The end of a packet, with what it did to the session. -/
theorem Session.Paced.finishes (ho : o.Paced sent none) {events : List Event}
    (htasks : o₁.tasks = o.tasks) (hwriter : o₁.writer = o.writer)
    (hnil : o₁.writers = [] ↔ o.writers = []) (hprogress : o₁.Progress sent) :
    (finishPacket m h world o₁ events).Paces sent pid h := by
  unfold finishPacket
  split
  · refine ho.stretched (.inl htasks) (.inl ⟨hwriter, hnil⟩) (fun h' heq seq hrole => ?_) hprogress
    cases heq
    refine ⟨trivial, fun hopens => ?_⟩
    obtain ⟨-, ⟨_, _, hphase⟩ | ⟨_, _, hphase⟩⟩ := opens_iff.1 hopens <;> cases hphase
  · exact ho.stretched (.inl htasks) (.inl ⟨hwriter, hnil⟩) (fun h' heq => by cases heq) hprogress

theorem written_write (o : Session) (data : Bytes) {out : Bytes}
    (hwriters : o.writers.map Writer.written = [out]) :
    (o.write 0 data).writers.map Writer.written = [out ++ data] := by
  obtain ⟨c, hc, rfl⟩ := List.map_eq_singleton_iff.1 hwriters
  unfold Session.write
  rw [hc]
  rfl

/-- A packet behind the connect. -/
theorem Session.Paced.writesPacket (ho : o.Paced sent none) (hrole : h.role = .packetUp seq) {w : ℕ}
    (hw : o.writer = some w) (hsent : sent seq data) (htime : o.nextSeq ≤ seq) :
    (writePacket m h world o w seq data).Paces sent pid h := by
  unfold writePacket
  split_ifs with hseq hclosing
  · exact ho.fails hrole
  · -- its turn has come
    cases ho.progress with
    | waiting hwriter => rw [hw] at hwriter; cases hwriter
    | broken hwriter _ _ _ hc =>
      rw [hw] at hwriter
      cases hwriter
      exact absurd hc hclosing
    | flowing hwriter hwriters hpos hbuf =>
      rename_i out
      rw [hw] at hwriter
      cases hwriter
      subst hseq
      have hdeliver := hbuf.deliver (piece_of_body hsent hpos.ne')
      rw [List.append_assoc] at hdeliver
      have hle := Reorder.le_drain (o.nextSeq + 1) o.seqBuf
      have hwrite := written_write o (data ++ (Reorder.drain (o.nextSeq + 1) o.seqBuf).2.2) hwriters
      refine ho.finishes rfl rfl ?_ (.flowing hw hwrite ?_ hdeliver)
      · refine iff_of_false (fun hnil => ?_) (fun hnil => ?_)
        · rw [show (o.write 0 _).writers = [] from hnil] at hwrite
          cases hwrite
        · rw [hnil] at hwriters
          cases hwriters
      · show 0 < (Reorder.drain (o.nextSeq + 1) o.seqBuf).1
        omega
  · -- it is early
    have hlt : o.nextSeq < seq := lt_of_le_of_ne htime (Ne.symm hseq)
    refine ho.finishes rfl rfl Iff.rfl ?_
    cases ho.progress with
    | waiting hwriter => rw [hw] at hwriter; cases hwriter
    | flowing hwriter hwriters hpos hbuf =>
      have hpiece := piece_of_body hsent (hpos.trans hlt).ne'
      exact .flowing hwriter hwriters hpos (hbuf.hold hlt hpiece)
    | broken hwriter hpay hwriters hnext hclosing hearly =>
      refine .broken hwriter hpay hwriters hnext hclosing fun k v hget => ?_
      rw [Dict.get?_set] at hget
      split_ifs at hget with hk
      · rw [← hk, ← hnext]
        exact hlt
      · exact hearly k v hget

/-- The first packet goes on to connect. -/
theorem Session.Paced.opens (ho : o.Paced sent none) (hrole : h.role = .packetUp 0)
    (hw : o.writer = none) (hsent : sent 0 data) (hun : o.Unopened) :
    (openTcp e m h world o data).Paces sent pid h := by
  unfold openTcp
  split
  · exact ho.fails hrole
  · rename_i header isTrojan world' hread
    have hin : HeaderIn data header := headerIn_of_readHeader (congrArg Prod.fst hread)
    refine ho.stretched (.inl rfl) (.inl ⟨rfl, Iff.rfl⟩) (fun h' heq seq hrole' => ?_) ho.progress
    cases heq
    have hseq : seq = 0 := by simpa [hrole] using hrole'.symm
    refine ⟨⟨hseq, piece_of_header hsent hin, hw, hun.1⟩, fun _ pid' h' hh' hopens => ?_⟩
    have hmem := List.mem_of_getElem? (Session.handler?_eq_some.1 hh')
    rw [hun.2 _ hmem h' rfl] at hopens
    cases hopens

theorem Session.Paced.putsPacket (ho : o.Paced sent none) (hrole : h.role = .packetUp seq)
    (hsent : sent seq data) (htime : o.InTime seq) :
    (putPacket e m h world o seq data).Paces sent pid h := by
  unfold putPacket
  split
  · rename_i hw
    obtain ⟨hnonneg, hfirst⟩ := htime.1 hw
    split_ifs with hseq
    · subst hseq
      exact ho.opens hrole hw hsent (hfirst rfl)
    · -- it waits for the connection
      have hpos : 0 < seq := lt_of_le_of_ne hnonneg (Ne.symm hseq)
      refine ho.stretched (.inl rfl) (.inl ⟨rfl, Iff.rfl⟩) (fun h' heq => by cases heq) ?_
      cases ho.progress with
      | waiting hwriter hwriters hnext hbuf =>
        exact .waiting hwriter hwriters hnext (hbuf.hold hpos (piece_of_body hsent hseq))
      | flowing hwriter | broken hwriter => rw [hw] at hwriter; cases hwriter
  · rename_i w hw
    exact ho.writesPacket hrole hw hsent (htime.2 (by rw [hw]; simp))

/-- Fields that the description does not speak of. -/
theorem Session.Paced.of_same {torn : Option ℕ} (ho : o.Paced sent torn)
    (htasks : o₁.tasks = o.tasks) (hwriter : o₁.writer = o.writer)
    (hwriters : o₁.writers = o.writers) (hnext : o₁.nextSeq = o.nextSeq)
    (hbuf : o₁.seqBuf = o.seqBuf) : o₁.Paced sent torn := by
  have hhandler : ∀ pid, o₁.handler? pid = o.handler? pid := fun pid => by
    unfold Session.handler?
    rw [htasks]
  refine ⟨fun pid h seq hpid hh hrole => ?_, fun pid pid' h h' hpid hpid' hh hh' => ?_, ?_⟩
  · exact (ho.holds pid h seq hpid (hhandler pid ▸ hh) hrole).congr hwriter (by rw [hwriters])
  · exact ho.alone pid pid' h h' hpid hpid' (hhandler pid ▸ hh) (hhandler pid' ▸ hh')
  · refine ho.progress.congr hwriter (by rw [hwriters]) (fun hc => ?_) hnext hbuf
    unfold Session.isClosing at hc ⊢
    rwa [hwriters]

theorem Session.Paced.meters (ho : o.Paced sent none) (hrole : h.role = .packetUp seq)
    (hsent : sent seq data) (htime : o.LetsPass e m h world data → o.InTime seq) :
    (meterUpload e m h world o data).Paces sent pid h := by
  have hsame : ∀ gate connBytes, ({ o with gate, connBytes } : Session).Paced sent none :=
    fun _ _ => ho.of_same rfl rfl rfl rfl rfl
  unfold meterUpload
  dsimp only
  split_ifs with hok
  · unfold upload
    rw [hrole]
    dsimp only
    split
    · exact ho.stretched (.inl rfl) (.inl ⟨rfl, Iff.rfl⟩) (fun h' heq => by cases heq)
        (hsame _ o.connBytes).progress
    · rename_i bytes hconn
      have htime' : o.InTime seq := htime ⟨hok, by rw [hconn]; simp⟩
      exact (hsame _ _).putsPacket hrole hsent htime'
  · unfold abandon
    rw [hrole]
    exact ho.stretched (.inl rfl) (.inl ⟨rfl, Iff.rfl⟩) (fun h' heq => by cases heq)
      (hsame _ _).progress

/-- The connection is entered, and what was waiting for it goes out behind the payload. -/
theorem Session.Paced.enters (ho : o.Paced sent none) (hrole : h.role = .packetUp seq)
    (hleads : o.Leads pid) {payload : Bytes} (hpay : Piece sent 0 payload)
    (hbuf : Gathered (Piece sent) 0 o.seqBuf []) (hnext : o.nextSeq = 0)
    (htasks : o₁.tasks = o.tasks) (hwriters : o₁.writers.map Writer.written = [payload])
    (hnext₁ : o₁.nextSeq = o.nextSeq) (hbuf₁ : o₁.seqBuf = o.seqBuf) (isTrojan : Bool) :
    (finishOpen e m h world o₁ 0 isTrojan).Paces sent pid h := by
  have hpump : ∃ pump, Aside pump ∧
      (enterTcp e m h o₁ 0 isTrojan).tasks = o.tasks ++ [.running pump] :=
    ⟨newPump e m h 0 isTrojan, .inr ⟨_, _, _, rfl⟩, by rw [← htasks]; rfl⟩
  unfold finishOpen afterOpen
  simp only [hrole]
  cases hdrain : drainSeqBuf (enterTcp e m h o₁ 0 isTrojan) 0 1 with
  | error seqBuf =>
    dsimp only
    rw [fail_packet hrole]
    refine ho.stretched (.inr hpump) (.inr hleads) (fun h' heq => by cases heq) ?_
    unfold drainSeqBuf at hdrain
    split_ifs at hdrain with hclosing
    cases hdrain
    simp only [Bool.and_eq_true] at hclosing
    refine .broken rfl hpay hwriters (hnext₁.trans hnext) hclosing.1 fun k v hget => ?_
    have hget' : (o₁.seqBuf.erase 1).get? k = some v := hget
    rw [Dict.get?_erase, hbuf₁] at hget'
    split_ifs at hget' with hk
    exact (hbuf.early hget').1
  | ok res =>
    obtain ⟨nxt, seqBuf, data⟩ := res
    have hdrained : Reorder.drain (0 + 1) o.seqBuf = (nxt, seqBuf, data) := by
      rw [← hbuf₁]
      exact Upload.drainSeqBuf_eq hdrain
    have hdeliver := hbuf.deliver hpay
    have hle := Reorder.le_drain (0 + 1) o.seqBuf
    rw [hdrained] at hdeliver hle
    dsimp only at hle
    have hwrite := written_write (enterTcp e m h o₁ 0 isTrojan) data hwriters
    refine ho.stretched (.inr hpump) (.inr hleads) (fun h' heq => by cases heq) ?_
    exact .flowing rfl hwrite (show 0 < nxt by omega) hdeliver

/-- The target is connected. -/
theorem Session.Paced.connects (ho : o.Paced sent none) (hh : o.handler? pid = some h)
    (hrole : h.role = .packetUp seq) {header : Parsed} {isTrojan : Bool}
    (hphase : h.phase = .connect header isTrojan) :
    (connected e m h world o header isTrojan).Paces sent pid h := by
  have hopens : h.opens = true := opens_iff.2 ⟨⟨seq, hrole⟩, .inl ⟨header, isTrojan, hphase⟩⟩
  have hholds := ho.holds pid h seq (by simp) hh hrole
  rw [hphase] at hholds
  obtain ⟨rfl, hpay, hw, hnil⟩ := hholds
  have hleads : o.Leads pid := fun pid' h' hh' hopens' =>
    ho.alone pid' pid h' h (by simp) (by simp) hh' hh hopens' hopens
  have hzero : o.writers.length = 0 := by rw [hnil]; rfl
  have hwriters : (o.writers ++ [⟨header.address, header.port, header.payload, false⟩] :
      List Writer).map Writer.written = [header.payload] := by
    rw [hnil]
    rfl
  cases ho.progress with
  | flowing hwriter | broken hwriter => rw [hw] at hwriter; cases hwriter
  | waiting hwriter _ hnext hbuf =>
    unfold connected
    dsimp only
    rw [hzero]
    split_ifs
    · refine ho.enters hrole hleads hpay hbuf hnext ?_ hwriters ?_ ?_ isTrojan <;> rfl
    · refine ho.stretched (.inl rfl) (.inr hleads) (fun h' heq seq hrole' => ?_)
        (.waiting hw (.inr ⟨_, hpay, hwriters⟩) hnext hbuf)
      cases heq
      have hseq : seq = 0 := by simpa [hrole] using hrole'.symm
      refine ⟨⟨hseq, rfl, hw, fun heq => ?_⟩, fun _ => hleads⟩
      rw [show o.writers ++ _ = [] from heq] at hwriters
      cases hwriters

/-- The payload of the header is through. -/
theorem Session.Paced.pays (ho : o.Paced sent none) (hh : o.handler? pid = some h)
    (hrole : h.role = .packetUp seq) {w : ℕ} {isTrojan : Bool}
    (hphase : h.phase = .payload w isTrojan) :
    (finishOpen e m h world o w isTrojan).Paces sent pid h := by
  have hopens : h.opens = true := opens_iff.2 ⟨⟨seq, hrole⟩, .inr ⟨w, isTrojan, hphase⟩⟩
  have hholds := ho.holds pid h seq (by simp) hh hrole
  rw [hphase] at hholds
  obtain ⟨rfl, rfl, hw, hsome⟩ := hholds
  have hleads : o.Leads pid := fun pid' h' hh' hopens' =>
    ho.alone pid' pid h' h (by simp) (by simp) hh' hh hopens' hopens
  cases ho.progress with
  | flowing hwriter | broken hwriter => rw [hw] at hwriter; cases hwriter
  | waiting hwriter hwriters hnext hbuf =>
    obtain hnil | ⟨payload, hpay, hwriters⟩ := hwriters
    · exact absurd hnil hsome
    · exact ho.enters hrole hleads hpay hbuf hnext rfl hwriters rfl rfl isTrojan

theorem Session.Paced.quits (ho : o.Paced sent none) (reply : Reply) :
    Outcome.Paces sent pid h ⟨world, o, .ends reply, []⟩ :=
  ho.stretched (.inl rfl) (.inl ⟨rfl, Iff.rfl⟩) (fun h' heq => by cases heq) ho.progress

/-- The stretches behind a body. -/
theorem Session.Paced.uploads (ho : o.Paced sent none) (hh : o.handler? pid = some h)
    (hrole : h.role = .packetUp seq) (htimely : h.Timely e inp m world o)
    (hout : proceedUpload e inp m h world o = some out) : out.Paces sent pid h := by
  unfold proceedUpload at hout
  split at hout
  · rename_i data hphase
    cases hout
    have hholds := ho.holds pid h seq (by simp) hh hrole
    rw [hphase] at hholds
    refine ho.meters hrole hholds (htimely (seq, data) ?_)
    unfold Handler.puts?
    rw [hrole, hphase]
    rfl
  · rename_i header isTrojan hphase
    cases hout
    exact ho.connects hh hrole hphase
  · rename_i w isTrojan hphase
    cases hout
    exact ho.pays hh hrole hphase
  · cases hout
    exact ho.fails hrole
  · cases hout
    exact ho.fails hrole
  · cases hout
    exact ho.fails hrole
  · rw [hrole] at hout
    cases hout
    exact ho.quits .ok
  · cases hout

/-- **A stretch of a packet keeps the session paced**, if the packet is in time. -/
theorem Session.Paced.stretch (ho : o.Paced sent none) (hh : o.handler? pid = some h)
    (hrole : h.role = .packetUp seq) (hread : ∀ p, h.body? inp = some p → sent p.1 p.2)
    (htimely : h.Timely e inp m world o) (hout : proceed e inp m h world o = some out) :
    out.Paces sent pid h := by
  unfold proceed at hout
  rw [hrole] at hout
  dsimp only at hout
  unfold proceedPacketUp at hout
  split at hout
  · rename_i data hphase
    split_ifs at hout with hempty
    · cases hout
      exact ho.quits .ok
    · cases hout
      have hbody : h.body? (.data data) = some (seq, data) := by
        unfold Handler.body?
        rw [hrole, hphase]
        exact if_neg hempty
      have hsame : ∀ gate, ({ o with gate } : Session).Paced sent none :=
        fun _ => ho.of_same rfl rfl rfl rfl rfl
      refine ho.stretched (.inl rfl) (.inl ⟨rfl, Iff.rfl⟩) (fun h' heq seq' hrole' => ?_)
        (hsame _).progress
      cases heq
      have hseq : seq = seq' := by simpa [hrole] using hrole'
      refine ⟨hseq ▸ hread _ hbody, fun hopens => ?_⟩
      obtain ⟨-, ⟨_, _, hp⟩ | ⟨_, _, hp⟩⟩ := opens_iff.1 hopens <;> cases hp
  · cases hout
    exact ho.quits .aborted
  · exact ho.uploads hh hrole htimely hout

end Stretches

/-! ### Runs -/

section Runs

variable {e : Engine} {s s' : Packets} {l : Label} {k : ℕ}

/-- The session, if there is one, is paced. -/
def Packets.Paced (k : ℕ) (s : Packets) : Prop :=
  ∀ o, s.engine.objects[k]? = some o → o.Paced (s.Sent k) none

/-- A step of the engine, and what it adds to the record. -/
theorem packet_step (hstep : (packetMachine e).step s l = some s') :
    (machine e).step s.engine l = some s'.engine ∧
      s'.bodies = s.bodies ++ (bodyRead s.engine l).toList := by
  obtain ⟨engine, hengine, rfl⟩ := Option.map_eq_some_iff.1 hstep
  exact ⟨hengine, rfl⟩

theorem sent_step (hstep : (packetMachine e).step s l = some s') {seq : ℤ} {body : Bytes}
    (hsent : s.Sent k seq body) : s'.Sent k seq body := by
  unfold Packets.Sent at hsent ⊢
  rw [(packet_step hstep).2]
  exact List.mem_append_left _ hsent

/-- What a request reads goes on record. -/
theorem sent_resume {pid : ℕ} {inp : Input} {m : Moment} {o : Session} {h : Handler} {p : ℤ × Bytes}
    (hstep : (packetMachine e).step s (.resume k pid inp m) = some s')
    (ho : s.engine.objects[k]? = some o) (hh : o.handler? pid = some h)
    (hread : h.body? inp = some p) : s'.Sent k p.1 p.2 := by
  have hbody : bodyRead s.engine (.resume k pid inp m) = some (k, p) := by
    unfold bodyRead
    dsimp only
    rw [ho, Option.bind_some, hh, Option.bind_some, hread]
    rfl
  unfold Packets.Sent
  rw [(packet_step hstep).2, hbody]
  simp

theorem paced_init (uuid mode : String) (now : ℚ) (sent : ℤ → Bytes → Prop) :
    (Session.init uuid mode now).Paced sent none where
  holds pid h seq _ hh := by cases hh
  alone pid pid' h h' _ _ hh := by cases hh
  progress := .waiting rfl (.inl rfl) rfl (.init _)

/-- **A step whose packet is in time keeps a session paced.** -/
theorem paced_step (hs : s.Paced k) (honly : PacketsOnly k s l) (htimely : Timely e k s l)
    (hstep : (packetMachine e).step s l = some s') : s'.Paced k := by
  have hengine := (packet_step hstep).1
  intro o' ho'
  cases ho : s.engine.objects[k]? with
  | none =>
    obtain ⟨r, hr, -, -, -, rfl⟩ := object_born hengine ho ho'
    exact (paced_init r.uuid r.mode r.now _).idles (idles_serve hr (.init r.uuid r.mode r.now))
  | some o =>
    have hpaced : o.Paced (s'.Sent k) none := (hs o ho).mono fun _ _ hsent => sent_step hstep hsent
    obtain ⟨o₁, o₂, hstarts, htends, ho₂⟩ := object_step hengine ho
    rw [ho'] at ho₂
    cases ho₂
    cases hstarts with
    | still => exact hpaced.follows htends
    | serve hr hin hget => exact (hpaced.idles (idles_serve hr o)).follows htends
    | lose w => exact (hpaced.idles (idles_close o w)).follows htends
    | stretch pid inp m hh hphase hout =>
      rename_i h out
      cases hrole : h.role with
      | packetUp seq =>
        have hstretch := hpaced.stretch hh hrole (fun p hread => sent_resume hstep ho hh hread)
          (htimely rfl o ho h hh) hout
        have hfollows := Session.Paced.follows hstretch htends
        cases hnext : out.next with
        | wait | ends =>
          rw [hnext] at hfollows
          exact hfollows
        | teardown reply =>
          rw [hnext] at hfollows
          exact hfollows.settle fun h' hh' =>
            object_torn hengine ho hh hphase hout hnext ho' hh'
      | streamUp writer =>
        have hstream := honly rfl o ho h hh
        unfold Handler.isStreamUp at hstream
        rw [hrole] at hstream
        cases hstream
      | downlink | pump =>
        have haside : Aside h := by simp [Aside, hrole]
        exact (hpaced.idles (idles_aside hh haside hout)).follows htends

/-- **A session all of whose packets come in time is single in every state of a run.** -/
theorem single_of_timely {world : World} {ls : List Label}
    (hrun : (packetMachine e).run (.init world) ls = some s)
    (honly : (packetMachine e).Along (PacketsOnly k) (.init world) ls)
    (htimely : (packetMachine e).Along (Timely e k) (.init world) ls) {o : Session}
    (ho : s.engine.objects[k]? = some o) : o.Single (s.Sent k) := by
  have hinit : (Packets.init world).Paced k := fun o ho => by cases ho
  have hs : s.Paced k := Machine.run_invariant_along (I := fun s => s.Paced k)
    (fun _ _ _ hs hP hstep => paced_step hs hP.1 hP.2 hstep) hrun (honly.and htimely) hinit
  exact (hs o ho).single

end Runs

/-! ### Packets that are sent again -/

/-- A first packet that sends the header for 127.0.0.1 and one byte. -/
def firstBody : Bytes := Relay.VlessHeader.localhost.encode ++ [1]

/-- The second packet comes twice before the first one. -/
def retriedEarly : List Label :=
  [.packetUp "alice" "s" 1 0, .packetUp "alice" "s" 1 0, .packetUp "alice" "s" 0 0,
    .resume 0 0 (.data [2]) (momentAt 0), .resume 0 0 .go (momentAt 0),
    .resume 0 1 (.data [2]) (momentAt 0), .resume 0 1 .go (momentAt 0),
    .resume 0 2 (.data firstBody) (momentAt 0), .resume 0 2 .go (momentAt 0),
    .resume 0 2 .go (momentAt 0), .resume 0 2 .go (momentAt 0)]

theorem single_of_timely_early : ∃ s o,
    (packetMachine ⟨.vless, id⟩).run (.init emptyWorld) retriedEarly = some s ∧
      s.engine.objects[0]? = some o ∧ o.written = [1, 2] ∧ o.Single (s.Sent 0) := by
  have hview : ((packetMachine ⟨.vless, id⟩).run (.init emptyWorld) retriedEarly).map (fun s =>
      (s.engine.objects[0]?).map fun o => o.written) = some (some [1, 2]) := by decide +kernel
  obtain ⟨s, hs, hobject⟩ := Option.map_eq_some_iff.1 hview
  obtain ⟨o, ho, hwritten⟩ := Option.map_eq_some_iff.1 hobject
  exact ⟨s, o, hs, ho, hwritten, single_of_timely hs (by decide +kernel) (by decide +kernel) ho⟩

/-- The first packet comes twice before the connect is through. -/
def retriedFirst : List Label :=
  [.packetUp "alice" "s" 0 0, .packetUp "alice" "s" 0 0,
    .resume 0 0 (.data firstBody) (momentAt 0), .resume 0 0 .go (momentAt 0),
    .resume 0 1 (.data firstBody) (momentAt 0), .resume 0 1 .go (momentAt 0),
    .resume 0 0 .go (momentAt 0), .resume 0 1 .go (momentAt 0)]

/-- The first packet comes again when it was written. -/
def retriedLate : List Label :=
  [.packetUp "alice" "s" 0 0, .resume 0 0 (.data firstBody) (momentAt 0),
    .resume 0 0 .go (momentAt 0), .resume 0 0 .go (momentAt 0), .resume 0 0 .go (momentAt 0),
    .packetUp "alice" "s" 0 0, .resume 0 2 (.data firstBody) (momentAt 0),
    .resume 0 2 .go (momentAt 0)]

/-- In the one case two connections get the first packet, in the other it stays buffered. -/
theorem retried_packets : (∃ s o,
    (packetMachine ⟨.vless, id⟩).run (.init emptyWorld) retriedFirst = some s ∧
      (packetMachine ⟨.vless, id⟩).Along (PacketsOnly 0) (.init emptyWorld) retriedFirst ∧
      s.engine.objects[0]? = some o ∧ o.writers.map Writer.written = [[1], [1]] ∧
      ¬ o.Single (s.Sent 0)) ∧
    ∃ s o, (packetMachine ⟨.vless, id⟩).run (.init emptyWorld) retriedLate = some s ∧
      (packetMachine ⟨.vless, id⟩).Along (PacketsOnly 0) (.init emptyWorld) retriedLate ∧
      s.engine.objects[0]? = some o ∧ o.writer ≠ none ∧ o.nextSeq = 1 ∧
      o.seqBuf.get? 0 = some firstBody ∧ ¬ o.Single (s.Sent 0) := by
  have htwice : ((packetMachine ⟨.vless, id⟩).run (.init emptyWorld) retriedFirst).map (fun s =>
      (s.engine.objects[0]?).map fun o => o.writers.map Writer.written) =
        some (some [[1], [1]]) := by decide +kernel
  have hlate : ((packetMachine ⟨.vless, id⟩).run (.init emptyWorld) retriedLate).map (fun s =>
      (s.engine.objects[0]?).map fun o => (o.writer, o.nextSeq, o.seqBuf.get? 0)) =
        some (some (some 0, 1, some firstBody)) := by decide +kernel
  refine ⟨?_, ?_⟩
  · obtain ⟨s, hs, hobject⟩ := Option.map_eq_some_iff.1 htwice
    obtain ⟨o, ho, hwritten⟩ := Option.map_eq_some_iff.1 hobject
    refine ⟨s, o, hs, by decide +kernel, ho, hwritten, fun hsingle => ?_⟩
    have htwo : o.writers.length = 2 := by simpa using congrArg List.length hwritten
    have hone := hsingle.one
    omega
  · obtain ⟨s, hs, hobject⟩ := Option.map_eq_some_iff.1 hlate
    obtain ⟨o, ho, hfields⟩ := Option.map_eq_some_iff.1 hobject
    obtain ⟨hwriter, hnext, hbuf⟩ : o.writer = some 0 ∧ o.nextSeq = 1 ∧
        o.seqBuf.get? 0 = some firstBody := by simpa using hfields
    have hsome : o.writer ≠ none := by rw [hwriter]; simp
    refine ⟨s, o, hs, by decide +kernel, ho, hsome, hnext, hbuf, fun hsingle => ?_⟩
    have hlt := hsingle.early hsome 0 _ hbuf
    omega

end Xhttp

end RvgGateway
