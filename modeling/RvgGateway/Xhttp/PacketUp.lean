import RvgGateway.Xhttp.SessionStep
import RvgGateway.Xhttp.UploadStretch

/-!
# Reassembly of packet-up uploads

The packets of an upload are sent once each and arrive in any order; their handlers, and everything
else in the engine, interleave freely.

* `Upload.SentOnce`, `Upload.Undisturbed` : the runs that the result is about.
* `Upload.uploading_acts` : one step keeps the description of the session.
* `Upload.packetUp_reassembles` : **what reaches the target is a prefix of the stream at any time,
  and the stream itself when all handlers returned.**
-/

namespace RvgGateway

namespace Xhttp

open Relay (VlessHeader)
open Reorder (accepted halfway Once)

namespace Upload

variable {u : Upload} {seqs : List ℤ} {o o' : Session} {pid : ℕ} {h : Handler} {t : Task}

/-! ### Steps -/

/-- The packet that arrives. -/
def arrival? (u : Upload) : Label → Option ℤ
  | .packetUp _ sid seq _ => if sid = u.sid then some seq else none
  | _ => none

/-- The packets that arrive in a run. -/
def arrivals (u : Upload) (ls : List Label) : List ℤ := ls.filterMap u.arrival?

variable {e : Engine} {world : World} {l : Label} {k : ℕ}

theorem arrival?_of_not_uploads (hl : ¬ l.uploads u.sid) : u.arrival? l = none := by
  unfold arrival?
  split
  · exact if_neg hl
  · rfl

/-- A new session. -/
theorem uploading_init (uuid mode : String) (now : ℚ) :
    u.Uploading [] (Session.init uuid mode now) where
  conn := by simp [Session.init]
  handlers _ _ hh := by cases Session.handler?_eq_some.1 hh
  range _ hmem := by cases hmem
  once := ⟨fun _ _ _ hp => (by cases hp), fun _ _ _ _ _ hp => (by cases hp)⟩
  stage := by
    have hnone : accepted [] (pendingAt (Session.init uuid mode now).tasks) = fun _ => False := by
      funext seq
      exact propext ⟨fun hacc => (by cases hacc.1), False.elim⟩
    rw [hnone]
    exact .waiting rfl rfl (fun ⟨_, _, hp⟩ => (by cases hp)) (.init u.piece)

/-- The target goes away. -/
theorem Stage.lose {A : ℤ → Prop} {paying : Prop} {writer : Option ℕ} {writers : List Writer}
    {nextSeq : ℤ} {seqBuf : Dict ℤ Bytes}
    (hst : u.Stage A paying writer writers nextSeq seqBuf) (w : ℕ) :
    u.Stage A paying writer (writers.modify w fun c => { c with closing := true }) nextSeq
      seqBuf := by
  have hone : ∀ out closing, ∃ closing',
      [u.target out closing].modify w (fun c => { c with closing := true }) =
        [u.target out closing'] := by
    intro out closing
    cases w with
    | zero => exact ⟨true, rfl⟩
    | succ w => exact ⟨closing, by cases w <;> rfl⟩
  cases hst with
  | waiting hwriter hwriters hpaying hbuf =>
    exact .waiting hwriter (by rw [hwriters]; cases w <;> rfl) hpaying hbuf
  | connecting closing hwriter hwriters hpaying hbuf =>
    obtain ⟨closing', hafter⟩ := hone u.payload closing
    exact .connecting closing' hwriter (by rw [hwriters, hafter]) hpaying hbuf
  | flowing out closing hwriter hwriters hpos hbuf =>
    obtain ⟨closing', hafter⟩ := hone out closing
    exact .flowing out closing' hwriter (by rw [hwriters, hafter]) hpos hbuf

/-- A request that is no packet is served on the session. -/
theorem Uploading.append (hup : u.Uploading seqs o) (hpend : t.pending = none)
    (hok : ∀ h, t = .running h → u.HandlerOk h) (htasks : o'.tasks = o.tasks ++ [t])
    (hconn : o'.connBytes = o.connBytes) (hwriter : o'.writer = o.writer)
    (hwriters : o'.writers = o.writers) (hnext : o'.nextSeq = o.nextSeq)
    (hbuf : o'.seqBuf = o.seqBuf) : u.Uploading seqs o' := by
  have hsame : pendingAt o'.tasks = pendingAt o.tasks := by
    rw [htasks, pendingAt_append, hpend, ← pendingAt_length o.tasks, Function.update_eq_self]
  refine ⟨hconn ▸ hup.conn, fun pid h hh => ?_, hup.range, hsame ▸ hup.once, ?_⟩
  · rcases Session.handler?_of_append htasks (Session.handler?_eq_some.1 hh) with heq | hold
    · exact hok h heq
    · exact hup.handlers pid h hold
  · rw [hsame, hwriter, hwriters, hnext, hbuf]
    exact hup.stage

/-- A packet arrives. -/
theorem Uploading.arrive (hup : u.Uploading seqs o) {uuid : String} {seq : ℤ} (hnew : seq ∉ seqs)
    (hrange : 0 ≤ seq ∧ seq < u.count)
    (htasks : o'.tasks = o.tasks ++ [newTask uuid u.sid (.packetUp seq)])
    (hconn : o'.connBytes = o.connBytes) (hwriter : o'.writer = o.writer)
    (hwriters : o'.writers = o.writers) (hnext : o'.nextSeq = o.nextSeq)
    (hbuf : o'.seqBuf = o.seqBuf) : u.Uploading (seqs ++ [seq]) o' := by
  have hafter : pendingAt o'.tasks =
      Function.update (pendingAt o.tasks) o.tasks.length (some (seq, false)) := by
    rw [htasks, pendingAt_append]
    rfl
  have hfree := pendingAt_length o.tasks
  refine ⟨hconn ▸ hup.conn, fun pid h hh => ?_, fun seq' hmem => ?_, ?_, ?_⟩
  · rcases Session.handler?_of_append htasks (Session.handler?_eq_some.1 hh) with heq | hold
    · cases heq
      trivial
    · exact hup.handlers pid h hold
  · rcases List.mem_append.1 hmem with hmem | hmem
    · exact hup.range seq' hmem
    · cases List.mem_singleton.1 hmem
      exact hrange
  · rw [hafter]
    exact hup.once.arrive hnew
  · rw [hafter, Once.accepted_arrive hfree hnew,
      Once.halfway_update (by rw [hfree]; simp) (by simp), hwriter, hwriters, hnext, hbuf]
    exact hup.stage

/-- **What a step can do to the session keeps the description of the upload.** -/
theorem uploading_acts (hup : u.Uploading seqs o) (hopen : o.closed = false)
    (hacts : o.Acts e world u.sid k l o')
    (honly : ∀ uuid now monotonic, l ≠ .streamUp uuid u.sid now monotonic)
    (hdel : ∀ pid inp m h seq, l = .resume k pid inp m → o.handler? pid = some h →
      h.role = .packetUp seq → u.Delivers e world h seq inp)
    (hnew : ∀ seq, u.arrival? l = some seq → seq ∉ seqs ∧ 0 ≤ seq ∧ seq < u.count) :
    u.Uploading (seqs ++ (u.arrival? l).toList) o' := by
  have hserve : ∀ (now : ℚ) (serve : Session → Session × Task),
      ({ o with lastSeen := now } : Session).serve serve =
        { (serve { o with lastSeen := now }).1 with
          tasks := (serve { o with lastSeen := now }).1.tasks ++
            [(serve { o with lastSeen := now }).2] } := by
    intro now serve
    unfold Session.serve
    rw [if_neg (by rw [hopen]; simp)]
  -- without an arrival the packets are the same
  have hquiet : u.arrival? l = none → u.Uploading seqs o' →
      u.Uploading (seqs ++ (u.arrival? l).toList) o' := by
    intro hnone hup'
    rw [hnone]
    simpa using hup'
  cases hacts with
  | idle hl => exact hquiet (arrival?_of_not_uploads hl) hup
  | packetUp uuid seq now =>
    have harrival : u.arrival? (.packetUp uuid u.sid seq now) = some seq := if_pos rfl
    obtain ⟨hfresh, hrange⟩ := hnew seq harrival
    rw [harrival, hserve]
    exact hup.arrive hfresh hrange rfl rfl rfl rfl rfl rfl
  | streamUp uuid now monotonic => exact absurd rfl (honly uuid now monotonic)
  | downlink mode uuid now clock =>
    refine hquiet rfl ?_
    rw [hserve]
    refine hup.append (t := newTask uuid u.sid .downlink) rfl (fun h heq => ?_) rfl rfl rfl rfl rfl rfl
    cases heq
    trivial
  | stretch pid inp m hh hout hnext =>
    refine hquiet rfl ?_
    exact uploading_stretch hup hh (fun seq hrole => hdel pid inp m _ seq rfl hh hrole) hout hnext
  | lose w => exact hquiet rfl ⟨hup.conn, hup.handlers, hup.range, hup.once, hup.stage.lose w⟩

/-! ### Runs -/

/-- Every packet arrives once at most. -/
def SentOnce (u : Upload) (ls : List Label) : Prop :=
  (u.arrivals ls).Nodup ∧ ∀ seq ∈ u.arrivals ls, 0 ≤ seq ∧ seq < u.count

instance (u : Upload) (ls : List Label) : Decidable (u.SentOnce ls) :=
  inferInstanceAs (Decidable (_ ∧ ∀ seq ∈ _, _))

/-- The session has no other upload than these packets, and their requests are delivered. -/
def Orderly (u : Upload) (e : Engine) (s : EngineState) : Label → Prop
  | .streamUp _ sid _ _ => sid ≠ u.sid
  | .resume i pid inp _ =>
    s.sessions.get? u.sid = some i → ∀ h ∈ (s.objects[i]?).bind (·.handler? pid),
      ∀ seq ∈ h.packet?, u.Delivers e s.world h seq inp
  | _ => True

instance (u : Upload) (s : EngineState) : Decidable (u.Orderly e s l) :=
  match l with
  | .streamUp _ sid _ _ => inferInstanceAs (Decidable (sid ≠ u.sid))
  | .resume .. => inferInstanceAs (Decidable (_ → ∀ h ∈ _, ∀ seq ∈ _, _))
  | .packetUp .. | .downlink .. | .lose .. | .reap _ | .sweep | .other .. => .isTrue trivial

/-- The session is not torn down, neither for a refusal of the quota gate, nor for a failure, nor for
any other reason. -/
def Kept (u : Upload) (e : Engine) (s : EngineState) (l : Label) : Prop :=
  ∀ s' ∈ (machine e).step s l, s.sessions.contains u.sid = true → s'.sessions.contains u.sid = true

/-- The step belongs to an upload without incident. -/
def Undisturbed (u : Upload) (e : Engine) (s : EngineState) (l : Label) : Prop :=
  u.Orderly e s l ∧ u.Kept e s l

instance (u : Upload) (s : EngineState) : Decidable (u.Undisturbed e s l) :=
  inferInstanceAs (Decidable (_ ∧ ∀ s' ∈ _, _))

/-- The session of the upload after the packets `seqs` arrived. -/
def Ongoing (u : Upload) (seqs : List ℤ) (s : EngineState) : Prop :=
  match s.sessions.get? u.sid with
  | none => seqs = []
  | some i => ∃ o, s.objects[i]? = some o ∧ u.Uploading seqs o

theorem ongoing_step {s s' : EngineState} (hs : s.WellFormed) (hon : u.Ongoing seqs s)
    (hun : u.Undisturbed e s l) (hstep : (machine e).step s l = some s')
    (hnew : ∀ seq, u.arrival? l = some seq → seq ∉ seqs ∧ 0 ≤ seq ∧ seq < u.count) :
    u.Ongoing (seqs ++ (u.arrival? l).toList) s' := by
  have honly : ∀ uuid now monotonic, l ≠ .streamUp uuid u.sid now monotonic := by
    rintro uuid now monotonic rfl
    exact hun.1 rfl
  unfold Ongoing at hon ⊢
  cases hget : s.sessions.get? u.sid with
  | none =>
    rw [hget] at hon
    cases hon
    rcases session_born hs hget hstep with ⟨hget', hl⟩ | ⟨i, o', hget', ho', uuid, mode, now, hacts⟩
    · rw [hget', arrival?_of_not_uploads hl]
      rfl
    · rw [hget']
      refine ⟨o', ho', uploading_acts (uploading_init uuid mode now) rfl hacts honly
        (fun pid inp m h seq _ hh => ?_) hnew⟩
      cases Session.handler?_eq_some.1 hh
  | some i =>
    rw [hget] at hon
    obtain ⟨o, ho, hup⟩ := hon
    have hcont : s.sessions.contains u.sid = true := by rw [Dict.contains, hget]; rfl
    -- the step does not tear the session down
    have hkept : s'.sessions.get? u.sid ≠ none := by
      have hcont' := hun.2 s' hstep hcont
      rw [Dict.contains] at hcont'
      exact Option.isSome_iff_ne_none.1 hcont'
    obtain ⟨hget', o', ho', hacts⟩ := session_step hs hget ho hstep hkept
    rw [hget']
    refine ⟨o', ho', uploading_acts hup (hs.live hget ho).1 hacts honly
      (fun pid inp m h seq hl hh hrole => ?_) hnew⟩
    have horderly := hun.1
    rw [hl] at horderly
    refine horderly hget h ?_ seq ?_
    · rw [ho]; exact hh
    · unfold Handler.packet?
      rw [hrole]
      rfl

theorem arrivals_append (ls : List Label) (l : Label) :
    u.arrivals (ls ++ [l]) = u.arrivals ls ++ (u.arrival? l).toList := by
  unfold arrivals
  rw [List.filterMap_append]
  cases hp : u.arrival? l <;> simp [hp]

/-- The session of the upload at the end of a run. -/
theorem ongoing_run {s s' : EngineState} {ls : List Label} (hs : s.WellFormed)
    (hfree : s.sessions.get? u.sid = none) (hrun : (machine e).run s ls = some s')
    (hun : (machine e).Along (u.Undisturbed e) s ls) (honce : u.SentOnce ls) :
    u.Ongoing (u.arrivals ls) s' := by
  have hhist := Machine.run_history_along
    (I := fun hist s => s.WellFormed ∧ (u.SentOnce hist → u.Ongoing (u.arrivals hist) s))
    (fun hist s l s' ⟨hwf, hon⟩ hun hstep => ?_) [] hrun hun ⟨hs, fun _ => ?_⟩
  · exact hhist.2 (by simpa using honce)
  · refine ⟨wellFormed_step hwf hstep, fun ⟨hnodup, hrange⟩ => ?_⟩
    rw [arrivals_append] at hnodup hrange ⊢
    obtain ⟨hhist, -, hdisj⟩ := List.nodup_append.1 hnodup
    -- the packet that arrives now did not arrive before
    refine ongoing_step hwf (hon ⟨hhist, fun seq hmem => ?_⟩) hun hstep fun seq hp => ?_
    · exact hrange seq (List.mem_append_left _ hmem)
    · have hmem : seq ∈ (u.arrival? l).toList := by rw [hp]; simp
      exact ⟨fun hold => hdisj seq hold seq hmem rfl, hrange seq (List.mem_append_right _ hmem)⟩
  · unfold Ongoing
    rw [hfree]
    rfl

/-- What reached the target so far. -/
theorem Uploading.written_prefix (hup : u.Uploading seqs o) : o.written <+: u.stream := by
  have hrange : ∀ seq, accepted seqs (pendingAt o.tasks) seq → 0 ≤ seq ∧ seq < u.count :=
    fun seq hacc => hup.range seq hacc.1
  unfold Session.written
  cases hup.stage with
  | waiting hwriter hwriters => rw [hwriters]; exact List.nil_prefix
  | connecting closing hwriter hwriters =>
    rw [hwriters]
    simp [target, stream]
  | flowing out closing hwriter hwriters hpos hbuf =>
    rw [hwriters, ← u.span_piece]
    simpa [target] using hbuf.out_prefix hrange

/-- All packets have arrived and all their handlers have returned. -/
theorem Uploading.complete (hup : u.Uploading seqs o)
    (hall : ∀ seq : ℤ, 0 ≤ seq → seq < u.count → seq ∈ seqs) (hret : o.Returned) :
    (∃ closing, o.writers = [u.target u.stream closing]) ∧ o.nextSeq = u.count ∧ o.seqBuf = ∅ := by
  -- a handler that returned has nothing in its hands
  have hnone : ∀ pid seq b, pendingAt o.tasks pid ≠ some (seq, b) := by
    intro pid seq b hp
    obtain ⟨h, hh, hp⟩ := handler_of_pendingAt hp
    have hmem := List.mem_of_getElem? (Session.handler?_eq_some.1 hh)
    have hpacket := hret _ hmem
    unfold Task.packet? Task.handler? Handler.packet? at hpacket
    simp only [Option.bind_some, (pending_cases hp).1] at hpacket
    cases hpacket
  have haccepted : ∀ seq, accepted seqs (pendingAt o.tasks) seq ↔ 0 ≤ seq ∧ seq < u.count :=
    fun seq => ⟨fun hacc => hup.range seq hacc.1, fun ⟨h₀, h₁⟩ =>
      ⟨hall seq h₀ h₁, fun pid b => hnone pid seq b⟩⟩
  have hzero : accepted seqs (pendingAt o.tasks) 0 :=
    (haccepted 0).2 ⟨le_rfl, by unfold count; omega⟩
  cases hup.stage with
  | waiting hwriter hwriters hpaying hbuf => exact absurd hzero hbuf.missing
  | connecting closing hwriter hwriters hpaying hbuf => exact absurd hzero hbuf.missing
  | flowing out closing hwriter hwriters hpos hbuf =>
    obtain ⟨hnext, hheld, hout⟩ := hbuf.complete haccepted
    refine ⟨⟨closing, ?_⟩, hnext, Dict.eq_empty_of_get? hheld⟩
    rw [hwriters, hout, span_piece]

/-- **Packet-up reassembly is exact.**  In every run in which the packets of an upload arrive once
each, in any order and with any interleaving of their handlers, and in which the session is not torn
down, what was written to the target is a prefix of the stream at any time; when all packets have
arrived and their handlers have returned, it is the stream, on one connection to the header's
target, the next number is the number of the packets and nothing is buffered. -/
theorem packetUp_reassembles (e : Engine) (u : Upload) (world : World) {s s' : EngineState}
    {ls : List Label} (hreach : (machine e).Reaches (.init world) s)
    (hfree : s.sessions.get? u.sid = none) (hrun : (machine e).run s ls = some s')
    (honce : u.SentOnce ls) (hun : (machine e).Along (u.Undisturbed e) s ls) :
    (∀ ms t i o, ms <+: ls → (machine e).run s ms = some t → t.sessions.get? u.sid = some i →
      t.objects[i]? = some o → o.written <+: u.stream) ∧
    ((∀ seq : ℤ, 0 ≤ seq → seq < u.count → seq ∈ u.arrivals ls) →
      ∃ i o, s'.sessions.get? u.sid = some i ∧ s'.objects[i]? = some o ∧
        (o.Returned → (∃ closing, o.writers = [u.target u.stream closing]) ∧
          o.nextSeq = u.count ∧ o.seqBuf = ∅)) := by
  have hwf := wellFormed_of_reaches hreach
  constructor
  · rintro ms t i o ⟨ns, rfl⟩ hms hget ho
    -- a part of the run has its packets once, too
    have honce' : u.SentOnce ms := by
      unfold SentOnce arrivals at honce ⊢
      rw [List.filterMap_append] at honce
      exact ⟨(List.nodup_append.1 honce.1).1, fun seq hmem =>
        honce.2 seq (List.mem_append_left _ hmem)⟩
    have hon := ongoing_run hwf hfree hms ((Machine.along_append hms).1 hun).1 honce'
    unfold Ongoing at hon
    rw [hget] at hon
    obtain ⟨o', ho', hup⟩ := hon
    rw [ho] at ho'
    cases ho'
    exact hup.written_prefix
  · intro hall
    have hon := ongoing_run hwf hfree hrun hun honce
    unfold Ongoing at hon
    cases hget : s'.sessions.get? u.sid with
    | none =>
      -- some packet arrived, so the session is registered
      rw [hget] at hon
      have hzero := hall 0 le_rfl (by unfold count; omega)
      rw [hon] at hzero
      cases hzero
    | some i =>
      rw [hget] at hon
      obtain ⟨o, ho, hup⟩ := hon
      exact ⟨i, o, rfl, ho, hup.complete hall⟩

/-- A user with a link. -/
def oneUser : World :=
  ⟨⟨(∅ : Links).set "alice" ⟨"xhttp-packet-up", none, 0, true, .never, 0, 0⟩, 0, ∅⟩, .init⟩

/-- An upload of two packets. -/
def twoPackets : Upload := ⟨"s", .vless .localhost, [1], [[2]], by decide⟩

/-- The second packet comes first, and its body while the target is being connected. -/
def swapped : List Label :=
  [.packetUp "alice" "s" 1 0, .packetUp "alice" "s" 0 0,
    .resume 0 1 (.data (VlessHeader.localhost.encode ++ [1])) (momentAt 0),
    .resume 0 1 .go (momentAt 0), .resume 0 0 (.data [2]) (momentAt 0),
    .resume 0 0 .go (momentAt 0), .resume 0 1 .go (momentAt 0), .resume 0 1 .go (momentAt 0)]

/-- The two packets reach the target in their order. -/
theorem packetUp_reassembles_swapped :
    ∃ s' i o closing, (machine ⟨.vless, id⟩).run (.init oneUser) swapped = some s' ∧
      s'.sessions.get? "s" = some i ∧ s'.objects[i]? = some o ∧
      o.writers = [twoPackets.target [1, 2] closing] ∧ o.nextSeq = 2 ∧ o.seqBuf = ∅ := by
  have hun : (machine ⟨.vless, id⟩).Along (twoPackets.Undisturbed ⟨.vless, id⟩) (.init oneUser)
      swapped := by decide +kernel
  have hret : ((machine ⟨.vless, id⟩).run (.init oneUser) swapped).map (fun s' => decide
      (∀ o ∈ s'.objects, o.Returned)) = some true := by decide +kernel
  obtain ⟨s', hrun, hret⟩ := Option.map_eq_some_iff.1 hret
  have hall : ∀ seq : ℤ, 0 ≤ seq → seq < (2 : ℕ) → seq ∈ twoPackets.arrivals swapped := by
    intro seq h₀ h₁
    obtain rfl | rfl : seq = 0 ∨ seq = 1 := by omega
    · decide
    · decide
  obtain ⟨i, o, hget, ho, hdone⟩ := (packetUp_reassembles ⟨.vless, id⟩ twoPackets oneUser
    (.refl _) rfl hrun (by decide +kernel) hun).2 hall
  obtain ⟨⟨closing, hwriters⟩, hnext, hbuf⟩ :=
    hdone (of_decide_eq_true hret o (List.mem_of_getElem? ho))
  exact ⟨s', i, o, closing, hrun, hget, ho, hwriters, hnext, hbuf⟩

end Upload

end Xhttp

end RvgGateway
