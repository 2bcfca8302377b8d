import RvgGateway.Xhttp.Authorization
import RvgGateway.Xhttp.ObjectStep
import RvgGateway.Xhttp.UploadStretch

/-!
# Does one request at a time write to a stream-up session?

Chunks of a streamed body have no numbers, so two bodies that are sent at the same time cannot be
told apart behind the connection.  `xhttpstreamup.py` says that a session is written by one `POST`
at a time; nothing in it sees to that.  The bodies are followed here with a record of what each
request read.

* `Sequential` : the session has at most one connection, which got the bodies of its requests one
  after the other, the last one perhaps not to its end.
* `Exclusive` : a request reads a chunk only when each other request that has read one has read its
  body to the end, and when its local `writer` is that of the session.
* `sequential_of_exclusive` : **a session of exclusive steps is sequential in every state.**
-/

namespace RvgGateway

namespace Xhttp

open Relay (Parsed)
open Upload (Aside Passes passes_aside)

/-! ### The engine with the bodies of its requests -/

/-- An engine, and what its `stream-up` requests read. -/
structure Posts where
  engine : EngineState
  /-- The chunks with their object and task, the newest last. -/
  reads : List (ℕ × ℕ × Bytes)
  /-- The requests whose body came to its end. -/
  ended : List (ℕ × ℕ)

/-- The task reads its body. -/
def Handler.streams (h : Handler) : Bool :=
  match h.role, h.phase with
  | .streamUp _, .input => true
  | _, _ => false

/-- The local variable `writer`. -/
def Handler.writer? (h : Handler) : Option ℕ :=
  match h.role with
  | .streamUp writer => writer
  | _ => none

/-- The chunk that the task takes. -/
def Handler.read? (h : Handler) : Input → Option Bytes
  | .data data => if h.streams ∧ data ≠ [] then some data else none
  | _ => none

/-- The body of the task comes to its end. -/
def Handler.finishes (h : Handler) : Input → Bool
  | .finished => h.streams
  | _ => false

/-- The chunk that is read in a step. -/
def readOf (s : EngineState) : Label → Option (ℕ × ℕ × Bytes)
  | .resume k pid inp _ =>
    ((s.objects[k]?).bind (·.handler? pid)).bind fun h => (h.read? inp).map (k, pid, ·)
  | _ => none

/-- The request whose body comes to its end in a step. -/
def endOf (s : EngineState) : Label → Option (ℕ × ℕ)
  | .resume k pid inp _ =>
    ((s.objects[k]?).bind (·.handler? pid)).bind fun h =>
      if h.finishes inp then some (k, pid) else none
  | _ => none

namespace Posts

/-- An engine without sessions. -/
def init (world : World) : Posts := ⟨.init world, [], []⟩

/-- The chunks that the task `pid` of the object `k` read. -/
def chunks (s : Posts) (k pid : ℕ) : List Bytes :=
  s.reads.filterMap fun r => if r.1 = k ∧ r.2.1 = pid then some r.2.2 else none

end Posts

/-- The engine with its record of bodies. -/
def postMachine (e : Engine) : Machine Posts Label where
  step s l := ((machine e).step s.engine l).map fun engine =>
    ⟨engine, s.reads ++ (readOf s.engine l).toList, s.ended ++ (endOf s.engine l).toList⟩

/-! ### The claim and its condition -/

/-- What the connection is for, and what it got. -/
def Writer.content (c : Writer) : String × ℕ × Bytes := (c.address, c.port, c.written)

/-- `header` is read from the first chunk, with the one parser or the other. -/
def HeaderIn (chunk : Bytes) (header : Parsed) : Prop :=
  Relay.parseVlessHeader chunk = some header ∨
    ∃ pwHash, Relay.parseTrojanHeader chunk = some (pwHash, header)

/-- The chunks make one connection: the first one has the header, and what follows the header is
what the connection got. -/
def Carries (cs : List Writer) : List Bytes → Prop
  | [] => cs = []
  | chunk :: rest => ∃ header, HeaderIn chunk header ∧ cs.map Writer.content =
      [(header.address, header.port, header.payload ++ rest.flatten)]

/-- The session has at most one connection.  It got the bodies of the requests in `order`, each of
them whole, and behind them a `part` of the body of one more: all of it, if that came to its end.
No other request has read anything. -/
def Session.Sequential (chunks : ℕ → List Bytes) (ended : ℕ → Prop) (o : Session) : Prop :=
  ∃ (order : List ℕ) (last : ℕ) (part : List Bytes), (last :: order).Nodup ∧
    (∀ pid ∈ order, ended pid) ∧ part <+: chunks last ∧ (ended last → part = chunks last) ∧
    (∀ pid, pid ∉ last :: order → chunks pid = []) ∧
    Carries o.writers (order.flatMap chunks ++ part)

/-- Each other request of the session that has read a chunk has read its body to the end. -/
def Posts.Alone (s : Posts) (k pid : ℕ) : Prop :=
  ∀ r ∈ s.reads, r.1 = k → r.2.1 ≠ pid → (k, r.2.1) ∈ s.ended

/-- The task `pid` of the session `k` goes on: it is not a `packet-up` request, and if it is a
`stream-up` request that reads a chunk, then it is alone and its local `writer` is up to date. -/
def Handler.Exclusive (s : Posts) (k pid : ℕ) (inp : Input) (o : Session) (h : Handler) : Prop :=
  h.packet? = none ∧ (h.read? inp ≠ none → h.writer? = o.writer ∧ s.Alone k pid)

/-- Uploads of the session come as `stream-up` requests, and one of them reads a chunk only when it
is alone and has the connection of the session. -/
def Exclusive (k : ℕ) (s : Posts) : Label → Prop
  | .resume i pid inp _ => i = k → ∀ o ∈ s.engine.objects[k]?, ∀ h ∈ o.handler? pid,
      h.Exclusive s k pid inp o
  | _ => True

instance (s : Posts) (k pid : ℕ) : Decidable (s.Alone k pid) :=
  inferInstanceAs (Decidable (∀ r ∈ s.reads, r.1 = k → r.2.1 ≠ pid → (k, r.2.1) ∈ s.ended))

instance (s : Posts) (k pid : ℕ) (inp : Input) (o : Session) (h : Handler) :
    Decidable (h.Exclusive s k pid inp o) := inferInstanceAs (Decidable (_ ∧ (_ → _)))

instance (k : ℕ) (s : Posts) (l : Label) : Decidable (Exclusive k s l) :=
  match l with
  | .resume i pid inp _ => inferInstanceAs (Decidable (i = k → ∀ o ∈ s.engine.objects[k]?,
      ∀ h ∈ o.handler? pid, h.Exclusive s k pid inp o))
  | .packetUp .. | .streamUp .. | .downlink .. | .lose .. | .reap _ | .sweep | .other .. =>
    inferInstanceAs (Decidable True)

/-! ### What a stretch of a request can do -/

/-- What a stretch of a `stream-up` request can do, by the wait at which it stood. -/
inductive Streams (h : Handler) (writer : Option ℕ) (inp : Input) (o : Session) :
    Session → Next → Prop
  /-- An empty chunk, or the end of the drain. -/
  | idle {o' : Session} {h' : Handler}
      (hread : ∀ data, h.phase = .input → inp = .data data → data = [])
      (hend : h.phase = .input → inp ≠ .finished) (hrole : h'.role = h.role)
      (hphase : h'.phase = .input) (hstays : h.phase = .input ∨ h.phase = .drain)
      (hsame : o'.writer = o.writer ∧ o'.writers = o.writers ∧ o'.tasks = o.tasks) :
      Streams h writer inp o o' (.wait h')
  | read {o' : Session} (data : Bytes) (hphase : h.phase = .input) (hinp : inp = .data data)
      (hne : data ≠ [])
      (hsame : o'.writer = o.writer ∧ o'.writers = o.writers ∧ o'.tasks = o.tasks) :
      Streams h writer inp o o' (.wait { h with phase := .meter data })
  | finished {o' : Session} (hphase : h.phase = .input) (hinp : inp = .finished)
      (hsame : o'.writer = o.writer ∧ o'.writers = o.writers ∧ o'.tasks = o.tasks) :
      Streams h writer inp o o' (.ends .ok)
  /-- Whatever ends it early. -/
  | broken {o' : Session} (reply : Reply) (hlost : h.phase = .input → inp = .lost)
      (hsame : o'.writer = o.writer ∧ o'.writers = o.writers ∧ o'.tasks = o.tasks) :
      Streams h writer inp o o' (.teardown reply)
  | opening {o' : Session} (chunk : Bytes) (header : Parsed) (isTrojan : Bool)
      (hphase : h.phase = .meter chunk) (hnone : writer = none) (hheader : HeaderIn chunk header)
      (hsame : o'.writer = o.writer ∧ o'.writers = o.writers ∧ o'.tasks = o.tasks) :
      Streams h writer inp o o' (.wait { h with phase := .connect header isTrojan })
  | wrote {o' : Session} (chunk : Bytes) (w : ℕ) (phase : Phase) (hphase : h.phase = .meter chunk)
      (hsome : writer = some w) (hnext : phase = .input ∨ phase = .drain)
      (hsame : o'.writer = o.writer ∧ o'.writers = (o.write w chunk).writers ∧ o'.tasks = o.tasks) :
      Streams h writer inp o o' (.wait { h with phase })
  | connected {o' : Session} (header : Parsed) (isTrojan : Bool)
      (hphase : h.phase = .connect header isTrojan)
      (hsame : o'.writer = o.writer ∧ o'.writers = o.writers ++
        [⟨header.address, header.port, header.payload, false⟩] ∧ o'.tasks = o.tasks) :
      Streams h writer inp o o' (.wait { h with phase := .payload o.writers.length isTrojan })
  /-- The connection is entered, right behind the connect or behind the drain of the payload. -/
  | entered {o' : Session} (w : ℕ) (pump : Handler) (hpump : Aside pump)
      (hphase : (∃ header isTrojan, h.phase = .connect header isTrojan ∧ w = o.writers.length ∧
          o'.writers = o.writers ++ [⟨header.address, header.port, header.payload, false⟩]) ∨
        ∃ isTrojan, h.phase = .payload w isTrojan ∧ o'.writers = o.writers)
      (hentered : o'.writer = some w ∧ o'.tasks = o.tasks ++ [.running pump]) :
      Streams h writer inp o o' (.wait { h with role := .streamUp (some w), phase := .input })

section Stretch

variable {e : Engine} {m : Moment} {h : Handler} {world : World} {o : Session} {writer : Option ℕ}
  {inp : Input}

theorem flushGate_same (m : Moment) (world : World) (o : Session) :
    (flushGate m world o).2.writer = o.writer ∧
    (flushGate m world o).2.writers = o.writers ∧ (flushGate m world o).2.tasks = o.tasks := by
  unfold flushGate
  split <;> exact ⟨rfl, rfl, rfl⟩

/-- A request that breaks off leaves the connections alone. -/
theorem abandon_streams (o₀ : Session) (hrole : h.role = .streamUp writer)
    (hlost : h.phase = .input → inp = .lost)
    (hsame : o.writer = o₀.writer ∧ o.writers = o₀.writers ∧ o.tasks = o₀.tasks)
    (reply : Reply) :
    Streams h writer inp o₀ (abandon m h world o reply).session
      (abandon m h world o reply).next := by
  unfold abandon
  rw [hrole]
  obtain ⟨hwriter, hwriters, htasks⟩ := flushGate_same m world o
  exact .broken reply hlost
    ⟨hwriter.trans hsame.1, hwriters.trans hsame.2.1, htasks.trans hsame.2.2⟩

theorem fail_streams (hrole : h.role = .streamUp writer) (hlost : h.phase = .input → inp = .lost)
    {o₀ : Session} (hsame : o.writer = o₀.writer ∧ o.writers = o₀.writers ∧ o.tasks = o₀.tasks) :
    Streams h writer inp o₀ (fail m h world o).session (fail m h world o).next := by
  unfold fail
  rw [hrole]
  exact abandon_streams o₀ hrole hlost hsame _

/-- A header that is read is in the chunk. -/
theorem headerIn_of_readHeader {uuid : String} {chunk : Bytes} {header : Parsed} {isTrojan : Bool}
    (hread : (readHeader e uuid world chunk).1 = some (header, isTrojan)) :
    HeaderIn chunk header := by
  unfold readHeader at hread
  split at hread
  · split at hread
    · cases hread
    · rename_i pwHash header' hparse
      obtain ⟨_, -, heq⟩ := Option.map_eq_some_iff.1 hread
      cases heq
      exact .inr ⟨pwHash, hparse⟩
  · obtain ⟨_, hparse, heq⟩ := Option.map_eq_some_iff.1 hread
    cases heq
    exact .inl hparse

/-- A chunk that its gate let pass. -/
theorem putChunk_streams (hrole : h.role = .streamUp writer) {chunk : Bytes}
    (hphase : h.phase = .meter chunk) {o₀ : Session}
    (hsame : o.writer = o₀.writer ∧ o.writers = o₀.writers ∧ o.tasks = o₀.tasks) :
    Streams h writer inp o₀ (putChunk e m h world o writer chunk).session
      (putChunk e m h world o writer chunk).next := by
  have hlost : h.phase = .input → inp = .lost := fun heq => by rw [hphase] at heq; cases heq
  cases hw : writer with
  | none =>
    subst hw
    unfold putChunk openTcp
    dsimp only
    split
    · exact fail_streams hrole hlost hsame
    · rename_i header isTrojan world' hread
      exact .opening chunk header isTrojan hphase rfl
        (headerIn_of_readHeader (congrArg Prod.fst hread)) hsame
  | some w =>
    subst hw
    have hwrite : (o.write w chunk).writers = (o₀.write w chunk).writers := by
      unfold Session.write
      rw [hsame.2.1]
    unfold putChunk
    dsimp only
    split_ifs
    · exact fail_streams hrole hlost hsame
    · exact .wrote chunk w .drain hphase rfl (.inr rfl) ⟨hsame.1, hwrite, hsame.2.2⟩
    · exact .wrote chunk w .input hphase rfl (.inl rfl) ⟨hsame.1, hwrite, hsame.2.2⟩

/-- The stretches behind a chunk. -/
theorem proceedUpload_streams (hrole : h.role = .streamUp writer) {out : Outcome}
    (hout : proceedUpload e inp m h world o = some out) :
    Streams h writer inp o out.session out.next := by
  have hsame : o.writer = o.writer ∧ o.writers = o.writers ∧ o.tasks = o.tasks := ⟨rfl, rfl, rfl⟩
  have haway {P : Prop} {phase : Phase} (hphase : h.phase = phase) (hne : phase ≠ .input) :
      h.phase = .input → P := fun heq => absurd (hphase.symm.trans heq) hne
  unfold proceedUpload at hout
  split at hout
  · rename_i data hphase
    cases hout
    unfold meterUpload
    dsimp only
    split
    · unfold upload
      rw [hrole]
      exact putChunk_streams hrole hphase ⟨rfl, rfl, rfl⟩
    · refine abandon_streams o hrole (haway hphase (by simp)) ?_ _
      exact ⟨rfl, rfl, rfl⟩
  · rename_i header isTrojan hphase
    cases hout
    unfold connected
    dsimp only
    split_ifs
    · unfold finishOpen afterOpen
      rw [hrole]
      exact .entered o.writers.length (newPump e m h o.writers.length isTrojan)
        (.inr ⟨_, _, _, rfl⟩) (.inl ⟨header, isTrojan, hphase, rfl, rfl⟩) ⟨rfl, rfl⟩
    · exact .connected header isTrojan hphase ⟨rfl, rfl, rfl⟩
  · rename_i w isTrojan hphase
    cases hout
    unfold finishOpen afterOpen
    rw [hrole]
    exact .entered w (newPump e m h w isTrojan) (.inr ⟨_, _, _, rfl⟩)
      (.inr ⟨isTrojan, hphase, rfl⟩) ⟨rfl, rfl⟩
  · rename_i hphase
    cases hout
    exact fail_streams hrole (haway hphase (by simp)) hsame
  · rename_i hphase
    cases hout
    exact fail_streams hrole (haway hphase (by simp)) hsame
  · rename_i hphase
    cases hout
    exact fail_streams hrole (haway hphase (by simp)) hsame
  · rename_i hphase
    rw [hrole] at hout
    cases hout
    exact .idle (fun _ => haway hphase (by simp)) (haway hphase (by simp)) hrole.symm rfl
      (.inr hphase) hsame
  · cases hout

/-- **What a stretch of a request can do.** -/
theorem proceed_streams (hrole : h.role = .streamUp writer) {out : Outcome}
    (hout : proceed e inp m h world o = some out) :
    Streams h writer inp o out.session out.next := by
  have hsame : o.writer = o.writer ∧ o.writers = o.writers ∧ o.tasks = o.tasks := ⟨rfl, rfl, rfl⟩
  unfold proceed at hout
  rw [hrole] at hout
  dsimp only at hout
  unfold proceedStreamUp at hout
  split at hout
  · rename_i data hphase
    split_ifs at hout with hempty
    · cases hout
      exact .idle (fun _ _ heq => by cases heq; exact hempty) (fun _ heq => by cases heq) rfl hphase
        (.inl hphase) hsame
    · cases hout
      exact .read data hphase rfl hempty hsame
  · rename_i hphase
    cases hout
    exact .finished hphase rfl (flushGate_same ..)
  · cases hout
    exact fail_streams hrole (fun _ => rfl) hsame
  · exact proceedUpload_streams hrole hout

end Stretch

/-! ### Sessions of exclusive steps -/

/-- `writer` is the connection, if there is one. -/
def Session.Linked (o : Session) : Prop :=
  (o.writer = none ∧ o.writers = []) ∨ (o.writer = some 0 ∧ o.writers.length = 1)

/-- Where the request stands that read the last chunk, while it runs: the `body` is what it read,
the `part` what was written of that, and `before` what other requests wrote. -/
inductive Turn (o : Session) (before part body : List Bytes) (h : Handler) : Prop
  | torn (hphase : h.phase.outside = false)
  | idle {writer : Option ℕ} (hrole : h.role = .streamUp writer)
      (hphase : h.phase = .input ∨ h.phase = .drain) (hpart : part = body) (hlinked : o.Linked)
  | metered {chunk : Bytes} (hrole : h.role = .streamUp o.writer) (hphase : h.phase = .meter chunk)
      (hbody : body = part ++ [chunk]) (hlinked : o.Linked)
  | opening {chunk : Bytes} {header : Parsed} {isTrojan : Bool} (hrole : h.role = .streamUp none)
      (hphase : h.phase = .connect header isTrojan) (hheader : HeaderIn chunk header)
      (hbefore : before = []) (hpart : part = []) (hbody : body = [chunk])
      (hnone : o.writer = none ∧ o.writers = [])
  | paying (isTrojan : Bool) (hrole : h.role = .streamUp none)
      (hphase : h.phase = .payload 0 isTrojan) (hpart : part = body)
      (hopen : o.writers.length = 1)

/-- What is so of a session whose uploads are exclusive. -/
structure Session.Orderly (chunks : ℕ → List Bytes) (ended : ℕ → Prop) (order : List ℕ) (last : ℕ)
    (part : List Bytes) (o : Session) : Prop where
  nodup : (last :: order).Nodup
  whole : ∀ pid ∈ order, ended pid
  part_le : part <+: chunks last
  ended_part : ended last → part = chunks last
  others : ∀ pid, pid ∉ last :: order → chunks pid = []
  carries : Carries o.writers (order.flatMap chunks ++ part)
  linked : chunks last = [] ∨ ended last → o.Linked
  /-- A request whose body came to its end has returned. -/
  gone : ∀ pid, ended pid → o.handler? pid = none
  fresh : ∀ pid, o.tasks.length ≤ pid → chunks pid = [] ∧ ¬ ended pid
  aside : ∀ pid h, o.handler? pid = some h → Aside h → chunks pid = []
  /-- A request that has read nothing waits for its first chunk. -/
  waits : ∀ pid h writer, o.handler? pid = some h → h.role = .streamUp writer → chunks pid = [] →
    h.phase.outside = true → h.phase = .input
  turn : ∀ h, o.handler? last = some h → chunks last ≠ [] →
    Turn o (order.flatMap chunks) part (chunks last) h

/-- The `stream-up` requests of the session stay where they are, or leave for `_teardown`. -/
structure Session.Rests (o o' : Session) : Prop where
  writer_eq : o'.writer = o.writer
  contents_eq : o'.writers.map Writer.content = o.writers.map Writer.content
  tasks_le : o.tasks.length ≤ o'.tasks.length
  handler_of : ∀ pid h', o'.handler? pid = some h' →
    (∃ h, o.handler? pid = some h ∧ h'.role = h.role ∧
      (h'.phase = h.phase ∨ h'.phase.outside = false)) ∨
    (∃ h, o.handler? pid = some h ∧ Aside h ∧ Aside h') ∨
    o.tasks.length ≤ pid ∧ (h'.phase = .input ∨ Aside h')

section Orderly

variable {o o' : Session} {chunks : ℕ → List Bytes} {ended : ℕ → Prop} {order : List ℕ} {last : ℕ}
  {part : List Bytes}

theorem Carries.congr {cs cs' : List Writer} {sent : List Bytes} (h : Carries cs sent)
    (heq : cs'.map Writer.content = cs.map Writer.content) : Carries cs' sent := by
  cases sent with
  | nil =>
    rw [show cs = [] from h] at heq
    exact List.map_eq_nil_iff.1 heq
  | cons chunk rest =>
    obtain ⟨header, hheader, hcs⟩ := h
    exact ⟨header, hheader, heq.trans hcs⟩

theorem Carries.nil_iff {cs : List Writer} {sent : List Bytes} (h : Carries cs sent) :
    cs = [] ↔ sent = [] := by
  cases sent with
  | nil => exact iff_of_true h rfl
  | cons chunk rest =>
    obtain ⟨header, -, hcs⟩ := h
    refine iff_of_false (fun heq => ?_) (List.cons_ne_nil _ _)
    rw [heq] at hcs
    cases hcs

theorem Carries.length_le {cs : List Writer} {sent : List Bytes} (h : Carries cs sent) :
    cs.length ≤ 1 := by
  cases sent with
  | nil =>
    rw [show cs = [] from h]
    exact Nat.zero_le 1
  | cons chunk rest =>
    obtain ⟨header, -, hcs⟩ := h
    simpa using (congrArg List.length hcs).le

/-- The claim for an orderly session. -/
theorem Session.Orderly.sequential (ho : o.Orderly chunks ended order last part) :
    o.Sequential chunks ended :=
  ⟨order, last, part, ho.nodup, ho.whole, ho.part_le, ho.ended_part, ho.others, ho.carries⟩

theorem Session.Rests.length_eq (h : o.Rests o') : o'.writers.length = o.writers.length := by
  simpa using congrArg List.length h.contents_eq

theorem Session.Linked.of_same (ho : o.Linked) (hwriter : o'.writer = o.writer)
    (hwriters : o'.writers = o.writers) : o'.Linked := by
  unfold Session.Linked at ho ⊢
  rwa [hwriter, hwriters]

theorem Session.Rests.linked (h : o.Rests o') (ho : o.Linked) : o'.Linked := by
  unfold Session.Linked at ho ⊢
  rw [h.writer_eq, h.length_eq, ← List.length_eq_zero_iff, h.length_eq, List.length_eq_zero_iff]
  exact ho

theorem not_streamUp_of_aside {h : Handler} {writer : Option ℕ} (haside : Aside h) :
    h.role ≠ .streamUp writer := by
  rintro hrole
  obtain heq | ⟨w, gate, first, heq⟩ := haside <;>
    · rw [hrole] at heq
      cases heq

/-- A request that stays where it is keeps its turn. -/
theorem Turn.congr {before part body : List Bytes} {h h' : Handler} (ht : Turn o before part body h)
    (hrole : h'.role = h.role) (hphase : h'.phase = h.phase) (hrests : o.Rests o') :
    Turn o' before part body h' := by
  cases ht with
  | torn htorn => exact .torn (by rw [hphase]; exact htorn)
  | idle hr hp hpart hlinked =>
    exact .idle (hrole.trans hr) (by rw [hphase]; exact hp) hpart (hrests.linked hlinked)
  | metered hr hp hbody hlinked =>
    exact .metered (by rw [hrole, hr, hrests.writer_eq]) (hphase.trans hp) hbody
      (hrests.linked hlinked)
  | opening hr hp hheader hbefore hpart hbody hnone =>
    refine .opening (hrole.trans hr) (hphase.trans hp) hheader hbefore hpart hbody
      ⟨hrests.writer_eq.trans hnone.1, ?_⟩
    rw [← List.length_eq_zero_iff, hrests.length_eq, hnone.2]
    rfl
  | paying _ hr hp hpart hopen =>
    exact .paying _ (hrole.trans hr) (hphase.trans hp) hpart (hrests.length_eq.trans hopen)

/-- What leaves the requests where they are keeps the session orderly. -/
theorem Session.Orderly.rests (ho : o.Orderly chunks ended order last part) (h : o.Rests o') :
    o'.Orderly chunks ended order last part where
  nodup := ho.nodup
  whole := ho.whole
  part_le := ho.part_le
  ended_part := ho.ended_part
  others := ho.others
  carries := ho.carries.congr h.contents_eq
  linked hl := h.linked (ho.linked hl)
  gone pid hend := by
    refine Option.eq_none_iff_forall_ne_some.2 fun h' hh' => ?_
    obtain ⟨h₀, hh₀, -⟩ | ⟨h₀, hh₀, -⟩ | ⟨hle, -⟩ := h.handler_of pid h' hh'
    · rw [ho.gone pid hend] at hh₀
      cases hh₀
    · rw [ho.gone pid hend] at hh₀
      cases hh₀
    · exact (ho.fresh pid hle).2 hend
  fresh pid hle := ho.fresh pid (h.tasks_le.trans hle)
  aside pid h' hh' haside := by
    obtain ⟨h₀, hh₀, hrole, -⟩ | ⟨h₀, hh₀, haside₀, -⟩ | ⟨hle, -⟩ := h.handler_of pid h' hh'
    · unfold Aside at haside
      rw [hrole] at haside
      exact ho.aside pid h₀ hh₀ haside
    · exact ho.aside pid h₀ hh₀ haside₀
    · exact (ho.fresh pid hle).1
  waits pid h' writer hh' hrole' hnil hout := by
    obtain ⟨h₀, hh₀, hrole, hphase | htorn⟩ | ⟨h₀, hh₀, -, haside⟩ | ⟨-, hinput | haside⟩ :=
      h.handler_of pid h' hh'
    · rw [hphase] at hout ⊢
      exact ho.waits pid h₀ writer hh₀ (hrole.symm.trans hrole') hnil hout
    · rw [htorn] at hout
      cases hout
    · exact absurd hrole' (not_streamUp_of_aside haside)
    · exact hinput
    · exact absurd hrole' (not_streamUp_of_aside haside)
  turn h' hh' hne := by
    obtain ⟨h₀, hh₀, hrole, hphase | htorn⟩ | ⟨h₀, hh₀, haside, -⟩ | ⟨hle, -⟩ :=
      h.handler_of last h' hh'
    · exact (ho.turn h₀ hh₀ hne).congr hrole hphase h
    · exact .torn htorn
    · exact absurd (ho.aside last h₀ hh₀ haside) hne
    · exact absurd (ho.fresh last hle).1 hne

/-! ### What leaves the requests where they are -/

/-- The connections and the number of tasks are the same. -/
def Session.Alike (o o' : Session) : Prop :=
  o'.writer = o.writer ∧ o'.writers.map Writer.content = o.writers.map Writer.content ∧
    o'.tasks.length = o.tasks.length

theorem Session.Alike.trans {o₁ : Session} (h₁ : o.Alike o₁) (h₂ : o₁.Alike o') : o.Alike o' :=
  ⟨h₂.1.trans h₁.1, h₂.2.1.trans h₁.2.1, h₂.2.2.trans h₁.2.2⟩

theorem alike_close (o : Session) (w : ℕ) : o.Alike (o.close w) := by
  refine ⟨rfl, ?_, rfl⟩
  unfold Session.close
  apply List.ext_getElem?
  intro v
  simp only [List.getElem?_map, List.getElem?_modify]
  cases o.writers[v]? with
  | none => rfl
  | some c => by_cases hwv : w = v <;> simp [hwv, Writer.content]

theorem alike_tolerates : Session.Tolerates Session.Alike where
  refl _ := ⟨rfl, rfl, rfl⟩
  trans := Session.Alike.trans
  flag _ := ⟨rfl, rfl, rfl⟩
  close := alike_close
  finalise o := by
    obtain ⟨downQ, heq⟩ := o.finalise_eq
    rw [heq]
    exact ⟨rfl, rfl, rfl⟩

theorem alike_setTask (o : Session) (pid : ℕ) (t : Task) : o.Alike (o.setTask pid t) :=
  ⟨rfl, rfl, List.length_set ..⟩

theorem rests_of_tended (ht : o.Tended o') (ha : o.Alike o') : o.Rests o' where
  writer_eq := ha.1
  contents_eq := ha.2.1
  tasks_le := ha.2.2.ge
  handler_of pid h' hh' := by
    obtain ⟨h, hh, -, -, hrole, hphase⟩ := ht.handler_of pid h' hh'
    exact .inl ⟨h, hh, hrole, .inl hphase⟩

/-- `_teardown` takes a request at most to its own end. -/
theorem rests_tends {actor : Option ℕ} (ht : Session.Tends actor o o') : o.Rests o' := by
  have hset : ∀ pid t, (∀ h', t = .running h' → ∃ h, o.handler? pid = some h ∧ h'.role = h.role ∧
      h'.phase.outside = false) → o.Rests (o.setTask pid t) := by
    intro pid t ht
    refine ⟨rfl, rfl, (List.length_set ..).ge, fun pid' h' hh' => ?_⟩
    obtain ⟨rfl, heq⟩ | hold := Session.handler?_of_setTask hh'
    · obtain ⟨h, hh, hrole, hphase⟩ := ht h' heq
      exact .inl ⟨h, hh, hrole, .inr hphase⟩
    · exact .inl ⟨h', hold, rfl, .inl rfl⟩
  cases ht with
  | begin =>
    exact rests_of_tended (.beginTeardown o)
      (alike_tolerates.beginTeardown (fun o pid _ _ => alike_setTask o pid _) o)
  | «continue» hres =>
    exact rests_of_tended (.continueTeardown hres) (alike_tolerates.continueTeardown hres)
  | finish => exact hset _ _ fun h' heq => by cases heq
  | park hpid hh hrole hphase =>
    refine hset _ _ fun h' heq => ?_
    cases heq
    exact ⟨_, hh, hrole, by rw [hphase]; rfl⟩

theorem Session.Orderly.follows {actor : Option ℕ} (ho : o.Orderly chunks ended order last part)
    (ht : Relation.ReflTransGen (Session.Tends actor) o o') :
    o'.Orderly chunks ended order last part := by
  induction ht with
  | refl => exact ho
  | tail _ htend ih => exact ih.rests (rests_tends htend)

/-- A request that is served is new, and waits for its first chunk. -/
theorem rests_serve {kind : Kind} {l : Label} {r : Request} (hr : l.request? kind = some r)
    (o : Session) : o.Rests (o.serve r.serve) := by
  have hserves := Label.request?_serves hr
  have hsame : (r.serve o).1.writer = o.writer ∧ (r.serve o).1.writers = o.writers := by
    cases l <;> cases hr
    · exact ⟨rfl, rfl⟩
    · unfold serveStreamUp
      dsimp only
      split <;> exact ⟨rfl, rfl⟩
    · exact ⟨rfl, rfl⟩
  obtain ⟨-, heq⟩ | ⟨-, heq⟩ := Serves.serve_cases r.serve o
  · rw [heq]
    refine ⟨rfl, rfl, by simp, fun pid h' hh' => ?_⟩
    obtain hnew | hold := Session.handler?_of_append rfl (Session.handler?_eq_some.1 hh')
    · cases hnew
    · exact .inl ⟨h', hold, rfl, .inl rfl⟩
  · rw [heq]
    have htasks : (r.serve o).1.tasks = o.tasks := hserves.tasks_eq o
    refine ⟨hsame.1, congrArg _ hsame.2, by simp [htasks], fun pid h' hh' => ?_⟩
    have hget := Session.handler?_eq_some.1 hh'
    dsimp only at hget
    rw [htasks, List.getElem?_append] at hget
    split_ifs at hget with hlt
    · exact .inl ⟨h', Session.handler?_eq_some.2 hget, rfl, .inl rfl⟩
    · obtain ⟨hlen, hone⟩ := List.getElem?_eq_some_iff.1 hget
      have hinput := (hserves.task o h' (by simpa using hone)).2.2
      exact .inr (.inr ⟨not_lt.1 hlt, .inl hinput⟩)

/-- The stretches of a download or a pump. -/
theorem rests_aside {e : Engine} {inp : Input} {m : Moment} {world : World} {pid : ℕ} {h : Handler}
    {out : Outcome} (hh : o.handler? pid = some h) (haside : Aside h)
    (hout : proceed e inp m h world o = some out) :
    o.Rests (out.session.setTask pid (out.next.left h)) := by
  have hpasses := passes_aside haside hout
  refine ⟨hpasses.writer_eq, congrArg _ hpasses.writers_eq, ?_, fun pid' h' hh' => ?_⟩
  · show o.tasks.length ≤ (out.session.tasks.set pid _).length
    rw [List.length_set, hpasses.tasks_eq]
  · obtain ⟨rfl, heq⟩ | hold := Session.handler?_of_setTask hh'
    · refine .inr (.inl ⟨h, hh, haside, ?_⟩)
      cases hnext : out.next with
      | wait h₁ =>
        rw [hnext] at heq
        cases heq
        exact hpasses.next _ hnext
      | ends reply => rw [hnext] at heq; cases heq
      | teardown reply => rw [hnext] at heq; cases heq; exact haside
    · have hsame : out.session.handler? pid' = o.handler? pid' := by
        unfold Session.handler?
        rw [hpasses.tasks_eq]
      exact .inl ⟨h', hsame ▸ hold, rfl, .inl rfl⟩

/-! ### The request whose turn it is -/

/-- The task `pid` becomes `t`, and at most pumps are added. -/
structure Session.Moved (o : Session) (pid : ℕ) (t : Task) (o' : Session) : Prop where
  tasks_le : o.tasks.length ≤ o'.tasks.length
  handler_of : ∀ pid' h', o'.handler? pid' = some h' → (pid' = pid ∧ t = .running h') ∨
    (pid' ≠ pid ∧ o.handler? pid' = some h') ∨ (o.tasks.length ≤ pid' ∧ Aside h')

theorem moved_setTask {o₁ : Session} (pid : ℕ) (t : Task)
    (htasks : o₁.tasks = o.tasks ∨ ∃ pump, Aside pump ∧ o₁.tasks = o.tasks ++ [.running pump]) :
    o.Moved pid t (o₁.setTask pid t) := by
  refine ⟨?_, fun pid' h' hh' => ?_⟩
  · show o.tasks.length ≤ (o₁.tasks.set pid t).length
    obtain heq | ⟨pump, -, heq⟩ := htasks <;> simp [heq]
  · have hget := Session.handler?_eq_some.1 hh'
    unfold Session.setTask at hget
    simp only [List.getElem?_set] at hget
    split_ifs at hget with hpid hlt
    · cases hget
      exact .inl ⟨hpid.symm, rfl⟩
    · right
      obtain heq | ⟨pump, hpump, heq⟩ := htasks
      · rw [heq] at hget
        exact .inl ⟨Ne.symm hpid, Session.handler?_eq_some.2 hget⟩
      · rw [heq, List.getElem?_append] at hget
        split_ifs at hget with hlt
        · exact .inl ⟨Ne.symm hpid, Session.handler?_eq_some.2 hget⟩
        · obtain ⟨hlen, hone⟩ := List.getElem?_eq_some_iff.1 hget
          have hpump' : pump = h' := by simpa using hone
          exact .inr ⟨not_lt.1 hlt, hpump' ▸ hpump⟩

variable {pid : ℕ} {h : Handler} {writer : Option ℕ}

theorem Session.Orderly.not_ended (ho : o.Orderly chunks ended order last part)
    (hh : o.handler? pid = some h) : ¬ ended pid := by
  intro hend
  rw [ho.gone pid hend] at hh
  cases hh

theorem Session.Orderly.not_mem (ho : o.Orderly chunks ended order last part)
    (hh : o.handler? pid = some h) : pid ∉ order :=
  fun hmem => ho.not_ended hh (ho.whole pid hmem)

/-- A request that does not wait for a chunk has its turn. -/
theorem Session.Orderly.acting (ho : o.Orderly chunks ended order last part)
    (hh : o.handler? pid = some h) (hrole : h.role = .streamUp writer)
    (hout : h.phase.outside = true) (hphase : h.phase ≠ .input) :
    pid = last ∧ chunks pid ≠ [] ∧ Turn o (order.flatMap chunks) part (chunks pid) h := by
  have hne : chunks pid ≠ [] := fun hnil => hphase (ho.waits pid h writer hh hrole hnil hout)
  have hlast : pid = last := by
    by_contra hlast
    exact hne (ho.others pid (by simp [hlast, ho.not_mem hh]))
  subst hlast
  exact ⟨rfl, hne, ho.turn h hh hne⟩

section Turn

variable {before body : List Bytes}

theorem Turn.idle_of (ht : Turn o before part body h)
    (hphase : h.phase = .input ∨ h.phase = .drain) : part = body ∧ o.Linked := by
  cases ht with
  | idle _ _ hpart hlinked => exact ⟨hpart, hlinked⟩
  | torn hp | metered _ hp | opening _ hp | paying _ _ hp =>
    obtain heq | heq := hphase <;> (rw [heq] at hp; cases hp)

theorem Turn.metered_of {chunk : Bytes} (ht : Turn o before part body h)
    (hphase : h.phase = .meter chunk) :
    h.role = .streamUp o.writer ∧ body = part ++ [chunk] ∧ o.Linked := by
  cases ht with
  | metered hrole hp hbody hlinked =>
    cases hp.symm.trans hphase
    exact ⟨hrole, hbody, hlinked⟩
  | idle _ hp => obtain hp | hp := hp <;> cases hp.symm.trans hphase
  | torn hp | opening _ hp | paying _ _ hp => rw [hphase] at hp; cases hp

theorem Turn.opening_of {header : Parsed} {isTrojan : Bool} (ht : Turn o before part body h)
    (hphase : h.phase = .connect header isTrojan) :
    h.role = .streamUp none ∧ (∃ chunk, HeaderIn chunk header ∧ body = [chunk]) ∧ before = [] ∧
      part = [] ∧ o.writer = none ∧ o.writers = [] := by
  cases ht with
  | opening hrole hp hheader hbefore hpart hbody hnone =>
    cases hp.symm.trans hphase
    exact ⟨hrole, ⟨_, hheader, hbody⟩, hbefore, hpart, hnone⟩
  | idle _ hp => obtain hp | hp := hp <;> cases hp.symm.trans hphase
  | torn hp | metered _ hp | paying _ _ hp => rw [hphase] at hp; cases hp

theorem Turn.paying_of {w : ℕ} {isTrojan : Bool} (ht : Turn o before part body h)
    (hphase : h.phase = .payload w isTrojan) : w = 0 ∧ part = body ∧ o.writers.length = 1 := by
  cases ht with
  | paying _ _ hp hpart hopen =>
    cases hp.symm.trans hphase
    exact ⟨rfl, hpart, hopen⟩
  | idle _ hp => obtain hp | hp := hp <;> cases hp.symm.trans hphase
  | torn hp | metered _ hp | opening _ hp => rw [hphase] at hp; cases hp

end Turn

/-- A request that waits for a chunk can have the turn, when the other ones that had it are done. -/
theorem Session.Orderly.yield (ho : o.Orderly chunks ended order last part)
    (hh : o.handler? pid = some h) (hphase : h.phase = .input)
    (hfree : ∀ pid', pid' ≠ pid → chunks pid' ≠ [] → ended pid') :
    o.Linked ∧ ∃ order', o.Orderly chunks ended order' pid (chunks pid) := by
  have hmem := ho.not_mem hh
  by_cases hpid : pid = last
  · subst hpid
    by_cases hnil : chunks pid = []
    · have hpart : part = [] := List.prefix_nil.1 (hnil ▸ ho.part_le)
      exact ⟨ho.linked (.inl hnil), order, by rwa [hnil, ← hpart]⟩
    · obtain ⟨hpart, hlinked⟩ := (ho.turn h hh hnil).idle_of (.inl hphase)
      exact ⟨hlinked, order, hpart ▸ ho⟩
  have hnil : chunks pid = [] := ho.others pid (by simp [hpid, hmem])
  have hturn : ∀ before part' h', o.handler? pid = some h' → chunks pid ≠ [] →
      Turn o before part' (chunks pid) h' := fun _ _ _ _ hne => absurd hnil hne
  by_cases hlast : chunks last = []
  · have hpart : part = [] := List.prefix_nil.1 (hlast ▸ ho.part_le)
    refine ⟨ho.linked (.inl hlast), order, ?_⟩
    exact {
      nodup := List.nodup_cons.2 ⟨hmem, (List.nodup_cons.1 ho.nodup).2⟩
      whole := ho.whole
      part_le := List.prefix_rfl
      ended_part := fun _ => rfl
      others := fun pid' hpid' => by
        by_cases heq : pid' = last
        · rw [heq, hlast]
        · exact ho.others pid' (by simp_all)
      carries := by
        rw [hnil, ← hpart]
        exact ho.carries
      linked := fun _ => ho.linked (.inl hlast)
      gone := ho.gone
      fresh := ho.fresh
      aside := ho.aside
      waits := ho.waits
      turn := hturn _ _ }
  · have hend := hfree last (Ne.symm hpid) hlast
    refine ⟨ho.linked (.inr hend), order ++ [last], ?_⟩
    exact {
      nodup := by
        have hnodup := List.nodup_cons.1 ho.nodup
        simp only [List.nodup_cons, List.mem_append, List.mem_singleton, not_or,
          List.nodup_append, List.not_mem_nil, not_false_eq_true, List.nodup_nil, true_and,
          and_true]
        refine ⟨⟨hmem, hpid⟩, hnodup.2, fun a ha b hb => ?_⟩
        rintro rfl
        exact hnodup.1 (hb ▸ ha)
      whole := fun pid' hpid' => by
        obtain hold | hone := List.mem_append.1 hpid'
        · exact ho.whole pid' hold
        · rwa [List.mem_singleton.1 hone]
      part_le := List.prefix_rfl
      ended_part := fun _ => rfl
      others := fun pid' hpid' => ho.others pid' (by simp_all)
      carries := by
        rw [hnil, List.flatMap_append, List.append_nil, List.flatMap_singleton,
          ← ho.ended_part hend]
        exact ho.carries
      linked := fun _ => ho.linked (.inr hend)
      gone := ho.gone
      fresh := ho.fresh
      aside := ho.aside
      waits := ho.waits
      turn := hturn _ _ }

/-- The request whose turn it is goes on: it has read `body`, of which `part'` is written, and it
may have come to the end of its body. -/
theorem Session.Orderly.moved {fin : Prop} {t : Task} {body part' : List Bytes}
    (ho : o.Orderly chunks ended order pid part) (hh : o.handler? pid = some h)
    (hm : o.Moved pid t o') (hpart : part' <+: body)
    (hcarries : Carries o'.writers (order.flatMap chunks ++ part'))
    (hlinked : body = [] ∨ fin → o'.Linked)
    (hfin : fin → part' = body ∧ ∀ h', t ≠ .running h')
    (ht : ∀ h', t = .running h' → (∃ w, h'.role = .streamUp w) ∧
      (body = [] → h'.phase.outside = true → h'.phase = .input) ∧
      (body ≠ [] → Turn o' (order.flatMap chunks) part' body h')) :
    o'.Orderly (Function.update chunks pid body) (fun p => ended p ∨ p = pid ∧ fin) order pid
      part' := by
  have hmem := ho.not_mem hh
  have hbefore : order.flatMap (Function.update chunks pid body) = order.flatMap chunks :=
    List.flatMap_congr fun p hp => by
      rw [Function.update_of_ne]
      rintro rfl
      exact hmem hp
  have hself : Function.update chunks pid body pid = body := Function.update_self ..
  have hnot := ho.not_ended hh
  have hlt : pid < o.tasks.length :=
    (List.getElem?_eq_some_iff.1 (Session.handler?_eq_some.1 hh)).1
  -- a task other than `pid` that runs now ran before, or is a new pump
  have hother : ∀ p h', p ≠ pid → o'.handler? p = some h' →
      o.handler? p = some h' ∨ (o.tasks.length ≤ p ∧ Aside h') := by
    intro p h' hp hh'
    obtain ⟨heq, -⟩ | ⟨-, hold⟩ | hnew := hm.handler_of p h' hh'
    · exact absurd heq hp
    · exact .inl hold
    · exact .inr hnew
  have hmine : ∀ h', o'.handler? pid = some h' → t = .running h' := by
    intro h' hh'
    obtain ⟨-, heq⟩ | ⟨hne, -⟩ | ⟨hle, -⟩ := hm.handler_of pid h' hh'
    · exact heq
    · exact absurd rfl hne
    · exact absurd hlt (not_lt.2 hle)
  exact {
    nodup := ho.nodup
    whole := fun p hp => .inl (ho.whole p hp)
    part_le := by rwa [hself]
    ended_part := fun hend => by
      rw [hself]
      obtain hend | ⟨-, hend⟩ := hend
      · exact absurd hend hnot
      · exact (hfin hend).1
    others := fun p hp => by
      rw [Function.update_of_ne (fun heq => hp (by simp [heq]))]
      exact ho.others p hp
    carries := by rwa [hbefore]
    linked := fun hl => by
      rw [hself] at hl
      obtain hnil | hend | ⟨-, hend⟩ := hl
      · exact hlinked (.inl hnil)
      · exact absurd hend hnot
      · exact hlinked (.inr hend)
    gone := fun p hend => by
      refine Option.eq_none_iff_forall_ne_some.2 fun h' hh' => ?_
      obtain hend | ⟨rfl, hend⟩ := hend
      · have hp : p ≠ pid := fun heq => hnot (heq ▸ hend)
        obtain hold | ⟨hle, -⟩ := hother p h' hp hh'
        · rw [ho.gone p hend] at hold
          cases hold
        · exact (ho.fresh p hle).2 hend
      · exact (hfin hend).2 h' (hmine h' hh')
    fresh := fun p hp => by
      have hle := hm.tasks_le.trans hp
      have hne : p ≠ pid := (hlt.trans_le hle).ne'
      rw [Function.update_of_ne hne]
      exact ⟨(ho.fresh p hle).1, fun hend => hend.elim (ho.fresh p hle).2 fun heq => hne heq.1⟩
    aside := fun p h' hh' haside => by
      by_cases hp : p = pid
      · subst hp
        obtain ⟨⟨w, hrole⟩, -⟩ := ht h' (hmine h' hh')
        exact absurd hrole (not_streamUp_of_aside haside)
      · rw [Function.update_of_ne hp]
        obtain hold | ⟨hle, -⟩ := hother p h' hp hh'
        · exact ho.aside p h' hold haside
        · exact (ho.fresh p hle).1
    waits := fun p h' w hh' hrole hnil hout => by
      by_cases hp : p = pid
      · subst hp
        rw [hself] at hnil
        exact (ht h' (hmine h' hh')).2.1 hnil hout
      · rw [Function.update_of_ne hp] at hnil
        obtain hold | ⟨-, haside⟩ := hother p h' hp hh'
        · exact ho.waits p h' w hold hrole hnil hout
        · exact absurd hrole (not_streamUp_of_aside haside)
    turn := fun h' hh' hne => by
      rw [hself] at hne ⊢
      rw [hbefore]
      exact (ht h' (hmine h' hh')).2.2 hne }

/-- A request that has read nothing ends, and it is not its turn. -/
theorem Session.Orderly.leaves {t : Task} (ho : o.Orderly chunks ended order last part)
    (hh : o.handler? pid = some h) (hpid : pid ≠ last) (hsame : o.Alike o')
    (hm : o.Moved pid t o') (ht : ∀ h', t ≠ .running h') :
    o'.Orderly chunks (fun p => ended p ∨ p = pid) order last part := by
  have hrests : o.Rests o' := by
    refine ⟨hsame.1, hsame.2.1, hm.tasks_le, fun p h' hh' => ?_⟩
    obtain ⟨-, heq⟩ | ⟨-, hold⟩ | ⟨hle, haside⟩ := hm.handler_of p h' hh'
    · exact absurd heq (ht h')
    · exact .inl ⟨h', hold, rfl, .inl rfl⟩
    · exact .inr (.inr ⟨hle, .inr haside⟩)
  have ho' := ho.rests hrests
  have hlt : pid < o.tasks.length :=
    (List.getElem?_eq_some_iff.1 (Session.handler?_eq_some.1 hh)).1
  exact { ho' with
    whole := fun p hp => .inl (ho.whole p hp)
    ended_part := fun hend => hend.elim ho.ended_part fun heq => absurd heq.symm hpid
    linked := fun hl => ho'.linked (hl.imp_right fun hend => hend.elim id fun heq =>
      absurd heq.symm hpid)
    gone := fun p hend => by
      obtain hend | rfl := hend
      · exact ho'.gone p hend
      · refine Option.eq_none_iff_forall_ne_some.2 fun h' hh' => ?_
        obtain ⟨-, heq⟩ | ⟨hne, -⟩ | ⟨hle, -⟩ := hm.handler_of p h' hh'
        · exact ht h' heq
        · exact hne rfl
        · exact absurd hlt (not_lt.2 hle)
    fresh := fun p hp => ⟨(ho'.fresh p hp).1, fun hend => hend.elim (ho'.fresh p hp).2 fun heq =>
      absurd (hlt.trans_le (hm.tasks_le.trans hp)) (by rw [heq]; exact lt_irrefl _)⟩ }

theorem carries_write {cs : List Writer} {sent : List Bytes} (hc : Carries cs sent)
    (hone : cs.length = 1) (chunk : Bytes) :
    Carries (cs.modify 0 fun c => { c with written := c.written ++ chunk }) (sent ++ [chunk]) := by
  obtain ⟨c, rfl⟩ := List.length_eq_one_iff.1 hone
  cases sent with
  | nil => cases hc
  | cons first rest =>
    obtain ⟨header, hheader, hcontent⟩ := hc
    refine ⟨header, hheader, ?_⟩
    simp only [List.map_cons, List.map_nil, List.cons.injEq, and_true, Writer.content,
      Prod.mk.injEq] at hcontent
    simp [Writer.content, hcontent]

theorem streams_iff {h : Handler} (hrole : h.role = .streamUp writer) :
    h.streams = true ↔ h.phase = .input := by
  unfold Handler.streams
  rw [hrole]
  cases h.phase <;> simp

/-- No chunk is read, and no body comes to its end. -/
theorem quiet_of_not_input {h : Handler} (hrole : h.role = .streamUp writer) (inp : Input)
    (hquiet : h.phase = .input → (∀ data, inp = .data data → data = []) ∧ inp ≠ .finished) :
    h.read? inp = none ∧ h.finishes inp = false := by
  have hstreams := streams_iff hrole
  cases inp with
  | data data =>
    refine ⟨if_neg fun hread => hread.2 ?_, rfl⟩
    exact (hquiet (hstreams.1 hread.1)).1 data rfl
  | finished =>
    refine ⟨rfl, Bool.eq_false_iff.2 fun hfin => ?_⟩
    exact (hquiet (hstreams.1 hfin)).2 rfl
  | lost | go | failed => exact ⟨rfl, rfl⟩

/-- The session is orderly with what the request has read and ended behind the stretch. -/
def Session.OrderlyAfter (chunks : ℕ → List Bytes) (ended : ℕ → Prop) (pid : ℕ) (h : Handler)
    (inp : Input) (o : Session) : Prop :=
  ∃ order last part, o.Orderly (Function.update chunks pid (chunks pid ++ (h.read? inp).toList))
    (fun p => ended p ∨ p = pid ∧ h.finishes inp = true) order last part

/-- The request whose turn it is goes on with what it has read. -/
theorem Session.Orderly.goes {inp : Input} {h' : Handler} {w : Option ℕ} {part' : List Bytes}
    (ho : o.Orderly chunks ended order pid part) (hh : o.handler? pid = some h)
    (hne : chunks pid ≠ []) (hquiet : h.read? inp = none ∧ h.finishes inp = false)
    (hm : o.Moved pid (.running h') o') (hpart : part' <+: chunks pid)
    (hcarries : Carries o'.writers (order.flatMap chunks ++ part')) (hrole : h'.role = .streamUp w)
    (hturn : Turn o' (order.flatMap chunks) part' (chunks pid) h') :
    o'.OrderlyAfter chunks ended pid h inp := by
  obtain ⟨hread, hfin⟩ := hquiet
  unfold Session.OrderlyAfter
  rw [hread, hfin, Option.toList_none, List.append_nil]
  refine ⟨order, pid, part', ho.moved hh hm hpart hcarries ?_ (fun heq => by cases heq) ?_⟩
  · rintro (hnil | heq)
    · exact absurd hnil hne
    · cases heq
  · intro h'' heq
    cases heq
    exact ⟨⟨w, hrole⟩, fun hnil => absurd hnil hne, fun _ => hturn⟩

/-- Nothing is read, and the request stays where it is. -/
theorem Session.Orderly.stays {inp : Input} (ho : o.Orderly chunks ended order last part)
    (hquiet : h.read? inp = none ∧ h.finishes inp = false) (hrests : o.Rests o') :
    o'.OrderlyAfter chunks ended pid h inp := by
  obtain ⟨hread, hfin⟩ := hquiet
  have hchunks : Function.update chunks pid (chunks pid ++ (h.read? inp).toList) = chunks := by
    rw [hread, Option.toList_none, List.append_nil, Function.update_eq_self]
  have hended : (fun p => ended p ∨ p = pid ∧ h.finishes inp = true) = ended := by
    funext p
    simp [hfin]
  unfold Session.OrderlyAfter
  rw [hchunks, hended]
  exact ⟨order, last, part, ho.rests hrests⟩

/-- The task is set, without a change that matters to the requests. -/
theorem rests_setTask {o₁ : Session} {h' : Handler} (hh : o.handler? pid = some h)
    (hsame : o₁.writer = o.writer ∧ o₁.writers = o.writers ∧ o₁.tasks = o.tasks)
    (hrole : h'.role = h.role) (hphase : h'.phase = h.phase) :
    o.Rests (o₁.setTask pid (.running h')) := by
  have hm : o.Moved pid (.running h') (o₁.setTask pid (.running h')) :=
    moved_setTask pid _ (.inl hsame.2.2)
  refine ⟨hsame.1, congrArg _ hsame.2.1, hm.tasks_le, fun p h'' hh'' => ?_⟩
  obtain ⟨rfl, heq⟩ | ⟨-, hold⟩ | ⟨hle, haside⟩ := hm.handler_of p h'' hh''
  · cases heq
    exact .inl ⟨h, hh, hrole, .inl hphase⟩
  · exact .inl ⟨h'', hold, rfl, .inl rfl⟩
  · exact .inr (.inr ⟨hle, .inr haside⟩)

section Stretches

variable {inp : Input} {o₁ : Session} {chunk : Bytes} {header : Parsed} {isTrojan : Bool}

theorem Session.Orderly.idles {h' : Handler} (ho : o.Orderly chunks ended order last part)
    (hh : o.handler? pid = some h) (hrole : h.role = .streamUp writer)
    (hquiet : h.read? inp = none ∧ h.finishes inp = false) (hrole' : h'.role = h.role)
    (hphase' : h'.phase = .input) (hstays : h.phase = .input ∨ h.phase = .drain)
    (hsame : o₁.writer = o.writer ∧ o₁.writers = o.writers ∧ o₁.tasks = o.tasks) :
    (o₁.setTask pid (.running h')).OrderlyAfter chunks ended pid h inp := by
  obtain hinput | hdrain := hstays
  · exact ho.stays hquiet (rests_setTask hh hsame hrole' (hphase'.trans hinput.symm))
  · obtain ⟨rfl, hne, hturn⟩ := ho.acting hh hrole (by rw [hdrain]; rfl) (by rw [hdrain]; simp)
    obtain ⟨hpart, hlinked⟩ := hturn.idle_of (.inr hdrain)
    refine ho.goes hh hne hquiet (moved_setTask _ _ (.inl hsame.2.2)) ho.part_le ?_
      (hrole'.trans hrole) (.idle (hrole'.trans hrole) (.inl hphase') hpart
        (hlinked.of_same hsame.1 hsame.2.1))
    rw [show (Session.setTask _ _ _).writers = o.writers from hsame.2.1]
    exact ho.carries

/-- The request reads a chunk, and with it takes its turn. -/
theorem Session.Orderly.reads (ho : o.Orderly chunks ended order last part)
    (hh : o.handler? pid = some h) (hrole : h.role = .streamUp writer) (hphase : h.phase = .input)
    (hne : chunk ≠ []) (hwriter : writer = o.writer)
    (hfree : ∀ pid', pid' ≠ pid → chunks pid' ≠ [] → ended pid')
    (hsame : o₁.writer = o.writer ∧ o₁.writers = o.writers ∧ o₁.tasks = o.tasks) :
    (o₁.setTask pid (.running { h with phase := .meter chunk })).OrderlyAfter chunks ended pid h
      (.data chunk) := by
  have hread : h.read? (.data chunk) = some chunk := if_pos ⟨(streams_iff hrole).2 hphase, hne⟩
  have hfin : h.finishes (.data chunk) = false := rfl
  obtain ⟨hlinked, order', ho'⟩ := ho.yield hh hphase hfree
  unfold Session.OrderlyAfter
  rw [hread, hfin]
  refine ⟨order', pid, chunks pid, ho'.moved hh (moved_setTask _ _ (.inl hsame.2.2))
    (List.prefix_append _ _) ?_ ?_ (fun heq => by cases heq) ?_⟩
  · rw [show (Session.setTask _ _ _).writers = o.writers from hsame.2.1]
    exact ho'.carries
  · exact fun _ => hlinked.of_same hsame.1 hsame.2.1
  · intro h' heq
    cases heq
    refine ⟨⟨writer, hrole⟩, fun hnil => ?_, fun _ => .metered ?_ rfl rfl
      (hlinked.of_same hsame.1 hsame.2.1)⟩
    · simp at hnil
    · exact hrole.trans (congrArg _ (hwriter.trans hsame.1.symm))

/-- The body comes to its end. -/
theorem Session.Orderly.finishes (ho : o.Orderly chunks ended order last part)
    (hh : o.handler? pid = some h) (hrole : h.role = .streamUp writer) (hphase : h.phase = .input)
    (hsame : o₁.writer = o.writer ∧ o₁.writers = o.writers ∧ o₁.tasks = o.tasks) :
    (o₁.setTask pid (.done .ok)).OrderlyAfter chunks ended pid h .finished := by
  have hread : h.read? .finished = none := rfl
  have hfin : h.finishes .finished = true := (streams_iff hrole).2 hphase
  have hmoved : o.Moved pid (.done .ok) (o₁.setTask pid (.done .ok)) :=
    moved_setTask _ _ (.inl hsame.2.2)
  unfold Session.OrderlyAfter
  rw [hread, hfin, Option.toList_none, List.append_nil]
  by_cases hlast : pid = last
  · subst hlast
    have hdone : part = chunks pid ∧ o.Linked := by
      by_cases hnil : chunks pid = []
      · exact ⟨(List.prefix_nil.1 (hnil ▸ ho.part_le)).trans hnil.symm, ho.linked (.inl hnil)⟩
      · exact (ho.turn h hh hnil).idle_of (.inl hphase)
    refine ⟨order, pid, part, ho.moved hh hmoved ho.part_le ?_ ?_ ?_ fun h' heq => by cases heq⟩
    · rw [show (Session.setTask _ _ _).writers = o.writers from hsame.2.1]
      exact ho.carries
    · exact fun _ => hdone.2.of_same hsame.1 hsame.2.1
    · exact fun _ => ⟨hdone.1, fun h' heq => by cases heq⟩
  · have halike : o.Alike (o₁.setTask pid (.done .ok)) :=
      ⟨hsame.1, congrArg _ hsame.2.1, by simp [Session.setTask, hsame.2.2]⟩
    have hleaves := ho.leaves hh hlast halike hmoved fun h' heq => by cases heq
    have hended : (fun p => ended p ∨ p = pid ∧ true = true) = fun p => ended p ∨ p = pid := by
      funext p
      simp
    rw [Function.update_eq_self, hended]
    exact ⟨order, last, part, hleaves⟩

/-- The header is read in the first chunk of all. -/
theorem Session.Orderly.opens (ho : o.Orderly chunks ended order last part)
    (hh : o.handler? pid = some h) (hrole : h.role = .streamUp none)
    (hphase : h.phase = .meter chunk) (hheader : HeaderIn chunk header)
    (hsame : o₁.writer = o.writer ∧ o₁.writers = o.writers ∧ o₁.tasks = o.tasks) :
    (o₁.setTask pid (.running { h with phase := .connect header isTrojan })).OrderlyAfter chunks
      ended pid h inp := by
  have hinput : h.phase ≠ .input := by simp [hphase]
  have hquiet := quiet_of_not_input hrole inp fun hp => absurd hp hinput
  obtain ⟨rfl, hne, hturn⟩ := ho.acting hh hrole (by rw [hphase]; rfl) hinput
  obtain ⟨hrole', hbody, hlinked⟩ := hturn.metered_of hphase
  have hwriter : o.writer = none := (Role.streamUp.inj (hrole.symm.trans hrole')).symm
  have hnil : o.writers = [] := by
    obtain ⟨-, hnil⟩ | ⟨hsome, -⟩ := hlinked
    · exact hnil
    · rw [hwriter] at hsome
      cases hsome
  obtain ⟨hbefore, hpart⟩ := List.append_eq_nil_iff.1 (ho.carries.nil_iff.1 hnil)
  refine ho.goes hh hne hquiet (moved_setTask _ _ (.inl hsame.2.2)) ho.part_le ?_ hrole
    (.opening hrole rfl hheader hbefore hpart (by rw [hbody, hpart]; rfl)
      ⟨hsame.1.trans hwriter, hsame.2.1.trans hnil⟩)
  rw [show (Session.setTask _ _ _).writers = o.writers from hsame.2.1]
  exact ho.carries

/-- The chunk is written to the connection of the session. -/
theorem Session.Orderly.writes {w : ℕ} {phase : Phase} (ho : o.Orderly chunks ended order last part)
    (hh : o.handler? pid = some h) (hrole : h.role = .streamUp (some w))
    (hphase : h.phase = .meter chunk) (hnext : phase = .input ∨ phase = .drain)
    (hsame : o₁.writer = o.writer ∧ o₁.writers = (o.write w chunk).writers ∧ o₁.tasks = o.tasks) :
    (o₁.setTask pid (.running { h with phase })).OrderlyAfter chunks ended pid h inp := by
  have hinput : h.phase ≠ .input := by simp [hphase]
  have hquiet := quiet_of_not_input hrole inp fun hp => absurd hp hinput
  obtain ⟨rfl, hne, hturn⟩ := ho.acting hh hrole (by rw [hphase]; rfl) hinput
  obtain ⟨hrole', hbody, hlinked⟩ := hturn.metered_of hphase
  have hwriter : o.writer = some w := Role.streamUp.inj (hrole'.symm.trans hrole)
  obtain ⟨hnone, -⟩ | ⟨hzero, hone⟩ := hlinked
  · rw [hwriter] at hnone
    cases hnone
  · cases hwriter.symm.trans hzero
    have hpart : part ++ [chunk] <+: chunks pid := hbody ▸ List.prefix_rfl
    refine ho.goes hh hne hquiet (moved_setTask _ _ (.inl hsame.2.2)) hpart ?_ hrole
      (.idle hrole hnext hbody.symm (.inr ⟨hsame.1.trans hzero, ?_⟩))
    · rw [show (Session.setTask _ _ _).writers = (o.write 0 chunk).writers from hsame.2.1,
        ← List.append_assoc]
      exact carries_write ho.carries hone chunk
    · rw [show (Session.setTask _ _ _).writers = (o.write 0 chunk).writers from hsame.2.1]
      exact (List.length_modify ..).trans hone

/-- The first connection is there, and the payload behind the header is on its way. -/
theorem Session.Orderly.connects (ho : o.Orderly chunks ended order last part)
    (hh : o.handler? pid = some h) (hrole : h.role = .streamUp writer)
    (hphase : h.phase = .connect header isTrojan)
    (hsame : o₁.writer = o.writer ∧ o₁.writers = o.writers ++
      [⟨header.address, header.port, header.payload, false⟩] ∧ o₁.tasks = o.tasks) :
    (o₁.setTask pid (.running { h with phase := .payload o.writers.length isTrojan })).OrderlyAfter
      chunks ended pid h inp := by
  have hinput : h.phase ≠ .input := by simp [hphase]
  have hquiet := quiet_of_not_input hrole inp fun hp => absurd hp hinput
  obtain ⟨rfl, hne, hturn⟩ := ho.acting hh hrole (by rw [hphase]; rfl) hinput
  obtain ⟨hrole', ⟨first, hheader, hbody⟩, hbefore, -, -, hnil⟩ := hturn.opening_of hphase
  have hall : chunks pid <+: chunks pid := List.prefix_rfl
  refine ho.goes hh hne hquiet (moved_setTask _ _ (.inl hsame.2.2)) hall ?_ hrole'
    (.paying isTrojan hrole' (by rw [hnil]; rfl) rfl ?_)
  · rw [show (Session.setTask _ _ _).writers = _ from hsame.2.1, hnil, hbefore, hbody]
    exact ⟨header, hheader, by simp [Writer.content]⟩
  · rw [show (Session.setTask _ _ _).writers = _ from hsame.2.1, hnil]
    rfl

/-- The connection is entered: it is the first one, and all of the first chunk is written. -/
theorem Session.Orderly.enters {w : ℕ} {pump : Handler}
    (ho : o.Orderly chunks ended order last part) (hh : o.handler? pid = some h)
    (hrole : h.role = .streamUp writer) (hout : h.phase.outside = true) (hpump : Aside pump)
    (hphase : (∃ header isTrojan, h.phase = .connect header isTrojan ∧ w = o.writers.length ∧
        o₁.writers = o.writers ++ [⟨header.address, header.port, header.payload, false⟩]) ∨
      ∃ isTrojan, h.phase = .payload w isTrojan ∧ o₁.writers = o.writers)
    (hentered : o₁.writer = some w ∧ o₁.tasks = o.tasks ++ [.running pump]) :
    (o₁.setTask pid (.running
      { h with role := .streamUp (some w), phase := .input })).OrderlyAfter chunks ended pid h
        inp := by
  have hinput : h.phase ≠ .input := by
    obtain ⟨header, isTrojan, hp, -⟩ | ⟨isTrojan, hp, -⟩ := hphase <;> simp [hp]
  have hquiet := quiet_of_not_input hrole inp fun hp => absurd hp hinput
  obtain ⟨rfl, hne, hturn⟩ := ho.acting hh hrole hout hinput
  have hfirst : w = 0 ∧ o₁.writers.length = 1 ∧
      Carries o₁.writers (order.flatMap chunks ++ chunks pid) := by
    obtain ⟨header, isTrojan, hp, hw, hwriters⟩ | ⟨isTrojan, hp, hwriters⟩ := hphase
    · obtain ⟨-, ⟨first, hheader, hbody⟩, hbefore, -, -, hnil⟩ := hturn.opening_of hp
      rw [hwriters, hw, hnil, hbefore, hbody]
      exact ⟨rfl, rfl, header, hheader, by simp [Writer.content]⟩
    · obtain ⟨hzero, hpart, hopen⟩ := hturn.paying_of hp
      rw [hwriters, ← hpart]
      exact ⟨hzero, hopen, ho.carries⟩
  obtain ⟨rfl, hone, hcarries⟩ := hfirst
  have hmoved : o.Moved pid _ (o₁.setTask pid _) := moved_setTask pid
    (.running { h with role := .streamUp (some 0), phase := .input })
    (.inr ⟨pump, hpump, hentered.2⟩)
  exact ho.goes hh hne hquiet hmoved List.prefix_rfl hcarries rfl
    (.idle rfl (.inl rfl) rfl (.inr ⟨hentered.1, hone⟩))

/-- **A stretch of a request keeps the session orderly**, if it reads only when it may. -/
theorem Session.Orderly.streams (ho : o.Orderly chunks ended order last part)
    (hh : o.handler? pid = some h) (hrole : h.role = .streamUp writer)
    (hout : h.phase.outside = true) {next : Next} (hs : Streams h writer inp o o₁ next)
    (hexcl : h.read? inp ≠ none →
      writer = o.writer ∧ ∀ pid', pid' ≠ pid → chunks pid' ≠ [] → ended pid') :
    (o₁.setTask pid (next.left h)).OrderlyAfter chunks ended pid h inp := by
  cases hs with
  | idle hread hend hrole' hphase' hstays hsame =>
    have hquiet := quiet_of_not_input hrole inp fun hp => ⟨fun data => hread data hp, hend hp⟩
    exact ho.idles hh hrole hquiet hrole' hphase' hstays hsame
  | read data hphase hinp hne hsame =>
    subst hinp
    have hread : h.read? (.data data) = some data := if_pos ⟨(streams_iff hrole).2 hphase, hne⟩
    obtain ⟨hwriter, hfree⟩ := hexcl (by rw [hread]; simp)
    exact ho.reads hh hrole hphase hne hwriter hfree hsame
  | finished hphase hinp hsame =>
    subst hinp
    exact ho.finishes hh hrole hphase hsame
  | broken reply hlost hsame =>
    have hquiet := quiet_of_not_input hrole inp fun hp => by
      rw [hlost hp]
      exact ⟨fun data heq => (by cases heq), fun heq => by cases heq⟩
    exact ho.stays hquiet (rests_setTask hh hsame rfl rfl)
  | opening chunk header isTrojan hphase hnone hheader hsame =>
    exact ho.opens hh (hnone ▸ hrole) hphase hheader hsame
  | wrote chunk w phase hphase hsome hnext hsame =>
    exact ho.writes hh (hsome ▸ hrole) hphase hnext hsame
  | connected header isTrojan hphase hsame => exact ho.connects hh hrole hphase hsame
  | entered w pump hpump hphase hentered => exact ho.enters hh hrole hout hpump hphase hentered

end Stretches

end Orderly

/-! ### Runs -/

section Runs

variable {e : Engine} {s s' : Posts} {l : Label} {k : ℕ}

/-- The session, if there is one, is orderly, and nothing is on record for it if there is none. -/
def Posts.Orderly (k : ℕ) (s : Posts) : Prop :=
  match s.engine.objects[k]? with
  | none => ∀ pid, s.chunks k pid = [] ∧ (k, pid) ∉ s.ended
  | some o => ∃ order last part,
      o.Orderly (s.chunks k) (fun pid => (k, pid) ∈ s.ended) order last part

/-- A step of the engine, and what it adds to the record. -/
theorem post_step (hstep : (postMachine e).step s l = some s') :
    (machine e).step s.engine l = some s'.engine ∧
      s'.reads = s.reads ++ (readOf s.engine l).toList ∧
      s'.ended = s.ended ++ (endOf s.engine l).toList := by
  obtain ⟨engine, hengine, rfl⟩ := Option.map_eq_some_iff.1 hstep
  exact ⟨hengine, rfl, rfl⟩

/-- The chunks on record, with those that a step adds. -/
theorem chunks_step (hstep : (postMachine e).step s l = some s') (pid : ℕ) :
    s'.chunks k pid = s.chunks k pid ++ ((readOf s.engine l).toList.filterMap fun r =>
      if r.1 = k ∧ r.2.1 = pid then some r.2.2 else none) := by
  unfold Posts.chunks
  rw [(post_step hstep).2.1, List.filterMap_append]

theorem readOf_resume {pid : ℕ} {inp : Input} {m : Moment} {o : Session} {h : Handler}
    (ho : s.engine.objects[k]? = some o) (hh : o.handler? pid = some h) :
    readOf s.engine (.resume k pid inp m) = (h.read? inp).map (k, pid, ·) ∧
      endOf s.engine (.resume k pid inp m) = if h.finishes inp then some (k, pid) else none := by
  unfold readOf endOf
  dsimp only
  rw [ho, Option.bind_some, hh]
  exact ⟨rfl, rfl⟩

/-- A chunk that is read, and a body that ends, are those of a task that goes on. -/
theorem of_readOf {i pid : ℕ} {data : Bytes} (h : readOf s.engine l = some (i, pid, data)) :
    ∃ inp m o h, l = .resume i pid inp m ∧ s.engine.objects[i]? = some o ∧
      o.handler? pid = some h ∧ h.read? inp = some data := by
  cases l with
  | resume i' pid' inp m =>
    obtain ⟨h₀, hh, hread⟩ := Option.bind_eq_some_iff.1 h
    obtain ⟨o, ho, hget⟩ := Option.bind_eq_some_iff.1 hh
    obtain ⟨data', hread, heq⟩ := Option.map_eq_some_iff.1 hread
    cases heq
    exact ⟨inp, m, o, h₀, rfl, ho, hget, hread⟩
  | packetUp | streamUp | downlink | lose | reap | sweep | other => cases h

theorem of_endOf {i pid : ℕ} (h : endOf s.engine l = some (i, pid)) :
    ∃ inp m o h, l = .resume i pid inp m ∧ s.engine.objects[i]? = some o ∧
      o.handler? pid = some h ∧ h.finishes inp = true := by
  cases l with
  | resume i' pid' inp m =>
    obtain ⟨h₀, hh, hend⟩ := Option.bind_eq_some_iff.1 h
    obtain ⟨o, ho, hget⟩ := Option.bind_eq_some_iff.1 hh
    split_ifs at hend with hfin
    cases hend
    exact ⟨inp, m, o, h₀, rfl, ho, hget, hfin⟩
  | packetUp | streamUp | downlink | lose | reap | sweep | other => cases h

/-- Nothing is added to the record of the session if no request of it reads. -/
theorem record_still (hstep : (postMachine e).step s l = some s')
    (hstill : ∀ pid inp m o h, l = .resume k pid inp m → s.engine.objects[k]? = some o →
      o.handler? pid = some h → h.read? inp = none ∧ h.finishes inp = false) :
    s'.chunks k = s.chunks k ∧ ∀ pid, (k, pid) ∈ s'.ended ↔ (k, pid) ∈ s.ended := by
  refine ⟨?_, fun pid => ?_⟩
  · funext pid
    rw [chunks_step hstep]
    cases hread : readOf s.engine l with
    | none => simp
    | some r =>
      obtain ⟨i, pid', data⟩ := r
      obtain ⟨inp, m, o, h, rfl, ho, hh, hsome⟩ := of_readOf hread
      have hik : i ≠ k := by
        rintro rfl
        rw [(hstill pid' inp m o h rfl ho hh).1] at hsome
        cases hsome
      simp [hik]
  · rw [(post_step hstep).2.2, List.mem_append, or_iff_left]
    intro hmem
    obtain ⟨inp, m, o, h, rfl, ho, hh, htrue⟩ := of_endOf (Option.mem_toList.1 hmem)
    rw [(hstill pid inp m o h rfl ho hh).2] at htrue
    cases htrue

/-- What is added to the record of the session if one of its requests goes on. -/
theorem record_resume {pid : ℕ} {inp : Input} {m : Moment} {o : Session} {h : Handler}
    (hstep : (postMachine e).step s (.resume k pid inp m) = some s')
    (ho : s.engine.objects[k]? = some o) (hh : o.handler? pid = some h) :
    s'.chunks k = Function.update (s.chunks k) pid (s.chunks k pid ++ (h.read? inp).toList) ∧
      ∀ p, (k, p) ∈ s'.ended ↔ (k, p) ∈ s.ended ∨ p = pid ∧ h.finishes inp = true := by
  obtain ⟨hread, hend⟩ := readOf_resume (s := s) (m := m) (h := h) ho hh
  refine ⟨?_, fun p => ?_⟩
  · funext p
    rw [chunks_step hstep, hread]
    by_cases hp : p = pid
    · subst hp
      rw [Function.update_self]
      cases h.read? inp <;> simp
    · rw [Function.update_of_ne hp]
      cases h.read? inp <;> simp [Ne.symm hp]
  · rw [(post_step hstep).2.2, hend, List.mem_append]
    cases h.finishes inp <;> simp

theorem orderly_init (uuid mode : String) (now : ℚ) {chunks : ℕ → List Bytes} {ended : ℕ → Prop}
    (hnone : ∀ pid, chunks pid = [] ∧ ¬ ended pid) :
    (Session.init uuid mode now).Orderly chunks ended [] 0 [] where
  nodup := List.nodup_singleton 0
  whole pid hpid := by cases hpid
  part_le := List.nil_prefix
  ended_part hend := absurd hend (hnone 0).2
  others pid _ := (hnone pid).1
  carries := rfl
  linked _ := .inl ⟨rfl, rfl⟩
  gone pid hend := absurd hend (hnone pid).2
  fresh pid _ := hnone pid
  aside pid _ _ _ := (hnone pid).1
  waits pid h writer hh := by cases hh
  turn h hh := by cases hh

/-- A task that reads, or whose body ends, waits for its body. -/
theorem streams_of_record {h : Handler} {inp : Input}
    (hrecord : ¬ (h.read? inp = none ∧ h.finishes inp = false)) : h.streams = true := by
  by_contra hnot
  refine hrecord ?_
  cases inp with
  | data data => exact ⟨if_neg fun hread => hnot hread.1, rfl⟩
  | finished => exact ⟨rfl, Bool.eq_false_iff.2 hnot⟩
  | lost | go | failed => exact ⟨rfl, rfl⟩

theorem streams_cases {h : Handler} (hstreams : h.streams = true) :
    (∃ writer, h.role = .streamUp writer) ∧ h.phase = .input := by
  unfold Handler.streams at hstreams
  split at hstreams
  · rename_i writer hrole hphase
    exact ⟨⟨writer, hrole⟩, hphase⟩
  · cases hstreams

theorem ended_of_alone {pid pid' : ℕ} (halone : s.Alone k pid) (hpid : pid' ≠ pid)
    (hne : s.chunks k pid' ≠ []) : (k, pid') ∈ s.ended := by
  obtain ⟨data, hdata⟩ := List.exists_mem_of_ne_nil _ hne
  obtain ⟨r, hr, hsome⟩ := List.mem_filterMap.1 hdata
  split_ifs at hsome with hmine
  obtain ⟨hk, rfl⟩ := hmine
  exact halone r hr hk hpid

/-- **An exclusive step keeps a session orderly.** -/
theorem orderly_step (hs : s.Orderly k) (hexcl : Exclusive k s l)
    (hstep : (postMachine e).step s l = some s') : s'.Orderly k := by
  have hengine := (post_step hstep).1
  unfold Posts.Orderly at hs ⊢
  cases ho : s.engine.objects[k]? with
  | none =>
    rw [ho] at hs
    obtain ⟨hchunks, hended⟩ := record_still (k := k) hstep fun pid inp m o h _ ho' => by
      rw [ho] at ho'
      cases ho'
    have hnone : ∀ pid, s'.chunks k pid = [] ∧ (k, pid) ∉ s'.ended := fun pid => by
      rw [hchunks, hended]
      exact hs pid
    cases ho' : s'.engine.objects[k]? with
    | none => exact hnone
    | some o' =>
      obtain ⟨r, hr, -, -, -, rfl⟩ := object_born hengine ho ho'
      exact ⟨[], 0, [], (orderly_init _ _ _ hnone).rests (rests_serve hr _)⟩
  | some o =>
    rw [ho] at hs
    obtain ⟨order, last, part, hs⟩ := hs
    by_cases hact : ∃ pid inp m h, l = .resume k pid inp m ∧ o.handler? pid = some h ∧
        h.phase.outside = true
    · obtain ⟨pid, inp, m, h, rfl, hh, hphase⟩ := hact
      obtain ⟨out, o', hout, htends, ho'⟩ := object_resume hengine ho hh hphase
      obtain ⟨hchunks, hended⟩ := record_resume hstep ho hh
      have hexcl : h.Exclusive s k pid inp o := hexcl rfl o ho h hh
      rw [ho']
      show ∃ order last part, o'.Orderly _ _ order last part
      simp only [hchunks, hended]
      cases hrole : h.role with
      | packetUp seq =>
        have hpacket := hexcl.1
        unfold Handler.packet? at hpacket
        rw [hrole] at hpacket
        cases hpacket
      | streamUp writer =>
        have hwriter : h.writer? = writer := by
          unfold Handler.writer?
          rw [hrole]
        obtain ⟨order', last', part', hs'⟩ := hs.streams hh hrole hphase
          (proceed_streams hrole hout) fun hread =>
            ⟨hwriter ▸ (hexcl.2 hread).1, fun pid' => ended_of_alone (hexcl.2 hread).2⟩
        exact ⟨order', last', part', hs'.follows htends⟩
      | downlink | pump =>
        have haside : Aside h := by simp [Aside, hrole]
        have hquiet : h.read? inp = none ∧ h.finishes inp = false := by
          by_contra hrecord
          obtain ⟨⟨writer, hstream⟩, -⟩ := streams_cases (streams_of_record hrecord)
          exact not_streamUp_of_aside haside hstream
        obtain ⟨order', last', part', hs'⟩ := hs.stays hquiet (rests_aside hh haside hout)
        exact ⟨order', last', part', hs'.follows htends⟩
    · obtain ⟨hchunks, hended⟩ := record_still (k := k) hstep fun pid inp m o₀ h hl ho₀ hh => by
        rw [ho] at ho₀
        cases ho₀
        by_contra hrecord
        refine hact ⟨pid, inp, m, h, hl, hh, ?_⟩
        rw [(streams_cases (streams_of_record hrecord)).2]
        rfl
      obtain ⟨o₁, o', hstarts, htends, ho'⟩ := object_step hengine ho
      rw [ho']
      show ∃ order last part, o'.Orderly _ _ order last part
      simp only [hchunks, hended]
      refine ⟨order, last, part, Session.Orderly.follows ?_ htends⟩
      cases hstarts with
      | still => exact hs
      | serve hr hin hget =>
        rename_i r
        have hseen : o.Rests { o with lastSeen := r.now } :=
          rests_of_tended (.of_tasks rfl rfl) ⟨rfl, rfl, rfl⟩
        exact (hs.rests hseen).rests (rests_serve hr _)
      | stretch pid inp m hh hphase => exact absurd ⟨pid, inp, m, _, rfl, hh, hphase⟩ hact
      | lose w => exact hs.rests (rests_of_tended (.close o w) (alike_close o w))

/-- **A session whose steps are exclusive is sequential in every state of a run.** -/
theorem sequential_of_exclusive {world : World} {ls : List Label}
    (hrun : (postMachine e).run (.init world) ls = some s)
    (hexcl : (postMachine e).Along (Exclusive k) (.init world) ls) {o : Session}
    (ho : s.engine.objects[k]? = some o) :
    o.Sequential (s.chunks k) fun pid => (k, pid) ∈ s.ended := by
  have hinit : (Posts.init world).Orderly k :=
    fun pid => ⟨rfl, fun hmem => by cases hmem⟩
  have hs : s.Orderly k := Machine.run_invariant_along (I := fun s => s.Orderly k)
    (fun _ _ _ hs hexcl hstep => orderly_step hs hexcl hstep) hrun hexcl hinit
  unfold Posts.Orderly at hs
  rw [ho] at hs
  obtain ⟨order, last, part, hs⟩ := hs
  exact hs.sequential

end Runs

/-! ### Two requests on a session -/

/-- A `POST` that sends the header for 127.0.0.1 and one byte, and another one behind it. -/
def postsInTurn : List Label :=
  [.streamUp "alice" "s" 0 0, .resume 0 0 (.data Relay.VlessHeader.localhost.encode) (momentAt 0),
    .resume 0 0 .go (momentAt 0), .resume 0 0 .go (momentAt 0), .resume 0 0 (.data [1]) (momentAt 0),
    .resume 0 0 .go (momentAt 0), .resume 0 0 .finished (momentAt 0), .streamUp "alice" "s" 1 1,
    .resume 0 2 (.data [2]) (momentAt 1), .resume 0 2 .go (momentAt 1)]

theorem sequential_of_exclusive_in_turn : ∃ s o,
    (postMachine ⟨.vless, id⟩).run (.init emptyWorld) postsInTurn = some s ∧
      s.engine.objects[0]? = some o ∧ o.Sequential (s.chunks 0) (fun pid => (0, pid) ∈ s.ended) := by
  have hview : ((postMachine ⟨.vless, id⟩).run (.init emptyWorld) postsInTurn).map (fun s =>
      (s.engine.objects[0]?).isSome) = some true := by decide +kernel
  obtain ⟨s, hs, hobject⟩ := Option.map_eq_some_iff.1 hview
  obtain ⟨o, ho⟩ := Option.isSome_iff_exists.1 hobject
  exact ⟨s, o, hs, ho, sequential_of_exclusive hs (by decide +kernel) ho⟩

/-- Two `POST`s that send their first chunks while neither is connected. -/
def overlappingPosts : List Label :=
  [.streamUp "alice" "s" 0 0, .streamUp "alice" "s" 0 0,
    .resume 0 0 (.data Relay.VlessHeader.localhost.encode) (momentAt 0),
    .resume 0 0 .go (momentAt 0),
    .resume 0 1 (.data Relay.VlessHeader.localhost.encode) (momentAt 0),
    .resume 0 1 .go (momentAt 0), .resume 0 0 .go (momentAt 0), .resume 0 1 .go (momentAt 0)]

/-- Both of them open a connection. -/
theorem overlapping_posts_connect_twice : ∃ s o,
    (postMachine ⟨.vless, id⟩).run (.init emptyWorld) overlappingPosts = some s ∧
      s.engine.objects[0]? = some o ∧ o.writers.length = 2 ∧
      ¬ o.Sequential (s.chunks 0) (fun pid => (0, pid) ∈ s.ended) := by
  have hview : ((postMachine ⟨.vless, id⟩).run (.init emptyWorld) overlappingPosts).map (fun s =>
      (s.engine.objects[0]?).map fun o => o.writers.length) = some (some 2) := by decide +kernel
  obtain ⟨s, hs, hobject⟩ := Option.map_eq_some_iff.1 hview
  obtain ⟨o, ho, htwo⟩ := Option.map_eq_some_iff.1 hobject
  refine ⟨s, o, hs, ho, htwo, ?_⟩
  rintro ⟨order, last, part, -, -, -, -, -, hcarries⟩
  have hle := hcarries.length_le
  omega

end Xhttp

end RvgGateway
