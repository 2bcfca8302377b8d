import RvgGateway.Xhttp.Frame

/-!
# What a stretch does to its session

Most stretches of a handler leave a session as it was for everybody else: the same gate, the same
queue, the same connections open.  The others are few.

* `Session.Keeps` : the session is the same in these respects.
* `Effect` : the kinds of stretches, and `proceed_effect` : **every stretch is of one of them.**
-/

namespace RvgGateway

namespace Xhttp

open Quota (Gate)
open Relay (Parsed)

/-- Which connections of the session are closing. -/
def Session.closings (o : Session) : List Bool := o.writers.map Writer.closing

/-- The handler waits for a connection to be opened. -/
def Phase.opening : Phase → Bool
  | .connect .. | .payload .. => true
  | _ => false

/-- The three kinds of handlers. -/
inductive RoleKind where
  | upload
  | downlink
  | pump
  deriving DecidableEq

/-- The kind of a handler. -/
def Role.kind : Role → RoleKind
  | .packetUp _ | .streamUp _ => .upload
  | .downlink => .downlink
  | .pump .. => .pump

/-- The gate charges the same user, the entry in `connections` is there or not as before, and so are
the queue and the connections. -/
structure Session.Keeps (o o' : Session) : Prop where
  gate : ∀ g, o.gate = some g → ∃ g', o'.gate = some g' ∧ g'.uuid = g.uuid
  ended : o'.connBytes = none ↔ o.connBytes = none
  downQ : o'.downQ = o.downQ
  closings : o'.closings = o.closings

namespace Session

variable {o o₁ o₂ : Session}

theorem Keeps.refl (o : Session) : o.Keeps o := ⟨fun g hg => ⟨g, hg, rfl⟩, Iff.rfl, rfl, rfl⟩

theorem Keeps.trans (h₁ : o.Keeps o₁) (h₂ : o₁.Keeps o₂) : o.Keeps o₂ where
  gate g hg := by
    obtain ⟨g₁, hg₁, hu₁⟩ := h₁.gate g hg
    obtain ⟨g₂, hg₂, hu₂⟩ := h₂.gate g₁ hg₁
    exact ⟨g₂, hg₂, hu₂.trans hu₁⟩
  ended := h₂.ended.trans h₁.ended
  downQ := h₂.downQ.trans h₁.downQ
  closings := h₂.closings.trans h₁.closings

/-- A gate takes the place of the one with the same user. -/
theorem Keeps.setGate {g' : Gate} (hg' : ∀ g, o.gate = some g → g'.uuid = g.uuid) :
    o.Keeps { o with gate := some g' } :=
  ⟨fun g hg => ⟨g', rfl, hg' g hg⟩, Iff.rfl, rfl, rfl⟩

theorem Keeps.count (n : ℕ) : o.Keeps { o with connBytes := o.connBytes.map (· + n) } :=
  ⟨fun g hg => ⟨g, hg, rfl⟩, by simp, rfl, rfl⟩

theorem Keeps.write (w : ℕ) (data : Bytes) : o.Keeps (o.write w data) where
  gate g hg := ⟨g, hg, rfl⟩
  ended := Iff.rfl
  downQ := rfl
  closings := by
    unfold Session.closings Session.write
    refine List.ext_getElem? fun i => ?_
    simp only [List.getElem?_map, List.getElem?_modify]
    cases o.writers[i]? with
    | none => rfl
    | some c =>
      simp only [Option.map_some]
      split <;> rfl

/-- The user of the gate that an upload meets is the one of the gate there is, or its own. -/
theorem uuid_ensureGate {kind : Kind} {uuid : String} {monotonic : ℚ} {g : Gate}
    (hg : o.gate = some g) : (o.ensureGate kind uuid monotonic).uuid = g.uuid := by
  unfold ensureGate
  rw [hg]
  rfl

theorem isClosing_eq (o : Session) (w : ℕ) : o.isClosing w = o.closings[w]?.getD true := by
  unfold isClosing closings
  rw [List.getElem?_map]

end Session

/-- The stretch writes nothing to a connection. -/
def Outcome.Silent (out : Outcome) : Prop :=
  ∀ uuid owner data, .wrote uuid owner data ∈ out.events → data = []

/-- The handler goes on as what it is, and not towards a connection, or ends without an exception
that nobody catches. -/
structure Goes (h : Handler) (next : Next) : Prop where
  wait : ∀ h', next = .wait h' → h'.role.kind = h.role.kind ∧ h'.phase.opening = false
  ends : next ≠ .ends .crashed
  teardown : next ≠ .teardown .crashed

namespace Goes

variable {h h' : Handler} {reply : Reply}

theorem of_wait (hrole : h'.role.kind = h.role.kind) (hphase : h'.phase.opening = false) :
    Goes h (.wait h') :=
  ⟨fun _ heq => (by cases heq; exact ⟨hrole, hphase⟩), by simp, by simp⟩

theorem of_ends (hreply : reply ≠ .crashed) : Goes h (.ends reply) :=
  ⟨fun _ heq => (by cases heq), by simpa using hreply, by simp⟩

theorem of_teardown (hreply : reply ≠ .crashed) : Goes h (.teardown reply) :=
  ⟨fun _ heq => (by cases heq), by simp, by simpa using hreply⟩

end Goes

/-! ### Uploads behind their gate -/

/-- What an upload can do behind `gate.add`. -/
inductive Passed (h : Handler) (o : Session) (out : Outcome) : Prop
  | plain (keeps : o.Keeps out.session) (goes : Goes h out.next) (silent : out.Silent)
  | wrote (w : ℕ) (hopen : o.isClosing w = false) (keeps : o.Keeps out.session)
      (goes : Goes h out.next)
  | opened (header : Parsed) (isTrojan : Bool) (keeps : o.Keeps out.session)
      (hnext : out.next = .wait { h with phase := .connect header isTrojan })
      (hev : ∃ allowed, out.events = [.opened h.uuid allowed])
  | crashed (seq : ℤ) (hrole : h.role = .packetUp seq) (hconn : o.connBytes = none)
      (keeps : o.Keeps out.session) (hnext : out.next = .ends .crashed) (silent : out.Silent)

section Passed

variable (e : Engine) (m : Moment) (h : Handler) (world : World) (o : Session)

theorem silent_of_nil {out : Outcome} (hev : out.events = []) : out.Silent := by
  intro uuid owner data hmem
  rw [hev] at hmem
  cases hmem

theorem flushGate_keeps : o.Keeps (flushGate m world o).2 := by
  unfold flushGate
  cases hg : o.gate with
  | none => exact .refl o
  | some gate =>
    refine .setGate fun g hg' => ?_
    rw [hg] at hg'
    cases hg'
    exact (gate.flush_uuid_cls m.flush world.accounts).1

theorem abandon_passed {reply : Reply} (hreply : reply ≠ .crashed) :
    Passed h o (abandon m h world o reply) := by
  unfold abandon
  split
  · exact .plain (flushGate_keeps m world o) (.of_teardown hreply) (silent_of_nil rfl)
  · exact .plain (.refl o) (.of_teardown hreply) (silent_of_nil rfl)

theorem fail_passed : Passed h o (fail m h world o) := by
  unfold fail
  split <;> exact abandon_passed m h world o (by simp)

theorem openTcp_passed (chunk : Bytes) : Passed h o (openTcp e m h world o chunk) := by
  unfold openTcp
  rcases readHeader e h.uuid world chunk with ⟨_ | ⟨header, isTrojan⟩, world'⟩
  · exact fail_passed m h world' o
  · exact .opened header isTrojan (.refl o) rfl ⟨_, rfl⟩

variable {h o} in
/-- A session that keeps everything can be changed before. -/
theorem Passed.of_keeps {o' : Session} {out : Outcome} (hkeeps : o.Keeps o')
    (hpassed : Passed h o' out) : Passed h o out := by
  cases hpassed with
  | plain keeps goes silent => exact .plain (hkeeps.trans keeps) goes silent
  | wrote w hopen keeps goes =>
    refine .wrote w ?_ (hkeeps.trans keeps) goes
    rw [Session.isClosing_eq, ← hkeeps.closings, ← Session.isClosing_eq]
    exact hopen
  | opened header isTrojan keeps hnext hev =>
    exact .opened header isTrojan (hkeeps.trans keeps) hnext hev
  | crashed seq hrole hconn keeps hnext silent =>
    exact .crashed seq hrole (hkeeps.ended.1 hconn) (hkeeps.trans keeps) hnext silent

theorem finishPacket_goes (events : List Event) :
    Goes h (finishPacket m h world o events).next := by
  unfold finishPacket
  split
  · exact .of_wait rfl rfl
  · exact .of_ends (by simp)

theorem finishPacket_session (events : List Event) :
    (finishPacket m h world o events).session = o ∧
      (finishPacket m h world o events).events = events := by
  unfold finishPacket
  split <;> exact ⟨rfl, rfl⟩

theorem writePacket_passed (w : ℕ) (seq : ℤ) (data : Bytes) :
    Passed h o (writePacket m h world o w seq data) := by
  unfold writePacket
  split
  · split
    · exact fail_passed m h world o
    · rename_i hopen
      dsimp only
      refine .wrote w (by simpa using hopen) ?_ (finishPacket_goes m h world _ _)
      rw [(finishPacket_session m h world _ _).1]
      have hwrite : o.Keeps (o.write w (data ++ (Reorder.drain (seq + 1) o.seqBuf).2.2)) := .write w _
      exact ⟨hwrite.gate, hwrite.ended, hwrite.downQ, hwrite.closings⟩
  · obtain ⟨hsession, hevents⟩ :=
      finishPacket_session m h world { o with seqBuf := o.seqBuf.set seq data } []
    refine .plain ?_ (finishPacket_goes m h world _ _) (silent_of_nil hevents)
    rw [hsession]
    exact ⟨fun g hg => ⟨g, hg, rfl⟩, Iff.rfl, rfl, rfl⟩

theorem putPacket_passed (seq : ℤ) (data : Bytes) :
    Passed h o (putPacket e m h world o seq data) := by
  unfold putPacket
  split
  · split
    · exact openTcp_passed e m h world o data
    · exact .plain ⟨fun g hg => ⟨g, hg, rfl⟩, Iff.rfl, rfl, rfl⟩ (.of_ends (by simp))
        (silent_of_nil rfl)
  · exact writePacket_passed m h world o _ seq data

theorem putChunk_passed (writer : Option ℕ) (data : Bytes) :
    Passed h o (putChunk e m h world o writer data) := by
  unfold putChunk
  split
  · exact openTcp_passed e m h world o data
  · split
    · exact fail_passed m h world o
    · rename_i w hopen
      refine .wrote w (by simpa using hopen) (.write w data) (.of_wait rfl ?_)
      cases m.full <;> rfl

theorem upload_passed (data : Bytes) : Passed h o (upload e m h world o data) := by
  unfold upload
  split
  · rename_i seq hrole
    split
    · rename_i hconn
      exact .crashed seq hrole hconn (.refl o) rfl (silent_of_nil rfl)
    · rename_i bytes hconn
      have hkeeps : o.Keeps { o with connBytes := some (bytes + data.length) } :=
        ⟨fun g hg => ⟨g, hg, rfl⟩, by simp [hconn], rfl, rfl⟩
      exact (putPacket_passed e m h world _ seq data).of_keeps hkeeps
  · exact .of_keeps (.count data.length) (putChunk_passed e m h world _ _ data)
  · exact .plain (.refl o) (.of_ends (by simp)) (silent_of_nil rfl)

end Passed

/-! ### All stretches -/

/-- The pump puts data into the queue when it goes on. -/
def Puts (inp : Input) (m : Moment) (h : Handler) (world : World) (o : Session) : Prop :=
  ∃ w gate first data, h.role = .pump w gate first ∧ h.cancelled = false ∧ inp = .go ∧
    o.downQ.length < downlinkQueueMax ∧
    (h.phase = .put data ∨
      h.phase = .meter data ∧ (gate.add data.length m.reading world.accounts).1 = true)

/-- What a stretch can do. -/
inductive Effect (e : Engine) (inp : Input) (m : Moment) (h : Handler) (world : World) (o : Session)
    (out : Outcome) : Prop
  | plain (keeps : o.Keeps out.session) (goes : Goes h out.next) (silent : out.Silent)
  | wrote (w : ℕ) (hopen : o.isClosing w = false) (keeps : o.Keeps out.session)
      (goes : Goes h out.next)
  /-- An upload starts to open the connection. -/
  | opened (data : Bytes) (header : Parsed) (isTrojan : Bool) (hphase : h.phase = .meter data)
      (hinp : inp = .go) (hout : out = meterUpload e m h world o data) (keeps : o.Keeps out.session)
      (hgate : ∃ g, out.session.gate = some g ∧
        g.uuid = (o.ensureGate e.kind h.uuid m.reading.monotonic).uuid)
      (hnext : out.next = .wait { h with phase := .connect header isTrojan })
      (hev : ∃ allowed, out.events = [.opened h.uuid allowed])
  /-- An upload of a session whose entry in `connections` is gone. -/
  | crashed (data : Bytes) (seq : ℤ) (hphase : h.phase = .meter data) (hinp : inp = .go)
      (hrole : h.role = .packetUp seq) (hconn : o.connBytes = none)
      (hpass : ((o.ensureGate e.kind h.uuid m.reading.monotonic).add data.length m.reading
        world.accounts).1 = true)
      (keeps : o.Keeps out.session) (hnext : out.next = .ends .crashed) (silent : out.Silent)
  /-- The connection is there, and the payload behind the header is written to it. -/
  | connected (header : Parsed) (isTrojan : Bool) (hphase : h.phase = .connect header isTrojan)
      (hinp : inp = .go) (gate : out.session.gate = o.gate)
      (hconn : out.session.connBytes = o.connBytes) (downQ : out.session.downQ = o.downQ)
      (closings : out.session.closings = o.closings ++ [false])
      (hwait : ∀ h', out.next = .wait h' → h'.role.kind = h.role.kind)
      (hends : out.next ≠ .ends .crashed) (hstays : ∀ reply, out.next ≠ .teardown reply)
  /-- A download takes an item out of the queue, and ends with the end marker. -/
  | took (item : Option Bytes) (hrole : h.role = .downlink) (hphase : h.phase = .input)
      (hinp : inp = .go) (gate : out.session.gate = o.gate)
      (hconn : out.session.connBytes = o.connBytes) (downQ : o.downQ = item :: out.session.downQ)
      (closings : out.session.closings = o.closings)
      (hnext : out.next = if item = none then .ends .ok else .wait h) (silent : out.Silent)
  /-- The pump puts data into the queue. -/
  | put (data : Bytes) (hputs : Puts inp m h world o) (gate : out.session.gate = o.gate)
      (ended : out.session.connBytes = none ↔ o.connBytes = none)
      (downQ : out.session.downQ = o.downQ ++ [some data])
      (closings : out.session.closings = o.closings) (goes : Goes h out.next)
      (hwait : ∃ h', out.next = .wait h') (silent : out.Silent)

section Effect

variable (e : Engine) (inp : Input) (m : Moment) (h : Handler) (world : World) (o : Session)

variable {e inp m h world o} in
theorem effect_of_passed {out : Outcome} (hpassed : Passed h o out)
    (hno : ∀ allowed, out.events ≠ [.opened h.uuid allowed]) (hnc : out.next ≠ .ends .crashed) :
    Effect e inp m h world o out := by
  cases hpassed with
  | plain keeps goes silent => exact .plain keeps goes silent
  | wrote w hopen keeps goes => exact .wrote w hopen keeps goes
  | opened header isTrojan keeps hnext hev =>
    obtain ⟨allowed, hev⟩ := hev
    exact absurd hev (hno allowed)
  | crashed seq hrole hconn keeps hnext silent => exact absurd hnext hnc

theorem abandon_outcome (reply : Reply) : (abandon m h world o reply).events = [] ∧
    (abandon m h world o reply).next = .teardown reply := by
  unfold abandon
  split <;> exact ⟨rfl, rfl⟩

theorem abandon_effect {o' : Session} (hkeeps : o.Keeps o') {reply : Reply}
    (hreply : reply ≠ .crashed) (world' : World) :
    Effect e inp m h world o (abandon m h world' o' reply) := by
  obtain ⟨hev, hnext⟩ := abandon_outcome m h world' o' reply
  refine effect_of_passed ((abandon_passed m h world' o' hreply).of_keeps hkeeps) ?_ ?_
  · rw [hev]
    simp
  · rw [hnext]
    simp

theorem fail_effect {o' : Session} (hkeeps : o.Keeps o') (world' : World) :
    Effect e inp m h world o (fail m h world' o') := by
  unfold fail
  split <;> exact abandon_effect e inp m h world o hkeeps (by simp) world'

theorem meterUpload_effect (data : Bytes) (hphase : h.phase = .meter data) (hinp : inp = .go) :
    Effect e inp m h world o (meterUpload e m h world o data) := by
  set gate := o.ensureGate e.kind h.uuid m.reading.monotonic with hgate
  set res := gate.add data.length m.reading world.accounts with hres
  have huuid : res.2.1.uuid = gate.uuid := (gate.add_uuid_cls _ _ _).1
  have hkeeps : o.Keeps { o with gate := some res.2.1 } := by
    refine .setGate fun g hg => ?_
    rw [huuid]
    exact Session.uuid_ensureGate hg
  have hout : meterUpload e m h world o data =
      if res.1 then upload e m h { world with accounts := res.2.2 } { o with gate := some res.2.1 } data
      else abandon m h { world with accounts := res.2.2 } { o with gate := some res.2.1 }
        (.error 403 "quota/disabled/unknown") := rfl
  cases hpass : res.1 with
  | false =>
    rw [hpass, if_neg (by simp)] at hout
    rw [hout]
    exact abandon_effect e inp m h world o hkeeps (by simp) _
  | true =>
    rw [hpass, if_pos rfl] at hout
    have hpassed := upload_passed e m h { world with accounts := res.2.2 }
      { o with gate := some res.2.1 } data
    rw [← hout] at hpassed
    cases hpassed with
    | plain keeps goes silent => exact .plain (hkeeps.trans keeps) goes silent
    | wrote w hopen keeps goes => exact .wrote w hopen (hkeeps.trans keeps) goes
    | opened header isTrojan keeps hnext hev =>
      obtain ⟨g, hg, hgu⟩ := keeps.gate res.2.1 rfl
      exact .opened data header isTrojan hphase hinp rfl (hkeeps.trans keeps)
        ⟨g, hg, hgu.trans huuid⟩ hnext hev
    | crashed seq hrole hconn keeps hnext silent =>
      exact .crashed data seq hphase hinp hrole hconn hpass (hkeeps.trans keeps) hnext silent

/-- The drain of a closing connection writes nothing. -/
theorem drainSeqBuf_closing {w : ℕ} {nxt : ℤ} {res : ℤ × Dict ℤ Bytes × Bytes}
    (hdrain : drainSeqBuf o w nxt = .ok res) (hclosing : o.isClosing w = true) : res.2.2 = [] := by
  unfold drainSeqBuf at hdrain
  rw [hclosing, Bool.true_and] at hdrain
  split at hdrain
  · cases hdrain
  · rename_i hnot
    cases hdrain
    have hnone : o.seqBuf.get? nxt = none := by
      unfold Dict.contains at hnot
      simpa using hnot
    rw [Reorder.drain_of_none hnone]

theorem enterTcp_keeps (w : ℕ) (isTrojan : Bool) : o.Keeps (enterTcp e m h o w isTrojan) :=
  ⟨fun g hg => ⟨g, hg, rfl⟩, Iff.rfl, rfl, rfl⟩

theorem finishOpen_effect (w : ℕ) (isTrojan : Bool) :
    Effect e inp m h world o (finishOpen e m h world o w isTrojan) := by
  have henter := enterTcp_keeps e m h o w isTrojan
  unfold finishOpen afterOpen
  split
  · rename_i hrole
    exact .plain henter (.of_wait (by rw [hrole]; rfl) rfl) (silent_of_nil rfl)
  · split
    · rename_i seqBuf _
      have hkeeps : o.Keeps { enterTcp e m h o w isTrojan with seqBuf } :=
        ⟨henter.gate, henter.ended, henter.downQ, henter.closings⟩
      exact fail_effect e inp m h world o hkeeps world
    · rename_i nxt seqBuf data hdrain
      have hwrite := henter.trans (Session.Keeps.write w data)
      have hkeeps :
          o.Keeps { (enterTcp e m h o w isTrojan).write w data with seqBuf, nextSeq := nxt } :=
        ⟨hwrite.gate, hwrite.ended, hwrite.downQ, hwrite.closings⟩
      cases hclosing : o.isClosing w with
      | false => exact .wrote w hclosing hkeeps (.of_ends (by simp))
      | true =>
        have hnil := drainSeqBuf_closing _ hdrain hclosing
        refine .plain hkeeps (.of_ends (by simp)) fun uuid owner d hmem => ?_
        cases List.mem_singleton.1 hmem
        exact hnil

/-- On a connection that is not closing the rest of `_open_tcp_for_session` does not fail. -/
theorem finishOpen_open {w : ℕ} (isTrojan : Bool) (hopen : o.isClosing w = false) :
    (finishOpen e m h world o w isTrojan).session.gate = o.gate ∧
      (finishOpen e m h world o w isTrojan).session.connBytes = o.connBytes ∧
      (finishOpen e m h world o w isTrojan).session.downQ = o.downQ ∧
      (finishOpen e m h world o w isTrojan).session.closings = o.closings ∧
      (∀ h', (finishOpen e m h world o w isTrojan).next = .wait h' →
        h'.role.kind = h.role.kind) ∧
      (finishOpen e m h world o w isTrojan).next ≠ .ends .crashed ∧
      ∀ reply, (finishOpen e m h world o w isTrojan).next ≠ .teardown reply := by
  unfold finishOpen afterOpen
  cases hrole : h.role with
  | streamUp =>
    refine ⟨rfl, rfl, rfl, rfl, fun h' heq => ?_, by simp, by simp⟩
    cases heq
    rfl
  | packetUp | downlink | pump =>
    have hopen' : (enterTcp e m h o w isTrojan).isClosing w = false := hopen
    unfold drainSeqBuf
    rw [hopen', Bool.false_and, if_neg (by simp)]
    refine ⟨rfl, rfl, rfl, (Session.Keeps.write w _).closings, fun h' heq => ?_, by simp, by simp⟩
    cases heq

theorem connected_effect (header : Parsed) (isTrojan : Bool)
    (hphase : h.phase = .connect header isTrojan) (hinp : inp = .go) :
    Effect e inp m h world o (connected e m h world o header isTrojan) := by
  have hclosings : ∀ c : Writer, c.closing = false →
      Session.closings { o with writers := o.writers ++ [c] } = o.closings ++ [false] := by
    intro c hc
    unfold Session.closings
    rw [List.map_append, List.map_singleton, hc]
  have hlen : o.closings.length = o.writers.length := List.length_map _
  unfold connected
  dsimp only
  split
  · have hopen : Session.isClosing { o with writers := o.writers ++
        [⟨header.address, header.port, header.payload, false⟩] } o.writers.length = false := by
      rw [Session.isClosing_eq, hclosings _ rfl, ← hlen, List.getElem?_concat_length]
      rfl
    obtain ⟨hgate, hconn, hqueue, hclose, hwait, hends, hstays⟩ :=
      finishOpen_open e m h world _ isTrojan hopen
    exact .connected header isTrojan hphase hinp hgate hconn hqueue (hclose.trans (hclosings _ rfl))
      hwait hends hstays
  · refine .connected header isTrojan hphase hinp rfl rfl rfl (hclosings _ rfl) (fun h' heq => ?_)
      (by simp) (by simp)
    cases heq
    rfl

variable {e inp m h world o} {out : Outcome}

theorem proceedUpload_effect (hout : proceedUpload e inp m h world o = some out) :
    Effect e inp m h world o out := by
  unfold proceedUpload at hout
  split at hout
  case h_1 hphase => cases hout; exact meterUpload_effect e _ m h world o _ hphase rfl
  case h_2 hphase => cases hout; exact connected_effect e _ m h world o _ _ hphase rfl
  case h_3 => cases hout; exact finishOpen_effect e _ m h world o _ _
  case h_4 | h_5 | h_6 => cases hout; exact fail_effect e _ m h world o (.refl o) world
  case h_7 =>
    split at hout <;> cases hout
    · exact .plain (.refl o) (.of_wait rfl rfl) (silent_of_nil rfl)
    · exact .plain (.refl o) (.of_ends (by simp)) (silent_of_nil rfl)
  case h_8 => cases hout

theorem putData_effect {h' : Handler} {o' : Session} {world' : World} {data : Bytes}
    (hkeeps : o.Keeps o') (hgate : o'.gate = o.gate) (hkind : h'.role.kind = h.role.kind)
    (hputs : o.downQ.length < downlinkQueueMax → Puts inp m h world o) :
    Effect e inp m h world o (putData h' world' o' data) := by
  unfold putData
  split
  · rename_i hroom
    refine .put data (hputs (hkeeps.downQ ▸ hroom)) hgate hkeeps.ended ?_ hkeeps.closings
      (.of_wait hkind rfl) ⟨_, rfl⟩ (silent_of_nil rfl)
    dsimp only
    rw [hkeeps.downQ]
  · exact .plain hkeeps (.of_wait hkind rfl) (silent_of_nil rfl)

theorem endPump_effect {gate : Gate} {o' : Session} {world' : World} (hkeeps : o.Keeps o') :
    Effect e inp m h world o (endPump m gate world' o') :=
  .plain hkeeps (.of_teardown (by simp)) (silent_of_nil rfl)

theorem proceedPump_effect {w : ℕ} {gate : Gate} {first : Bool} (hrole : h.role = .pump w gate first)
    (hout : proceedPump e inp m h world o w gate first = some out) :
    Effect e inp m h world o out := by
  have hkind : h.role.kind = .pump := by rw [hrole]; rfl
  unfold proceedPump at hout
  split at hout
  case h_1 => cases hout; exact .plain (.refl o) (.of_ends (by simp)) (silent_of_nil rfl)
  case h_2 =>
    cases hout
    exact .plain (.refl o) (.of_wait hkind.symm rfl) (silent_of_nil rfl)
  case h_3 | h_4 | h_5 | h_7 => cases hout; exact endPump_effect (.refl o)
  case h_6 =>
    split at hout <;> cases hout
    · exact endPump_effect (.refl o)
    · exact .plain (.refl o) (.of_wait rfl rfl) (silent_of_nil rfl)
  case h_8 hcancelled hphase =>
    cases hout
    unfold meterPump
    dsimp only
    split
    · rename_i hpass
      exact putData_effect (.count _) rfl hkind.symm fun hroom =>
        ⟨w, gate, first, _, hrole, hcancelled, rfl, hroom, .inr ⟨hphase, hpass⟩⟩
    · exact endPump_effect (.refl o)
  case h_9 hcancelled hphase =>
    cases hout
    exact putData_effect (.refl o) rfl rfl fun hroom =>
      ⟨w, gate, first, _, hrole, hcancelled, rfl, hroom, .inl hphase⟩
  case h_10 => cases hout

/-- **Every stretch** is of one of these kinds. -/
theorem proceed_effect (hout : proceed e inp m h world o = some out) :
    Effect e inp m h world o out := by
  unfold proceed at hout
  split at hout
  · unfold proceedPacketUp at hout
    split at hout
    · split at hout <;> cases hout
      · exact .plain (.refl o) (.of_ends (by simp)) (silent_of_nil rfl)
      · refine .plain (.setGate fun g hg => ?_) (.of_wait rfl rfl) (silent_of_nil rfl)
        exact Session.uuid_ensureGate hg
    · cases hout; exact .plain (.refl o) (.of_ends (by simp)) (silent_of_nil rfl)
    · exact proceedUpload_effect hout
  · unfold proceedStreamUp at hout
    split at hout
    · rename_i hphase
      split at hout <;> cases hout
      · refine .plain (.refl o) (.of_wait rfl ?_) (silent_of_nil rfl)
        rw [hphase]
        rfl
      · exact .plain ⟨fun g hg => ⟨g, hg, rfl⟩, Iff.rfl, rfl, rfl⟩ (.of_wait rfl rfl)
          (silent_of_nil rfl)
    · cases hout
      exact .plain (flushGate_keeps m world o) (.of_ends (by simp)) (silent_of_nil rfl)
    · cases hout; exact fail_effect e _ m h world o (.refl o) world
    · exact proceedUpload_effect hout
  · rename_i hrole
    unfold proceedDownlink at hout
    split at hout
    · rename_i hphase
      split at hout <;> cases hout
      · rename_i hqueue
        exact .took none hrole hphase rfl rfl rfl hqueue rfl rfl (silent_of_nil rfl)
      · rename_i hqueue
        refine .took (some _) hrole hphase rfl rfl rfl hqueue rfl rfl fun uuid owner d hmem => ?_
        cases List.mem_singleton.1 hmem
    · cases hout; exact .plain (.refl o) (.of_ends (by simp)) (silent_of_nil rfl)
    · cases hout
  · rename_i hrole
    exact proceedPump_effect hrole hout

/-- A pump that can put data does so, and goes on. -/
theorem proceed_puts (hputs : Puts inp m h world o) :
    ∃ out data h', proceed e inp m h world o = some out ∧
      out.session.downQ = o.downQ ++ [some data] ∧
      (out.session.connBytes = none ↔ o.connBytes = none) ∧ out.next = .wait h' := by
  obtain ⟨w, gate, first, data, hrole, hcancelled, rfl, hroom, hphase⟩ := hputs
  have hput : ∀ (h' : Handler) (world' : World) (o' : Session) (data' : Bytes), o.Keeps o' →
      ∃ h'', (putData h' world' o' data').session.downQ = o.downQ ++ [some data'] ∧
        ((putData h' world' o' data').session.connBytes = none ↔ o.connBytes = none) ∧
        (putData h' world' o' data').next = .wait h'' := by
    intro h' world' o' data' hkeeps
    unfold putData
    rw [if_pos (hkeeps.downQ.symm ▸ hroom)]
    exact ⟨_, by dsimp only; rw [hkeeps.downQ], hkeeps.ended, rfl⟩
  unfold proceed proceedPump
  simp only [hrole, hcancelled]
  rcases hphase with hphase | ⟨hphase, hpass⟩
  · simp only [hphase]
    obtain ⟨h'', hqueue, hended, hnext⟩ := hput h world o data (.refl o)
    exact ⟨_, data, h'', rfl, hqueue, hended, hnext⟩
  · simp only [hphase]
    unfold meterPump
    simp only [hpass, if_true]
    obtain ⟨h'', hqueue, hended, hnext⟩ := hput _ _ _ _ (.count data.length)
    exact ⟨_, _, h'', rfl, hqueue, hended, hnext⟩

/-- Only a connect that succeeds changes which connections are open, and the request goes on. -/
theorem closings_or_connected {out : Outcome} (hout : proceed e inp m h world o = some out) :
    out.session.closings = o.closings ∨
      (inp = .go ∧ (∃ header isTrojan, h.phase = .connect header isTrojan) ∧
        ∀ reply, out.next ≠ .teardown reply) := by
  cases proceed_effect hout with
  | plain keeps | wrote _ _ keeps => exact .inl keeps.closings
  | opened _ _ _ _ _ _ keeps => exact .inl keeps.closings
  | crashed _ _ _ _ _ _ _ keeps => exact .inl keeps.closings
  | connected header isTrojan hphase hinp _ _ _ _ _ _ hstays =>
    exact .inr ⟨hinp, ⟨header, isTrojan, hphase⟩, hstays⟩
  | took _ _ _ _ _ _ _ closings => exact .inl closings
  | put _ _ _ _ _ closings => exact .inl closings

end Effect

end Xhttp

end RvgGateway
