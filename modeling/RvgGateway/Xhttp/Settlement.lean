import RvgGateway.Xhttp.Charging
import RvgGateway.Xhttp.Held
import RvgGateway.Xhttp.StreamUp

/-!
# Is an upload charged when its session has ended?

A gate lets bytes pass and charges them in batches.  `stream_up_upload` flushes the gate of its
session wherever it ends; `packet_up_upload` never does, and `_teardown` does not know the gate.

* `Settled` : when a session was torn down and its tasks have come to their end, nothing is pending
  at its gate.
* `Covered` : such a session is not left *owing*: behind the last packet that its gate let pass
  uncharged, the gate made a check for an upload or a `stream-up` request came to its end.
* `settled_iff_covered` : **the state that a run reaches is settled exactly when it is covered.**
-/

namespace RvgGateway

namespace Xhttp

open Quota (Gate)
open Relation (ReflTransGen)

/-! ### The engine with the sessions that are left owing -/

/-- The bytes of uploads that were let pass and not charged yet. -/
def Session.uncharged (o : Session) : ℕ := (o.gate.map Gate.pending).getD 0

/-- The session was torn down, and its tasks have come to their end. -/
def Session.Finished (o : Session) : Prop := o.closed = true ∧ ∀ t ∈ o.tasks, t.handler? = none

instance (o : Session) : Decidable o.Finished := inferInstanceAs (Decidable (_ ∧ _))

/-- An engine, and the sessions that are left owing for a packet. -/
structure Debts where
  engine : EngineState
  owing : ℕ → Bool

namespace Debts

/-- An engine without sessions. -/
def init (world : World) : Debts := ⟨.init world, fun _ => false⟩

end Debts

section Debt

variable (e : Engine) (inp : Input) (m : Moment) (world : World) (o : Session) (h : Handler)

/-- The bytes of an upload that comes to its gate. -/
def Handler.metering? (h : Handler) (inp : Input) : Option Bytes :=
  match h.role, h.phase, inp with
  | .packetUp _, .meter data, .go | .streamUp _, .meter data, .go => some data
  | _, _, _ => none

/-- The gate makes a check for the upload. -/
def Handler.charges : Bool :=
  match h.metering? inp with
  | none => false
  | some data =>
    let gate := o.ensureGate e.kind h.uuid m.reading.monotonic
    gate.ok && gate.due m.reading data.length

/-- The bytes of the upload that the gate lets pass without a check. -/
def Handler.deferred : ℕ :=
  match h.metering? inp with
  | none => 0
  | some data =>
    let gate := o.ensureGate e.kind h.uuid m.reading.monotonic
    if gate.ok && !gate.due m.reading data.length then data.length else 0

/-- A `stream-up` request comes to its end. -/
def Handler.ends : Bool :=
  match h.role with
  | .streamUp _ =>
    match (proceed e inp m h world o).map Outcome.next with
    | some (.ends _) | some (.teardown _) => true
    | _ => false
  | _ => false

/-- The session is left owing behind the stretch. -/
def Handler.owes (before : Bool) : Bool :=
  if h.charges e inp m o || h.ends e inp m world o then false
  else if h.packet?.isSome && 0 < h.deferred e inp m o then true
  else before

end Debt

/-- The sessions that are left owing behind a step. -/
def Debts.after (e : Engine) (s : Debts) : Label → ℕ → Bool
  | .resume k pid inp m =>
    match s.engine.objects[k]? with
    | none => s.owing
    | some o =>
      match o.handler? pid with
      | none => s.owing
      | some h => Function.update s.owing k (h.owes e inp m s.engine.world o (s.owing k))
  | _ => s.owing

/-- The engine with its record of debts. -/
def debtMachine (e : Engine) : Machine Debts Label where
  step s l := ((machine e).step s.engine l).map fun engine => ⟨engine, s.after e l⟩

/-! ### The claim and its condition -/

/-- Nothing is pending at the gate of a session that has come to its end. -/
def Debts.Settled (s : Debts) : Prop :=
  ∀ (k : ℕ) (o : Session), s.engine.objects[k]? = some o → o.Finished → o.uncharged = 0

/-- No session that has come to its end is left owing. -/
def Debts.Covered (s : Debts) : Prop :=
  ∀ (k : ℕ) (o : Session), s.engine.objects[k]? = some o → o.Finished → s.owing k = false

/-! ### What a stretch leaves pending -/

section Stretch

variable {e : Engine} {inp : Input} {m : Moment} {world : World} {o o' : Session} {h : Handler}
  {out : Outcome}

/-- What is pending behind the call of `gate.add` of an upload, if the stretch makes one. -/
def Handler.pendingAfter (e : Engine) (inp : Input) (m : Moment) (o : Session) (h : Handler) : ℕ :=
  if h.charges e inp m o then 0 else o.uncharged + h.deferred e inp m o

theorem uncharged_of_gate (hgate : o'.gate = o.gate) : o'.uncharged = o.uncharged := by
  unfold Session.uncharged
  rw [hgate]

theorem pending_ensureGate (kind : Kind) (uuid : String) (monotonic : ℚ) (o : Session) :
    (o.ensureGate kind uuid monotonic).pending = o.uncharged := by
  unfold Session.ensureGate Session.uncharged
  cases o.gate <;> rfl

theorem flushGate_uncharged (m : Moment) (world : World) (o : Session) :
    (flushGate m world o).2.uncharged = 0 := by
  unfold flushGate Session.uncharged
  cases hgate : o.gate with
  | none => simp [hgate]
  | some gate =>
    obtain ⟨hzero, heq⟩ | ⟨-, -, heq⟩ | ⟨-, -, heq⟩ := gate.flush_cases m.flush world.accounts
    · simp [heq, hzero]
    · simp [heq, Gate.settled]
    · simp [heq, Gate.settled]

/-- The gate behind `gate.add`. -/
theorem pending_add {data : Bytes} (hmeter : h.metering? inp = some data) (a : Accounts) :
    ((o.ensureGate e.kind h.uuid m.reading.monotonic).add data.length m.reading a).2.1.pending =
      h.pendingAfter e inp m o := by
  unfold Handler.pendingAfter Handler.charges Handler.deferred
  rw [hmeter]
  dsimp only
  rw [← pending_ensureGate e.kind h.uuid m.reading.monotonic o]
  obtain ⟨hok, heq⟩ | ⟨hok, hdue, hlt, heq⟩ | ⟨hok, hdue, heq⟩ :=
    (o.ensureGate e.kind h.uuid m.reading.monotonic).add_cases data.length m.reading a
  · simp [heq, hok]
  · simp [heq, hok, hdue, Gate.defer]
  · simp [heq, hok, hdue, Gate.checked]

theorem pendingAfter_quiet (hmeter : h.metering? inp = none) :
    h.pendingAfter e inp m o = o.uncharged := by
  unfold Handler.pendingAfter Handler.charges Handler.deferred
  rw [hmeter]
  rfl

/-- Behind the stretch `pending` bytes are pending, but none if it is the end of a `stream-up`
request. -/
structure Pays (h : Handler) (out : Outcome) (pending : ℕ) : Prop where
  flushed : (∃ writer, h.role = .streamUp writer) → (∀ h', out.next ≠ .wait h') →
    out.session.uncharged = 0
  kept : ((∃ writer, h.role = .streamUp writer) → ∃ h', out.next = .wait h') →
    out.session.uncharged = pending

theorem Pays.of_wait {h' : Handler} {pending : ℕ} (hnext : out.next = .wait h')
    (hpending : out.session.uncharged = pending) : Pays h out pending where
  flushed _ hend := absurd hnext (hend h')
  kept _ := hpending

theorem Pays.of_other {pending : ℕ} (hrole : ∀ writer, h.role ≠ .streamUp writer)
    (hpending : out.session.uncharged = pending) : Pays h out pending where
  flushed hstream _ := absurd hstream fun ⟨writer, heq⟩ => hrole writer heq
  kept _ := hpending

theorem abandon_pays (m : Moment) (h : Handler) (world : World) (o : Session) (reply : Reply) :
    Pays h (abandon m h world o reply) o.uncharged := by
  unfold abandon
  split
  · rename_i writer hrole
    refine ⟨fun _ _ => flushGate_uncharged m world o, fun hwait => ?_⟩
    obtain ⟨h', heq⟩ := hwait ⟨writer, hrole⟩
    cases heq
  · rename_i hrole
    exact .of_other hrole rfl

theorem fail_pays (m : Moment) (h : Handler) (world : World) (o : Session) :
    Pays h (fail m h world o) o.uncharged := by
  unfold fail
  split <;> exact abandon_pays m h world o _

theorem openTcp_pays (chunk : Bytes) : Pays h (openTcp e m h world o chunk) o.uncharged := by
  unfold openTcp
  split
  · exact fail_pays m h _ o
  · exact .of_wait rfl rfl

theorem finishPacket_pays {events : List Event} (hrole : ∀ writer, h.role ≠ .streamUp writer) :
    Pays h (finishPacket m h world o events) o.uncharged := by
  unfold finishPacket
  split
  · exact .of_wait rfl rfl
  · exact .of_other hrole rfl

theorem writePacket_pays (w : ℕ) (seq : ℤ) (data : Bytes)
    (hrole : ∀ writer, h.role ≠ .streamUp writer) :
    Pays h (writePacket m h world o w seq data) o.uncharged := by
  unfold writePacket
  split
  · split
    · exact fail_pays m h world o
    · exact finishPacket_pays hrole
  · exact finishPacket_pays hrole

theorem upload_pays (data : Bytes) : Pays h (upload e m h world o data) o.uncharged := by
  unfold upload
  split
  · rename_i seq hseq
    have hrole : ∀ writer, h.role ≠ .streamUp writer := fun writer heq => by
      rw [hseq] at heq
      cases heq
    split
    · exact .of_other hrole rfl
    · unfold putPacket
      split
      · split
        · exact openTcp_pays data
        · exact .of_other hrole rfl
      · exact writePacket_pays _ seq data hrole
  · unfold putChunk
    split
    · exact openTcp_pays data
    · split
      · exact fail_pays m h world _
      · exact .of_wait rfl rfl
  · rename_i hrole
    exact .of_other hrole rfl

/-- `gate.add` of an upload, and the stretch behind it. -/
theorem meterUpload_pays {data : Bytes} (hmeter : h.metering? inp = some data) :
    Pays h (meterUpload e m h world o data) (h.pendingAfter e inp m o) := by
  rw [← pending_add hmeter world.accounts]
  unfold meterUpload
  dsimp only
  split
  · exact upload_pays data
  · exact abandon_pays m h _ _ _

theorem finishOpen_pays (w : ℕ) (isTrojan : Bool) :
    Pays h (finishOpen e m h world o w isTrojan) o.uncharged := by
  unfold finishOpen afterOpen
  split
  · exact .of_wait rfl rfl
  · rename_i hrole
    split
    · exact fail_pays m h world _
    · exact .of_other hrole rfl

theorem connected_pays (header : Relay.Parsed) (isTrojan : Bool) :
    Pays h (connected e m h world o header isTrojan) o.uncharged := by
  unfold connected
  dsimp only
  split
  · exact finishOpen_pays _ isTrojan
  · exact .of_wait rfl rfl

theorem metering?_of_phase (hphase : ∀ data, h.phase ≠ .meter data) : h.metering? inp = none := by
  unfold Handler.metering?
  split
  · rename_i hmeter
    exact absurd hmeter (hphase _)
  · rename_i hmeter
    exact absurd hmeter (hphase _)
  · rfl

theorem metering?_of_role (hrole : Upload.Aside h) : h.metering? inp = none := by
  unfold Handler.metering?
  obtain hrole | ⟨w, gate, first, hrole⟩ := hrole <;> simp only [hrole]

theorem metering?_meter {data : Bytes} (hupload : h.role.kind = .upload)
    (hphase : h.phase = .meter data) : h.metering? .go = some data := by
  unfold Handler.metering?
  rw [hphase]
  cases hrole : h.role with
  | packetUp | streamUp => rfl
  | downlink | pump =>
    rw [hrole] at hupload
    cases hupload

/-- A stretch that comes to no gate. -/
theorem Pays.of_quiet (hpays : Pays h out o.uncharged) (hquiet : h.metering? inp = none) :
    Pays h out (h.pendingAfter e inp m o) := by
  rw [pendingAfter_quiet hquiet]
  exact hpays

/-- The stretches of an upload behind its input. -/
theorem proceedUpload_pays (hupload : h.role.kind = .upload)
    (hout : proceedUpload e inp m h world o = some out) :
    Pays h out (h.pendingAfter e inp m o) := by
  have haway : ∀ {phase : Phase}, h.phase = phase → (∀ data, phase ≠ .meter data) →
      h.metering? inp = none :=
    fun hphase hne => metering?_of_phase fun data => hphase ▸ hne data
  unfold proceedUpload at hout
  split at hout
  case h_1 hphase =>
    cases hout
    exact meterUpload_pays (metering?_meter hupload hphase)
  case h_2 hphase =>
    cases hout
    exact (connected_pays _ _).of_quiet (haway hphase (by simp))
  case h_3 hphase =>
    cases hout
    exact (finishOpen_pays _ _).of_quiet (haway hphase (by simp))
  case h_4 hphase | h_5 hphase | h_6 hphase =>
    cases hout
    exact (fail_pays m h world o).of_quiet (haway hphase (by simp))
  case h_7 hphase =>
    split at hout
    · cases hout
      have hpays : Pays h ⟨world, o, .wait { h with phase := .input }, []⟩ o.uncharged :=
        .of_wait rfl rfl
      exact hpays.of_quiet (haway hphase (by simp))
    · rename_i hrole
      cases hout
      have hpays : Pays h ⟨world, o, .ends .ok, []⟩ o.uncharged := .of_other hrole rfl
      exact hpays.of_quiet (haway hphase (by simp))
  case h_8 => cases hout

/-- Downloads and pumps leave the gate of the session alone. -/
theorem proceed_gate_aside (haside : Upload.Aside h) (hout : proceed e inp m h world o = some out) :
    out.session.gate = o.gate := by
  have hput : ∀ (h : Handler) (world : World) (o : Session) (data : Bytes),
      (putData h world o data).session.gate = o.gate := by
    intro h world o data
    unfold putData
    split <;> rfl
  unfold proceed at hout
  obtain hrole | ⟨w, gate, first, hrole⟩ := haside
  · rw [hrole] at hout
    dsimp only at hout
    unfold proceedDownlink at hout
    split at hout
    · split at hout <;> cases hout <;> rfl
    · cases hout
      rfl
    · cases hout
  · rw [hrole] at hout
    dsimp only at hout
    unfold proceedPump at hout
    split at hout
    case h_6 => split at hout <;> cases hout <;> rfl
    case h_8 =>
      cases hout
      unfold meterPump
      dsimp only
      split
      · exact hput _ _ _ _
      · rfl
    case h_9 =>
      cases hout
      exact hput _ _ _ _
    case h_10 => cases hout
    all_goals
      cases hout
      rfl

/-- **What a stretch leaves pending.** -/
theorem proceed_pays (hout : proceed e inp m h world o = some out) :
    Pays h out (h.pendingAfter e inp m o) := by
  have hinput : h.phase = .input → h.metering? inp = none := fun hphase =>
    metering?_of_phase (by simp [hphase])
  cases hrole : h.role with
  | packetUp seq =>
    have hother : ∀ writer, h.role ≠ .streamUp writer := by simp [hrole]
    unfold proceed at hout
    rw [hrole] at hout
    dsimp only at hout
    unfold proceedPacketUp at hout
    split at hout
    · rename_i hphase
      split at hout
      · cases hout
        exact Pays.of_quiet (.of_other hother rfl) (hinput hphase)
      · cases hout
        exact Pays.of_quiet (.of_other hother (pending_ensureGate _ _ _ o)) (hinput hphase)
    · rename_i hphase
      cases hout
      exact Pays.of_quiet (.of_other hother rfl) (hinput hphase)
    · exact proceedUpload_pays (by rw [hrole]; rfl) hout
  | streamUp writer =>
    unfold proceed at hout
    rw [hrole] at hout
    dsimp only at hout
    unfold proceedStreamUp at hout
    split at hout
    · rename_i hphase
      split at hout
      · cases hout
        exact Pays.of_quiet (.of_wait rfl rfl) (hinput hphase)
      · cases hout
        exact Pays.of_quiet (.of_wait rfl rfl) (hinput hphase)
    · cases hout
      refine ⟨fun _ _ => flushGate_uncharged m world o, fun hwait => ?_⟩
      obtain ⟨h', heq⟩ := hwait ⟨writer, hrole⟩
      cases heq
    · rename_i hphase
      cases hout
      exact (fail_pays m h world o).of_quiet (hinput hphase)
    · exact proceedUpload_pays (by rw [hrole]; rfl) hout
  | downlink =>
    have haside : Upload.Aside h := .inl hrole
    have hgate := uncharged_of_gate (proceed_gate_aside haside hout)
    exact Pays.of_quiet (.of_other (by simp [hrole]) hgate) (metering?_of_role haside)
  | pump w gate first =>
    have haside : Upload.Aside h := .inr ⟨w, gate, first, hrole⟩
    have hgate := uncharged_of_gate (proceed_gate_aside haside hout)
    exact Pays.of_quiet (.of_other (by simp [hrole]) hgate) (metering?_of_role haside)

end Stretch

/-! ### The sessions of a run -/

/-- The task is a `stream-up` request on its way: it flushes the gate at its end. -/
def Session.FlushedBy (o : Session) (pid : ℕ) : Prop :=
  ∃ h writer, o.handler? pid = some h ∧ h.role = .streamUp writer ∧ h.phase.outside = true

/-- Behind an upload something is pending in a session that is left owing, and in any other one
only as long as a request is there to flush it. -/
structure Session.Owes (owing : Bool) (o : Session) : Prop where
  debt : owing = true → 0 < o.uncharged
  flush : owing = false → 0 < o.uncharged → ∃ pid, o.FlushedBy pid

section Runs

variable {e : Engine} {s s' : Debts} {l : Label} {k : ℕ} {o o' : Session} {actor : Option ℕ}
  {owing : Bool}

theorem Session.Owes.of_zero (hzero : o.uncharged = 0) : o.Owes false where
  debt heq := by cases heq
  flush _ hpos := absurd hzero hpos.ne'

/-- Of a session that has come to its end nothing else decides. -/
theorem Session.Owes.settled_iff (ho : o.Owes owing) (hfinished : o.Finished) :
    o.uncharged = 0 ↔ owing = false := by
  constructor
  · intro hzero
    cases owing with
    | true => exact absurd hzero (ho.debt rfl).ne'
    | false => rfl
  · intro howing
    by_contra hne
    obtain ⟨pid, h, writer, hh, -, -⟩ := ho.flush howing (Nat.pos_of_ne_zero hne)
    have htask := Session.handler?_eq_some.1 hh
    have hdone := hfinished.2 _ (List.mem_of_getElem? htask)
    cases hdone

theorem Session.Owes.of_same (ho : o.Owes owing) (hgate : o'.uncharged = o.uncharged)
    (hflush : ∀ pid, o.FlushedBy pid → o'.FlushedBy pid) : o'.Owes owing where
  debt howing := hgate ▸ ho.debt howing
  flush howing hpos := by
    obtain ⟨pid, hpid⟩ := ho.flush howing (hgate ▸ hpos)
    exact ⟨pid, hflush pid hpid⟩

theorem handler?_of_prefix (ts : List Task) {pid : ℕ} {h : Handler}
    (htasks : o'.tasks = o.tasks ++ ts) (hh : o.handler? pid = some h) :
    o'.handler? pid = some h := by
  rw [Session.handler?_eq_some] at hh ⊢
  rw [htasks, List.getElem?_append_left (List.getElem?_eq_some_iff.1 hh).1]
  exact hh

theorem flushedBy_of_prefix (ts : List Task) {pid : ℕ} (htasks : o'.tasks = o.tasks ++ ts)
    (hflush : o.FlushedBy pid) : o'.FlushedBy pid := by
  obtain ⟨h, writer, hh, hrole, hphase⟩ := hflush
  exact ⟨h, writer, handler?_of_prefix ts htasks hh, hrole, hphase⟩

theorem flushedBy_setTask {pid pid' : ℕ} (hne : pid' ≠ pid) (t : Task) (hflush : o.FlushedBy pid) :
    (o.setTask pid' t).FlushedBy pid := by
  obtain ⟨h, writer, hh, hrole, hphase⟩ := hflush
  refine ⟨h, writer, ?_, hrole, hphase⟩
  rw [Session.handler?_eq_some] at hh ⊢
  exact (List.getElem?_set_ne hne).trans hh

/-- `_teardown` keeps the requests on their way, apart from the one that goes on in it. -/
theorem Session.FlushedBy.tends {pid : ℕ} (ht : Session.Tends actor o o') (hpid : actor ≠ some pid)
    (hflush : o.FlushedBy pid) : o'.FlushedBy pid := by
  cases ht with
  | begin =>
    obtain ⟨h, writer, hh, hrole, hphase⟩ := hflush
    obtain ⟨h', hh', hphase'⟩ := Session.lingers_beginTeardown o pid h hh
    obtain ⟨h₀, hh₀, -, -, hrole', -⟩ := (Session.Tended.beginTeardown o).handler_of pid h' hh'
    rw [hh] at hh₀
    cases hh₀
    exact ⟨h', writer, hh', hrole'.trans hrole, by rw [hphase', hphase]⟩
  | «continue» hres =>
    exact flushedBy_of_prefix [] (by simp [Session.continueTeardown_tasks hres]) hflush
  | finish hactor =>
    exact flushedBy_setTask (fun heq => hpid (hactor.trans (congrArg some heq))) _ hflush
  | park hactor =>
    exact flushedBy_setTask (fun heq => hpid (hactor.trans (congrArg some heq))) _ hflush

theorem follows_gate (ht : ReflTransGen (Session.Tends actor) o o') : o'.gate = o.gate :=
  gate_tolerates.follows (fun _ _ _ => rfl) ht

theorem Session.FlushedBy.follows {pid : ℕ} (ht : ReflTransGen (Session.Tends actor) o o')
    (hpid : actor ≠ some pid) (hflush : o.FlushedBy pid) : o'.FlushedBy pid := by
  induction ht with
  | refl => exact hflush
  | tail _ htend ih => exact ih.tends htend hpid

/-- `_teardown` leaves the debts alone, if it is not called by a request on its way. -/
theorem Session.Owes.follows (ht : ReflTransGen (Session.Tends actor) o o') (ho : o.Owes owing)
    (hidle : ∀ pid, o.FlushedBy pid → actor ≠ some pid) : o'.Owes owing :=
  ho.of_same (uncharged_of_gate (follows_gate ht)) fun pid hflush =>
    hflush.follows ht (hidle pid hflush)

/-- A request that is served charges nothing. -/
theorem Session.Owes.serve {kind : Kind} {r : Request} (hr : l.request? kind = some r)
    (ho : o.Owes owing) : (o.serve r.serve).Owes owing := by
  have hserves := Label.request?_serves hr
  have hgate : (r.serve o).1.uncharged = o.uncharged := by
    cases l <;> cases hr
    · rfl
    · unfold serveStreamUp
      dsimp only
      split <;> exact pending_ensureGate _ _ _ o
    · rfl
  obtain ⟨-, heq⟩ | ⟨-, heq⟩ := Serves.serve_cases r.serve o
  · rw [heq]
    exact ho.of_same rfl fun pid => flushedBy_of_prefix _ rfl
  · rw [heq]
    refine ho.of_same hgate fun pid => flushedBy_of_prefix [(r.serve o).2] ?_
    rw [← hserves.tasks_eq o]

section Acts

variable {inp : Input} {m : Moment} {h : Handler} {world : World} {out : Outcome} {pid : ℕ}

/-- In `_teardown` a task comes to no gate, and is at no end of its own. -/
theorem owes_of_torn (hphase : h.phase.outside = false) :
    h.owes e inp m world o owing = owing := by
  have hmeter : h.metering? inp = none := metering?_of_phase fun data heq => by
    rw [heq] at hphase
    cases hphase
  have hends : h.ends e inp m world o = false := by
    obtain ⟨uuid, sid, role, phase, cancelled⟩ := h
    cases role <;> cases phase <;> cases hphase <;> rfl
  unfold Handler.owes Handler.charges Handler.deferred
  rw [hmeter, hends]
  simp

/-- Only a `stream-up` request comes to its end with a flush. -/
theorem ends_iff (hout : proceed e inp m h world o = some out) :
    h.ends e inp m world o = true ↔
      (∃ writer, h.role = .streamUp writer) ∧ ∀ h', out.next ≠ .wait h' := by
  unfold Handler.ends
  rw [hout]
  cases hrole : h.role with
  | streamUp writer =>
    cases hnext : out.next with
    | wait | ends | teardown => simp [hnext]
  | packetUp | downlink | pump => simp

/-- The end of a `stream-up` request leaves nothing pending. -/
theorem Session.Owes.ends {o₁ : Session} (hout : proceed e inp m h world o = some out)
    (hends : h.ends e inp m world o = true) (hgate : o₁.gate = out.session.gate) :
    o₁.Owes (h.owes e inp m world o owing) := by
  obtain ⟨hstream, hnext⟩ := (ends_iff hout).1 hends
  have howes : h.owes e inp m world o owing = false := by
    unfold Handler.owes
    rw [hends, Bool.or_true, if_pos rfl]
  rw [howes]
  exact .of_zero ((uncharged_of_gate hgate).trans ((proceed_pays hout).flushed hstream hnext))

/-- Any other stretch, in whose end the tasks that flush are still there. -/
theorem Session.Owes.goes {o₁ : Session} (ho : o.Owes owing)
    (hout : proceed e inp m h world o = some out) (hends : h.ends e inp m world o = false)
    (hgate : o₁.gate = out.session.gate)
    (hflush : ∀ pid', o.FlushedBy pid' → ∃ pid', o₁.FlushedBy pid')
    (hself : h.packet? = none → 0 < h.deferred e inp m o → ∃ pid', o₁.FlushedBy pid') :
    o₁.Owes (h.owes e inp m world o owing) := by
  have hpending : o₁.uncharged = h.pendingAfter e inp m o := by
    rw [uncharged_of_gate hgate]
    refine (proceed_pays hout).kept fun hstream => ?_
    by_contra hnot
    have htrue := (ends_iff hout).2 ⟨hstream, fun h' heq => hnot ⟨h', heq⟩⟩
    rw [hends] at htrue
    cases htrue
  unfold Handler.pendingAfter at hpending
  unfold Handler.owes
  rw [hends, Bool.or_false]
  cases hcharges : h.charges e inp m o with
  | true =>
    rw [hcharges] at hpending
    exact .of_zero hpending
  | false =>
    rw [hcharges, if_neg (by simp)] at hpending
    rw [if_neg (by simp)]
    split_ifs with hpacket
    · refine ⟨fun _ => ?_, fun heq => by cases heq⟩
      have hpos : 0 < h.deferred e inp m o := by simpa using (Bool.and_eq_true_iff.1 hpacket).2
      omega
    · refine ⟨fun howing => ?_, fun howing hpos => ?_⟩
      · have := ho.debt howing
        omega
      · obtain hzero | hpos' := Nat.eq_zero_or_pos (h.deferred e inp m o)
        · obtain ⟨pid', hpid'⟩ := ho.flush howing (by omega)
          exact hflush pid' hpid'
        · refine hself ?_ hpos'
          cases hp : h.packet? with
          | none => rfl
          | some seq => simp [hp, hpos'] at hpacket

/-- A `stream-up` request that goes on is still on its way. -/
theorem flushedBy_wait {writer : Option ℕ} {h' : Handler} (hh : o.handler? pid = some h)
    (hrole : h.role = .streamUp writer) (hout : proceed e inp m h world o = some out)
    (hnext : out.next = .wait h') : (out.session.setTask pid (.running h')).FlushedBy pid := by
  have hstays := proceed_stays hout
  have hstreams := proceed_streams hrole hout
  rw [hnext] at hstreams
  have hrole' : ∃ writer', h'.role = .streamUp writer' := by
    cases hstreams with
    | idle _ _ hsame => exact ⟨writer, hsame.trans hrole⟩
    | read | opening | wrote | connected => exact ⟨writer, hrole⟩
    | entered w => exact ⟨some w, rfl⟩
  obtain ⟨writer', hrole'⟩ := hrole'
  have hlt : pid < out.session.tasks.length := by
    have hle := (List.getElem?_eq_some_iff.1 (Session.handler?_eq_some.1 hh)).1
    obtain heq | ⟨p, heq, -⟩ := hstays.tasks_eq
    · rwa [heq]
    · rw [heq, List.length_append]
      omega
  exact ⟨h', writer', Session.handler?_eq_some.2 (List.getElem?_set_self hlt), hrole',
    (hstays.next h' hnext).2.2⟩

/-- A stretch of another task keeps a request on its way. -/
theorem flushedBy_stretch {pid' : ℕ} (hne : pid ≠ pid') (t : Task)
    (hout : proceed e inp m h world o = some out) (hflush : o.FlushedBy pid') :
    (out.session.setTask pid t).FlushedBy pid' := by
  refine flushedBy_setTask hne t ?_
  obtain heq | ⟨p, heq, -⟩ := (proceed_stays hout).tasks_eq
  · exact flushedBy_of_prefix [] (by simp [heq]) hflush
  · exact flushedBy_of_prefix _ heq hflush

theorem streamUp_of_deferred (hpacket : h.packet? = none) (hpos : 0 < h.deferred e inp m o) :
    ∃ writer, h.role = .streamUp writer := by
  cases hmeter : h.metering? inp with
  | none =>
    unfold Handler.deferred at hpos
    rw [hmeter] at hpos
    cases hpos
  | some data =>
    unfold Handler.metering? at hmeter
    split at hmeter
    · rename_i seq _ hrole _
      unfold Handler.packet? at hpacket
      rw [hrole] at hpacket
      cases hpacket
    · rename_i writer _ hrole _
      exact ⟨writer, hrole⟩
    · cases hmeter

end Acts

/-- So it is in every session. -/
def Debts.Sound (s : Debts) : Prop :=
  ∀ k, match s.engine.objects[k]? with
    | none => s.owing k = false
    | some o => o.Owes (s.owing k)

theorem debt_step (hstep : (debtMachine e).step s l = some s') :
    (machine e).step s.engine l = some s'.engine ∧ s'.owing = s.after e l := by
  obtain ⟨engine, hengine, rfl⟩ := Option.map_eq_some_iff.1 hstep
  exact ⟨hengine, rfl⟩

theorem after_resume {pid : ℕ} {inp : Input} {m : Moment} {h : Handler}
    (ho : s.engine.objects[k]? = some o) (hh : o.handler? pid = some h) :
    s.after e (.resume k pid inp m) k = h.owes e inp m s.engine.world o (s.owing k) := by
  unfold Debts.after
  simp only [ho, hh]
  exact Function.update_self ..

/-- Only a task of the session, on its way, changes what it owes. -/
theorem after_still (hidle : ∀ pid inp m o h, l = .resume k pid inp m →
    s.engine.objects[k]? = some o → o.handler? pid = some h → h.phase.outside = false) :
    s.after e l k = s.owing k := by
  cases l with
  | resume i pid inp m =>
    unfold Debts.after
    cases hoi : s.engine.objects[i]? with
    | none => simp [hoi]
    | some oi =>
      cases hh : oi.handler? pid with
      | none => simp [hoi, hh]
      | some h =>
        simp only [hoi, hh]
        by_cases hik : k = i
        · subst hik
          rw [Function.update_self]
          exact owes_of_torn (hidle pid inp m oi h rfl hoi hh)
        · exact Function.update_of_ne hik ..
  | _ => rfl

/-- The stretch of a task of the session. -/
theorem Session.Owes.acts {pid : ℕ} {inp : Input} {m : Moment} {h : Handler}
    (hstep : (debtMachine e).step s (.resume k pid inp m) = some s') (hs : s.Sound)
    (ho : s.engine.objects[k]? = some o) (hh : o.handler? pid = some h)
    (hphase : h.phase.outside = true) (ho' : s'.engine.objects[k]? = some o') :
    o'.Owes (s'.owing k) := by
  obtain ⟨hengine, howing⟩ := debt_step hstep
  have howes : o.Owes (s.owing k) := by
    have hk := hs k
    rwa [ho] at hk
  obtain ⟨out, o₁, hout, htends, ho₁⟩ := object_resume hengine ho hh hphase
  rw [ho'] at ho₁
  cases ho₁
  have hgate : o'.gate = out.session.gate := (follows_gate htends).trans rfl
  rw [howing, after_resume ho hh]
  cases hends : h.ends e inp m s.engine.world o with
  | true => exact .ends hout hends hgate
  | false =>
    by_cases hstream : ∃ writer, h.role = .streamUp writer
    · have hwait : ∃ h', out.next = .wait h' := by
        by_contra hnot
        have htrue := (ends_iff hout).2 ⟨hstream, fun h' heq => hnot ⟨h', heq⟩⟩
        rw [hends] at htrue
        cases htrue
      obtain ⟨writer, hrole⟩ := hstream
      obtain ⟨h', hnext⟩ := hwait
      have hexact := object_stretch hengine ho hh hphase hout
        (by rw [hnext]; rfl : out.next.task? = some (.running h'))
      rw [ho'] at hexact
      cases hexact
      have hself := flushedBy_wait hh hrole hout hnext
      exact howes.goes hout hends hgate (fun _ _ => ⟨pid, hself⟩) fun _ _ => ⟨pid, hself⟩
    · refine howes.goes hout hends hgate (fun pid' hflush => ⟨pid', ?_⟩) fun hpacket hpos =>
        absurd (streamUp_of_deferred hpacket hpos) hstream
      have hne : pid ≠ pid' := by
        rintro rfl
        obtain ⟨h₁, writer, hh₁, hrole, -⟩ := hflush
        rw [hh] at hh₁
        cases hh₁
        exact hstream ⟨writer, hrole⟩
      exact (flushedBy_stretch hne _ hout hflush).follows htends (by simpa using hne)

/-- **A step keeps the record of what is owed.** -/
theorem owing_step (hs : s.Sound) (hstep : (debtMachine e).step s l = some s') : s'.Sound := by
  intro k
  obtain ⟨hengine, howing⟩ := debt_step hstep
  have hk := hs k
  cases ho : s.engine.objects[k]? with
  | none =>
    rw [ho] at hk
    have hnone : s'.owing k = false := by
      rw [howing, after_still fun pid inp m o h _ ho₀ => by rw [ho] at ho₀; cases ho₀]
      exact hk
    cases ho' : s'.engine.objects[k]? with
    | none => exact hnone
    | some o' =>
      obtain ⟨r, hr, -, -, -, rfl⟩ := object_born hengine ho ho'
      show Session.Owes (s'.owing k) _
      rw [hnone]
      exact Session.Owes.serve hr (.of_zero rfl)
  | some o =>
    rw [ho] at hk
    obtain ⟨o₁, o', hstarts, htends, ho'⟩ := object_step hengine ho
    rw [ho']
    by_cases hact : ∃ pid inp m h, l = .resume k pid inp m ∧ o.handler? pid = some h ∧
        h.phase.outside = true
    · obtain ⟨pid, inp, m, h, rfl, hh, hphase⟩ := hact
      exact Session.Owes.acts hstep hs ho hh hphase ho'
    · have hstill : s'.owing k = s.owing k := by
        rw [howing]
        refine after_still fun pid inp m o₀ h hl ho₀ hh => ?_
        rw [ho] at ho₀
        cases ho₀
        by_contra hnot
        exact hact ⟨pid, inp, m, h, hl, hh, by simpa using hnot⟩
      have hidle : ∀ pid, o.FlushedBy pid → l.actor k ≠ some pid := by
        rintro pid ⟨h, writer, hh, -, hphase⟩ hactor
        cases l with
        | resume i pid' inp m =>
          obtain ⟨hik, heq⟩ : i = k ∧ pid' = pid := by simpa [Label.actor] using hactor
          exact hact ⟨pid, inp, m, h, by rw [hik, heq], hh, hphase⟩
        | _ => cases hactor
      show o'.Owes (s'.owing k)
      rw [hstill]
      cases hstarts with
      | still => exact hk.follows htends hidle
      | serve hr hin hget =>
        rename_i r
        have hseen : Session.Owes (s.owing k) { o with lastSeen := r.now } :=
          hk.of_same rfl fun _ hflush => hflush
        have hactor : l.actor k = none := by cases l <;> cases hr <;> rfl
        exact (hseen.serve hr).follows htends fun _ _ => by simp [hactor]
      | stretch pid inp m hh hphase => exact absurd ⟨pid, inp, m, _, rfl, hh, hphase⟩ hact
      | lose w =>
        have hclose : (o.close w).Owes (s.owing k) := hk.of_same rfl fun _ hflush => hflush
        exact hclose.follows htends fun pid hflush => hidle pid hflush

theorem sound_run {world : World} {ls : List Label}
    (hrun : (debtMachine e).run (.init world) ls = some s) : s.Sound := by
  have hinit : (Debts.init world).Sound := fun _ => rfl
  exact Machine.run_invariant (fun _ _ _ hs hstep => owing_step hs hstep) hrun hinit

/-- **The state that a run reaches is settled exactly when it is covered.** -/
theorem settled_iff_covered {world : World} {ls : List Label}
    (hrun : (debtMachine e).run (.init world) ls = some s) : s.Settled ↔ s.Covered := by
  have hsound := sound_run hrun
  have hk : ∀ (k : ℕ) (o : Session), s.engine.objects[k]? = some o → o.Finished →
      (o.uncharged = 0 ↔ s.owing k = false) := by
    intro k o ho hfinished
    have howes := hsound k
    rw [ho] at howes
    exact Session.Owes.settled_iff howes hfinished
  constructor
  · intro hsettled k o ho hfinished
    exact (hk k o ho hfinished).1 (hsettled k o ho hfinished)
  · intro hcovered k o ho hfinished
    exact (hk k o ho hfinished).2 (hcovered k o ho hfinished)

end Runs

/-! ### Two sessions that end -/

/-- The header for 127.0.0.1 and one byte. -/
def headerAndByte : Bytes := Relay.VlessHeader.localhost.encode ++ [1]

/-- The target closes its connection, and the pump of the session tears it down. -/
def peerCloses : List Label :=
  [.resume 0 1 .go (momentAt 0), .resume 0 1 (.data []) (momentAt 0), .resume 0 1 .go (momentAt 0),
    .resume 0 1 .go (momentAt 0)]

/-- A `POST` of `stream-up` sends the header and the byte and ends, and the target closes. -/
def streamEnds : List Label :=
  [.streamUp "alice" "s" 0 0, .resume 0 0 (.data headerAndByte) (momentAt 0),
    .resume 0 0 .go (momentAt 0), .resume 0 0 .go (momentAt 0), .resume 0 0 .go (momentAt 0),
    .resume 0 0 .finished (momentAt 0)] ++ peerCloses

theorem settled_iff_covered_streamEnds : ∃ s o,
    (debtMachine ⟨.vless, id⟩).run (.init emptyWorld) streamEnds = some s ∧
      s.engine.objects[0]? = some o ∧ o.Finished ∧ o.uncharged = 0 := by
  have hview : ((debtMachine ⟨.vless, id⟩).run (.init emptyWorld) streamEnds).map (fun s =>
      ((s.engine.objects[0]?).map fun o => decide o.Finished, s.engine.objects.length, s.owing 0)) =
        some (some true, 1, false) := by decide +kernel
  obtain ⟨s, hs, hview⟩ := Option.map_eq_some_iff.1 hview
  simp only [Prod.mk.injEq] at hview
  obtain ⟨hobject, hlength, howing⟩ := hview
  obtain ⟨o, ho, hfinished⟩ := Option.map_eq_some_iff.1 hobject
  have hcovered : s.Covered := by
    intro k o' ho' _
    have hk := (List.getElem?_eq_some_iff.1 ho').1
    have hzero : k = 0 := by omega
    rw [hzero]
    exact howing
  exact ⟨s, o, hs, ho, of_decide_eq_true hfinished,
    (settled_iff_covered hs).2 hcovered 0 o ho (of_decide_eq_true hfinished)⟩

/-- A `POST` of `packet-up` sends the same bytes, and the target closes. -/
def packetEnds : List Label :=
  [.packetUp "alice" "s" 0 0, .resume 0 0 (.data headerAndByte) (momentAt 0),
    .resume 0 0 .go (momentAt 0), .resume 0 0 .go (momentAt 0), .resume 0 0 .go (momentAt 0)] ++
    peerCloses

/-- All 27 bytes stay pending, and the byte behind the header was written to the target. -/
theorem packet_session_ends_uncharged : ∃ s o,
    (debtMachine ⟨.vless, id⟩).run (.init emptyWorld) packetEnds = some s ∧
      s.engine.objects[0]? = some o ∧ o.Finished ∧ o.uncharged = 27 ∧ o.written = [1] ∧
      ¬ s.Settled := by
  have hview : ((debtMachine ⟨.vless, id⟩).run (.init emptyWorld) packetEnds).map (fun s =>
      (s.engine.objects[0]?).map fun o => (decide o.Finished, o.uncharged, o.written)) =
        some (some (true, 27, [1])) := by decide +kernel
  obtain ⟨s, hs, hobject⟩ := Option.map_eq_some_iff.1 hview
  obtain ⟨o, ho, hfields⟩ := Option.map_eq_some_iff.1 hobject
  simp only [Prod.mk.injEq, decide_eq_true_eq] at hfields
  obtain ⟨hfinished, hpending, hwritten⟩ := hfields
  refine ⟨s, o, hs, ho, hfinished, hpending, hwritten, fun hsettled => ?_⟩
  have hzero := hsettled 0 o ho hfinished
  omega

end Xhttp

end RvgGateway
