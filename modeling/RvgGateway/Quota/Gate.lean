import Mathlib.Data.Rat.Defs
import RvgGateway.Lib.Machine
import RvgGateway.Links.Link

/-!
# Quota gates

Four classes of the gateway meter one connection each with the same algorithm: `_QuotaGate` of
`protocol/vless/vless.py`, of `protocol/vless/xhttp_core.py` and of `protocol/trojan/trojan.py`, and
`_TrojanQuotaGate` of `protocol/trojan/xhttp_core.py`.  They differ in their constants
(`GateClass`).  A gate lets bytes pass and charges them later, a batch at a time; the size of the
batch follows the measured rate of the connection.

What a call reads from outside is a `Reading`: the monotonic clock, the target that the measured
rate comes to, the wall clock, and whether `check_and_use` raises.  `gateMachine` lets any number
of gates on any links run, with every other change of the links between their calls.
-/

namespace RvgGateway

namespace Quota

/-- The constants of a gate class. -/
structure GateClass where
  /-- `QUOTA_MIN_BATCH`. -/
  minBatch : ℕ
  /-- `QUOTA_MAX_BATCH`. -/
  maxBatch : ℕ
  /-- `QUOTA_START_BATCH`. -/
  startBatch : ℕ
  /-- `QUOTA_CHECK_INTERVAL`, in seconds. -/
  checkInterval : ℚ
  min_pos : 0 < minBatch
  min_le : minBatch ≤ maxBatch
  start_pos : 0 < startBatch
  start_le : startBatch ≤ maxBatch

/-- `protocol/vless/vless.py`; Shadowsocks uses it too. -/
def GateClass.vless : GateClass where
  minBatch := 32 * 1024
  maxBatch := 2 * 1024 * 1024
  startBatch := 128 * 1024
  checkInterval := 1 / 4
  min_pos := by decide
  min_le := by decide
  start_pos := by decide
  start_le := by decide

/-- `protocol/trojan/trojan.py`. -/
def GateClass.trojan : GateClass where
  minBatch := 32 * 1024
  maxBatch := 2 * 1024 * 1024
  startBatch := 128 * 1024
  checkInterval := 1 / 4
  min_pos := by decide
  min_le := by decide
  start_pos := by decide
  start_le := by decide

/-- `protocol/vless/xhttp_core.py`. -/
def GateClass.xhttp : GateClass where
  minBatch := 32 * 1024
  maxBatch := 4 * 1024 * 1024
  startBatch := 256 * 1024
  checkInterval := 1 / 4
  min_pos := by decide
  min_le := by decide
  start_pos := by decide
  start_le := by decide

/-- `protocol/trojan/xhttp_core.py`. -/
def GateClass.trojanXhttp : GateClass where
  minBatch := 32 * 1024
  maxBatch := 4 * 1024 * 1024
  startBatch := 256 * 1024
  checkInterval := 1 / 4
  min_pos := by decide
  min_le := by decide
  start_pos := by decide
  start_le := by decide

/-- What a call of `add` or `flush` reads from outside. -/
structure Reading where
  /-- `time.monotonic()`. -/
  monotonic : ℚ
  /-- `int(self.rate_ewma * QUOTA_CHECK_INTERVAL)` after this measurement. -/
  target : ℕ
  /-- The wall clock during `check_and_use`. -/
  clock : Clock
  /-- `check_and_use` raises. -/
  raises : Bool

/-- A reading at a moment when nothing else matters. -/
def readingAt (monotonic : ℚ) : Reading := ⟨monotonic, 0, ⟨0, 0⟩, false⟩

/-- A quota gate. -/
structure Gate where
  /-- The constants. -/
  cls : GateClass
  uuid : String
  /-- Bytes let through and not charged yet. -/
  pending : ℕ
  lastCheck : ℚ
  ok : Bool
  batchBytes : ℕ
  /-- A full batch never waits. -/
  pending_lt : pending < batchBytes
  /-- The batch size is capped. -/
  batch_le : batchBytes ≤ cls.maxBatch

namespace Gate

/-- `__init__`. -/
def init (cls : GateClass) (uuid : String) (monotonic : ℚ) : Gate where
  cls := cls
  uuid := uuid
  pending := 0
  lastCheck := monotonic
  ok := true
  batchBytes := cls.startBatch
  pending_lt := cls.start_pos
  batch_le := cls.start_le

/-- The batch size for a target. -/
def batchFor (cls : GateClass) (target : ℕ) : ℕ :=
  max cls.minBatch (min cls.maxBatch (if target = 0 then cls.minBatch else target))

theorem batchFor_pos (cls : GateClass) (target : ℕ) : 0 < batchFor cls target :=
  cls.min_pos.trans_le (le_max_left _ _)

theorem batchFor_le (cls : GateClass) (target : ℕ) : batchFor cls target ≤ cls.maxBatch :=
  max_le cls.min_le (min_le_left _ _)

/-- `await check_and_use(self.uuid, flush)` under `try`: what `ok` becomes, and the accounts. -/
def check (g : Gate) (r : Reading) (a : Accounts) (n : ℕ) : Bool × Accounts :=
  if r.raises then (false, a) else a.checkAndUse r.clock g.uuid n

/-- The next `add` of `n` bytes makes a check. -/
def due (g : Gate) (r : Reading) (n : ℕ) : Prop :=
  g.batchBytes ≤ g.pending + n ∨ g.cls.checkInterval ≤ r.monotonic - g.lastCheck

instance (g : Gate) (r : Reading) (n : ℕ) : Decidable (g.due r n) := inferInstanceAs (Decidable (_ ∨ _))

/-- The gate after a check that made `ok` what it is given as. -/
def checked (g : Gate) (r : Reading) (ok : Bool) : Gate where
  cls := g.cls
  uuid := g.uuid
  pending := 0
  lastCheck := r.monotonic
  ok := ok
  batchBytes := if 0 < r.monotonic - g.lastCheck then batchFor g.cls r.target else g.batchBytes
  pending_lt := by
    split_ifs
    · exact batchFor_pos _ _
    · exact (Nat.zero_le _).trans_lt g.pending_lt
  batch_le := by
    split_ifs
    · exact batchFor_le _ _
    · exact g.batch_le

/-- The gate with `n` more bytes pending. -/
def defer (g : Gate) (n : ℕ) (h : g.pending + n < g.batchBytes) : Gate :=
  { g with pending := g.pending + n, pending_lt := h }

/-- `add`: the result, the gate and the accounts. -/
def add (g : Gate) (n : ℕ) (r : Reading) (a : Accounts) : Bool × Gate × Accounts :=
  if !g.ok then (false, g, a)
  else if h : g.due r n then
    let (ok, a) := g.check r a (g.pending + n)
    (ok, g.checked r ok, a)
  else (true, g.defer n (Nat.not_le.1 fun hle => h (.inl hle)), a)

/-- The gate with nothing pending and the given `ok`. -/
def settled (g : Gate) (ok : Bool) : Gate :=
  { g with pending := 0, ok := ok, pending_lt := (Nat.zero_le _).trans_lt g.pending_lt }

/-- `flush`: the gate and the accounts; the result is the gate's `ok`. -/
def flush (g : Gate) (r : Reading) (a : Accounts) : Gate × Accounts :=
  if g.pending = 0 then (g, a)
  else if !g.ok then (g.settled false, a)
  else
    let (ok, a) := g.check r a g.pending
    (g.settled ok, a)

/-- The check that `g` would make now is granted. -/
def granted (g : Gate) (r : Reading) (a : Accounts) : Bool := !r.raises && a.allows r.clock g.uuid

theorem check_eq (g : Gate) (r : Reading) (a : Accounts) (n : ℕ) :
    g.check r a n =
      (g.granted r a, if g.granted r a then a.charge r.clock g.uuid n else a) := by
  rw [check, granted]
  cases r.raises
  · simp [Accounts.checkAndUse_eq]
  · simp

theorem allows_of_granted {g : Gate} {r : Reading} {a : Accounts} (h : g.granted r a = true) :
    a.allows r.clock g.uuid = true := by
  simp only [granted, Bool.and_eq_true] at h
  exact h.2

theorem granted_of_refused {g : Gate} {r : Reading} {a : Accounts}
    (h : a.allows r.clock g.uuid = false) : g.granted r a = false := by
  simp [granted, h]

/-- What `add` does, by the branch it takes. -/
theorem add_cases (g : Gate) (n : ℕ) (r : Reading) (a : Accounts) :
    (g.ok = false ∧ g.add n r a = (false, g, a)) ∨
    (g.ok = true ∧ ¬ g.due r n ∧ ∃ h, g.add n r a = (true, g.defer n h, a)) ∨
    (g.ok = true ∧ g.due r n ∧ g.add n r a = (g.granted r a, g.checked r (g.granted r a),
      if g.granted r a then a.charge r.clock g.uuid (g.pending + n) else a)) := by
  unfold add
  cases hok : g.ok with
  | false => exact .inl ⟨rfl, by simp⟩
  | true =>
    by_cases hdue : g.due r n
    · exact .inr (.inr ⟨rfl, hdue, by simp [hdue, check_eq]⟩)
    · exact .inr (.inl ⟨rfl, hdue, Nat.not_le.1 fun hle => hdue (.inl hle), by simp [hdue]⟩)

/-- What `flush` does, by the branch it takes. -/
theorem flush_cases (g : Gate) (r : Reading) (a : Accounts) :
    (g.pending = 0 ∧ g.flush r a = (g, a)) ∨
    (g.pending ≠ 0 ∧ g.ok = false ∧ g.flush r a = (g.settled false, a)) ∨
    (g.pending ≠ 0 ∧ g.ok = true ∧ g.flush r a = (g.settled (g.granted r a),
      if g.granted r a then a.charge r.clock g.uuid g.pending else a)) := by
  unfold flush
  by_cases hp : g.pending = 0
  · exact .inl ⟨hp, if_pos hp⟩
  · cases hok : g.ok with
    | false => exact .inr (.inl ⟨hp, rfl, by simp [hp]⟩)
    | true => exact .inr (.inr ⟨hp, rfl, by simp [hp, check_eq]⟩)

/-- A call never changes the user or the class of a gate. -/
theorem add_uuid_cls (g : Gate) (n : ℕ) (r : Reading) (a : Accounts) :
    (g.add n r a).2.1.uuid = g.uuid ∧ (g.add n r a).2.1.cls = g.cls := by
  rcases g.add_cases n r a with ⟨-, he⟩ | ⟨-, -, _, he⟩ | ⟨-, -, he⟩ <;>
    (rw [he]; exact ⟨rfl, rfl⟩)

theorem flush_uuid_cls (g : Gate) (r : Reading) (a : Accounts) :
    (g.flush r a).1.uuid = g.uuid ∧ (g.flush r a).1.cls = g.cls := by
  rcases g.flush_cases r a with ⟨-, he⟩ | ⟨-, -, he⟩ | ⟨-, -, he⟩ <;>
    (rw [he]; exact ⟨rfl, rfl⟩)

end Gate

/-! ### Any number of gates -/

/-- The links and the gates. -/
structure GateState where
  /-- What the gates charge to. -/
  accounts : Accounts
  /-- The gates, numbered. -/
  gates : Dict ℕ Gate

/-- What can happen. -/
inductive GateOp where
  /-- A connection of a user creates a gate. -/
  | create (id : ℕ) (cls : GateClass) (uuid : String) (monotonic : ℚ)
  /-- `add` of `n` bytes. -/
  | add (id : ℕ) (n : ℕ) (r : Reading)
  /-- `flush`. -/
  | flush (id : ℕ) (r : Reading)
  /-- Any other use or change of the links and their accounts. -/
  | other (accounts : Accounts)

/-- One call or change, which happens without interruption. -/
def GateState.next (s : GateState) : GateOp → Option GateState
  | .create id cls uuid monotonic =>
    if s.gates.contains id then none
    else some { s with gates := s.gates.set id (.init cls uuid monotonic) }
  | .add id n r =>
    (s.gates.get? id).map fun g =>
      ⟨(g.add n r s.accounts).2.2, s.gates.set id (g.add n r s.accounts).2.1⟩
  | .flush id r =>
    (s.gates.get? id).map fun g =>
      ⟨(g.flush r s.accounts).2, s.gates.set id (g.flush r s.accounts).1⟩
  | .other accounts => some { s with accounts }

/-- The machine of gates. -/
def gateMachine : Machine GateState GateOp := ⟨GateState.next⟩

/-- What the call returns, for a call of `add` on the gate `id`. -/
def GateState.addResult (s : GateState) (id : ℕ) : GateOp → Option (ℕ × Bool)
  | .add id' n r =>
    if id' = id then (s.gates.get? id).map fun g => (n, (g.add n r s.accounts).1) else none
  | _ => none

/-- The bytes for which the operation, if it is an `add` on the gate `id`, returns `True`. -/
def GateState.accepted (id : ℕ) (s : GateState) (op : GateOp) : ℕ :=
  match s.addResult id op with
  | some (n, true) => n
  | _ => 0

end Quota

end RvgGateway
