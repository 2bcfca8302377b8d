import Mathlib.Algebra.Order.Ring.Int
import RvgGateway.Lib.Dict

/-!
# Links

A link is one user's configuration, an entry of the table `LINKS` of `main.py`.  Here are the
fields that the gateway decides by, the check whether a link may carry traffic
(`main.is_link_allowed`) and the one place where traffic is charged to it
(`protocol/vless/vless.py`, `check_and_use`).

An entry is a JSON object; `Link` reads it with the defaults that the code gives absent fields.
-/

namespace RvgGateway

/-- `expires_at`. -/
inductive Expiry where
  /-- Absent or empty. -/
  | never
  /-- A date, in seconds. -/
  | at (t : ℤ)
  /-- A text that is not a date; the comparison raises and counts as not expired. -/
  | malformed
  deriving DecidableEq, Repr

/-- An entry of `LINKS`. -/
structure Link where
  protocol : String
  /-- `core`, the program that serves the link. -/
  core : Option String
  /-- `listen_port`; 0 is the port of the panel. -/
  listenPort : ℤ
  active : Bool
  expiresAt : Expiry
  /-- `limit_bytes`; no limit unless positive. -/
  limitBytes : ℤ
  usedBytes : ℤ
  deriving DecidableEq, Repr

/-- `LINKS`. -/
abbrev Links := Dict String Link

/-- `is_link_expired`, at the time `now`. -/
def isLinkExpired (now : ℤ) (link : Link) : Bool :=
  match link.expiresAt with
  | .never => false
  | .at t => t < now
  | .malformed => false

/-- `is_link_allowed`, at the time `now`. -/
def isLinkAllowed (now : ℤ) : Option Link → Bool
  | none => false
  | some link =>
    if !link.active then false
    else if isLinkExpired now link then false
    else if 0 < link.limitBytes && link.limitBytes ≤ link.usedBytes then false
    else true

/-- A reading of the wall clock. -/
structure Clock where
  /-- `datetime.now()`, in seconds. -/
  now : ℤ
  /-- `now_ir().strftime("%H:00")`, the hour. -/
  hour : ℕ
  deriving DecidableEq, Repr

/-- What `check_and_use` reads and writes. -/
structure Accounts where
  /-- `LINKS`. -/
  links : Links
  /-- `stats["total_bytes"]`. -/
  totalBytes : ℕ
  /-- `hourly_traffic`. -/
  hourlyTraffic : Dict ℕ ℕ

namespace Accounts

/-- The bytes charged to a user, 0 without a link. -/
def usedBytes (a : Accounts) (uid : String) : ℤ := ((a.links.get? uid).map Link.usedBytes).getD 0

/-- The user's link may carry traffic. -/
def allows (a : Accounts) (t : Clock) (uid : String) : Bool :=
  isLinkAllowed t.now (a.links.get? uid)

/-- Charge `n` bytes to the user. -/
def charge (a : Accounts) (t : Clock) (uid : String) (n : ℕ) : Accounts where
  links := a.links.modify uid fun link => { link with usedBytes := link.usedBytes + n }
  totalBytes := a.totalBytes + n
  hourlyTraffic := a.hourlyTraffic.set t.hour ((a.hourlyTraffic.get? t.hour).getD 0 + n)

/-- `check_and_use`: charge if the link is allowed. -/
def checkAndUse (a : Accounts) (t : Clock) (uid : String) (n : ℕ) : Bool × Accounts :=
  if a.allows t uid then (true, a.charge t uid n) else (false, a)

theorem checkAndUse_eq (a : Accounts) (t : Clock) (uid : String) (n : ℕ) :
    a.checkAndUse t uid n = (a.allows t uid, if a.allows t uid then a.charge t uid n else a) := by
  rw [checkAndUse]
  split_ifs with h <;> simp [h]

/-- Who is refused is not charged. -/
theorem eq_of_checkAndUse_refused {a a' : Accounts} {t : Clock} {uid : String} {n : ℕ}
    (h : a.checkAndUse t uid n = (false, a')) : a' = a := by
  rw [checkAndUse_eq] at h
  obtain ⟨hallowed, rfl⟩ := Prod.mk.inj h
  rw [hallowed, if_neg Bool.false_ne_true]

theorem allows_exists {a : Accounts} {t : Clock} {uid : String} (h : a.allows t uid = true) :
    ∃ link, a.links.get? uid = some link := by
  rw [allows] at h
  cases hl : a.links.get? uid with
  | none => rw [hl] at h; cases h
  | some link => exact ⟨link, rfl⟩

/-- A charge to an existing link counts in full. -/
theorem usedBytes_charge {a : Accounts} {t : Clock} {uid : String} {n : ℕ}
    (h : a.allows t uid = true) : (a.charge t uid n).usedBytes uid = a.usedBytes uid + n := by
  obtain ⟨link, hl⟩ := allows_exists h
  simp [usedBytes, charge, Dict.get?_modify, hl]

theorem usedBytes_charge_ne {a : Accounts} {t : Clock} {uid uid' : String} {n : ℕ}
    (h : uid ≠ uid') : (a.charge t uid n).usedBytes uid' = a.usedBytes uid' := by
  simp [usedBytes, charge, Dict.get?_modify, h.symm]

/-- The user's link stays below its limit when `n` more bytes are charged to it. -/
def leavesRoom (a : Accounts) (uid : String) (n : ℕ) : Prop :=
  ∀ link, a.links.get? uid = some link → 0 < link.limitBytes → link.usedBytes + n < link.limitBytes

/-- A charge does not change whether other links are allowed … -/
theorem allows_charge_ne {a : Accounts} {t : Clock} {uid uid' : String} {n : ℕ}
    (h : uid ≠ uid') : (a.charge t uid n).allows t uid' = a.allows t uid' := by
  simp [allows, charge, Dict.get?_modify, h.symm]

/-- … and the link itself stays allowed unless the charge reaches its limit. -/
theorem allows_charge_self {a : Accounts} {t : Clock} {uid : String} {n : ℕ}
    (h : a.allows t uid = true) :
    (a.charge t uid n).allows t uid = true ↔ a.leavesRoom uid n := by
  obtain ⟨link, hl⟩ := allows_exists h
  have hafter : (a.charge t uid n).links.get? uid =
      some { link with usedBytes := link.usedBytes + n } := by
    simp [charge, Dict.get?_modify, hl]
  rw [allows, hl] at h
  simp only [isLinkAllowed] at h
  split_ifs at h with hactive hexpired hlimit
  simp only [allows, hafter, isLinkAllowed, leavesRoom, hl, Option.some.injEq, forall_eq']
  rw [if_neg hactive, if_neg (by simpa [isLinkExpired] using hexpired)]
  split_ifs with hfull
  · simp only [Bool.and_eq_true, decide_eq_true_eq] at hfull
    exact ⟨fun hf => hf.elim, fun hroom =>
      absurd (hroom hfull.1) (not_lt.2 hfull.2)⟩
  · refine ⟨fun _ hpos => not_le.1 fun hle => hfull ?_, fun _ => rfl⟩
    simp [hpos, hle]

end Accounts

end RvgGateway
