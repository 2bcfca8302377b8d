import Mathlib.Tactic.Ring
import RvgGateway.Quota.Gate

/-!
# The two traffic counters

The panel counts all traffic twice: in `stats["total_bytes"]`, and by the hour in `hourly_traffic`.
Nearly all transports leave both to `check_and_use`, which a gate calls for its batches and which the
handlers call for first chunks and headers.  The HTTP proxy and the callback of the MTProto proxies
count for themselves, and the VMess relay counts again what `check_and_use` has counted.

* `trafficMachine` : relayed chunks of all transports and changes of the links, in any order.
* `excess` : the bytes by which the first counter is ahead of the sum of the second.
* `excess_step` : only a VMess chunk that passes the check moves it.
* `balanced_iff_no_vmess` : **the counters agree exactly when no VMess chunk has passed the check.**
* `vmess_counted_twice` : a VMess chunk of 1000 bytes.
-/

namespace RvgGateway

namespace Quota

/-- `_mtproto_usage_callback`. -/
def mtprotoUsageCallback (a : Accounts) (t : Clock) (uuid : String) (n : ℕ) : Bool × Accounts :=
  match a.links.get? uuid with
  | none => (false, a)
  | some link => if !isLinkAllowed t.now (some link) then (false, a) else (true, a.charge t uuid n)

/-- A response of `n` bytes that `http_proxy` passes on. -/
def httpProxy (a : Accounts) (t : Clock) (n : ℕ) : Accounts :=
  { a with
    totalBytes := a.totalBytes + n
    hourlyTraffic := a.hourlyTraffic.set t.hour ((a.hourlyTraffic.get? t.hour).getD 0 + n) }

/-- A chunk of `n` bytes in either direction of a VMess relay. -/
def vmessChunk (a : Accounts) (t : Clock) (uuid : String) (n : ℕ) : Accounts :=
  match a.checkAndUse t uuid n with
  | (false, a) => a
  | (true, a) => { a with totalBytes := a.totalBytes + n }

/-- What moves the counters or the links. -/
inductive TrafficOp where
  /-- A connection over VLESS, Trojan, Shadowsocks or XHTTP creates its gate. -/
  | create (id : ℕ) (cls : GateClass) (uuid : String) (monotonic : ℚ)
  /-- It relays a chunk of `n` bytes. -/
  | add (id : ℕ) (n : ℕ) (r : Reading)
  /-- It ends. -/
  | flush (id : ℕ) (r : Reading)
  /-- A handler calls `check_and_use` itself. -/
  | checkAndUse (uuid : String) (n : ℕ) (t : Clock)
  | vmessChunk (uuid : String) (n : ℕ) (t : Clock)
  | mtproto (uuid : String) (n : ℕ) (t : Clock)
  | httpProxy (n : ℕ) (t : Clock)
  /-- Links are created, deleted, reset, disabled or changed otherwise. -/
  | editLinks (links : Links)

/-- One of these, which happens without interruption. -/
def GateState.perform (s : GateState) : TrafficOp → Option GateState
  | .create id cls uuid monotonic => s.next (.create id cls uuid monotonic)
  | .add id n r => s.next (.add id n r)
  | .flush id r => s.next (.flush id r)
  | .checkAndUse uuid n t => some { s with accounts := (s.accounts.checkAndUse t uuid n).2 }
  | .vmessChunk uuid n t => some { s with accounts := Quota.vmessChunk s.accounts t uuid n }
  | .mtproto uuid n t => some { s with accounts := (mtprotoUsageCallback s.accounts t uuid n).2 }
  | .httpProxy n t => some { s with accounts := Quota.httpProxy s.accounts t n }
  | .editLinks links => some { s with accounts := { s.accounts with links } }

/-- The machine of the counters. -/
def trafficMachine : Machine GateState TrafficOp := ⟨GateState.perform⟩

/-- The counters at startup, with the links that were loaded. -/
def atStartup (links : Links) : GateState := ⟨⟨links, 0, ∅⟩, ∅⟩

/-- The sum over all hours. -/
def hourlySum (a : Accounts) : ℕ := a.hourlyTraffic.sumValues id

/-- `stats["total_bytes"]` is the sum over all hours of `hourly_traffic`. -/
def Balanced (s : GateState) : Prop := s.accounts.totalBytes = hourlySum s.accounts

/-- The bytes of the operation, if it is a VMess chunk that passes the check. -/
def vmessRelayed (s : GateState) : TrafficOp → ℕ
  | .vmessChunk uuid n t => if s.accounts.allows t uuid then n else 0
  | _ => 0

/-- The operation is no VMess chunk, or one that is refused or empty. -/
def NoVmess (s : GateState) : TrafficOp → Prop
  | .vmessChunk uuid n t => s.accounts.allows t uuid = true → n = 0
  | _ => True

/-- The bytes by which the first counter is ahead. -/
def excess (a : Accounts) : ℤ := a.totalBytes - hourlySum a

section Excess

variable {s s' : GateState} {op : TrafficOp} {a : Accounts} {t : Clock} {uuid : String} {n : ℕ}

theorem hourlySum_add (d : Dict ℕ ℕ) (hour n : ℕ) :
    (d.set hour ((d.get? hour).getD 0 + n)).sumValues id = d.sumValues id + n := by
  have hset := d.sumValues_set id hour ((d.get? hour).getD 0 + n)
  simp only [Option.map_id, id_eq] at hset
  omega

@[simp] theorem excess_charge : excess (a.charge t uuid n) = excess a := by
  have hsum := hourlySum_add a.hourlyTraffic t.hour n
  simp only [excess, hourlySum, Accounts.charge, hsum]
  push_cast
  ring

@[simp] theorem excess_httpProxy : excess (httpProxy a t n) = excess a := by
  have hsum := hourlySum_add a.hourlyTraffic t.hour n
  simp only [excess, hourlySum, httpProxy, hsum]
  push_cast
  ring

@[simp] theorem excess_checkAndUse : excess (a.checkAndUse t uuid n).2 = excess a := by
  rw [Accounts.checkAndUse_eq]
  split_ifs
  · exact excess_charge
  · rfl

@[simp] theorem excess_mtproto : excess (mtprotoUsageCallback a t uuid n).2 = excess a := by
  unfold mtprotoUsageCallback
  split
  · rfl
  · split_ifs
    · rfl
    · exact excess_charge

theorem excess_add (g : Gate) (r : Reading) : excess (g.add n r a).2.2 = excess a := by
  rcases g.add_cases n r a with ⟨-, he⟩ | ⟨-, -, _, he⟩ | ⟨-, -, he⟩
  · rw [he]
  · rw [he]
  · rw [he]
    cases g.granted r a with
    | false => rfl
    | true => exact excess_charge

theorem excess_flush (g : Gate) (r : Reading) : excess (g.flush r a).2 = excess a := by
  rcases g.flush_cases r a with ⟨-, he⟩ | ⟨-, -, he⟩ | ⟨-, -, he⟩
  · rw [he]
  · rw [he]
  · rw [he]
    cases g.granted r a with
    | false => rfl
    | true => exact excess_charge

/-- The relay counts once more what it lets pass. -/
theorem excess_vmessChunk :
    excess (vmessChunk a t uuid n) = excess a + (if a.allows t uuid then n else 0 : ℕ) := by
  unfold vmessChunk
  rw [Accounts.checkAndUse_eq]
  cases a.allows t uuid with
  | false => simp
  | true =>
    have hcharge : excess (a.charge t uuid n) = excess a := excess_charge
    simp only [excess, hourlySum, if_true] at hcharge ⊢
    push_cast
    omega

/-- **One step** moves the excess by the bytes of a VMess chunk that passes, and by nothing else. -/
theorem excess_step (h : s.perform op = some s') :
    excess s'.accounts = excess s.accounts + vmessRelayed s op := by
  cases op with
  | create id cls uuid monotonic =>
    simp only [GateState.perform, GateState.next] at h
    split_ifs at h
    cases h
    simp [vmessRelayed]
  | add id n r =>
    obtain ⟨g, -, rfl⟩ := Option.map_eq_some_iff.1 h
    simp [vmessRelayed, excess_add]
  | flush id r =>
    obtain ⟨g, -, rfl⟩ := Option.map_eq_some_iff.1 h
    simp [vmessRelayed, excess_flush]
  | checkAndUse uuid n t => cases h; simp [vmessRelayed]
  | vmessChunk uuid n t => cases h; exact excess_vmessChunk
  | mtproto uuid n t => cases h; simp [vmessRelayed]
  | httpProxy n t => cases h; simp [vmessRelayed]
  | editLinks links => cases h; simp [vmessRelayed, excess, hourlySum]

end Excess

/-- The excess after a run is what its VMess chunks relayed. -/
theorem excess_run {links : Links} {ls : List TrafficOp} {s : GateState}
    (h : trafficMachine.run (atStartup links) ls = some s) :
    excess s.accounts = trafficMachine.total vmessRelayed (atStartup links) ls := by
  have hchange := Machine.total_eq_change (A := trafficMachine) (Φ := fun s => excess s.accounts)
    (fun _ _ _ hs => excess_step hs) h
  have hstart : excess (atStartup links).accounts = 0 := by simp [excess, hourlySum, atStartup]
  rw [hchange, hstart, zero_add]

/-- **The counters agree after a run exactly when no VMess chunk of it passed the check.** -/
theorem balanced_iff_no_vmess {links : Links} {ls : List TrafficOp} {s : GateState}
    (h : trafficMachine.run (atStartup links) ls = some s) :
    Balanced s ↔ trafficMachine.Along NoVmess (atStartup links) ls := by
  have hexcess := excess_run h
  have halong : trafficMachine.Along (fun s op => vmessRelayed s op = 0) (atStartup links) ls ↔
      trafficMachine.Along NoVmess (atStartup links) ls :=
    Machine.along_iff (I := fun _ => True) (fun _ _ _ _ _ _ => trivial)
      (fun s op _ => by cases op <;> simp [vmessRelayed, NoVmess]) trivial
  rw [← halong, ← Machine.total_eq_zero_iff, Balanced]
  unfold excess at hexcess
  omega

/-- A link over VMess. -/
def vmessLinks : Links := (∅ : Links).set "u" ⟨"vmess-ws", none, 0, true, .never, 0, 0⟩

/-- A run over the HTTP proxy and an empty VMess chunk. -/
theorem balanced_iff_no_vmess_proxied :
    let ls := [.httpProxy 500 ⟨0, 10⟩, .vmessChunk "u" 0 ⟨0, 11⟩]
    ∃ s, trafficMachine.run (atStartup vmessLinks) ls = some s ∧ s.accounts.totalBytes = 500 ∧
      (Balanced s ↔ trafficMachine.Along NoVmess (atStartup vmessLinks) ls) :=
  ⟨_, rfl, rfl, balanced_iff_no_vmess rfl⟩

/-- A VMess chunk of 1000 bytes makes 2000 bytes in the first counter and 1000 in the second. -/
theorem vmess_counted_twice : ¬ ∀ links ls s,
    trafficMachine.run (atStartup links) ls = some s → Balanced s := by
  intro h
  have hbalanced := h vmessLinks [.vmessChunk "u" 1000 ⟨0, 10⟩] _ rfl
  revert hbalanced
  unfold Balanced
  decide +kernel

end Quota

end RvgGateway
