import Mathlib.Tactic.Tauto
import RvgGateway.Quota.Gate

/-!
# Charged and forwarded bytes

Every byte that a gate lets pass should be charged to its link in the end.  The gate charges a
batch when it makes a check, and a check that is refused charges nothing: the bytes of the batch
that were let through before are then forgotten.

* `accepted`, `charged`, `dropped` : what a step lets through, charges and forgets.
* `step_conserved` : pending bytes and accepted bytes become charged, dropped or pending ones.
* `charged_eq_accepted_iff` : in a run that leaves nothing pending, everything accepted was charged
  exactly when no check was refused on a gate with bytes pending.
-/

namespace RvgGateway

namespace Quota

variable {s s' : GateState} {op : GateOp} {u : String}

/-- The bytes for which the operation, if it is an `add` on a gate of `u`, returns `True`. -/
def accepted (u : String) (s : GateState) : GateOp → ℤ
  | .add id n r =>
    match s.gates.get? id with
    | none => 0
    | some g => if g.uuid = u ∧ (g.add n r s.accounts).1 = true then n else 0
  | _ => 0

/-- The increase of `used_bytes` of the link of `u` by a call on a gate. -/
def charged (u : String) (s : GateState) (op : GateOp) : ℤ :=
  match op, s.next op with
  | .add .., some s' => s'.accounts.usedBytes u - s.accounts.usedBytes u
  | .flush .., some s' => s'.accounts.usedBytes u - s.accounts.usedBytes u
  | _, _ => 0

/-- A call on a gate of `u` that is refused, by the check that it makes or because the gate is
closed, finds no bytes pending. -/
def Clean (u : String) (s : GateState) : GateOp → Prop
  | .add id n r => ∀ g, s.gates.get? id = some g → g.uuid = u → g.ok = true → g.due r n →
      g.granted r s.accounts = false → g.pending = 0
  | .flush id r => ∀ g, s.gates.get? id = some g → g.uuid = u →
      (g.ok && g.granted r s.accounts) = false → g.pending = 0
  | _ => True

/-- The bytes that a gate forgets in `add`. -/
def Gate.droppedByAdd (g : Gate) (n : ℕ) (r : Reading) (a : Accounts) : ℕ :=
  if g.ok = true ∧ g.due r n ∧ g.granted r a = false then g.pending else 0

/-- The bytes that a gate forgets in `flush`. -/
def Gate.droppedByFlush (g : Gate) (r : Reading) (a : Accounts) : ℕ :=
  if (g.ok && g.granted r a) = false then g.pending else 0

/-- The bytes that the gates of `u` forget. -/
def dropped (u : String) (s : GateState) : GateOp → ℕ
  | .add id n r =>
    match s.gates.get? id with
    | none => 0
    | some g => if g.uuid = u then g.droppedByAdd n r s.accounts else 0
  | .flush id r =>
    match s.gates.get? id with
    | none => 0
    | some g => if g.uuid = u then g.droppedByFlush r s.accounts else 0
  | _ => 0

/-- The bytes pending in a gate, if it is one of `u`. -/
def Gate.pendingOf (u : String) (g : Gate) : ℤ := if g.uuid = u then g.pending else 0

/-- The bytes pending in all gates of `u`. -/
def pending (u : String) (s : GateState) : ℤ := s.gates.sumValues (Gate.pendingOf u)

/-! ### Conservation -/

namespace Gate

variable (g : Gate) (n : ℕ) (r : Reading) (a : Accounts)

/-- A flush leaves nothing pending. -/
theorem flush_pending : (g.flush r a).1.pending = 0 := by
  rcases g.flush_cases r a with ⟨hp, he⟩ | ⟨-, -, he⟩ | ⟨-, -, he⟩
  · rw [he]; exact hp
  · rw [he]; rfl
  · rw [he]; rfl

variable {g}

/-- One `add` on a gate of `u`: what was pending and what is accepted is charged, forgotten or
still pending. -/
theorem add_conserved (hu : g.uuid = u) :
    (g.pending : ℤ) + (if (g.add n r a).1 = true then (n : ℤ) else 0) =
      (g.add n r a).2.1.pending +
        (((g.add n r a).2.2.usedBytes u - a.usedBytes u) + g.droppedByAdd n r a) := by
  subst hu
  unfold droppedByAdd
  rcases g.add_cases n r a with ⟨hok, he⟩ | ⟨hok, hdue, h, he⟩ | ⟨hok, hdue, he⟩
  · simp [he, hok]
  · simp [he, hdue, defer]
  · cases hg : g.granted r a with
    | false => simp [he, hg, hok, hdue, checked]
    | true => simp [he, hg, checked, Accounts.usedBytes_charge (allows_of_granted hg)]

/-- One `flush` on a gate of `u`. -/
theorem flush_conserved (hu : g.uuid = u) :
    (g.pending : ℤ) = (g.flush r a).1.pending +
      (((g.flush r a).2.usedBytes u - a.usedBytes u) + g.droppedByFlush r a) := by
  subst hu
  unfold droppedByFlush
  rcases g.flush_cases r a with ⟨hp, he⟩ | ⟨hp, hok, he⟩ | ⟨hp, hok, he⟩
  · simp [he, hp]
  · simp [he, hok, settled]
  · cases hg : g.granted r a with
    | false => simp [he, hg, hok, settled]
    | true => simp [he, hg, hok, settled, Accounts.usedBytes_charge (allows_of_granted hg)]

/-- A gate of another user does not touch the account of `u`. -/
theorem add_usedBytes_ne (hu : g.uuid ≠ u) :
    (g.add n r a).2.2.usedBytes u = a.usedBytes u := by
  rcases g.add_cases n r a with ⟨-, he⟩ | ⟨-, -, _, he⟩ | ⟨-, -, he⟩
  · rw [he]
  · rw [he]
  · rw [he]
    cases g.granted r a with
    | false => rfl
    | true => exact Accounts.usedBytes_charge_ne hu

theorem flush_usedBytes_ne (hu : g.uuid ≠ u) : (g.flush r a).2.usedBytes u = a.usedBytes u := by
  rcases g.flush_cases r a with ⟨-, he⟩ | ⟨-, -, he⟩ | ⟨-, -, he⟩
  · rw [he]
  · rw [he]
  · rw [he]
    cases g.granted r a with
    | false => rfl
    | true => exact Accounts.usedBytes_charge_ne hu

end Gate

/-- The pending bytes after a call that leaves the gate `g'` in the place of `g`. -/
theorem pending_set (u : String) {id : ℕ} {g : Gate} (g' : Gate) (hg : s.gates.get? id = some g)
    (a : Accounts) :
    pending u ⟨a, s.gates.set id g'⟩ + g.pendingOf u = pending u s + g'.pendingOf u := by
  have := s.gates.sumValues_set (Gate.pendingOf u) id g'
  rwa [hg] at this

/-- **The step**: what was pending and what is accepted is charged, forgotten or still pending. -/
theorem step_conserved (h : s.next op = some s') :
    pending u s + accepted u s op = pending u s' + (charged u s op + dropped u s op) := by
  cases op with
  | create id cls uuid m =>
    have hnext := h
    simp only [GateState.next] at h
    split_ifs at h with hc
    cases h
    -- a new gate has nothing pending
    have hnone : s.gates.get? id = none := by simpa [Dict.contains] using hc
    have := s.gates.sumValues_set (Gate.pendingOf u) id (.init cls uuid m)
    rw [hnone] at this
    simp only [accepted, charged, dropped]
    simp [pending, Gate.pendingOf, Gate.init] at this ⊢
    omega
  | add id n r =>
    have hnext := h
    simp only [GateState.next, Option.map_eq_some_iff] at h
    obtain ⟨g, hg, rfl⟩ := h
    have hset := pending_set u (g.add n r s.accounts).2.1 hg (g.add n r s.accounts).2.2
    simp only [accepted, charged, dropped, hg, hnext]
    simp only [Gate.pendingOf, (g.add_uuid_cls n r s.accounts).1] at hset
    by_cases hu : g.uuid = u
    · have := g.add_conserved n r s.accounts hu
      simp only [hu, if_true, true_and] at hset ⊢
      omega
    · have := g.add_usedBytes_ne n r s.accounts hu
      simp only [hu, if_false, false_and] at hset ⊢
      omega
  | flush id r =>
    have hnext := h
    simp only [GateState.next, Option.map_eq_some_iff] at h
    obtain ⟨g, hg, rfl⟩ := h
    have hset := pending_set u (g.flush r s.accounts).1 hg (g.flush r s.accounts).2
    simp only [accepted, charged, dropped, hg, hnext]
    simp only [Gate.pendingOf, (g.flush_uuid_cls r s.accounts).1] at hset
    -- a gate of another user moves nothing of `u`
    by_cases hu : g.uuid = u
    · have := g.flush_conserved r s.accounts hu
      simp only [hu, if_true] at hset ⊢
      omega
    · have := g.flush_usedBytes_ne r s.accounts hu
      simp only [hu, if_false] at hset ⊢
      omega
  | other accounts =>
    cases h
    simp [accepted, charged, dropped, pending]

/-- A step forgets nothing exactly when it is clean. -/
theorem dropped_eq_zero_iff (u : String) (s : GateState) (op : GateOp) :
    dropped u s op = 0 ↔ Clean u s op := by
  cases op with
  | create | other => simp [dropped, Clean]
  | add id n r =>
    cases hg : s.gates.get? id with
    | none => simp [dropped, Clean, hg]
    | some g =>
      simp only [dropped, Clean, hg, Option.some.injEq, forall_eq', Gate.droppedByAdd]
      split_ifs <;> tauto
  | flush id r =>
    cases hg : s.gates.get? id with
    | none => simp [dropped, Clean, hg]
    | some g =>
      simp only [dropped, Clean, hg, Option.some.injEq, forall_eq', Gate.droppedByFlush]
      split_ifs <;> tauto

/-! ### Runs -/

/-- Nothing is pending in the gates of `u`. -/
def Flushed (u : String) (s : GateState) : Prop :=
  ∀ id g, s.gates.get? id = some g → g.uuid = u → g.pending = 0

theorem Flushed.pending_eq (h : Flushed u s) : pending u s = 0 := by
  refine Dict.sumValues_eq_zero fun id g hg => ?_
  rw [Gate.pendingOf]
  split_ifs with hu
  · exact_mod_cast h id g hg hu
  · rfl

/-- **When no byte escapes the account**: in a run after which all gates of `u` are flushed, the
increase of `used_bytes` by these gates is the sum of the bytes they accepted exactly when no call
was refused on a gate with bytes pending. -/
theorem charged_eq_accepted_iff {ls : List GateOp} (hrun : gateMachine.run s ls = some s')
    (hstart : Flushed u s) (hend : Flushed u s') :
    gateMachine.total (charged u) s ls = gateMachine.total (accepted u) s ls ↔
      gateMachine.Along (Clean u) s ls := by
  have hcons := Machine.total_conserved (A := gateMachine) (Φ := pending u)
    (f := accepted u) (g := fun s op => charged u s op + (dropped u s op : ℤ))
    (fun _ _ _ h => step_conserved h) hrun
  rw [hstart.pending_eq, hend.pending_eq, zero_add, zero_add, Machine.total_add] at hcons
  have hcast := gateMachine.total_natCast (dropped u) s ls
  have hzero := gateMachine.total_eq_zero_iff (dropped u) s ls
  have hclean : gateMachine.Along (fun s op => dropped u s op = 0) s ls ↔
      gateMachine.Along (Clean u) s ls :=
    Machine.along_iff (I := fun _ => True) (fun _ _ _ _ _ _ => trivial)
      (fun s op _ => dropped_eq_zero_iff u s op) trivial
  rw [← hclean, ← hzero]
  omega

/-- At this step the link of `u` stays, its usage is not reset, and no check raises. -/
def Kept (u : String) (s : GateState) : GateOp → Prop
  | .add _ _ r => r.raises = false
  | .flush _ r => r.raises = false
  | .create .. => True
  | .other a => a.links.contains u = true ∧ s.accounts.usedBytes u ≤ a.usedBytes u

/-- A link of the user `u`, enabled or not. -/
def plainLink (active : Bool) : Accounts :=
  ⟨(∅ : Links).set "u" ⟨"vless-ws", none, 0, active, .never, 0, 0⟩, 0, ∅⟩

/-- A link that is used, and disabled before its gate is flushed. -/
def disabledRun : List GateOp :=
  [.create 0 .vless "u" 0, .add 0 1000 (readingAt 0), .other (plainLink false),
    .flush 0 (readingAt (1 / 10))]

theorem disabledRun_totals :
    gateMachine.total (charged "u") ⟨plainLink true, ∅⟩ disabledRun = 0 ∧
      gateMachine.total (accepted "u") ⟨plainLink true, ∅⟩ disabledRun = 1000 := by
  decide +kernel

theorem disabledRun_kept : gateMachine.Along (Kept "u") ⟨plainLink true, ∅⟩ disabledRun := by
  refine ⟨trivial, fun t ht => ?_⟩
  cases ht
  refine ⟨rfl, fun t ht => ?_⟩
  cases ht
  refine ⟨⟨by decide +kernel, by decide +kernel⟩, fun t ht => ?_⟩
  cases ht
  exact ⟨rfl, fun _ _ => trivial⟩

theorem disabledRun_flushed : ∃ s', gateMachine.run ⟨plainLink true, ∅⟩ disabledRun = some s' ∧
    Flushed "u" ⟨plainLink true, ∅⟩ ∧ Flushed "u" s' := by
  refine ⟨_, rfl, ?_, ?_⟩
  · intro id g hg
    simp at hg
  · intro id g hg _
    by_cases hid : 0 = id
    · subst hid
      change some _ = some g at hg
      cases hg
      exact Gate.flush_pending _ _ _
    · change (((∅ : Dict ℕ Gate).set 0 _ |>.set 0 _).set 0 _).get? id = some g at hg
      simp only [Dict.get?_set, hid, if_false, Dict.get?_empty] at hg
      cases hg

/-- A link that is disabled while bytes are pending: 1000 bytes pass and none is charged. -/
theorem forwarded_bytes_escape : ¬ ∀ (u : String) (s s' : GateState) (ls : List GateOp),
    gateMachine.run s ls = some s' → s.accounts.links.contains u = true →
    gateMachine.Along (Kept u) s ls → Flushed u s → Flushed u s' →
      gateMachine.total (charged u) s ls = gateMachine.total (accepted u) s ls := by
  intro h
  obtain ⟨s', hrun, hstart, hend⟩ := disabledRun_flushed
  have := h "u" _ s' disabledRun hrun rfl disabledRun_kept hstart hend
  rw [disabledRun_totals.1, disabledRun_totals.2] at this
  cases this

/-- The equivalence in that run. -/
theorem charged_eq_accepted_iff_disabledRun : ∃ s',
    gateMachine.run ⟨plainLink true, ∅⟩ disabledRun = some s' ∧
    Flushed "u" ⟨plainLink true, ∅⟩ ∧ Flushed "u" s' ∧
    (gateMachine.total (charged "u") ⟨plainLink true, ∅⟩ disabledRun =
        gateMachine.total (accepted "u") ⟨plainLink true, ∅⟩ disabledRun ↔
      gateMachine.Along (Clean "u") ⟨plainLink true, ∅⟩ disabledRun) := by
  obtain ⟨s', hrun, hstart, hend⟩ := disabledRun_flushed
  exact ⟨s', hrun, hstart, hend, charged_eq_accepted_iff hrun hstart hend⟩

end Quota

end RvgGateway
