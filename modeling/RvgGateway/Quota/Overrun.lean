import Mathlib.Algebra.BigOperators.Group.Finset.Basic
import Mathlib.Algebra.Order.BigOperators.Group.Finset
import RvgGateway.Quota.Gate

/-!
# Traffic after a link stops being allowed

A gate lets bytes pass before it charges them, so it may still let some pass when its link is no
longer allowed.  It cannot let many pass: what is pending stays below the batch size, the batch
size is capped, and the first check that is made closes the gate for good.

* `Refused u` : a step at which the link of `u` is not allowed.
* `budget` : what a gate can still let pass while its link is not allowed.
* `overrun_bounded` : the bound for any number of gates on one link, and that a closed gate stays
  closed.
-/

namespace RvgGateway

namespace Quota

variable {s s' : GateState} {op : GateOp} {id : ℕ} {u : String} {cls : GateClass}

/-- At this step the link of `u` is not allowed. -/
def Refused (u : String) (s : GateState) : GateOp → Prop
  | .add _ _ r => s.accounts.allows r.clock u = false
  | .flush _ r => s.accounts.allows r.clock u = false
  | _ => True

/-! ### What a step does to one gate -/

/-- What a step does to the gate `id`: a call of one of its methods, its creation, or nothing. -/
theorem next_gate (h : s.next op = some s') (id : ℕ) :
    (∃ n r g, op = .add id n r ∧ s.gates.get? id = some g ∧
      s'.gates.get? id = some (g.add n r s.accounts).2.1) ∨
    (∃ r g, op = .flush id r ∧ s.gates.get? id = some g ∧
      s'.gates.get? id = some (g.flush r s.accounts).1) ∨
    (∃ cls uuid m, op = .create id cls uuid m ∧ s.gates.get? id = none ∧
      s'.gates.get? id = some (.init cls uuid m)) ∨
    (s'.gates.get? id = s.gates.get? id ∧ s.addResult id op = none) := by
  cases op with
  | create id' cls uuid m =>
    simp only [GateState.next] at h
    split_ifs at h with hc
    cases h
    by_cases hid : id' = id
    · subst hid
      refine .inr (.inr (.inl ⟨cls, uuid, m, rfl, ?_, by simp⟩))
      simpa [Dict.contains] using hc
    · exact .inr (.inr (.inr ⟨Dict.get?_set_ne _ _ hid, rfl⟩))
  | add id' n r =>
    simp only [GateState.next, Option.map_eq_some_iff] at h
    obtain ⟨g, hg, rfl⟩ := h
    by_cases hid : id' = id
    · subst hid
      exact .inl ⟨n, r, g, rfl, hg, by simp⟩
    · exact .inr (.inr (.inr ⟨Dict.get?_set_ne _ _ hid, by simp [GateState.addResult, hid]⟩))
  | flush id' r =>
    simp only [GateState.next, Option.map_eq_some_iff] at h
    obtain ⟨g, hg, rfl⟩ := h
    by_cases hid : id' = id
    · subst hid
      exact .inr (.inl ⟨r, g, rfl, hg, by simp⟩)
    · exact .inr (.inr (.inr ⟨Dict.get?_set_ne _ _ hid, rfl⟩))
  | other accounts =>
    cases h
    exact .inr (.inr (.inr ⟨rfl, rfl⟩))

namespace Gate

variable (g : Gate) (n : ℕ) (r : Reading) (a : Accounts)

variable {g n r a}

/-- While the link is not allowed, an open gate defers the bytes or closes. -/
theorem add_of_refused (hg : a.allows r.clock g.uuid = false) (hok : g.ok = true) :
    ((g.add n r a).1 = true ∧ (g.add n r a).2.1.ok = true ∧
      (g.add n r a).2.1.pending = g.pending + n) ∨
    ((g.add n r a).1 = false ∧ (g.add n r a).2.1.ok = false) := by
  rcases g.add_cases n r a with ⟨hno, -⟩ | ⟨-, -, h, he⟩ | ⟨-, -, he⟩
  · rw [hok] at hno; cases hno
  · rw [he]; exact .inl ⟨rfl, hok, rfl⟩
  · rw [he, granted_of_refused hg]; exact .inr ⟨rfl, rfl⟩

/-- While the link is not allowed, a flush changes nothing or closes the gate. -/
theorem flush_of_refused (hg : a.allows r.clock g.uuid = false) :
    (g.flush r a).1 = g ∨ (g.flush r a).1.ok = false := by
  rcases g.flush_cases r a with ⟨-, he⟩ | ⟨-, -, he⟩ | ⟨-, -, he⟩
  · rw [he]; exact .inl rfl
  · rw [he]; exact .inr rfl
  · rw [he, granted_of_refused hg]; exact .inr rfl

/-- A closed gate refuses and stays closed. -/
theorem add_of_closed (h : g.ok = false) : g.add n r a = (false, g, a) := by
  simp [add, h]

theorem flush_of_closed (h : g.ok = false) : (g.flush r a).1.ok = false := by
  rcases g.flush_cases r a with ⟨-, he⟩ | ⟨-, -, he⟩ | ⟨-, hok, -⟩
  · rw [he]; exact h
  · rw [he]; rfl
  · rw [h] at hok; cases hok

/-- An `add` that returns `False` leaves the gate closed. -/
theorem closed_of_add (h : (g.add n r a).1 = false) : (g.add n r a).2.1.ok = false := by
  rcases g.add_cases n r a with ⟨hok, he⟩ | ⟨-, -, _, he⟩ | ⟨-, -, he⟩
  · rw [he]; exact hok
  · rw [he] at h; cases h
  · rw [he] at h ⊢; exact h

end Gate

/-! ### The budget -/

/-- All about the gate `id` that does not change: if it exists, it is one of `u` and of class
`cls`. -/
def Belongs (u : String) (cls : GateClass) (id : ℕ) (s : GateState) : Prop :=
  ∀ g, s.gates.get? id = some g → g.uuid = u ∧ g.cls = cls

/-- What the gate `id` can still let pass while its link is not allowed. -/
def budget (cls : GateClass) (id : ℕ) (s : GateState) : ℕ :=
  match s.gates.get? id with
  | none => cls.maxBatch - 1
  | some g => if g.ok then g.cls.maxBatch - 1 - g.pending else 0

theorem Belongs.back (h : s.next op = some s') (hs : Belongs u cls id s') : Belongs u cls id s := by
  intro g hg
  obtain ⟨n, r, g', -, hg', hn⟩ | ⟨r, g', -, hg', hn⟩ | ⟨_, _, _, -, hnone, -⟩ | ⟨hn, -⟩ :=
    next_gate h id
  · rw [hg] at hg'; cases hg'
    have := hs _ hn
    rwa [(g.add_uuid_cls n r s.accounts).1, (g.add_uuid_cls n r s.accounts).2] at this
  · rw [hg] at hg'; cases hg'
    have := hs _ hn
    rwa [(g.flush_uuid_cls r s.accounts).1, (g.flush_uuid_cls r s.accounts).2] at this
  · rw [hg] at hnone; cases hnone
  · exact hs g (hn.trans hg)

/-- A step at which the link is not allowed lets through no more than it takes off the budget. -/
theorem accepted_add_budget (h : s.next op = some s') (hoff : Refused u s op)
    (hs : Belongs u cls id s) (hs' : Belongs u cls id s') :
    s.accepted id op + budget cls id s' ≤ budget cls id s := by
  obtain ⟨n, r, g, rfl, hg, hn⟩ | ⟨r, g, rfl, hg, hn⟩ | ⟨_, _, _, rfl, hg, hn⟩ | ⟨hn, hres⟩ :=
    next_gate h id
  · obtain ⟨hu, hcls⟩ := hs g hg
    have hlt := g.pending_lt.trans_le g.batch_le
    rw [Refused, ← hu] at hoff
    simp only [GateState.accepted, GateState.addResult, budget, hg, hn, if_true, Option.map_some]
    cases hok : g.ok with
    | false => simp [Gate.add_of_closed hok, hok]
    | true =>
      rcases Gate.add_of_refused hoff hok with ⟨hres, hok', hp⟩ | ⟨hres, hok'⟩
      · have hlt' := (g.add n r s.accounts).2.1.pending_lt.trans_le (g.add n r s.accounts).2.1.batch_le
        rw [hp, (g.add_uuid_cls n r s.accounts).2] at hlt'
        simp only [hres, hok', if_true, hp, (g.add_uuid_cls n r s.accounts).2]
        omega
      · simp [hres, hok']
  · obtain ⟨hu, hcls⟩ := hs g hg
    rw [Refused, ← hu] at hoff
    simp only [GateState.accepted, GateState.addResult, Nat.zero_add, budget, hg, hn]
    rcases Gate.flush_of_refused (g := g) hoff with he | hok
    · rw [he]
    · simp [hok]
  · -- a new gate starts with the whole budget of its class
    obtain ⟨-, hcls⟩ := hs' _ hn
    simp only [GateState.accepted, GateState.addResult, Nat.zero_add, budget, hg, hn]
    simp only [Gate.init] at hcls
    simp [Gate.init, hcls]
  · simp [GateState.accepted, hres, budget, hn]

/-- **The overrun of one gate** is below the largest batch. -/
theorem accepted_lt {ls : List GateOp} (hrun : gateMachine.run s ls = some s')
    (hoff : gateMachine.Along (Refused u) s ls) (hs : Belongs u cls id s') :
    gateMachine.total (GateState.accepted id) s ls ≤ cls.maxBatch - 1 := by
  obtain ⟨hle, hb⟩ := Machine.total_le_potential (Φ := budget cls id) (I := Belongs u cls id)
    (fun _ _ _ h hI => hI.back h)
    (fun _ _ _ h hP hI hI' => accepted_add_budget h hP hI hI') hrun hoff hs
  refine hle.trans ?_
  rw [budget]
  split
  · exact le_rfl
  · rename_i g hg
    rw [(hb g hg).2]
    split_ifs <;> omega

/-! ### Closed gates -/

/-- The gate `id` exists and is closed. -/
def Closed (id : ℕ) (s : GateState) : Prop := ∃ g, s.gates.get? id = some g ∧ g.ok = false

theorem Closed.next (h : s.next op = some s') (hs : Closed id s) : Closed id s' := by
  obtain ⟨g, hg, hok⟩ := hs
  obtain ⟨n, r, g', -, hg', hn⟩ | ⟨r, g', -, hg', hn⟩ | ⟨_, _, _, -, hnone, -⟩ | ⟨hn, -⟩ :=
    next_gate h id
  · rw [hg] at hg'; cases hg'
    exact ⟨_, hn, by rw [Gate.add_of_closed hok]; exact hok⟩
  · rw [hg] at hg'; cases hg'
    exact ⟨_, hn, Gate.flush_of_closed hok⟩
  · rw [hg] at hnone; cases hnone
  · exact ⟨g, hn.trans hg, hok⟩

theorem Closed.addResult {n : ℕ} (hs : Closed id s) : s.addResult id op ≠ some (n, true) := by
  obtain ⟨g, hg, hok⟩ := hs
  cases op with
  | add id' m r =>
    intro h
    simp only [GateState.addResult] at h
    split_ifs at h
    simp [hg, Gate.add_of_closed hok] at h
  | create | flush | other => simp [GateState.addResult]

theorem closed_of_addResult {n : ℕ} (h : s.next op = some s')
    (hres : s.addResult id op = some (n, false)) : Closed id s' := by
  obtain ⟨m, r, g, rfl, hg, hn⟩ | ⟨r, g, rfl, -⟩ | ⟨_, _, _, rfl, -⟩ | ⟨-, hnone⟩ := next_gate h id
  · simp only [GateState.addResult, if_true, hg, Option.map_some, Option.some.injEq,
      Prod.mk.injEq] at hres
    exact ⟨_, hn, Gate.closed_of_add hres.2⟩
  · simp [GateState.addResult] at hres
  · simp [GateState.addResult] at hres
  · rw [hnone] at hres; cases hres

/-- **Bounded overrun.**  While the link of `u` is not allowed, any number of gates of one class on
it, existing or created on the way, let through less than the largest batch each; and an `add` that
has returned `False` is never followed by one on the same gate that returns `True`. -/
theorem overrun_bounded :
    (∀ (u : String) (cls : GateClass) (s s' : GateState) (ls : List GateOp),
      gateMachine.run s ls = some s' → gateMachine.Along (Refused u) s ls →
      ∀ S : Finset ℕ, S.Nonempty →
        (∀ id ∈ S, ∃ g, s'.gates.get? id = some g ∧ g.uuid = u ∧ g.cls = cls) →
        ∑ id ∈ S, gateMachine.total (GateState.accepted id) s ls < S.card * cls.maxBatch) ∧
    (∀ (id n : ℕ) (s t t' : GateState) (op : GateOp) (ls : List GateOp),
      s.addResult id op = some (n, false) → gateMachine.step s op = some t →
      gateMachine.run t ls = some t' → ∀ op' m, t'.addResult id op' ≠ some (m, true)) := by
  constructor
  · intro u cls s s' ls hrun hoff S hne hS
    have hmax : 0 < cls.maxBatch := cls.min_pos.trans_le cls.min_le
    calc ∑ id ∈ S, gateMachine.total (GateState.accepted id) s ls
        ≤ ∑ _id ∈ S, (cls.maxBatch - 1) := by
          refine Finset.sum_le_sum fun id hid => accepted_lt hrun hoff fun g hg => ?_
          obtain ⟨g', hg', hu, hc⟩ := hS id hid
          rw [hg] at hg'
          cases hg'
          exact ⟨hu, hc⟩
      _ < ∑ _id ∈ S, cls.maxBatch := Finset.sum_lt_sum_of_nonempty hne fun _ _ => by omega
      _ = S.card * cls.maxBatch := Finset.sum_const_nat fun _ _ => rfl
  · intro id n s t t' op ls hres hstep hrun op' m
    have hclosed : Closed id t' :=
      Machine.run_invariant (I := Closed id) (fun _ _ _ hI h => hI.next h) hrun
        (closed_of_addResult hstep hres)
    exact hclosed.addResult

/-- A connection of a deleted user: its gate lets 1000 bytes pass and refuses the next. -/
def orphanRun : List GateOp :=
  [.create 0 .vless "u" 0, .add 0 1000 (readingAt 0), .add 0 5 (readingAt 1)]

/-- The bound in that run. -/
theorem overrun_bounded_orphan :
    ∃ s', gateMachine.run ⟨⟨∅, 0, ∅⟩, ∅⟩ orphanRun = some s' ∧
      ∑ id ∈ {0}, gateMachine.total (GateState.accepted id) ⟨⟨∅, 0, ∅⟩, ∅⟩ orphanRun <
        ({0} : Finset ℕ).card * GateClass.vless.maxBatch := by
  refine ⟨_, rfl, overrun_bounded.1 "u" .vless _ _ orphanRun rfl ?_ {0} (by decide) ?_⟩
  · refine ⟨trivial, fun t ht => ?_⟩
    cases ht
    refine ⟨show Accounts.allows _ _ _ = false by decide +kernel, fun t ht => ?_⟩
    cases ht
    exact ⟨show Accounts.allows _ _ _ = false by decide +kernel, fun _ _ => trivial⟩
  · intro id hid
    rw [Finset.mem_singleton.1 hid]
    obtain ⟨hu₁, hc₁⟩ := Gate.add_uuid_cls (.init .vless "u" 0) 1000 (readingAt 0) ⟨∅, 0, ∅⟩
    refine ⟨_, rfl, ?_, ?_⟩
    · exact (Gate.add_uuid_cls _ _ _ _).1.trans hu₁
    · exact (Gate.add_uuid_cls _ _ _ _).2.trans hc₁

end Quota

end RvgGateway
