import Mathlib.Algebra.Group.Basic
import Mathlib.Algebra.Group.Nat.Defs
import Mathlib.Algebra.Order.Ring.Int
import Mathlib.Data.List.Basic
import Mathlib.Data.List.Induction
import Mathlib.Logic.Relation

/-!
# Machines and their runs

Every component with state in this library (a codec fed piece by piece, a set of quota gates, a
session engine, the listener registries) is a *machine*: a partial step function on an explicit
state, driven by labels that carry whatever the environment decides (bytes that arrive, clock
readings, which task runs next).  A label that is not possible in a state makes the step `none`.

## Main definitions

* `Machine S L` : a partial step function `S → L → Option S`.
* `Machine.run` : the state after a list of labels.
* `Machine.Reaches s₀ s` : some run leads from `s₀` to `s`.
* `Machine.Along P s ls` : every step of the run `ls` from `s` meets the condition `P` on the
  state before the step and the label.
* `Machine.total f s ls` : the sum of a quantity `f` over the steps of a run.

The rules used by the other files are `Machine.run_invariant` (an invariant kept by every step),
`Machine.run_history_along` (an invariant about the state and the steps so far, kept by the steps
that meet a condition), `Machine.along_iff` (two conditions that agree wherever an invariant holds
agree along runs),
`Machine.invariant_iff_along` (a run keeps to a predicate exactly when its steps meet a condition),
`Machine.run_iff_along` (the same for a predicate that cannot be regained once it is lost),
`Machine.held_iff_since` (what holds was granted and not revoked since) and
`Machine.total_conserved` (a quantity that every step moves without loss is not lost in a run).
-/

namespace RvgGateway

/-- A machine with states `S` and labels `L`. -/
structure Machine (S : Type*) (L : Type*) where
  /-- `step s l` is the state after performing `l` in `s`, if `l` is possible there. -/
  step : S → L → Option S

namespace Machine

variable {S L : Type*} (A : Machine S L)

/-- The state after performing the labels of a list in order. -/
def run : S → List L → Option S
  | s, [] => some s
  | s, l :: ls => (A.step s l).bind fun s' => run s' ls

/-- Some run leads from `s₀` to `s`. -/
def Reaches (s₀ s : S) : Prop := ∃ ls, A.run s₀ ls = some s

/-- Every step of the run `ls` from `s` meets `P`. -/
def Along (P : S → L → Prop) : S → List L → Prop
  | _, [] => True
  | s, l :: ls => P s l ∧ ∀ s', A.step s l = some s' → Along P s' ls

variable {A}

@[simp] theorem run_nil (s : S) : A.run s [] = some s := rfl

theorem run_cons {s s' : S} {l : L} {ls : List L} :
    A.run s (l :: ls) = some s' ↔ ∃ t, A.step s l = some t ∧ A.run t ls = some s' := by
  simp [run, Option.bind_eq_some_iff]

theorem run_append {s s' : S} {ls ms : List L} :
    A.run s (ls ++ ms) = some s' ↔ ∃ t, A.run s ls = some t ∧ A.run t ms = some s' := by
  induction ls generalizing s with
  | nil => simp
  | cons l ls ih =>
    simp only [List.cons_append, run_cons, ih]
    constructor
    · rintro ⟨t, ht, u, hu, hs⟩; exact ⟨u, ⟨t, ht, hu⟩, hs⟩
    · rintro ⟨u, ⟨t, ht, hu⟩, hs⟩; exact ⟨t, ht, u, hu, hs⟩

/-- The run behind a step of a run. -/
theorem run_behind {s t u v : S} {l : L} {ls ms : List L} (h : A.run s (ls ++ l :: ms) = some v)
    (ht : A.run s ls = some t) (hu : A.step t l = some u) : A.run u ms = some v := by
  obtain ⟨_, ht', h⟩ := run_append.1 h
  cases ht.symm.trans ht'
  obtain ⟨_, hu', h⟩ := run_cons.1 h
  cases hu.symm.trans hu'
  exact h

@[refl] theorem Reaches.refl (s : S) : A.Reaches s s := ⟨[], rfl⟩

theorem Reaches.trans {s₁ s₂ s₃ : S} (h₁ : A.Reaches s₁ s₂) (h₂ : A.Reaches s₂ s₃) :
    A.Reaches s₁ s₃ := by
  obtain ⟨ls, hl⟩ := h₁
  obtain ⟨ms, hm⟩ := h₂
  exact ⟨ls ++ ms, run_append.2 ⟨s₂, hl, hm⟩⟩

/-- **The run rule**: a predicate that every step preserves holds at the end of every run that
starts in it. -/
theorem run_invariant {I : S → Prop} (hstep : ∀ s l s', I s → A.step s l = some s' → I s')
    {s s' : S} {ls : List L} (h : A.run s ls = some s') (h₀ : I s) : I s' := by
  induction ls generalizing s with
  | nil => cases h; exact h₀
  | cons l ls ih =>
    obtain ⟨t, ht, h⟩ := run_cons.1 h
    exact ih h (hstep s l t h₀ ht)

/-- The run rule for steps of which something is known. -/
theorem run_invariant_mem {I : S → Prop} {ls : List L}
    (hstep : ∀ s l s', l ∈ ls → I s → A.step s l = some s' → I s') {s s' : S}
    (h : A.run s ls = some s') (h₀ : I s) : I s' := by
  induction ls generalizing s with
  | nil => cases h; exact h₀
  | cons l ls ih =>
    obtain ⟨t, ht, h⟩ := run_cons.1 h
    exact ih (fun s l' s' hl => hstep s l' s' (List.mem_cons_of_mem _ hl)) h
      (hstep s l t List.mem_cons_self h₀ ht)

theorem Reaches.invariant {I : S → Prop} (hstep : ∀ s l s', I s → A.step s l = some s' → I s')
    {s s' : S} (h : A.Reaches s s') (h₀ : I s) : I s' := by
  obtain ⟨ls, h⟩ := h
  exact run_invariant hstep h h₀

/-- The run rule with a condition on the steps and with the history: a predicate on the steps so far
and the state that the steps which meet `P` preserve holds after every run of such steps. -/
theorem run_history_along {I : List L → S → Prop} {P : S → L → Prop}
    (hstep : ∀ hist s l s', I hist s → P s l → A.step s l = some s' → I (hist ++ [l]) s')
    (hist : List L) {s s' : S} {ls : List L} (h : A.run s ls = some s') (hP : A.Along P s ls)
    (h₀ : I hist s) : I (hist ++ ls) s' := by
  induction ls generalizing hist s with
  | nil => cases h; simpa using h₀
  | cons l ls ih =>
    obtain ⟨t, ht, h⟩ := run_cons.1 h
    have hnext := ih (hist ++ [l]) h (hP.2 t ht) (hstep hist s l t h₀ hP.1 ht)
    rwa [List.append_assoc, List.singleton_append] at hnext

/-- The run rule with a condition on the steps. -/
theorem run_invariant_along {I : S → Prop} {P : S → L → Prop}
    (hstep : ∀ s l s', I s → P s l → A.step s l = some s' → I s') {s s' : S} {ls : List L}
    (h : A.run s ls = some s') (hP : A.Along P s ls) (h₀ : I s) : I s' :=
  run_history_along (I := fun _ => I) (fun _ s l s' => hstep s l s') [] h hP h₀

theorem along_of_forall {P : S → L → Prop} (h : ∀ s l, P s l) (s : S) (ls : List L) :
    A.Along P s ls := by
  induction ls generalizing s with
  | nil => trivial
  | cons l ls ih => exact ⟨h s l, fun t _ => ih t⟩

/-- The run rule with the run so far. -/
theorem run_history {I : List L → S → Prop} {s₀ : S}
    (hstep : ∀ hist s l s', A.run s₀ hist = some s → I hist s → A.step s l = some s' →
      I (hist ++ [l]) s')
    {s : S} {ls : List L} (h : A.run s₀ ls = some s) (h₀ : I [] s₀) : I ls s := by
  have hboth := run_history_along (P := fun _ _ => True)
    (I := fun hist t => A.run s₀ hist = some t ∧ I hist t)
    (fun hist t l t' ht _ hl => ⟨run_append.2 ⟨t, ht.1, run_cons.2 ⟨t', hl, rfl⟩⟩,
      hstep hist t l t' ht.1 ht.2 hl⟩)
    [] h (along_of_forall (fun _ _ => trivial) _ _) ⟨rfl, h₀⟩
  exact hboth.2

theorem along_append {P : S → L → Prop} {s t : S} {ls ms : List L} (h : A.run s ls = some t) :
    A.Along P s (ls ++ ms) ↔ A.Along P s ls ∧ A.Along P t ms := by
  induction ls generalizing s with
  | nil => cases h; simp [Along]
  | cons l ls ih =>
    obtain ⟨u, hu, h⟩ := run_cons.1 h
    have hcons : ∀ ks, A.Along P s (l :: ks) ↔ P s l ∧ A.Along P u ks := fun ks => by
      simp [Along, hu]
    rw [List.cons_append, hcons, hcons, ih h, and_assoc]

/-- The last step of a run that meets `P`. -/
theorem Along.last {P : S → L → Prop} {s t : S} {ls : List L} {l : L}
    (h : A.Along P s (ls ++ [l])) (hrun : A.run s ls = some t) : P t l :=
  ((along_append hrun).1 h).2.1

theorem Along.mono {P Q : S → L → Prop} (hPQ : ∀ s l, P s l → Q s l) {s : S} {ls : List L}
    (h : A.Along P s ls) : A.Along Q s ls := by
  induction ls generalizing s with
  | nil => trivial
  | cons l ls ih => exact ⟨hPQ _ _ h.1, fun s' hs => ih (h.2 s' hs)⟩

theorem Along.and {P Q : S → L → Prop} {s : S} {ls : List L} (hP : A.Along P s ls)
    (hQ : A.Along Q s ls) : A.Along (fun s l => P s l ∧ Q s l) s ls := by
  induction ls generalizing s with
  | nil => trivial
  | cons l ls ih => exact ⟨⟨hP.1, hQ.1⟩, fun s' hs => ih (hP.2 s' hs) (hQ.2 s' hs)⟩

/-- Conditions that can be decided can be decided along runs. -/
instance decidableAlong {P : S → L → Prop} [∀ s l, Decidable (P s l)] :
    ∀ s ls, Decidable (A.Along P s ls)
  | _, [] => .isTrue trivial
  | s, l :: ls =>
    match h : A.step s l with
    | none => decidable_of_iff (P s l) (by simp [Along, h])
    | some t =>
      have := decidableAlong (P := P) t ls
      decidable_of_iff (P s l ∧ A.Along P t ls) (by simp [Along, h])

/-- Two conditions that agree wherever the invariant `I` holds agree along every run from a state
in `I`; it is enough that the steps that meet the second one keep `I`. -/
theorem along_iff {I : S → Prop} {P Q : S → L → Prop}
    (hstep : ∀ s l s', I s → Q s l → A.step s l = some s' → I s')
    (hPQ : ∀ s l, I s → (P s l ↔ Q s l)) {s : S} {ls : List L} (h₀ : I s) :
    A.Along P s ls ↔ A.Along Q s ls := by
  induction ls generalizing s with
  | nil => exact Iff.rfl
  | cons l ls ih =>
    simp only [Along]
    rw [hPQ s l h₀]
    refine and_congr_right fun hQ => forall₂_congr fun t ht => ih (hstep s l t h₀ hQ ht)

/-- If, from the states in `I`, the steps that meet `P` are exactly those that stay in `I`, then a
run from `I` stays in `I` exactly when all its steps meet `P`. -/
theorem invariant_iff_along {I : S → Prop} {P : S → L → Prop}
    (hstep : ∀ s l s', I s → A.step s l = some s' → (I s' ↔ P s l)) {s s' : S} {ls : List L}
    (hrun : A.run s ls = some s') (h₀ : I s) :
    (∀ ms t, ms <+: ls → A.run s ms = some t → I t) ↔ A.Along P s ls := by
  induction ls generalizing s with
  | nil =>
    refine ⟨fun _ => trivial, fun _ ms t hms ht => ?_⟩
    rw [List.prefix_nil.1 hms] at ht
    cases ht
    exact h₀
  | cons l ls ih =>
    obtain ⟨t, ht, hrest⟩ := run_cons.1 hrun
    have hcons : A.Along P s (l :: ls) ↔ P s l ∧ A.Along P t ls := by simp [Along, ht]
    rw [hcons]
    constructor
    · intro h
      have hI : I t := h [l] t (by simp) (by simp [run, ht])
      refine ⟨(hstep s l t h₀ ht).1 hI, (ih hrest hI).1 fun ms u hms hu => ?_⟩
      exact h (l :: ms) u (List.cons_prefix_cons.2 ⟨rfl, hms⟩) (run_cons.2 ⟨t, ht, hu⟩)
    · rintro ⟨hP, hPs⟩ ms u hms hu
      cases ms with
      | nil => cases hu; exact h₀
      | cons m ms =>
        obtain ⟨rfl, htail⟩ := List.cons_prefix_cons.1 hms
        obtain ⟨t', ht', hu⟩ := run_cons.1 hu
        rw [ht] at ht'
        cases ht'
        exact (ih hrest ((hstep s m t h₀ ht).2 hP)).2 hPs ms u htail hu

/-- If every step from the states in `I` stays in `I` and leads to a state with `Q` exactly when it
meets `P` in a state with `Q`, then a run ends in a state with `Q` exactly when it starts in one
and all its steps meet `P`. -/
theorem run_iff_along {I Q : S → Prop} {P : S → L → Prop}
    (hstep : ∀ s l s', I s → A.step s l = some s' → I s' ∧ (Q s' ↔ Q s ∧ P s l)) {s s' : S}
    {ls : List L} (hrun : A.run s ls = some s') (h₀ : I s) :
    I s' ∧ (Q s' ↔ Q s ∧ A.Along P s ls) := by
  induction ls generalizing s with
  | nil => cases hrun; exact ⟨h₀, by simp [Along]⟩
  | cons l ls ih =>
    obtain ⟨t, ht, hrest⟩ := run_cons.1 hrun
    obtain ⟨hI, hQ⟩ := hstep s l t h₀ ht
    obtain ⟨hI', hQ'⟩ := ih hrest hI
    have hcons : A.Along P s (l :: ls) ↔ P s l ∧ A.Along P t ls := by simp [Along, ht]
    exact ⟨hI', by rw [hQ', hQ, hcons, and_assoc]⟩

/-- **Since**: if every step leads to a state with `Q` exactly when it grants `Q`, or `Q` held and
the step does not revoke it, then a run that starts without `Q` ends with it exactly when some step
granted it and no step since revoked it.  The steps need to do so only in the states of the
invariant `J`, and as long as `I` holds, which has held before if it holds at the end. -/
theorem held_iff_since {I J Q : S → Prop} {G R : S → L → Prop}
    (hinv : ∀ s l s', J s → A.step s l = some s' → J s')
    (hback : ∀ s l s', A.step s l = some s' → I s' → I s)
    (hstep : ∀ s l s', J s → A.step s l = some s' → I s' → (Q s' ↔ G s l ∨ Q s ∧ ¬ R s l))
    {s s' : S} {ls : List L} (hrun : A.run s ls = some s') (hJ : J s) (hI : I s') (h₀ : ¬ Q s) :
    Q s' ↔ ∃ pre l post t u, ls = pre ++ l :: post ∧ A.run s pre = some t ∧
      A.step t l = some u ∧ G t l ∧ A.Along (fun s l => ¬ R s l) u post := by
  induction ls using List.reverseRecOn generalizing s' with
  | nil =>
    cases hrun
    simp [h₀]
  | append_singleton ls l ih =>
    obtain ⟨t, ht, hlast⟩ := run_append.1 hrun
    obtain ⟨_, hl, hlast⟩ := run_cons.1 hlast
    cases hlast
    have hIt := hback t l s' hl hI
    rw [hstep t l s' (run_invariant hinv ht hJ) hl hI, ih ht hIt]
    constructor
    · rintro (hG | ⟨⟨pre, m, post, v, u, rfl, hv, hu, hG, halong⟩, hR⟩)
      · exact ⟨ls, l, [], t, s', rfl, ht, hl, hG, trivial⟩
      · refine ⟨pre, m, post ++ [l], v, u, by simp, hv, hu, hG, ?_⟩
        exact (along_append (run_behind ht hv hu)).2 ⟨halong, hR, fun _ _ => trivial⟩
    · rintro ⟨pre, m, post, v, u, hls, hv, hu, hG, halong⟩
      -- the granting step is the last one, or stands before it
      cases post using List.reverseRecOn with
      | nil =>
        obtain ⟨rfl, hm⟩ := List.append_inj' hls rfl
        cases hm
        cases hv.symm.trans ht
        exact .inl hG
      | append_singleton post m' _ =>
        rw [← List.cons_append, ← List.append_assoc] at hls
        obtain ⟨rfl, hm⟩ := List.append_inj' hls rfl
        cases hm
        obtain ⟨halong, hR, -⟩ := (along_append (run_behind ht hv hu)).1 halong
        exact .inr ⟨⟨pre, m, post, v, u, rfl, hv, hu, hG, halong⟩, hR⟩

/-! ### Sums over runs -/

section Total

variable {M : Type*} [AddCommMonoid M]

/-- The sum of `f` over the steps of the run `ls` from `s`. -/
def total (A : Machine S L) (f : S → L → M) : S → List L → M
  | _, [] => 0
  | s, l :: ls =>
    match A.step s l with
    | none => f s l
    | some s' => f s l + total A f s' ls

@[simp] theorem total_nil (f : S → L → M) (s : S) : A.total f s [] = 0 := rfl

theorem total_cons {f : S → L → M} {s s' : S} {l : L} (ls : List L) (h : A.step s l = some s') :
    A.total f s (l :: ls) = f s l + A.total f s' ls := by
  simp [total, h]

@[simp] theorem total_zero (s : S) (ls : List L) : A.total (fun _ _ => (0 : M)) s ls = 0 := by
  induction ls generalizing s with
  | nil => rfl
  | cons l ls ih =>
    cases hs : A.step s l with
    | none => simp [total, hs]
    | some t => simp [total, hs, ih]

theorem total_add (f g : S → L → M) (s : S) (ls : List L) :
    A.total (fun s l => f s l + g s l) s ls = A.total f s ls + A.total g s ls := by
  induction ls generalizing s with
  | nil => simp
  | cons l ls ih =>
    cases hs : A.step s l with
    | none => simp [total, hs]
    | some t => simp only [total, hs, ih, add_add_add_comm]

/-- **Conservation**: if every step moves what `f` adds from the stock `Φ` to what `g` adds, then
so does a run. -/
theorem total_conserved {Φ : S → M} {f g : S → L → M}
    (hstep : ∀ s l s', A.step s l = some s' → Φ s + f s l = Φ s' + g s l)
    {s s' : S} {ls : List L} (h : A.run s ls = some s') :
    Φ s + A.total f s ls = Φ s' + A.total g s ls := by
  induction ls generalizing s with
  | nil => cases h; simp
  | cons l ls ih =>
    obtain ⟨t, ht, h⟩ := run_cons.1 h
    calc Φ s + A.total f s (l :: ls) = (Φ s + f s l) + A.total f t ls := by
          rw [total_cons ls ht, add_assoc]
      _ = (Φ t + A.total f t ls) + g s l := by rw [hstep s l t ht, add_right_comm]
      _ = Φ s' + A.total g s (l :: ls) := by
          rw [ih h, total_cons ls ht, add_assoc, add_comm (A.total g t ls)]

/-- **Potential**: what the steps that meet `P` add is covered by the potential `Φ` they use up, so
what a run of such steps adds is covered by the potential it starts with. -/
theorem total_le_potential {P : S → L → Prop} {f : S → L → ℕ} {Φ : S → ℕ} {I : S → Prop}
    (hback : ∀ s l s', A.step s l = some s' → I s' → I s)
    (hstep : ∀ s l s', A.step s l = some s' → P s l → I s → I s' → f s l + Φ s' ≤ Φ s)
    {s s' : S} {ls : List L} (h : A.run s ls = some s') (hP : A.Along P s ls) (hI : I s') :
    A.total f s ls ≤ Φ s ∧ I s := by
  induction ls generalizing s with
  | nil => cases h; exact ⟨Nat.zero_le _, hI⟩
  | cons l ls ih =>
    obtain ⟨t, ht, h⟩ := run_cons.1 h
    obtain ⟨hle, hIt⟩ := ih h (hP.2 t ht)
    have hIs := hback s l t ht hIt
    refine ⟨?_, hIs⟩
    rw [total_cons ls ht]
    exact Nat.le_trans (Nat.add_le_add_left hle _) (hstep s l t ht hP.1 hIs hIt)

/-- Sums of natural numbers can be taken in the integers. -/
theorem total_natCast (A : Machine S L) (f : S → L → ℕ) (s : S) (ls : List L) :
    A.total (fun s l => (f s l : ℤ)) s ls = (A.total f s ls : ℕ) := by
  induction ls generalizing s with
  | nil => rfl
  | cons l ls ih =>
    cases hs : A.step s l with
    | none => simp [total, hs]
    | some t => simp [total, hs, ih]

/-- Nothing is added in a run exactly when no step adds anything. -/
theorem total_eq_zero_iff (A : Machine S L) (f : S → L → ℕ) (s : S) (ls : List L) :
    A.total f s ls = 0 ↔ A.Along (fun s l => f s l = 0) s ls := by
  induction ls generalizing s with
  | nil => simp [Along]
  | cons l ls ih =>
    cases hs : A.step s l with
    | none => simp [total, Along, hs]
    | some t => simp [total, Along, hs, ih]

/-- Steps that move a stock by what `f` adds move it in a run by the sum of what `f` adds. -/
theorem total_eq_change {Φ : S → ℤ} {f : S → L → ℕ}
    (hstep : ∀ s l s', A.step s l = some s' → Φ s' = Φ s + f s l) {s s' : S} {ls : List L}
    (h : A.run s ls = some s') : Φ s' = Φ s + A.total f s ls := by
  induction ls generalizing s with
  | nil => cases h; simp
  | cons l ls ih =>
    obtain ⟨t, ht, h⟩ := run_cons.1 h
    rw [ih h, hstep s l t ht, total_cons ls ht, Nat.cast_add, add_assoc]

end Total

end Machine

end RvgGateway
