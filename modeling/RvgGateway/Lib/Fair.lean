import RvgGateway.Lib.Machine

/-!
# Infinite runs and fairness

What a machine does in the end, if the labels that stay possible are not passed over for ever.

## Main definitions

* `Machine.Trace A` : an infinite run of `A`.
* `Trace.WeaklyFair F` : labels in `F` that are possible from some time on are performed again and
  again.
* `Trace.LeadsTo P Q` : whenever `P` holds, `Q` holds then or later.

`Trace.leadsTo_of_rank` is the rule that proves `LeadsTo`: as long as `Q` does not hold, `P` stays, a
label in `F` is possible, the rank does not rise, and a label in `F` makes it fall.
-/

namespace RvgGateway

namespace Machine

variable {S L : Type*} {A : Machine S L}

/-- An infinite run. -/
structure Trace (A : Machine S L) where
  state : ℕ → S
  label : ℕ → L
  step : ∀ i, A.step (state i) (label i) = some (state (i + 1))

namespace Trace

variable (τ : Trace A)

/-- If from the time `i` on some label in `F` is always possible, then one is performed. -/
def WeaklyFair (F : L → Prop) : Prop :=
  ∀ i, (∀ j, i ≤ j → ∃ l, F l ∧ (A.step (τ.state j) l).isSome) → ∃ j, i ≤ j ∧ F (τ.label j)

/-- Whenever `P` holds, `Q` holds at that time or later. -/
def LeadsTo (P Q : S → Prop) : Prop := ∀ i, P (τ.state i) → ∃ j, i ≤ j ∧ Q (τ.state j)

variable {τ}

/-- The part of a trace up to the time `i` is a run. -/
theorem reaches (i : ℕ) : A.Reaches (τ.state 0) (τ.state i) := by
  induction i with
  | zero => exact Reaches.refl _
  | succ i ih => exact ih.trans ⟨[τ.label i], run_cons.2 ⟨_, τ.step i, rfl⟩⟩

theorem LeadsTo.trans {P Q R : S → Prop} (h₁ : τ.LeadsTo P Q) (h₂ : τ.LeadsTo Q R) :
    τ.LeadsTo P R := by
  intro i hi
  obtain ⟨j, hij, hj⟩ := h₁ i hi
  obtain ⟨k, hjk, hk⟩ := h₂ j hj
  exact ⟨k, hij.trans hjk, hk⟩

/-- `P` leads to `R` when each way out of it does. -/
theorem LeadsTo.or {P Q R : S → Prop} (h₁ : τ.LeadsTo P R) (h₂ : τ.LeadsTo Q R) :
    τ.LeadsTo (fun s => P s ∨ Q s) R := by
  rintro i (hi | hi)
  · exact h₁ i hi
  · exact h₂ i hi

/-- **The rank rule.** -/
theorem leadsTo_of_rank {I P Q : S → Prop} {F : L → Prop} (rank : S → ℕ) (hfair : τ.WeaklyFair F)
    (hinv : ∀ i, I (τ.state i)) (henabled : ∀ s, I s → P s → ∃ l, F l ∧ (A.step s l).isSome)
    (hstep : ∀ s l s', I s → P s → A.step s l = some s' →
      Q s' ∨ (P s' ∧ rank s' ≤ rank s ∧ (F l → rank s' < rank s))) :
    τ.LeadsTo P Q := by
  intro i hi
  -- induction on the rank: until it falls, `P` stays and a label in `F` stays possible
  induction hrank : rank (τ.state i) using Nat.strong_induction_on generalizing i with
  | _ n ih =>
    by_contra hnever
    have hnot : ∀ j, i ≤ j → ¬ Q (τ.state j) := fun j hj hq => hnever ⟨j, hj, hq⟩
    have hstay : ∀ k, P (τ.state (i + k)) ∧ rank (τ.state (i + k)) ≤ n := by
      intro k
      induction k with
      | zero => exact ⟨hi, hrank.le⟩
      | succ k ihk =>
        rcases hstep _ _ _ (hinv _) ihk.1 (τ.step (i + k)) with hq | ⟨hp, hle, -⟩
        · exact absurd hq (hnot _ (by omega))
        · exact ⟨hp, hle.trans ihk.2⟩
    have hstay' : ∀ j, i ≤ j → P (τ.state j) ∧ rank (τ.state j) ≤ n := by
      intro j hj
      obtain ⟨k, rfl⟩ := Nat.exists_eq_add_of_le hj
      exact hstay k
    obtain ⟨j, hj, hF⟩ := hfair i fun j hj => henabled _ (hinv j) (hstay' j hj).1
    rcases hstep _ _ _ (hinv j) (hstay' j hj).1 (τ.step j) with hq | ⟨hp, -, hlt⟩
    · exact hnot _ (by omega) hq
    · have hfall := lt_of_lt_of_le (hlt hF) (hstay' j hj).2
      obtain ⟨k, hk, hq⟩ := ih _ hfall (j + 1) hp rfl
      exact hnot k (by omega) hq

end Trace

end Machine

end RvgGateway
