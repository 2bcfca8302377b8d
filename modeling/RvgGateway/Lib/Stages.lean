import Mathlib.Data.List.Basic

/-!
# Programs that stop half way

A program that reads its input stage by stage into one state, and that an error stops, keeps what the
stages before the error did, and what the stage with the error had done.

* `runStages` : the stages in order, up to the first that does not run to its end.
* `applyAll` : all stages, whether they run to their end or not.

When the state does not decide whether a stage runs to its end, `runStages_all` and `runStages_stop`
say where a run stands: behind all stages, or behind the first one that stops.  `applyAll_keeps`,
`runStages_keeps` and `applyAll_reaches` are the rules for what the stages leave in the state.
-/

namespace RvgGateway

variable {ι σ : Type*}

/-- The stages in order, up to the first that does not run to its end. -/
def runStages (stage : ι → σ → σ × Bool) : List ι → σ → σ × Bool
  | [], s => (s, true)
  | i :: is, s =>
    match stage i s with
    | (s', true) => runStages stage is s'
    | (s', false) => (s', false)

/-- The effects of all stages. -/
def applyAll (stage : ι → σ → σ × Bool) (is : List ι) (s : σ) : σ :=
  is.foldl (fun s i => (stage i s).1) s

variable {stage : ι → σ → σ × Bool} {ok : ι → Bool}

theorem runStages_append (hok : ∀ i s, (stage i s).2 = ok i) {is js : List ι}
    (his : ∀ i ∈ is, ok i = true) (s : σ) :
    runStages stage (is ++ js) s = runStages stage js (applyAll stage is s) := by
  induction is generalizing s with
  | nil => rfl
  | cons i is ih =>
    have hi : (stage i s).2 = true := (hok i s).trans (his i List.mem_cons_self)
    rw [List.cons_append, runStages]
    cases hstage : stage i s with
    | mk s' b =>
      rw [hstage] at hi
      cases hi
      rw [applyAll, List.foldl_cons, hstage]
      exact ih (fun j hj => his j (List.mem_cons_of_mem _ hj)) s'

/-- Without an error all stages run. -/
theorem runStages_all (hok : ∀ i s, (stage i s).2 = ok i) {is : List ι}
    (his : ∀ i ∈ is, ok i = true) (s : σ) :
    runStages stage is s = (applyAll stage is s, true) := by
  have h : runStages stage (is ++ []) s = _ := runStages_append hok his s
  rwa [List.append_nil] at h

/-- The first stage that does not run to its end stops the program. -/
theorem runStages_stop (hok : ∀ i s, (stage i s).2 = ok i) {is js : List ι} {i : ι}
    (his : ∀ i ∈ is, ok i = true) (hi : ok i = false) (s : σ) :
    runStages stage (is ++ i :: js) s = ((stage i (applyAll stage is s)).1, false) := by
  have hstop : (stage i (applyAll stage is s)).2 = false := (hok i _).trans hi
  rw [runStages_append hok his, runStages]
  cases hstage : stage i (applyAll stage is s) with
  | mk s' b =>
    rw [hstage] at hstop
    cases hstop
    rfl

theorem applyAll_keeps {P : σ → Prop} {is : List ι}
    (hkeep : ∀ i ∈ is, ∀ s, P s → P (stage i s).1) {s : σ} (hs : P s) :
    P (applyAll stage is s) := by
  induction is generalizing s with
  | nil => exact hs
  | cons i is ih =>
    exact ih (fun j hj => hkeep j (List.mem_cons_of_mem _ hj)) (hkeep i List.mem_cons_self s hs)

/-- Wherever the program stops, what all stages keep is kept. -/
theorem runStages_keeps {P : σ → Prop} {is : List ι}
    (hkeep : ∀ i ∈ is, ∀ s, P s → P (stage i s).1) {s : σ} (hs : P s) :
    P (runStages stage is s).1 := by
  induction is generalizing s with
  | nil => exact hs
  | cons i is ih =>
    have hi := hkeep i List.mem_cons_self s hs
    rw [runStages]
    cases hstage : stage i s with
    | mk s' b =>
      rw [hstage] at hi
      cases b with
      | false => exact hi
      | true => exact ih (fun j hj => hkeep j (List.mem_cons_of_mem _ hj)) hi

/-- What one stage establishes and the others keep. -/
theorem applyAll_reaches [DecidableEq ι] {P : σ → Prop} {is : List ι} {i : ι} (hi : i ∈ is)
    (hset : ∀ s, P (stage i s).1) (hkeep : ∀ j ≠ i, ∀ s, P s → P (stage j s).1) (s : σ) :
    P (applyAll stage is s) := by
  obtain ⟨as, bs, rfl⟩ := List.append_of_mem hi
  rw [applyAll, List.foldl_append, List.foldl_cons]
  refine applyAll_keeps (fun j _ s hs => ?_) (hset _)
  by_cases hj : j = i
  · exact hj ▸ hset s
  · exact hkeep j hj s hs

end RvgGateway
