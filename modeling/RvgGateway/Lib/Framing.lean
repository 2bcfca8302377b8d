import Mathlib.Data.List.Basic

/-!
# Incremental decoders

A decoder receives its input in segments, appends each to a buffer and then works the buffer off
in *passes*.  A pass emits one item, waits for more input, or fails.  `Decoder.exhaust` repeats
passes until one waits or fails, and `Decoder.feedAll` does this after every segment.

The items and the ending do not depend on how the input is cut provided that

* more input in the buffer changes neither an item nor a failure (`Decoder.Stable`), and
* every boundary between segments is met in a state whose waiting pass can be repeated
  (`Decoder.Resumes`).

`Decoder.Stable.feedAll_merge` is that result.  The second condition is the one that
implementations get wrong, so it is a hypothesis about the boundaries of a given input and not
part of the definition of a decoder.
-/

namespace RvgGateway

/-- The result of one pass over the buffer. -/
inductive Pass (S P E : Type*) where
  /-- More input is needed. -/
  | wait (s : S)
  /-- One item was decoded. -/
  | emit (p : P) (s : S)
  /-- The input is refused. -/
  | fail (e : E)

/-- A decoder with states `S`, input letters `I`, items `P` and failures `E`. -/
structure Decoder (S I P E : Type*) where
  /-- Append input to the buffer. -/
  feed : S → List I → S
  /-- One pass over the buffer. -/
  pass : S → Pass S P E
  /-- A bound on the number of items in the buffer. -/
  size : S → ℕ
  /-- Segments fed one after the other are in the buffer as one. -/
  feed_append : ∀ s a b, feed (feed s a) b = feed s (a ++ b)
  /-- Every item uses up input. -/
  size_lt : ∀ {s p s'}, pass s = .emit p s' → size s' < size s

namespace Decoder

variable {S I P E : Type*} (D : Decoder S I P E)

/-- What a decoder has done: the items, and the failure or the state it waits in. -/
structure Outcome (S P E : Type*) where
  /-- The items decoded, in order. -/
  items : List P
  /-- The failure, or the state after the last pass. -/
  ending : Except E S

/-- Put items in front of an outcome. -/
def Outcome.prepend (ps : List P) (o : Outcome S P E) : Outcome S P E := ⟨ps ++ o.items, o.ending⟩

@[simp] theorem Outcome.prepend_nil (o : Outcome S P E) : o.prepend [] = o := rfl

@[simp] theorem Outcome.prepend_prepend (ps qs : List P) (o : Outcome S P E) :
    (o.prepend qs).prepend ps = o.prepend (ps ++ qs) := by
  simp [Outcome.prepend]

@[simp] theorem Outcome.items_prepend (ps : List P) (o : Outcome S P E) :
    (o.prepend ps).items = ps ++ o.items := rfl

@[simp] theorem Outcome.ending_prepend (ps : List P) (o : Outcome S P E) :
    (o.prepend ps).ending = o.ending := rfl

/-- Passes until one waits or fails, at most `n` of them. -/
def exhaustAux : ℕ → S → Outcome S P E
  | 0, s => ⟨[], .ok s⟩
  | n + 1, s =>
    match D.pass s with
    | .wait s' => ⟨[], .ok s'⟩
    | .fail e => ⟨[], .error e⟩
    | .emit p s' => (exhaustAux n s').prepend [p]

/-- Work the buffer off. -/
def exhaust (s : S) : Outcome S P E := D.exhaustAux (D.size s + 1) s

/-- Feed the segments one after the other, working the buffer off after each. -/
def feedAll : S → List (List I) → Outcome S P E
  | s, [] => ⟨[], .ok s⟩
  | s, d :: ds =>
    match D.exhaust (D.feed s d) with
    | ⟨ps, .error e⟩ => ⟨ps, .error e⟩
    | ⟨ps, .ok s'⟩ => (feedAll s' ds).prepend ps

/-- `D.Settles s ps t` : from `s` the decoder emits the items `ps` and is then in `t`, where the
next pass waits or fails. -/
inductive Settles : S → List P → S → Prop
  | stop {s} : (∀ p s', D.pass s ≠ .emit p s') → Settles s [] s
  | emit {s p s' ps t} : D.pass s = .emit p s' → Settles s' ps t → Settles s (p :: ps) t

/-- The pass that made the decoder wait in `s` can be repeated: whatever is fed next, it goes on
as if that pass had not been made. -/
def Resumes (s : S) : Prop :=
  ∀ ps t t', D.Settles s ps t → D.pass t = .wait t' →
    ∀ d, D.exhaust (D.feed t' d) = D.exhaust (D.feed t d)

/-- More input in the buffer changes neither an item nor a failure. -/
structure Stable : Prop where
  emit : ∀ {s s' p} (d : List I), D.pass s = .emit p s' →
    D.pass (D.feed s d) = .emit p (D.feed s' d)
  fail : ∀ {s e} (d : List I), D.pass s = .fail e → D.pass (D.feed s d) = .fail e

variable {D}

theorem exhaustAux_eq {n m : ℕ} {s : S} (hn : D.size s < n) (hm : D.size s < m) :
    D.exhaustAux n s = D.exhaustAux m s := by
  induction n generalizing m s with
  | zero => omega
  | succ n ih =>
    cases m with
    | zero => omega
    | succ m =>
      simp only [exhaustAux]
      cases hp : D.pass s with
      | wait s' => rfl
      | fail e => rfl
      | emit p s' =>
        have hlt := D.size_lt hp
        simp only
        rw [ih (m := m) (s := s') (by omega) (by omega)]

theorem exhaust_wait {s s' : S} (h : D.pass s = .wait s') : D.exhaust s = ⟨[], .ok s'⟩ := by
  simp [exhaust, exhaustAux, h]

theorem exhaust_fail {s : S} {e : E} (h : D.pass s = .fail e) : D.exhaust s = ⟨[], .error e⟩ := by
  simp [exhaust, exhaustAux, h]

theorem exhaust_emit {s s' : S} {p : P} (h : D.pass s = .emit p s') :
    D.exhaust s = (D.exhaust s').prepend [p] := by
  have hlt := D.size_lt h
  simp only [exhaust, exhaustAux, h]
  rw [exhaustAux_eq (n := D.size s) (m := D.size s' + 1) hlt (Nat.lt_succ_self _), exhaustAux]

/-- Working the buffer off depends on the state through its first pass only. -/
theorem exhaust_congr {s t : S} (h : D.pass s = D.pass t) : D.exhaust s = D.exhaust t := by
  cases ht : D.pass t with
  | wait t' => rw [exhaust_wait ht, exhaust_wait (h.trans ht)]
  | fail e => rw [exhaust_fail ht, exhaust_fail (h.trans ht)]
  | emit p t' => rw [exhaust_emit ht, exhaust_emit (h.trans ht)]

theorem Settles.exhaust {s t : S} {ps : List P} (h : D.Settles s ps t) :
    D.exhaust s = (D.exhaust t).prepend ps := by
  induction h with
  | stop => rfl
  | emit hp _ ih => rw [exhaust_emit hp, ih, Outcome.prepend_prepend]; rfl

theorem Settles.not_emit {s t : S} {ps : List P} (h : D.Settles s ps t) :
    ∀ p s', D.pass t ≠ .emit p s' := by
  induction h with
  | stop h => exact h
  | emit _ _ ih => exact ih

theorem Settles.det {s t t' : S} {ps ps' : List P} (h : D.Settles s ps t)
    (h' : D.Settles s ps' t') : ps = ps' ∧ t = t' := by
  induction h generalizing ps' with
  | stop hs =>
    cases h' with
    | stop => exact ⟨rfl, rfl⟩
    | emit hp => exact absurd hp (hs _ _)
  | emit hp _ ih =>
    cases h' with
    | stop hs => exact absurd hp (hs _ _)
    | emit hp' h'' =>
      rw [hp] at hp'
      cases hp'
      obtain ⟨rfl, rfl⟩ := ih h''
      exact ⟨rfl, rfl⟩

/-- Two states with the same passes, now and after more input, settle alike. -/
theorem Settles.congr {s s₀ t : S} {ps : List P} (h : D.Settles s ps t)
    (hpass : D.pass s = D.pass s₀) (hfeed : ∀ d, D.pass (D.feed s d) = D.pass (D.feed s₀ d)) :
    ∃ t₀, D.Settles s₀ ps t₀ ∧ D.pass t = D.pass t₀ ∧
      ∀ d, D.pass (D.feed t d) = D.pass (D.feed t₀ d) := by
  cases h with
  | stop hs => exact ⟨s₀, .stop (hpass ▸ hs), hpass, hfeed⟩
  | emit hp h => exact ⟨t, .emit (hpass ▸ hp) h, rfl, fun _ => rfl⟩

/-- Two states with the same passes, now and after more input, resume alike. -/
theorem Resumes.congr {s s₀ : S} (h : D.Resumes s₀) (hpass : D.pass s = D.pass s₀)
    (hfeed : ∀ d, D.pass (D.feed s d) = D.pass (D.feed s₀ d)) : D.Resumes s := by
  intro ps t t' ht hw d
  obtain ⟨t₀, ht₀, hp, hf⟩ := ht.congr hpass hfeed
  rw [h ps t₀ t' ht₀ (hp.symm.trans hw) d]
  exact (exhaust_congr (hf d)).symm

theorem exists_settles (s : S) : ∃ ps t, D.Settles s ps t := by
  induction hn : D.size s using Nat.strongRecOn generalizing s with
  | _ n ih =>
    by_cases h : ∃ p s', D.pass s = .emit p s'
    · obtain ⟨p, s', hp⟩ := h
      obtain ⟨ps, t, ht⟩ := ih _ (hn ▸ D.size_lt hp) s' rfl
      exact ⟨p :: ps, t, .emit hp ht⟩
    · push Not at h
      exact ⟨[], s, .stop h⟩

/-- What every pass keeps, working the buffer off keeps. -/
theorem exhaust_keeps {K : S → Prop} (hwait : ∀ s s', K s → D.pass s = .wait s' → K s')
    (hemit : ∀ s p s', K s → D.pass s = .emit p s' → K s') {s s' : S} {ps : List P} (hs : K s)
    (h : D.exhaust s = ⟨ps, .ok s'⟩) : K s' := by
  obtain ⟨qs, t, ht⟩ := exists_settles (D := D) s
  have hKt : K t := by
    clear h
    induction ht with
    | stop => exact hs
    | emit hp _ ih => exact ih (hemit _ _ _ hs hp)
  rw [ht.exhaust] at h
  cases hp : D.pass t with
  | wait t' =>
    rw [exhaust_wait hp] at h
    cases h
    exact hwait _ _ hKt hp
  | fail e =>
    rw [exhaust_fail hp] at h
    cases h
  | emit p t' => exact absurd hp (ht.not_emit p t')

theorem feedAll_cons {s s' : S} {d : List I} {ds : List (List I)} {ps : List P}
    (h : D.exhaust (D.feed s d) = ⟨ps, .ok s'⟩) :
    D.feedAll s (d :: ds) = (D.feedAll s' ds).prepend ps := by
  rw [feedAll, h]

theorem feedAll_cons_error {s : S} {d : List I} {ds : List (List I)} {ps : List P} {e : E}
    (h : D.exhaust (D.feed s d) = ⟨ps, .error e⟩) :
    D.feedAll s (d :: ds) = ⟨ps, .error e⟩ := by
  rw [feedAll, h]

theorem feedAll_singleton (s : S) (d : List I) : D.feedAll s [d] = D.exhaust (D.feed s d) := by
  rw [feedAll]
  rcases D.exhaust (D.feed s d) with ⟨ps, e | s'⟩ <;> simp [feedAll, Outcome.prepend]

/-- What is fed later does not change the items already decodable. -/
theorem Stable.settles_feed (hD : D.Stable) {s t : S} {ps : List P} (h : D.Settles s ps t)
    (d : List I) : D.exhaust (D.feed s d) = (D.exhaust (D.feed t d)).prepend ps := by
  induction h with
  | stop => rfl
  | emit hp _ ih => rw [exhaust_emit (hD.emit d hp), ih, Outcome.prepend_prepend]; rfl

/-- What is decodable stays so with more input. -/
theorem Stable.items_feed (hD : D.Stable) (s : S) (d : List I) :
    (D.exhaust s).items <+: (D.exhaust (D.feed s d)).items := by
  obtain ⟨ps, t, ht⟩ := exists_settles (D := D) s
  have hnone : (D.exhaust t).items = [] := by
    cases hp : D.pass t with
    | wait t' => rw [exhaust_wait hp]
    | fail e => rw [exhaust_fail hp]
    | emit p t' => exact absurd hp (ht.not_emit p t')
  rw [hD.settles_feed ht d, ht.exhaust, Outcome.items_prepend, Outcome.items_prepend, hnone,
    List.append_nil]
  exact List.prefix_append _ _

/-- Two consecutive segments can be fed as one if the boundary between them resumes. -/
theorem Stable.feedAll_merge (hD : D.Stable) {s : S} {d₁ d₂ : List I} {ds : List (List I)}
    (h : D.Resumes (D.feed s d₁)) :
    D.feedAll s (d₁ :: d₂ :: ds) = D.feedAll s ((d₁ ++ d₂) :: ds) := by
  obtain ⟨ps, t, ht⟩ := exists_settles (D := D) (D.feed s d₁)
  have hlate := hD.settles_feed ht d₂
  rw [D.feed_append] at hlate
  cases hp : D.pass t with
  | emit p s' => exact absurd hp (ht.not_emit p s')
  | fail e =>
    have hfirst : D.exhaust (D.feed s d₁) = ⟨ps, .error e⟩ := by
      rw [ht.exhaust, exhaust_fail hp]; simp [Outcome.prepend]
    have hboth : D.exhaust (D.feed s (d₁ ++ d₂)) = ⟨ps, .error e⟩ := by
      rw [hlate, exhaust_fail (hD.fail d₂ hp)]; simp [Outcome.prepend]
    rw [feedAll_cons_error hfirst, feedAll_cons_error hboth]
  | wait t' =>
    have hfirst : D.exhaust (D.feed s d₁) = ⟨ps, .ok t'⟩ := by
      rw [ht.exhaust, exhaust_wait hp]; simp [Outcome.prepend]
    rw [feedAll_cons hfirst, feedAll, feedAll, hlate, h ps t t' ht hp d₂]
    rcases D.exhaust (D.feed t d₂) with ⟨qs, e | s'⟩ <;> simp [Outcome.prepend]

/-- **Segmentation does not matter** up to a boundary before which every boundary resumes: the
segments before it can be fed as one. -/
theorem Stable.feedAll_flatten (hD : D.Stable) {s : S} {ds post : List (List I)} {d : List I}
    (h : ∀ pre rest, ds = pre ++ rest → rest ≠ [] → D.Resumes (D.feed s (d ++ pre.flatten))) :
    D.feedAll s (d :: (ds ++ post)) = D.feedAll s ((d ++ ds.flatten) :: post) := by
  induction ds generalizing d with
  | nil => simp
  | cons d₂ ds ih =>
    rw [List.cons_append, hD.feedAll_merge (by simpa using h [] (d₂ :: ds) rfl (by simp)), ih]
    · simp
    · intro pre rest hds hrest
      have := h (d₂ :: pre) rest (by simp [hds]) hrest
      simpa using this

end Decoder

end RvgGateway
