import RvgGateway.Lib.Dict

/-!
# Blocks that assign or raise

A handler that goes through the fields of a request applies them to a record one after another: each
block raises, or assigns at most one entry and does something besides.  What the blocks before an
error have assigned stays assigned.

* `assignAll` : the blocks in order, up to the first that raises.
* `writes`, `raised` : the assignments before the first error, and the error, from what each block
  does to the record as it was at first.
* `assignAll_eq` : a run makes these assignments and ends with this error, when no block reads what
  the blocks before it have assigned.
* `setAll_writes_eq_self_iff` : the record stays as it was exactly when every value was there.
-/

namespace RvgGateway

variable {K V F ι ε : Type*} [DecidableEq K]

/-- What a block does that does not raise. -/
structure Write (K V F : Type*) where
  /-- The assignment, if it makes one. -/
  entry : Option (K × V)
  /-- What else it does. -/
  effects : List F

/-- The assignments of several blocks. -/
def entries (ws : List (Write K V F)) : List (K × V) := ws.filterMap Write.entry

/-- `d[k] = v` for each entry. -/
def Dict.setAll (es : List (K × V)) (d : Dict K V) : Dict K V :=
  es.foldl (fun d e => d.set e.1 e.2) d

/-- The blocks in order, with what they did and the error that stopped them. -/
def assignAll (block : ι → Dict K V → Except ε (Write K V F)) :
    List ι → Dict K V → Dict K V × List F × Option ε
  | [], d => (d, [], none)
  | i :: is, d =>
    match block i d with
    | .error e => (d, [], some e)
    | .ok w =>
      let r := assignAll block is (Dict.setAll w.entry.toList d)
      (r.1, w.effects ++ r.2.1, r.2.2)

/-- The blocks before the first that raises. -/
def writes (out : ι → Except ε (Write K V F)) : List ι → List (Write K V F)
  | [] => []
  | i :: is =>
    match out i with
    | .ok w => w :: writes out is
    | .error _ => []

/-- The first error. -/
def raised (out : ι → Except ε (Write K V F)) : List ι → Option ε
  | [] => none
  | i :: is =>
    match out i with
    | .ok _ => raised out is
    | .error e => some e

/-- Each block does to the record what it would have done at first. -/
def Steady (block : ι → Dict K V → Except ε (Write K V F)) (out : ι → Except ε (Write K V F))
    (is : List ι) (d : Dict K V) : Prop :=
  ∀ pre i post, is = pre ++ i :: post → raised out pre = none →
    block i (Dict.setAll (entries (writes out pre)) d) = out i

variable {block : ι → Dict K V → Except ε (Write K V F)} {out : ι → Except ε (Write K V F)}
  {is : List ι} {d : Dict K V}

theorem Steady.tail {i : ι} (h : Steady block out (i :: is) d) {w : Write K V F}
    (hw : out i = .ok w) : Steady block out is (Dict.setAll w.entry.toList d) := by
  intro pre j post his hraised
  have hcons : raised out (i :: pre) = none := by rw [raised, hw]; exact hraised
  have hj := h (i :: pre) j post (by rw [his, List.cons_append]) hcons
  rw [writes, hw] at hj
  rw [← hj]
  cases hentry : w.entry with
  | none => rw [entries, entries, List.filterMap_cons_none hentry]; rfl
  | some e => rw [entries, entries, List.filterMap_cons_some hentry]; rfl

/-- A run makes the assignments of the blocks before the first error. -/
theorem assignAll_eq (h : Steady block out is d) :
    assignAll block is d = (Dict.setAll (entries (writes out is)) d,
      (writes out is).flatMap Write.effects, raised out is) := by
  induction is generalizing d with
  | nil => rfl
  | cons i is ih =>
    have hi : block i d = out i := h [] i is rfl rfl
    rw [assignAll, hi, writes, raised]
    cases hout : out i with
    | error e => rfl
    | ok w =>
      simp only [ih (h.tail hout), List.flatMap_cons]
      cases hentry : w.entry with
      | none => rw [entries, entries, List.filterMap_cons_none hentry]; rfl
      | some e => rw [entries, entries, List.filterMap_cons_some hentry]; rfl

omit [DecidableEq K] in
theorem mem_writes {w : Write K V F} (hw : w ∈ writes out is) : ∃ i ∈ is, out i = .ok w := by
  induction is with
  | nil => cases hw
  | cons i is ih =>
    rw [writes] at hw
    cases hout : out i with
    | error e => rw [hout] at hw; cases hw
    | ok w' =>
      rw [hout] at hw
      cases List.mem_cons.1 hw with
      | inl heq => exact ⟨i, List.mem_cons_self, heq ▸ hout⟩
      | inr hmem =>
        obtain ⟨j, hj, hjw⟩ := ih hmem
        exact ⟨j, List.mem_cons_of_mem _ hj, hjw⟩

omit [DecidableEq K] in
/-- Without an error every block is among the writes. -/
theorem mem_writes_of_raised (h : raised out is = none) {i : ι} (hi : i ∈ is) :
    ∃ w ∈ writes out is, out i = .ok w := by
  induction is with
  | nil => cases hi
  | cons j is ih =>
    rw [raised] at h
    cases hout : out j with
    | error e => rw [hout] at h; cases h
    | ok w =>
      rw [hout] at h
      rw [writes, hout]
      cases List.mem_cons.1 hi with
      | inl heq => exact ⟨w, List.mem_cons_self, heq ▸ hout⟩
      | inr hmem =>
        obtain ⟨w', hw', hiw⟩ := ih h hmem
        exact ⟨w', List.mem_cons_of_mem _ hw', hiw⟩

section Target

variable {target : ι → K} (htarget : ∀ i w e, out i = .ok w → w.entry = some e → e.1 = target i)

include htarget

omit [DecidableEq K] in
theorem keys_writes_sublist :
    ((entries (writes out is)).map Prod.fst).Sublist (is.map target) := by
  induction is with
  | nil => exact List.Sublist.refl _
  | cons i is ih =>
    rw [writes, List.map_cons]
    cases hout : out i with
    | error e => exact List.nil_sublist _
    | ok w =>
      cases hentry : w.entry with
      | none =>
        rw [entries, List.filterMap_cons_none hentry]
        exact ih.cons _
      | some e =>
        rw [entries, List.filterMap_cons_some hentry, List.map_cons, htarget i w e hout hentry]
        exact ih.cons_cons _

/-- When every block has an entry of its own, the record stays as it was exactly when every value
assigned was there already. -/
theorem setAll_writes_eq_self_iff (hnodup : (is.map target).Nodup) :
    Dict.setAll (entries (writes out is)) d = d ↔
      ∀ w ∈ writes out is, ∀ e, w.entry = some e → d.get? e.1 = some e.2 := by
  rw [Dict.setAll, Dict.foldl_set_eq_self_iff (hnodup.sublist (keys_writes_sublist htarget))]
  constructor
  · intro h w hw e he
    exact h e (List.mem_filterMap.2 ⟨w, hw, he⟩)
  · intro h e he
    obtain ⟨w, hw, hentry⟩ := List.mem_filterMap.1 he
    exact h w hw e hentry

/-- An entry that no block assigns is as it was. -/
theorem get?_setAll_writes {k : K} (hk : k ∉ is.map target) :
    (Dict.setAll (entries (writes out is)) d).get? k = d.get? k := by
  have hnot : k ∉ (entries (writes out is)).map Prod.fst := fun h =>
    hk ((keys_writes_sublist htarget).subset h)
  rw [Dict.setAll]
  generalize entries (writes out is) = es at hnot
  induction es generalizing d with
  | nil => rfl
  | cons e es ih =>
    rw [List.map_cons, List.mem_cons, not_or] at hnot
    rw [List.foldl_cons, ih hnot.2, Dict.get?_set_ne _ _ (Ne.symm hnot.1)]

end Target

end RvgGateway
