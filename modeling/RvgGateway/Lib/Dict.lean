import Mathlib.Algebra.BigOperators.Group.List.Basic
import Mathlib.Data.List.Basic
import Mathlib.Data.List.Induction
import Mathlib.Data.List.Nodup

/-!
# Insertion-ordered dictionaries

The dictionaries of the modelled programs keep their keys in the order of first insertion, and
several of the algorithms depend on that order (the first matching user, the last claimant of a
port).  `Dict K V` is a list of entries that carries the proof that its keys are distinct.
-/

namespace RvgGateway

/-- A dictionary: entries in insertion order, with distinct keys. -/
structure Dict (K : Type*) (V : Type*) where
  /-- The entries, oldest first. -/
  entries : List (K × V)
  /-- No key occurs twice. -/
  nodup : (entries.map Prod.fst).Nodup

namespace Dict

variable {K V : Type*}

instance [DecidableEq K] [DecidableEq V] : DecidableEq (Dict K V) := fun a b =>
  decidable_of_iff (a.entries = b.entries) (by cases a; cases b; simp)

instance : EmptyCollection (Dict K V) := ⟨⟨[], List.nodup_nil⟩⟩

instance : Inhabited (Dict K V) := ⟨∅⟩

/-- The keys, oldest first. -/
def keys (d : Dict K V) : List K := d.entries.map Prod.fst

/-- The values, oldest first. -/
def values (d : Dict K V) : List V := d.entries.map Prod.snd

/-- Number of entries. -/
def size (d : Dict K V) : ℕ := d.entries.length

/-- Change every value, keeping keys and order. -/
def mapValues {W : Type*} (f : K → V → W) (d : Dict K V) : Dict K W where
  entries := d.entries.map fun e => (e.1, f e.1 e.2)
  nodup := by simpa [List.map_map, Function.comp_def] using d.nodup

variable [DecidableEq K]

/-- The first value under `k` in a list of entries. -/
def lookupL (k : K) : List (K × V) → Option V
  | [] => none
  | e :: es => if e.1 = k then some e.2 else lookupL k es

/-- Replace the value under `k`, or append a new entry. -/
def insertL (k : K) (v : V) : List (K × V) → List (K × V)
  | [] => [(k, v)]
  | e :: es => if e.1 = k then (k, v) :: es else e :: insertL k v es

/-- `d.get(k)`. -/
def get? (d : Dict K V) (k : K) : Option V := lookupL k d.entries

/-- `k in d`. -/
def contains (d : Dict K V) (k : K) : Bool := (d.get? k).isSome

theorem mem_keys_insertL {k k' : K} {v : V} {es : List (K × V)} :
    k' ∈ (insertL k v es).map Prod.fst ↔ k' = k ∨ k' ∈ es.map Prod.fst := by
  induction es with
  | nil => simp [insertL]
  | cons e es ih =>
    simp only [insertL]
    split_ifs with h
    · simp only [List.map_cons, List.mem_cons, h]
      tauto
    · simp only [List.map_cons, List.mem_cons, ih]
      tauto

theorem nodup_insertL {k : K} {v : V} {es : List (K × V)} (h : (es.map Prod.fst).Nodup) :
    ((insertL k v es).map Prod.fst).Nodup := by
  induction es with
  | nil => simp [insertL]
  | cons e es ih =>
    simp only [List.map_cons, List.nodup_cons] at h
    simp only [insertL]
    split_ifs with he
    · simpa [he] using h
    · simp only [List.map_cons, List.nodup_cons, mem_keys_insertL]
      exact ⟨fun hm => hm.elim he h.1, ih h.2⟩

/-- `d[k] = v`: a new key goes to the end, an old one keeps its place. -/
def set (d : Dict K V) (k : K) (v : V) : Dict K V := ⟨insertL k v d.entries, nodup_insertL d.nodup⟩

/-- `d.pop(k, None)` without the value. -/
def erase (d : Dict K V) (k : K) : Dict K V where
  entries := d.entries.filter fun e => e.1 ≠ k
  nodup := d.nodup.sublist (List.filter_sublist.map _)

/-- Change the value under `k`, if there is one. -/
def modify (d : Dict K V) (k : K) (f : V → V) : Dict K V :=
  d.mapValues fun k' v => if k' = k then f v else v

@[simp] theorem get?_empty (k : K) : (∅ : Dict K V).get? k = none := rfl

theorem lookupL_eq_some {k : K} {v : V} {es : List (K × V)} (h : (es.map Prod.fst).Nodup) :
    lookupL k es = some v ↔ (k, v) ∈ es := by
  induction es with
  | nil => simp [lookupL]
  | cons e es ih =>
    obtain ⟨k', v'⟩ := e
    simp only [List.map_cons, List.nodup_cons, List.mem_map, not_exists, not_and] at h
    simp only [lookupL, List.mem_cons, Prod.mk.injEq]
    split_ifs with hk
    · subst hk
      constructor
      · intro hv; exact .inl ⟨rfl, (Option.some.inj hv).symm⟩
      · rintro (⟨-, rfl⟩ | hm)
        · rfl
        · exact absurd rfl (h.1 _ hm)
    · rw [ih h.2]
      exact ⟨.inr, fun hm => hm.resolve_left fun h' => hk h'.1.symm⟩

theorem get?_eq_some {d : Dict K V} {k : K} {v : V} : d.get? k = some v ↔ (k, v) ∈ d.entries :=
  lookupL_eq_some d.nodup

theorem get?_eq_none {d : Dict K V} {k : K} : d.get? k = none ↔ k ∉ d.keys := by
  rw [Option.eq_none_iff_forall_not_mem]
  simp only [Option.mem_def, get?_eq_some, keys, List.mem_map, Prod.exists, exists_and_right,
    exists_eq_right, not_exists]

theorem contains_iff {d : Dict K V} {k : K} : d.contains k = true ↔ k ∈ d.keys := by
  rw [contains, Option.isSome_iff_ne_none, ne_eq, get?_eq_none, not_not]

theorem lookupL_insertL (k k' : K) (v : V) (es : List (K × V)) :
    lookupL k' (insertL k v es) = if k = k' then some v else lookupL k' es := by
  induction es with
  | nil => simp [insertL, lookupL]
  | cons e es ih =>
    by_cases he : e.1 = k
    · simp only [insertL, he, if_true, lookupL]
      split_ifs <;> rfl
    · simp only [insertL, he, if_false, lookupL, ih]
      by_cases hk : k = k'
      · subst hk; simp [he]
      · simp [hk]

theorem get?_set (d : Dict K V) (k k' : K) (v : V) :
    (d.set k v).get? k' = if k = k' then some v else d.get? k' :=
  lookupL_insertL k k' v d.entries

@[simp] theorem get?_set_self (d : Dict K V) (k : K) (v : V) : (d.set k v).get? k = some v := by
  simp [get?_set]

theorem get?_set_ne (d : Dict K V) {k k' : K} (v : V) (h : k ≠ k') :
    (d.set k v).get? k' = d.get? k' := by
  simp [get?_set, h]

theorem lookupL_filter_ne (k k' : K) (es : List (K × V)) :
    lookupL k' (es.filter fun e => e.1 ≠ k) = if k = k' then none else lookupL k' es := by
  induction es with
  | nil => simp [lookupL]
  | cons e es ih =>
    by_cases he : e.1 = k
    · rw [List.filter_cons_of_neg (by simpa using he), ih, lookupL]
      by_cases hk : k = k'
      · simp [hk]
      · simp [hk, he]
    · rw [List.filter_cons_of_pos (by simpa using he), lookupL, lookupL, ih]
      by_cases hk : k = k'
      · subst hk; simp [he]
      · simp [hk]

theorem get?_erase (d : Dict K V) (k k' : K) :
    (d.erase k).get? k' = if k = k' then none else d.get? k' :=
  lookupL_filter_ne k k' d.entries

@[simp] theorem get?_erase_self (d : Dict K V) (k : K) : (d.erase k).get? k = none := by
  simp [get?_erase]

theorem get?_erase_ne (d : Dict K V) {k k' : K} (h : k ≠ k') :
    (d.erase k).get? k' = d.get? k' := by
  simp [get?_erase, h]

theorem lookupL_mapValues {W : Type*} (f : K → V → W) (k : K) (es : List (K × V)) :
    lookupL k (es.map fun e => (e.1, f e.1 e.2)) = (lookupL k es).map (f k) := by
  induction es with
  | nil => rfl
  | cons e es ih =>
    simp only [List.map_cons, lookupL, ih]
    split_ifs with h
    · simp [h]
    · rfl

theorem get?_mapValues {W : Type*} (f : K → V → W) (d : Dict K V) (k : K) :
    (d.mapValues f).get? k = (d.get? k).map (f k) :=
  lookupL_mapValues f k d.entries

theorem get?_modify (d : Dict K V) (k k' : K) (f : V → V) :
    (d.modify k f).get? k' = if k' = k then (d.get? k').map f else d.get? k' := by
  rw [modify, get?_mapValues]
  split_ifs <;> simp

theorem keys_modify (d : Dict K V) (k : K) (f : V → V) : (d.modify k f).keys = d.keys := by
  simp [modify, mapValues, keys]

theorem size_erase_lt {d : Dict K V} {k : K} (h : d.contains k = true) :
    (d.erase k).size < d.size := by
  rw [contains_iff, keys, List.mem_map] at h
  obtain ⟨e, he, rfl⟩ := h
  exact List.length_filter_lt_length_iff_exists.2 ⟨e, he, by simp⟩

/-! ### Editing one entry -/

omit [DecidableEq K] in
/-- A dictionary is determined by its entries. -/
theorem ext {d d' : Dict K V} (h : d.entries = d'.entries) : d = d' := by
  cases d; cases d'; cases h; rfl

/-- A dictionary without any key is empty. -/
theorem eq_empty_of_get? {d : Dict K V} (h : ∀ k, d.get? k = none) : d = ∅ := by
  refine ext ?_
  cases hd : d.entries with
  | nil => rfl
  | cons e es =>
    have hhead := h e.1
    unfold get? at hhead
    rw [hd, lookupL, if_pos rfl] at hhead
    cases hhead

theorem filter_insertL (k : K) (v : V) (es : List (K × V)) :
    (insertL k v es).filter (fun e => e.1 ≠ k) = es.filter fun e => e.1 ≠ k := by
  induction es with
  | nil => simp [insertL]
  | cons e es ih =>
    simp only [insertL]
    split_ifs with h
    · simp [h]
    · simp only [List.filter_cons, ih]

theorem erase_set (d : Dict K V) (k : K) (v : V) : (d.set k v).erase k = d.erase k :=
  ext (filter_insertL k v d.entries)

omit [DecidableEq K] in
theorem mapValues_mapValues {W X : Type*} (g : K → W → X) (f : K → V → W) (d : Dict K V) :
    (d.mapValues f).mapValues g = d.mapValues fun k v => g k (f k v) :=
  ext (by simp only [mapValues, List.map_map]; rfl)

theorem mapValues_set {W : Type*} (f : K → V → W) (d : Dict K V) (k : K) (v : V) :
    (d.set k v).mapValues f = (d.mapValues f).set k (f k v) := by
  have hins : ∀ es : List (K × V), (insertL k v es).map (fun e => (e.1, f e.1 e.2)) =
      insertL k (f k v) (es.map fun e => (e.1, f e.1 e.2)) := by
    intro es
    induction es with
    | nil => rfl
    | cons e es ih =>
      simp only [insertL, List.map_cons]
      split_ifs
      · rfl
      · rw [List.map_cons, ih]
  exact ext (hins d.entries)

theorem mapValues_modify {W : Type*} {f : K → V → W} {g : V → V} {g' : W → W} {k : K}
    (h : ∀ v, f k (g v) = g' (f k v)) (d : Dict K V) :
    (d.modify k g).mapValues f = (d.mapValues f).modify k g' := by
  rw [modify, modify, mapValues_mapValues, mapValues_mapValues]
  congr 1
  funext k' v
  split_ifs with hk
  · rw [hk, h]
  · rfl

@[simp] theorem modify_id (d : Dict K V) (k : K) : d.modify k id = d := by
  refine ext ((List.map_congr_left fun e _ => ?_).trans (List.map_id d.entries))
  simp only [id, ite_self]

theorem modify_modify (g f : V → V) (d : Dict K V) (k : K) :
    (d.modify k f).modify k g = d.modify k (g ∘ f) := by
  rw [modify, modify, modify, mapValues_mapValues]
  congr 1
  funext k' v
  split_ifs <;> rfl

theorem erase_mapValues {W : Type*} (d : Dict K V) (k : K) (f : K → V → W) :
    (d.mapValues f).erase k = (d.erase k).mapValues f :=
  ext (by simp only [erase, mapValues, List.filter_map]; rfl)

theorem erase_modify (d : Dict K V) (k : K) (f : V → V) :
    (d.modify k f).erase k = d.erase k := by
  rw [modify, erase_mapValues]
  refine ext ?_
  simp only [mapValues, erase]
  conv_rhs => rw [← List.map_id (d.entries.filter _)]
  refine List.map_congr_left fun e he => ?_
  have hk : e.1 ≠ k := by simpa using (List.mem_filter.1 he).2
  simp [hk]

/-- Erasing an absent key changes nothing. -/
theorem erase_of_get?_none {d : Dict K V} {k : K} (h : d.get? k = none) : d.erase k = d := by
  refine ext (List.filter_eq_self.2 fun e he => ?_)
  have hk : e.1 ≠ k := fun hk => get?_eq_none.1 h (hk ▸ List.mem_map_of_mem he)
  simpa using hk

/-! ### Dictionaries filled in a loop -/

section Collect

variable {α : Type*}

/-- What an entry says about the key `k`. -/
def entryAt (k : K) (o : Option (K × V)) : Option V :=
  o.bind fun e => if e.1 = k then some e.2 else none

/-- Go through a list and enter what `f` makes of each element; a later entry under the same key
replaces the earlier one. -/
def collect (f : α → Option (K × V)) (l : List α) : Dict K V :=
  l.foldl (fun d a => match f a with | some e => d.set e.1 e.2 | none => d) ∅

theorem entryAt_eq_some {k : K} {o : Option (K × V)} {v : V} :
    entryAt k o = some v ↔ o = some (k, v) := by
  cases o with
  | none => simp [entryAt]
  | some e =>
    obtain ⟨k', v'⟩ := e
    simp only [entryAt, Option.bind_some, Option.some.injEq, Prod.mk.injEq]
    split_ifs with h <;> simp [h]

/-- Under every key stands what the last element that enters the key says. -/
theorem get?_collect (f : α → Option (K × V)) (l : List α) (k : K) :
    (collect f l).get? k = (l.filterMap fun a => entryAt k (f a)).getLast? := by
  induction l using List.reverseRecOn with
  | nil => rfl
  | append_singleton l a ih =>
    have hstep : collect f (l ++ [a]) =
        match f a with | some e => (collect f l).set e.1 e.2 | none => collect f l := by
      simp only [collect, List.foldl_append, List.foldl_cons, List.foldl_nil]
    rw [hstep, List.filterMap_append, List.getLast?_append, ← ih]
    cases hf : f a with
    | none => simp [entryAt, hf]
    | some e =>
      simp only [get?_set, List.filterMap_cons, List.filterMap_nil, hf, entryAt, Option.bind_some]
      split_ifs <;> simp

/-- Elements that agree about `k` give the same value under `k`. -/
theorem get?_collect_congr {β : Type*} {f : α → Option (K × V)} {g : β → Option (K × V)}
    {l : List α} {m : α → β} {k : K} (h : ∀ a ∈ l, entryAt k (g (m a)) = entryAt k (f a)) :
    (collect g (l.map m)).get? k = (collect f l).get? k := by
  rw [get?_collect, get?_collect, List.filterMap_map]
  exact congrArg _ (List.filterMap_congr h)

/-- Nothing stands under a key that no element enters. -/
theorem get?_collect_eq_none {f : α → Option (K × V)} {l : List α} {k : K}
    (h : ∀ a ∈ l, entryAt k (f a) = none) : (collect f l).get? k = none := by
  rw [get?_collect, List.filterMap_eq_nil_iff.2 h, List.getLast?_nil]

/-- The value of the only element that enters `k`. -/
theorem getLast?_filterMap_of_unique {W : Type*} {c : α → Option W} {l : List α} {a : α}
    (ha : a ∈ l) (h : ∀ b ∈ l, b = a ∨ c b = none) : (l.filterMap c).getLast? = c a := by
  induction l using List.reverseRecOn with
  | nil => cases ha
  | append_singleton l b ih =>
    rw [List.filterMap_append, List.getLast?_append]
    have hl : ∀ x ∈ l, x = a ∨ c x = none := fun x hx => h x (List.mem_append_left _ hx)
    cases hb : c b with
    | some w =>
      have hba : b = a := (h b (by simp)).resolve_right (by simp [hb])
      rw [← hba, hb]
      simp [hb]
    | none =>
      simp only [List.filterMap_cons, hb, List.filterMap_nil, List.getLast?_nil, Option.none_or]
      by_cases hal : a ∈ l
      · exact ih hal hl
      · have hab : a = b := by simpa [hal] using ha
        rw [hab, hb, List.filterMap_eq_nil_iff.2, List.getLast?_nil]
        intro x hx
        exact (hl x hx).resolve_left fun hxa => hal (hxa ▸ hx)

/-- When no two elements disagree about a key, it stands for what any of them says. -/
theorem get?_collect_eq_some {f : α → Option (K × V)} {l : List α} {k : K}
    (h : ∀ a ∈ l, ∀ b ∈ l, ∀ v w, f a = some (k, v) → f b = some (k, w) → v = w) {v : V} :
    (collect f l).get? k = some v ↔ ∃ a ∈ l, f a = some (k, v) := by
  rw [get?_collect]
  constructor
  · intro hlast
    obtain ⟨a, ha, hv⟩ := List.mem_filterMap.1 (List.mem_of_getLast? hlast)
    exact ⟨a, ha, entryAt_eq_some.1 hv⟩
  · rintro ⟨a, ha, hv⟩
    have hmem : v ∈ l.filterMap fun a => entryAt k (f a) :=
      List.mem_filterMap.2 ⟨a, ha, entryAt_eq_some.2 hv⟩
    obtain ⟨w, hw⟩ := Option.ne_none_iff_exists'.1
      (mt List.getLast?_eq_none_iff.1 (List.ne_nil_of_mem hmem))
    obtain ⟨b, hb, hbw⟩ := List.mem_filterMap.1 (List.mem_of_getLast? hw)
    rw [hw, h a ha b hb v w hv (entryAt_eq_some.1 hbw)]

/-- A dictionary of what a function says about the keys in a list. -/
theorem get?_collect_keys (g : K → Option V) {l : List K} {k : K} (hk : k ∈ l) :
    (collect (fun k => (g k).map fun v => (k, v)) l).get? k = g k := by
  have hat : ∀ b, entryAt k ((g b).map fun v => (b, v)) = if b = k then g b else none := by
    intro b
    cases hg : g b with
    | none => simp [entryAt]
    | some v => simp [entryAt]
  rw [get?_collect, getLast?_filterMap_of_unique hk, hat, if_pos rfl]
  intro b _
  rw [hat]
  by_cases hb : b = k
  · exact .inl hb
  · exact .inr (if_neg hb)

end Collect

/-- An entry that shares its keys with no other entry adds what it says to what the others say. -/
theorem get?_collect_erase {W : Type*} {X : Type*} [DecidableEq X]
    {f : K × V → Option (X × W)} {d : Dict K V} {k : K} {v : V} (hk : d.get? k = some v)
    {x : X} (hx : entryAt x (f (k, v)) ≠ none →
      ∀ k' v', d.get? k' = some v' → k' ≠ k → entryAt x (f (k', v')) = none) :
    (collect f d.entries).get? x =
      (entryAt x (f (k, v))).or ((collect f (d.erase k).entries).get? x) := by
  have hmem : (k, v) ∈ d.entries := get?_eq_some.1 hk
  have hself : ∀ b ∈ d.entries, b.1 = k → b = (k, v) := by
    rintro ⟨k', v'⟩ hb rfl
    have hv := get?_eq_some.2 hb
    rw [hk] at hv
    rw [Option.some.inj hv]
  cases hc : entryAt x (f (k, v)) with
  | some w =>
    rw [get?_collect, Option.some_or, ← hc]
    refine getLast?_filterMap_of_unique hmem fun b hb => ?_
    by_cases hbk : b.1 = k
    · exact .inl (hself b hb hbk)
    · exact .inr (hx (by simp [hc]) b.1 b.2 (get?_eq_some.2 hb) hbk)
  | none =>
    rw [Option.none_or, get?_collect, get?_collect, erase, List.filterMap_filter]
    refine congrArg _ (List.filterMap_congr fun b hb => ?_)
    by_cases hbk : b.1 = k
    · rw [hself b hb hbk, hc]; simp
    · simp [hbk]

/-! ### Reconciling with a table of needs -/

/-- `d.setdefault(k, v)`. -/
def setDefault (d : Dict K V) (k : K) (v : V) : Dict K V := if d.contains k then d else d.set k v

/-- Erase what is not needed, then enter what is needed and absent. -/
def reconcile (needed d : Dict K V) : Dict K V :=
  needed.entries.foldl (fun d e => d.setDefault e.1 e.2)
    (d.keys.foldl (fun d k => if needed.contains k then d else d.erase k) d)

theorem get?_setDefault (d : Dict K V) (k k' : K) (v : V) :
    (d.setDefault k v).get? k' = (d.get? k').or (if k = k' then some v else none) := by
  unfold setDefault contains
  split_ifs with hc hk hk
  · obtain ⟨w, hw⟩ := Option.isSome_iff_exists.1 hc
    rw [← hk, hw, Option.some_or]
  · rw [Option.or_none]
  · have hn : d.get? k' = none := by rw [← hk]; simpa using hc
    rw [hn, Option.none_or, ← hk, get?_set_self]
  · rw [get?_set_ne d v hk, Option.or_none]

theorem get?_foldl_setDefault (es : List (K × V)) (d : Dict K V) (k : K) :
    (es.foldl (fun d e => d.setDefault e.1 e.2) d).get? k = (d.get? k).or (lookupL k es) := by
  induction es generalizing d with
  | nil => simp [lookupL]
  | cons e es ih =>
    rw [List.foldl_cons, ih, get?_setDefault, Option.or_assoc, lookupL]
    split_ifs <;> simp

theorem get?_foldl_erase (keep : K → Bool) (ks : List K) (d : Dict K V) (k : K) :
    (ks.foldl (fun d k => if keep k then d else d.erase k) d).get? k =
      if k ∈ ks ∧ keep k = false then none else d.get? k := by
  induction ks generalizing d with
  | nil => simp
  | cons k' ks ih =>
    rw [List.foldl_cons, ih]
    by_cases hk : k = k'
    · subst hk
      cases keep k <;> simp
    · cases hkeep : keep k' <;> simp [hk, get?_erase_ne d (Ne.symm hk)]

/-- After reconciling, exactly the needed keys are there, with the values that were there before
the needed ones. -/
theorem get?_reconcile (needed d : Dict K V) (k : K) :
    (reconcile needed d).get? k =
      if needed.contains k then (d.get? k).or (needed.get? k) else none := by
  rw [reconcile, get?_foldl_setDefault, get?_foldl_erase]
  change (if _ then none else d.get? k).or (needed.get? k) = _
  cases hn : needed.contains k with
  | true => simp
  | false =>
    have hnone : needed.get? k = none := by simpa [contains] using hn
    rw [hnone, Option.or_none]
    by_cases hk : k ∈ d.keys
    · simp [hk]
    · simpa [hk] using get?_eq_none.2 hk

/-- Reconciling changes nothing when the keys are those that are needed. -/
theorem reconcile_eq_self {needed d : Dict K V}
    (h : ∀ k, d.contains k = needed.contains k) : reconcile needed d = d := by
  have herase : ∀ ks : List K, (∀ k ∈ ks, k ∈ d.keys) →
      ks.foldl (fun d k => if needed.contains k then d else d.erase k) d = d := by
    intro ks hks
    induction ks with
    | nil => rfl
    | cons k ks ih =>
      have hk : needed.contains k = true := by
        rw [← h, contains_iff]; exact hks k (by simp)
      rw [List.foldl_cons, if_pos hk]
      exact ih fun k' hk' => hks k' (by simp [hk'])
  have hset : ∀ es : List (K × V), (∀ e ∈ es, e ∈ needed.entries) →
      es.foldl (fun d e => d.setDefault e.1 e.2) d = d := by
    intro es hes
    induction es with
    | nil => rfl
    | cons e es ih =>
      have he : d.contains e.1 = true := by
        rw [h, contains_iff]; exact List.mem_map_of_mem (hes e (by simp))
      have hstep : d.setDefault e.1 e.2 = d := if_pos he
      rw [List.foldl_cons, hstep]
      exact ih fun e' he' => hes e' (by simp [he'])
  rw [reconcile, herase d.keys fun _ hk => hk, hset needed.entries fun _ he => he]

/-- A second reconciliation changes nothing. -/
theorem reconcile_reconcile (needed d : Dict K V) :
    reconcile needed (reconcile needed d) = reconcile needed d := by
  refine reconcile_eq_self fun k => ?_
  rw [contains, contains, get?_reconcile]
  cases hn : needed.get? k with
  | none => simp [contains, hn]
  | some v => cases d.get? k <;> simp [contains, hn]

/-! ### Merging -/

/-- `d.update(e)`. -/
def merge (d e : Dict K V) : Dict K V := e.entries.foldl (fun d x => d.set x.1 x.2) d

theorem get?_foldl_set {es : List (K × V)} (h : (es.map Prod.fst).Nodup) (d : Dict K V) (k : K) :
    (es.foldl (fun d x => d.set x.1 x.2) d).get? k = (lookupL k es).or (d.get? k) := by
  induction es generalizing d with
  | nil => simp [lookupL]
  | cons e es ih =>
    obtain ⟨hnot, hnodup⟩ := List.nodup_cons.1 h
    rw [List.foldl_cons, ih hnodup, get?_set, lookupL]
    split_ifs with hk
    · -- `e` is the only entry under its key
      have hnone : lookupL k es = none := by
        cases hes : lookupL k es with
        | none => rfl
        | some v =>
          have hmem := (lookupL_eq_some hnodup).1 hes
          exact absurd (List.mem_map.2 ⟨_, hmem, hk.symm⟩) hnot
      simp [hnone]
    · rfl

/-- A key that is there keeps its place. -/
theorem map_fst_insertL {k : K} {v : V} {es : List (K × V)} (h : k ∈ es.map Prod.fst) :
    (insertL k v es).map Prod.fst = es.map Prod.fst := by
  induction es with
  | nil => cases h
  | cons e es ih =>
    rw [insertL]
    split_ifs with he
    · rw [List.map_cons, List.map_cons, he]
    · rw [List.map_cons, List.map_cons, ih ((List.mem_cons.1 h).resolve_left (Ne.symm he))]

theorem insertL_of_not_mem {k : K} {v : V} {es : List (K × V)} (h : k ∉ es.map Prod.fst) :
    insertL k v es = es ++ [(k, v)] := by
  induction es with
  | nil => rfl
  | cons e es ih =>
    rw [List.map_cons, List.mem_cons, not_or] at h
    rw [insertL, if_neg (Ne.symm h.1), ih h.2, List.cons_append]

/-- Entries under new keys that are distinct go to the end. -/
theorem entries_foldl_set {d : Dict K V} {es : List (K × V)}
    (h : (d.keys ++ es.map Prod.fst).Nodup) :
    (es.foldl (fun d x => d.set x.1 x.2) d).entries = d.entries ++ es := by
  induction es generalizing d with
  | nil => exact (List.append_nil _).symm
  | cons e es ih =>
    have hnew : e.1 ∉ d.keys := fun hmem =>
      (List.disjoint_of_nodup_append h) hmem List.mem_cons_self
    have hset : (d.set e.1 e.2).entries = d.entries ++ [e] := insertL_of_not_mem hnew
    have hkeys : (d.set e.1 e.2).keys = d.keys ++ [e.1] := by simp [keys, hset]
    rw [List.foldl_cons, ih (by rw [hkeys]; simpa using h), hset, List.append_assoc]
    rfl

/-- Entering a value that is there already changes nothing. -/
theorem set_eq_self {d : Dict K V} {k : K} {v : V} (h : d.get? k = some v) : d.set k v = d := by
  have hins : ∀ es : List (K × V), lookupL k es = some v → insertL k v es = es := by
    intro es hes
    induction es with
    | nil => cases hes
    | cons e es ih =>
      rw [lookupL] at hes
      rw [insertL]
      split_ifs at hes ⊢ with hk
      · obtain rfl := Option.some.inj hes
        rw [← hk]
      · rw [ih hes]
  exact ext (hins d.entries h)

/-- A new value under a key that is there. -/
theorem set_eq_modify {d : Dict K V} {k : K} {v : V} (h : d.get? k = some v) (w : V) :
    d.set k w = d.modify k fun _ => w := by
  have hins : ∀ es : List (K × V), (es.map Prod.fst).Nodup → k ∈ es.map Prod.fst →
      insertL k w es = es.map fun e => (e.1, if e.1 = k then w else e.2) := by
    intro es hnodup hmem
    induction es with
    | nil => cases hmem
    | cons e es ih =>
      rw [List.map_cons, List.nodup_cons] at hnodup
      rw [insertL, List.map_cons]
      split_ifs with hk
      · rw [hk]
        refine congrArg (_ :: ·) ((List.map_id es).symm.trans (List.map_congr_left fun e' he' => ?_))
        have hne : e'.1 ≠ k := fun heq =>
          hnodup.1 (hk.trans heq.symm ▸ List.mem_map_of_mem he')
        rw [if_neg hne]
        rfl
      · rw [ih hnodup.2 ((List.mem_cons.1 hmem).resolve_left (Ne.symm hk))]
  exact ext (hins d.entries d.nodup (List.mem_map.2 ⟨(k, v), get?_eq_some.1 h, rfl⟩))

/-- Entries under distinct keys change nothing exactly when all of them are there already. -/
theorem foldl_set_eq_self_iff {es : List (K × V)} (h : (es.map Prod.fst).Nodup) {d : Dict K V} :
    es.foldl (fun d x => d.set x.1 x.2) d = d ↔ ∀ e ∈ es, d.get? e.1 = some e.2 := by
  constructor
  · intro hself e he
    have hget := get?_foldl_set h d e.1
    rw [hself, (lookupL_eq_some h).2 he] at hget
    exact hget
  · intro hes
    clear h
    induction es with
    | nil => rfl
    | cons e es ih =>
      rw [List.foldl_cons, set_eq_self (hes e List.mem_cons_self)]
      exact ih fun e' he' => hes e' (List.mem_cons_of_mem _ he')

theorem get?_merge (d e : Dict K V) (k : K) : (d.merge e).get? k = (e.get? k).or (d.get? k) :=
  get?_foldl_set e.nodup d k

/-- An empty dictionary takes over what it is updated with. -/
theorem empty_merge (e : Dict K V) : (∅ : Dict K V).merge e = e :=
  ext (entries_foldl_set (d := ∅) e.nodup)

/-- Rename the keys. -/
def mapKeys {L : Type*} (f : K → L) (hf : Function.Injective f) (d : Dict K V) : Dict L V where
  entries := d.entries.map fun e => (f e.1, e.2)
  nodup := by
    have h := d.nodup.map hf
    simpa [List.map_map, Function.comp_def] using h

theorem get?_mapKeys {L : Type*} [DecidableEq L] {f : K → L} (hf : Function.Injective f)
    (d : Dict K V) (k : K) : (d.mapKeys f hf).get? (f k) = d.get? k := by
  change lookupL (f k) (d.entries.map fun e => (f e.1, e.2)) = lookupL k d.entries
  induction d.entries with
  | nil => rfl
  | cons e es ih => simp only [List.map_cons, lookupL, hf.eq_iff, ih]

theorem mapKeys_eq_some {L : Type*} [DecidableEq L] {f : K → L} (hf : Function.Injective f)
    {d : Dict K V} {l : L} {v : V} (h : (d.mapKeys f hf).get? l = some v) :
    ∃ k, l = f k ∧ d.get? k = some v := by
  obtain ⟨e, he, heq⟩ := List.mem_map.1 (get?_eq_some.1 h)
  cases heq
  exact ⟨e.1, rfl, get?_eq_some.2 he⟩

/-! ### Sums over the values -/

section Sum

variable {M : Type*} [AddCommMonoid M]

/-- The sum of `f` over the values. -/
def sumValues (f : V → M) (d : Dict K V) : M := (d.entries.map fun e => f e.2).sum

omit [DecidableEq K] in
@[simp] theorem sumValues_empty (f : V → M) : (∅ : Dict K V).sumValues f = 0 := rfl

theorem sum_insertL (f : V → M) (k : K) (v : V) (es : List (K × V)) :
    ((insertL k v es).map fun e => f e.2).sum + ((lookupL k es).map f).getD 0 =
      (es.map fun e => f e.2).sum + f v := by
  induction es with
  | nil => simp [insertL, lookupL]
  | cons e es ih =>
    simp only [insertL, lookupL]
    split_ifs
    · simp only [List.map_cons, List.sum_cons, Option.map_some, Option.getD_some]
      rw [add_right_comm, add_comm (f v), add_right_comm]
    · simp only [List.map_cons, List.sum_cons, add_assoc, ih]

/-- Setting a value adds it in the place of the one that was there. -/
theorem sumValues_set (f : V → M) (d : Dict K V) (k : K) (v : V) :
    (d.set k v).sumValues f + ((d.get? k).map f).getD 0 = d.sumValues f + f v :=
  sum_insertL f k v d.entries

/-- The sum vanishes when every value contributes nothing. -/
theorem sumValues_eq_zero {f : V → M} {d : Dict K V}
    (h : ∀ k v, d.get? k = some v → f v = 0) : d.sumValues f = 0 := by
  refine List.sum_eq_zero fun x hx => ?_
  obtain ⟨e, he, rfl⟩ := List.mem_map.1 hx
  exact h e.1 e.2 (get?_eq_some.2 he)

theorem sum_filter_ne (f : V → M) (k : K) {es : List (K × V)} (h : (es.map Prod.fst).Nodup) :
    ((es.filter fun e => e.1 ≠ k).map fun e => f e.2).sum + ((lookupL k es).map f).getD 0 =
      (es.map fun e => f e.2).sum := by
  induction es with
  | nil => simp [lookupL]
  | cons e es ih =>
    obtain ⟨hnot, hrest⟩ := List.nodup_cons.1 h
    by_cases hk : e.1 = k
    · -- no later entry has the key
      have hfilter : (es.filter fun e => e.1 ≠ k) = es := by
        refine List.filter_eq_self.2 fun e' he' => decide_eq_true fun hk' => hnot ?_
        rw [hk, ← hk']
        exact List.mem_map_of_mem he'
      rw [List.filter_cons_of_neg (by simpa using hk), hfilter, lookupL, if_pos hk,
        Option.map_some, Option.getD_some, List.map_cons, List.sum_cons, add_comm]
    · rw [List.filter_cons_of_pos (by simpa using hk), lookupL, if_neg hk, List.map_cons,
        List.map_cons, List.sum_cons, List.sum_cons, add_assoc, ih hrest]

/-- Erasing a key takes its value off the sum. -/
theorem sumValues_erase (f : V → M) (d : Dict K V) (k : K) :
    (d.erase k).sumValues f + ((d.get? k).map f).getD 0 = d.sumValues f :=
  sum_filter_ne f k d.nodup

omit [DecidableEq K] in
/-- A sum of numbers that are at most `c`. -/
theorem sumValues_le {f : V → ℕ} {c : ℕ} (d : Dict K V) (h : ∀ v, f v ≤ c) :
    d.sumValues f ≤ d.size * c := by
  unfold sumValues size
  induction d.entries with
  | nil => simp
  | cons e es ih =>
    rw [List.map_cons, List.sum_cons, List.length_cons, Nat.succ_mul, Nat.add_comm]
    exact Nat.add_le_add ih (h e.2)

end Sum

end Dict

end RvgGateway
