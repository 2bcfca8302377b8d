import Mathlib.Data.List.Basic

/-!
# Lexical paths

An absolute path is the list of its parts, from the root.  Resolving a path without a look at the
file system leaves out empty parts and `.`, and lets `..` cancel the part before it.

A path lies inside another when the parts of the one begin with the parts of the other.  Comparing
the texts of two paths instead compares the last part of the shorter one by its letters only
(`Paths.text_isPrefix_iff`): the longer path can be the same path, or lead through a sibling whose
name begins with the name of the shorter one.
-/

namespace RvgGateway

namespace Paths

/-- A part of a path. -/
abbrev Part := List Char

/-- An absolute path, from the root. -/
abbrev Path := List Part

/-- The part `..`. -/
def up : Part := ['.', '.']

/-- The parts of a text: neither the empty ones nor `.`. -/
def parts (s : List Char) : List Part := (s.splitOn '/').filter fun p => p ≠ [] ∧ p ≠ ['.']

/-- One more part behind a resolved path. -/
def walk (acc : Path) (p : Part) : Path := if p = up then acc.dropLast else acc ++ [p]

/-- The path to which parts lead from the root. -/
def resolve (ps : List Part) : Path := ps.foldl walk []

/-- The text of a path. -/
def text (a : Path) : List Char := if a = [] then ['/'] else a.flatMap ('/' :: ·)

/-- The first path is a proper ancestor of the second. -/
def Inside (a b : Path) : Prop := a <+: b ∧ a ≠ b

/-- The second path leads through another entry of the directory that holds the first, with a name
that begins with the name of the first. -/
def Sibling (a b : Path) : Prop :=
  ∃ front c x rest, x ≠ [] ∧ a = front ++ [c] ∧ b = front ++ (c ++ x) :: rest

/-- A part that can stand in a path. -/
def Plain (p : Part) : Prop := p ≠ [] ∧ '/' ∉ p

/-! ### Resolved paths -/

theorem not_mem_of_mem_splitOn (s : List Char) : ∀ p ∈ s.splitOn '/', '/' ∉ p := by
  induction s with
  | nil => simp
  | cons c s ih =>
    rw [List.splitOn_cons_eq_if_modifyHead]
    split_ifs with hc
    · intro p hp
      rcases List.mem_cons.1 hp with rfl | hp
      · exact List.not_mem_nil
      · exact ih p hp
    · have hne : c ≠ '/' := by simpa using hc
      cases hparts : s.splitOn '/' with
      | nil => simp
      | cons q qs =>
        intro p hp
        rw [hparts] at ih
        rcases List.mem_cons.1 hp with rfl | hp
        · intro hmem
          rcases List.mem_cons.1 hmem with rfl | hmem
          · exact hne rfl
          · exact ih q List.mem_cons_self hmem
        · exact ih p (List.mem_cons_of_mem _ hp)

theorem plain_of_mem_parts {s : List Char} : ∀ p ∈ parts s, Plain p := by
  intro p hp
  obtain ⟨hmem, hne⟩ := List.mem_filter.1 hp
  exact ⟨(of_decide_eq_true hne).1, not_mem_of_mem_splitOn s p hmem⟩

/-- Resolving keeps the parts plain. -/
theorem plain_of_mem_resolve {ps : List Part} (h : ∀ p ∈ ps, Plain p) :
    ∀ p ∈ resolve ps, Plain p := by
  have hfold : ∀ acc : Path, (∀ p ∈ acc, Plain p) → ∀ p ∈ ps.foldl walk acc, Plain p := by
    induction ps with
    | nil => exact fun acc hacc => hacc
    | cons q ps ih =>
      intro acc hacc
      refine ih (fun p hp => h p (List.mem_cons_of_mem _ hp)) (walk acc q) fun p hp => ?_
      unfold walk at hp
      split_ifs at hp
      · exact hacc p ((List.dropLast_sublist acc).mem hp)
      · rcases List.mem_append.1 hp with hp | hp
        · exact hacc p hp
        · rw [List.mem_singleton.1 hp]
          exact h q List.mem_cons_self
  exact hfold [] fun p hp => absurd hp List.not_mem_nil

/-! ### Texts -/

/-- A text in which only slashes begin a new part. -/
def Bounded (s : List Char) : Prop := s = [] ∨ ∃ s', s = '/' :: s'

theorem bounded_flatMap (a : Path) : Bounded (a.flatMap ('/' :: ·)) := by
  cases a with
  | nil => exact .inl rfl
  | cons p a => exact .inr ⟨p ++ a.flatMap ('/' :: ·), rfl⟩

/-- Letters that begin a text begin its first part. -/
theorem isPrefix_of_bounded {p q s : List Char} (hp : '/' ∉ p) (hs : Bounded s)
    (h : p <+: q ++ s) : p <+: q := by
  induction p generalizing q with
  | nil => exact List.nil_prefix
  | cons c p ih =>
    have hc : '/' ≠ c := fun heq => hp (heq ▸ List.mem_cons_self)
    cases q with
    | nil =>
      -- the first letter would be a slash
      rcases hs with rfl | ⟨s', rfl⟩
      · exact h
      · exact absurd (List.cons_prefix_cons.1 h).1.symm hc
    | cons d q =>
      obtain ⟨rfl, htail⟩ := List.cons_prefix_cons.1 h
      exact List.cons_prefix_cons.2
        ⟨rfl, ih (fun hmem => hp (List.mem_cons_of_mem _ hmem)) htail⟩

/-- Letters with a slash behind them are the whole first part. -/
theorem eq_of_slash {p q r s : List Char} (hp : '/' ∉ p) (hq : '/' ∉ q) (hs : Bounded s)
    (h : p ++ '/' :: r <+: q ++ s) : p = q ∧ '/' :: r <+: s := by
  induction p generalizing q with
  | nil =>
    cases q with
    | nil => exact ⟨rfl, h⟩
    | cons d q => exact absurd ((List.cons_prefix_cons.1 h).1 ▸ List.mem_cons_self) hq
  | cons c p ih =>
    have hc : '/' ≠ c := fun heq => hp (heq ▸ List.mem_cons_self)
    cases q with
    | nil =>
      rcases hs with rfl | ⟨s', rfl⟩
      · exact absurd (List.prefix_nil.1 h) (List.cons_ne_nil _ _)
      · exact absurd (List.cons_prefix_cons.1 h).1.symm hc
    | cons d q =>
      obtain ⟨rfl, htail⟩ := List.cons_prefix_cons.1 h
      obtain ⟨rfl, hrest⟩ := ih (fun hmem => hp (List.mem_cons_of_mem _ hmem))
        (fun hmem => hq (List.mem_cons_of_mem _ hmem)) htail
      exact ⟨rfl, hrest⟩

/-- The text of a path begins with that of another when the parts do, except that the last part of
the shorter one only begins the part in its place. -/
theorem flatMap_isPrefix_iff {a b : Path} (ha : ∀ p ∈ a, Plain p) (hb : ∀ p ∈ b, Plain p)
    (hne : a ≠ []) : a.flatMap ('/' :: ·) <+: b.flatMap ('/' :: ·) ↔
      ∃ front c x rest, a = front ++ [c] ∧ b = front ++ (c ++ x) :: rest := by
  induction a generalizing b with
  | nil => exact absurd rfl hne
  | cons p a ih =>
    have hp := ha p List.mem_cons_self
    cases b with
    | nil =>
      constructor
      · intro h
        cases List.prefix_nil.1 h
      · rintro ⟨front, c, x, rest, -, hnil⟩
        exact absurd hnil.symm (by simp)
    | cons q b =>
      have hq := hb q List.mem_cons_self
      rw [List.flatMap_cons, List.flatMap_cons, List.cons_append, List.cons_append,
        List.cons_prefix_cons]
      cases a with
      | nil =>
        -- `p` is the last part
        rw [List.flatMap_nil, List.append_nil]
        constructor
        · rintro ⟨-, h⟩
          obtain ⟨x, rfl⟩ := isPrefix_of_bounded hp.2 (bounded_flatMap b) h
          exact ⟨[], p, x, b, rfl, rfl⟩
        · rintro ⟨front, c, x, rest, hfront, hrest⟩
          obtain ⟨rfl, hc⟩ : front = [] ∧ [p] = [c] := by
            cases front with
            | nil => exact ⟨rfl, hfront⟩
            | cons d front =>
              have hlen := congrArg List.length hfront
              simp at hlen
          cases hc
          cases hrest
          exact ⟨rfl, (List.prefix_append p x).trans (List.prefix_append _ _)⟩
      | cons p' a =>
        have ih' := ih (b := b) (fun r hr => ha r (List.mem_cons_of_mem _ hr))
          (fun r hr => hb r (List.mem_cons_of_mem _ hr)) (List.cons_ne_nil p' a)
        constructor
        · rintro ⟨-, h⟩
          obtain ⟨rfl, htail⟩ := eq_of_slash hp.2 hq.2 (bounded_flatMap b) h
          obtain ⟨front, c, x, rest, hfront, hrest⟩ := ih'.1 htail
          exact ⟨p :: front, c, x, rest, by rw [hfront]; rfl, by rw [hrest]; rfl⟩
        · rintro ⟨front, c, x, rest, hfront, hrest⟩
          cases front with
          | nil => cases hfront
          | cons d front =>
            obtain ⟨rfl, hfront'⟩ := List.cons.inj hfront
            obtain ⟨rfl, hrest'⟩ := List.cons.inj hrest
            have htail := ih'.2 ⟨front, c, x, rest, hfront', hrest'⟩
            exact ⟨rfl, (List.prefix_append_right_inj q).2 htail⟩

/-- What a comparison of the texts says about the paths. -/
theorem text_isPrefix_iff {a b : Path} (ha : ∀ p ∈ a, Plain p) (hb : ∀ p ∈ b, Plain p) :
    text a <+: text b ↔
      a = [] ∨ ∃ front c x rest, a = front ++ [c] ∧ b = front ++ (c ++ x) :: rest := by
  by_cases hnil : a = []
  · subst hnil
    refine ⟨fun _ => .inl rfl, fun _ => ?_⟩
    unfold text
    rw [if_pos rfl]
    split_ifs with hb'
    · exact List.prefix_rfl
    · cases b with
      | nil => exact absurd rfl hb'
      | cons q b => exact ⟨q ++ b.flatMap ('/' :: ·), rfl⟩
  · rw [or_iff_right hnil, ← flatMap_isPrefix_iff ha hb hnil]
    unfold text
    rw [if_neg hnil]
    split_ifs with hb'
    · -- the text of the root is shorter than that of any part
      subst hb'
      cases a with
      | nil => exact absurd rfl hnil
      | cons p a =>
        have hp := (ha p List.mem_cons_self).1
        constructor
        · intro h
          have hlen := h.length_le
          have hpos := List.length_pos_iff.2 hp
          simp only [List.flatMap_cons, List.cons_append, List.length_cons, List.length_append,
            List.length_nil] at hlen
          omega
        · intro h
          cases List.prefix_nil.1 h
    · rfl

/-- A comparison of the texts accepts the paths inside, the path itself, and those through a
sibling. -/
theorem text_isPrefix_cases {a b : Path} (ha : ∀ p ∈ a, Plain p) (hb : ∀ p ∈ b, Plain p) :
    text a <+: text b ↔ Inside a b ∨ a = b ∨ Sibling a b := by
  rw [text_isPrefix_iff ha hb]
  constructor
  · rintro (rfl | ⟨front, c, x, rest, rfl, rfl⟩)
    · by_cases hnil : b = []
      · exact .inr (.inl hnil.symm)
      · exact .inl ⟨List.nil_prefix, fun h => hnil h.symm⟩
    · by_cases hx : x = []
      · subst hx
        rw [List.append_nil]
        cases rest with
        | nil => exact .inr (.inl rfl)
        | cons r rest =>
          refine .inl ⟨⟨r :: rest, by simp⟩, fun h => ?_⟩
          have hlen := congrArg List.length h
          simp at hlen
      · exact .inr (.inr ⟨front, c, x, rest, hx, rfl, rfl⟩)
  · rintro (⟨⟨rest, rfl⟩, hne⟩ | rfl | ⟨front, c, x, rest, -, rfl, rfl⟩)
    · rcases List.eq_nil_or_concat a with rfl | ⟨front, c, rfl⟩
      · exact .inl rfl
      · exact .inr ⟨front, c, [], rest, List.concat_eq_append, by simp⟩
    · rcases List.eq_nil_or_concat a with rfl | ⟨front, c, rfl⟩
      · exact .inl rfl
      · exact .inr ⟨front, c, [], [], List.concat_eq_append, by simp⟩
    · exact .inr ⟨front, c, x, rest, rfl, rfl⟩

/-- A proper descendant has more parts. -/
theorem Inside.length_lt {a b : Path} (h : Inside a b) : a.length < b.length := by
  obtain ⟨hpre, hne⟩ := h
  rcases Nat.lt_or_eq_of_le hpre.length_le with hlt | heq
  · exact hlt
  · exact absurd (hpre.eq_of_length heq) hne

/-- Another name in the last place leaves a path inside. -/
theorem Inside.rename {a front : Path} {c d : Part} (h : Inside a (front ++ [c])) :
    Inside a (front ++ [d]) := by
  have hlen := h.length_lt
  have hfront : a <+: front := by
    rcases List.prefix_concat_iff.1 h.1 with heq | hpre
    · exact absurd heq h.2
    · exact hpre
  refine ⟨hfront.trans (List.prefix_append _ _), fun heq => ?_⟩
  rw [heq] at hlen
  simp at hlen

theorem Sibling.not_inside {a b : Path} (h : Sibling a b) : ¬ Inside a b := by
  obtain ⟨front, c, x, rest, hx, rfl, rfl⟩ := h
  rintro ⟨hpre, -⟩
  have hc : c = c ++ x := (List.cons_prefix_cons.1 ((List.prefix_append_right_inj front).1 hpre)).1
  exact hx (List.self_eq_append_right.1 hc)

end Paths

end RvgGateway
