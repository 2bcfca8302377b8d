import Mathlib.Data.List.DropRight
import Mathlib.Data.List.TakeWhile
import RvgGateway.Lib.Text

/-!
# White space and lines

`str.strip` takes the white space off both ends of a text, and `str.splitlines` cuts a text at each of
the ten line ends that Python knows, all of which are white space.

* `Str.Trimmed` : no white space at either end; what `strip` returns, and what it does not change.
* `Str.strip_of_append` : a text is stripped to what stands between white space.
* `Str.cut_append`, `Str.eq_cut` : a text cut at the first place where a character occurs.
* `Str.linesFrom_append`, `Str.linesFrom_lineEnd` : a line ends at the first line end.
* `Str.ink` : how much of a text is not white space, by which a text is compared with its lines.
-/

namespace RvgGateway

namespace Str

variable {s a b m : List Char} {ch : Char}

/-! ### White space -/

/-- No white space at either end. -/
structure Trimmed (s : List Char) : Prop where
  head : ∀ ch ∈ s.head?, isSpace ch = false
  last : ∀ ch ∈ s.getLast?, isSpace ch = false

/-- All of it is white space. -/
def Blank (s : List Char) : Prop := ∀ ch ∈ s, isSpace ch = true

-- characters are finite in number, and instance search would go through all of them
instance : DecidablePred Blank := fun s =>
  decidable_of_iff (s.all isSpace = true) List.all_eq_true

instance : DecidablePred Trimmed := fun s =>
  decidable_of_iff
    ((s.head?.all fun ch => !isSpace ch) = true ∧ (s.getLast?.all fun ch => !isSpace ch) = true)
    (by
      simp only [Option.all_eq_true, Bool.not_eq_true']
      exact ⟨fun h => ⟨h.1, h.2⟩, fun h => ⟨h.head, h.last⟩⟩)

theorem dropWhile_of_head (h : ∀ ch ∈ s.head?, isSpace ch = false) : s.dropWhile isSpace = s := by
  cases s with
  | nil => rfl
  | cons ch s =>
    have hch : isSpace ch = false := h ch rfl
    rw [List.dropWhile_cons_of_neg (by simp [hch])]

/-- White space around a trimmed text is taken off. -/
theorem strip_of_append (ha : Blank a) (hm : Trimmed m) (hb : Blank b) :
    (strip (String.ofList (a ++ m ++ b))).toList = m := by
  have hrev : Blank b.reverse := fun ch hch => hb ch (List.mem_reverse.1 hch)
  have hlast : ∀ ch ∈ m.reverse.head?, isSpace ch = false := by
    rw [List.head?_reverse]
    exact hm.last
  rw [strip, String.toList_ofList, String.toList_ofList, List.append_assoc,
    List.dropWhile_append_of_pos ha]
  cases m with
  | nil =>
    have hnil : b.dropWhile isSpace = [] := List.dropWhile_eq_nil_iff.2 hb
    rw [List.nil_append, hnil]
    rfl
  | cons ch m =>
    have hch : isSpace ch = false := hm.head ch rfl
    rw [List.cons_append, List.dropWhile_cons_of_neg (by simp [hch]), ← List.cons_append,
      List.reverse_append, List.dropWhile_append_of_pos hrev, dropWhile_of_head hlast,
      List.reverse_reverse]

/-- What is stripped off a text. -/
theorem exists_strip (s : String) :
    ∃ a b, s.toList = a ++ (strip s).toList ++ b ∧ Blank a ∧ Blank b ∧ Trimmed (strip s).toList := by
  set rest := s.toList.dropWhile isSpace with hrest
  have hstrip : (strip s).toList = rest.rdropWhile isSpace := by
    rw [strip, String.toList_ofList]
    rfl
  have hfront : s.toList = s.toList.takeWhile isSpace ++ rest :=
    List.takeWhile_append_dropWhile.symm
  have hback : rest = rest.rdropWhile isSpace ++ rest.rtakeWhile isSpace :=
    List.rdropWhile_append_rtakeWhile.symm
  have hfirst : rest.rdropWhile isSpace <+: rest := List.rdropWhile_prefix isSpace rest
  refine ⟨s.toList.takeWhile isSpace, rest.rtakeWhile isSpace, ?_, ?_, ?_, ?_, ?_⟩
  · rw [hstrip, List.append_assoc, ← hback, ← hfront]
  · exact fun ch hch => List.mem_takeWhile_imp hch
  · exact fun ch hch => List.mem_rtakeWhile_imp hch
  · rw [hstrip]
    intro ch hch
    have hhead : ch ∈ rest.head? := by
      obtain ⟨tail, htail⟩ := hfirst
      rw [← htail]
      exact List.mem_head?_append_of_mem_head? hch
    cases hr : rest with
    | nil => rw [hr] at hhead; cases hhead
    | cons ch' rest' =>
      rw [hr] at hhead
      cases hhead
      have hnot := List.head?_dropWhile_not isSpace s.toList
      rw [← hrest, hr] at hnot
      simpa using hnot
  · rw [hstrip]
    intro ch hch
    have hne : rest.rdropWhile isSpace ≠ [] := by
      rintro hnil
      rw [hnil] at hch
      cases hch
    have hlast := List.rdropWhile_last_not isSpace rest hne
    rw [List.getLast?_eq_getLast_of_ne_nil hne] at hch
    cases hch
    simpa using hlast

theorem blank_nil : Blank [] := fun _ hch => absurd hch List.not_mem_nil

theorem trimmed_strip (s : String) : Trimmed (strip s).toList := by
  obtain ⟨-, -, -, -, -, h⟩ := exists_strip s
  exact h

theorem strip_of_trimmed {s : String} (h : Trimmed s.toList) : strip s = s := by
  have hs := strip_of_append blank_nil h blank_nil
  rw [List.nil_append, List.append_nil, String.ofList_toList] at hs
  exact String.toList_inj.1 hs

theorem strip_strip (s : String) : strip (strip s) = strip s := strip_of_trimmed (trimmed_strip s)

/-- White space behind a text does not matter. -/
theorem strip_append_blank (x : List Char) (hb : Blank b) :
    strip (String.ofList (x ++ b)) = strip (String.ofList x) := by
  obtain ⟨a, b', hx, ha, hb', hm⟩ := exists_strip (String.ofList x)
  rw [String.toList_ofList] at hx
  have hblank : Blank (b' ++ b) := fun ch hch => (List.mem_append.1 hch).elim (hb' ch) (hb ch)
  have h := strip_of_append ha hm hblank
  rw [← List.append_assoc, ← hx] at h
  exact String.toList_inj.1 h

/-- Only what is behind a trimmed text is stripped. -/
theorem exists_strip_append (ha : Trimmed a) (hne : a ≠ []) (x : List Char) :
    ∃ y, (strip (String.ofList (a ++ x))).toList = a ++ y ∧
      strip (String.ofList y) = strip (String.ofList x) := by
  obtain ⟨a', b, hx, ha', hb, hm⟩ := exists_strip (String.ofList x)
  rw [String.toList_ofList] at hx
  by_cases hnil : (strip (String.ofList x)).toList = []
  · have hblank : Blank x := by
      rw [hx, hnil, List.append_nil]
      exact fun ch hch => (List.mem_append.1 hch).elim (ha' ch) (hb ch)
    have hwhole : Trimmed (String.ofList a).toList := by
      rw [String.toList_ofList]
      exact ha
    refine ⟨[], ?_, ?_⟩
    · rw [strip_append_blank a hblank, strip_of_trimmed hwhole, String.toList_ofList,
        List.append_nil]
    · exact (strip_append_blank [] hblank).symm
  · set m := (strip (String.ofList x)).toList with hmdef
    have hwhole : Trimmed (String.ofList (a ++ (a' ++ m))).toList := by
      rw [String.toList_ofList]
      refine ⟨?_, ?_⟩
      · rw [List.head?_append_of_ne_nil _ hne]
        exact ha.head
      · rw [← List.append_assoc, List.getLast?_append_of_ne_nil _ hnil]
        exact hm.last
    refine ⟨a' ++ m, ?_, ?_⟩
    · rw [hx, ← List.append_assoc, strip_append_blank _ hb, strip_of_trimmed hwhole,
        String.toList_ofList]
    · rw [hx]
      exact (strip_append_blank (a' ++ m) hb).symm

/-! ### Texts cut at a character -/

/-- A text is cut at the first place where a character occurs. -/
theorem cut_append {c : Char} (h : c ∉ a) (b : List Char) :
    (a ++ c :: b).takeWhile (· ≠ c) = a ∧ (a ++ c :: b).dropWhile (· ≠ c) = c :: b := by
  have hpos : ∀ ch ∈ a, decide (ch ≠ c) = true := by
    intro ch hch
    exact decide_eq_true (fun heq => h (heq ▸ hch))
  rw [List.takeWhile_append_of_pos hpos, List.dropWhile_append_of_pos hpos,
    List.takeWhile_cons_of_neg (by simp), List.dropWhile_cons_of_neg (by simp), List.append_nil]
  exact ⟨rfl, rfl⟩

/-- A text in which a character occurs, cut at the first place. -/
theorem eq_cut {c : Char} (h : c ∈ s) :
    s = s.takeWhile (· ≠ c) ++ c :: (s.dropWhile (· ≠ c)).tail := by
  have hsplit := List.takeWhile_append_dropWhile (p := (· ≠ c)) (l := s)
  cases hrest : s.dropWhile (· ≠ c) with
  | nil =>
    have hno := List.dropWhile_eq_nil_iff.1 hrest c h
    simp at hno
  | cons ch rest =>
    have hch : ch = c := by
      have hnot := List.head?_dropWhile_not (· ≠ c) s
      rw [hrest] at hnot
      simpa using hnot
    rw [hrest, hch] at hsplit
    exact hsplit.symm

/-! ### What is not white space -/

/-- The number of characters that are not white space. -/
def ink (s : List Char) : ℕ := s.countP fun ch => !isSpace ch

theorem ink_append (a b : List Char) : ink (a ++ b) = ink a + ink b := List.countP_append

theorem ink_eq_zero : ink s = 0 ↔ Blank s := by
  rw [ink, List.countP_eq_zero]
  simp [Blank]

theorem ink_cons (ch : Char) (s : List Char) :
    ink (ch :: s) = ink s + if isSpace ch then 0 else 1 := by
  rw [ink, List.countP_cons]
  cases isSpace ch <;> rfl

theorem ink_strip (s : String) : ink (strip s).toList = ink s.toList := by
  obtain ⟨a, b, h, ha, hb, -⟩ := exists_strip s
  rw [h, ink_append, ink_append, ink_eq_zero.2 ha, ink_eq_zero.2 hb]
  omega

/-! ### Lines -/

/-- The characters at which `str.splitlines` cuts. -/
def isLineEnd (ch : Char) : Bool :=
  ('\n' ≤ ch && ch ≤ '\r') || ('\x1c' ≤ ch && ch ≤ '\x1e') || ch = '\u0085' || ch = '\u2028' ||
    ch = '\u2029'

/-- A character in front of the first of some lines. -/
def consLine (ch : Char) : List (List Char) → List (List Char)
  | [] => [[ch]]
  | line :: lines => (ch :: line) :: lines

/-- The lines of a text; `cr` tells that a carriage return stands in front of it, to which a line feed
belongs. -/
def linesFrom : (cr : Bool) → List Char → List (List Char)
  | _, [] => []
  | cr, ch :: s =>
    if cr && ch = '\n' then linesFrom false s
    else if isLineEnd ch then [] :: linesFrom (ch = '\r') s
    else consLine ch (linesFrom false s)

/-- `s.splitlines()`. -/
def splitlines (s : String) : List (List Char) := linesFrom false s.toList

/-- The newlines of a text file as they are read, behind a carriage return if `cr`. -/
def newlinesFrom : (cr : Bool) → List Char → List Char
  | _, [] => []
  | cr, ch :: s =>
    if cr && ch = '\n' then newlinesFrom false s
    else if ch = '\r' then '\n' :: newlinesFrom true s
    else ch :: newlinesFrom false s

/-- What reading a text file makes of its newlines. -/
def universalNewlines (s : String) : String := String.ofList (newlinesFrom false s.toList)

example : splitlines "a\r\nb\x0b\n" = [['a'], ['b'], []] := by decide

theorem isLineEnd_of_all (h : (s.all fun ch => !isLineEnd ch) = true) :
    ∀ ch ∈ s, isLineEnd ch = false := by
  simpa using h

theorem isSpace_of_isLineEnd (h : isLineEnd ch = true) : isSpace ch = true := by
  simp only [isLineEnd, isSpace, Bool.or_eq_true, Bool.and_eq_true, decide_eq_true_eq] at h ⊢
  have hle : '\x1e' ≤ ' ' := by decide
  have htab : '\t' ≤ '\n' := by decide
  rcases h with (((⟨h1, h2⟩ | ⟨h1, h2⟩) | h) | h) | h
  · simp [Char.le_trans htab h1, h2]
  · simp [h1, Char.le_trans h2 hle]
  · simp [h]
  · simp [h]
  · simp [h]

/-- How the newlines are written makes no difference to the lines. -/
theorem linesFrom_newlinesFrom (cr : Bool) (s : List Char) :
    linesFrom false (newlinesFrom cr s) = linesFrom cr s := by
  induction s generalizing cr with
  | nil => rfl
  | cons ch s ih =>
    rw [newlinesFrom, linesFrom]
    split_ifs with h1 h2 h3 h4
    · exact ih false
    · have hfeed : linesFrom false ('\n' :: newlinesFrom true s) =
          [] :: linesFrom false (newlinesFrom true s) := rfl
      rw [hfeed, ih true, h2]
      rfl
    · rw [h2] at h3
      exact absurd rfl h3
    · rw [linesFrom, if_neg (by simp), if_pos h4, decide_eq_false h2, ih false]
    · rw [linesFrom, if_neg (by simp), if_neg h4, ih false]

theorem splitlines_universalNewlines (s : String) :
    splitlines (universalNewlines s) = splitlines s := by
  rw [splitlines, universalNewlines, String.toList_ofList, linesFrom_newlinesFrom, splitlines]

theorem ink_consLine (ch : Char) (lines : List (List Char)) :
    ((consLine ch lines).map ink).sum = ink [ch] + (lines.map ink).sum := by
  cases lines with
  | nil => rfl
  | cons line lines =>
    have hfirst : ink (ch :: line) = ink [ch] + ink line := ink_append [ch] line
    rw [consLine, List.map_cons, List.sum_cons, hfirst, List.map_cons, List.sum_cons]
    omega

/-- The lines have all that is not white space. -/
theorem ink_linesFrom (cr : Bool) (s : List Char) :
    ((linesFrom cr s).map ink).sum = ink s := by
  induction s generalizing cr with
  | nil => rfl
  | cons ch s ih =>
    have hspace : isSpace ch = true → ink (ch :: s) = ink s := by
      intro hch
      rw [ink_cons, hch]
      rfl
    rw [linesFrom]
    split_ifs with h1 h2
    · have hch : ch = '\n' := by simpa using (Bool.and_eq_true_iff.1 h1).2
      rw [ih, hspace (by rw [hch]; decide)]
    · rw [List.map_cons, List.sum_cons, ih, hspace (isSpace_of_isLineEnd h2)]
      exact Nat.zero_add _
    · rw [ink_consLine, ih]
      exact (ink_append [ch] s).symm

theorem ink_le_of_mem_lines {cr : Bool} {line : List Char} (h : line ∈ linesFrom cr s) :
    ink line ≤ ink s := by
  obtain ⟨before, behind, hlines⟩ := List.append_of_mem h
  rw [← ink_linesFrom cr s, hlines, List.map_append, List.sum_append, List.map_cons, List.sum_cons]
  omega

/-- A text without line ends goes in front of the first line. -/
theorem linesFrom_append (ha : ∀ ch ∈ a, isLineEnd ch = false) (hne : a ≠ []) (s : List Char) :
    linesFrom false (a ++ s) =
      (a ++ (linesFrom false s).headD []) :: (linesFrom false s).tail := by
  induction a with
  | nil => exact absurd rfl hne
  | cons ch a ih =>
    have hch : isLineEnd ch = false := ha ch List.mem_cons_self
    rw [List.cons_append, linesFrom, if_neg (by simp), if_neg (by simp [hch])]
    by_cases hnil : a = []
    · subst hnil
      rw [List.nil_append]
      cases linesFrom false s with
      | nil => rfl
      | cons line lines => rfl
    · rw [ih (fun ch hmem => ha ch (List.mem_cons_of_mem _ hmem)) hnil]
      rfl

/-- A line ends at the first line end. -/
theorem linesFrom_lineEnd (hch : isLineEnd ch = true) (s : List Char) :
    linesFrom false (ch :: s) = [] :: linesFrom (ch = '\r') s := by
  rw [linesFrom, if_neg (by simp), if_pos hch]

/-- A newline at the end of a text ends its last line, or is a line of its own. -/
theorem linesFrom_newline (cr : Bool) (s : List Char) :
    linesFrom cr (s ++ ['\n']) = linesFrom cr s ∨
      linesFrom cr (s ++ ['\n']) = linesFrom cr s ++ [[]] := by
  induction s generalizing cr with
  | nil =>
    cases cr with
    | true => exact .inl rfl
    | false => exact .inr rfl
  | cons ch s ih =>
    rw [List.cons_append, linesFrom, linesFrom]
    split_ifs with h1 h2
    · exact ih false
    · rcases ih (ch = '\r') with h | h
      · exact .inl (by rw [h])
      · exact .inr (by rw [h, List.cons_append])
    · rcases ih false with h | h
      · exact .inl (by rw [h])
      · rw [h]
        cases linesFrom false s with
        | nil => exact .inl rfl
        | cons line lines => exact .inr rfl

/-- When the lines behind the first one are blank, so is all that is behind it. -/
theorem exists_blank_of_tail (h : ∀ line ∈ (linesFrom false s).tail, Blank line) :
    ∃ b, s = (linesFrom false s).headD [] ++ b ∧ Blank b := by
  induction s with
  | nil => exact ⟨[], rfl, blank_nil⟩
  | cons ch s ih =>
    rw [linesFrom, if_neg (by simp)] at h ⊢
    split_ifs at h ⊢ with hch
    · have hink : ink s = 0 := by
        rw [← ink_linesFrom (ch = '\r'), List.sum_eq_zero_iff_forall_eq_nat]
        intro n hn
        obtain ⟨line, hline, rfl⟩ := List.mem_map.1 hn
        exact ink_eq_zero.2 (h line hline)
      refine ⟨ch :: s, rfl, ?_⟩
      rw [← ink_eq_zero, ink_cons, hink, isSpace_of_isLineEnd hch]
      rfl
    · cases hlines : linesFrom false s with
      | nil =>
        have hink : ink s = 0 := by rw [← ink_linesFrom false, hlines]; rfl
        exact ⟨s, rfl, ink_eq_zero.1 hink⟩
      | cons line lines =>
        rw [hlines] at h ih
        obtain ⟨b, hs, hb⟩ := ih h
        exact ⟨b, congrArg (ch :: ·) hs, hb⟩

end Str

end RvgGateway
