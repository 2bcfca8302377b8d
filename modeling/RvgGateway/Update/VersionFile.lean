import RvgGateway.Lib.Dict
import RvgGateway.Lib.Lines
import RvgGateway.Lib.ReadBack

/-!
# The version file

After an update `_write_local_version_file` of `updater.py` writes the version and the description
that the manifest gives into `version.txt`, one `key=value` line for each, and
`get_current_version_info` reads the file line by line.  The writer escapes nothing, while the
description is whatever text the manifest has.

* `parseKvText` : `_parse_kv_text`; `writeLocalVersionFile`, `getCurrentVersionInfo` : the two sides.
* `readBack_or_kept` : when the disk fails, what is read stays as it was.
* `getCurrentVersionInfo_write_iff` : **what is written is read back** exactly when the description
  has nothing behind its first line and does not stand in quotes.
-/

namespace RvgGateway

namespace Update

/-! ### Reading -/

/-- `len(v) >= 2 and v[0] == v[-1] and v[0] in ("'", '"')`. -/
def Wrapped (v : List Char) : Prop :=
  2 ≤ v.length ∧ v.head? = v.getLast? ∧ (v.head? = some '\x27' ∨ v.head? = some '"')

instance : DecidablePred Wrapped := fun _ => inferInstanceAs (Decidable (_ ∧ _ ∧ _))

/-- A value without the quotes around it. -/
def unquote (v : String) : String :=
  if Wrapped v.toList then String.ofList v.toList.tail.dropLast else v

/-- What a line of `_parse_kv_text` enters.  The keys that are read, `version` and `description`, are
not what `lower` makes of a letter outside of ASCII. -/
def parseKvLine (line : List Char) : Option (String × String) :=
  let line := (Str.strip (String.ofList line)).toList
  if line = [] ∨ line.head? = some '#' then none
  else if '=' ∉ line then none
  else
    let k := Str.lower (Str.strip (String.ofList (line.takeWhile (· ≠ '='))))
    let v := Str.strip (String.ofList (line.dropWhile (· ≠ '=')).tail)
    some (k, unquote v)

/-- `_parse_kv_text`. -/
def parseKvText (text : String) : Dict String String :=
  Dict.collect parseKvLine (Str.splitlines text)

/-- `version.txt` and `version.tmp`, as far as they exist and can be read. -/
structure VersionFiles where
  txt : Option Bytes
  tmp : Option Bytes

/-- What `get_current_version_info` returns. -/
structure VersionInfo where
  version : String
  description : String
deriving DecidableEq

/-- `read_text(encoding="utf-8")` of a file, `none` when it raises. -/
def readText (b : Bytes) : Option String :=
  (Bytes.decodeStrict b).map fun text => Str.universalNewlines (String.ofList text)

/-- `get_current_version_info`. -/
def getCurrentVersionInfo (f : VersionFiles) : VersionInfo :=
  match f.txt.bind readText with
  | some text =>
    let kv := parseKvText text
    ⟨(kv.get? "version").getD "نامشخص", (kv.get? "description").getD ""⟩
  | none => ⟨"نامشخص", ""⟩

/-! ### Writing -/

/-- What the disk does while `version.txt` is written; an error is the text of the exception. -/
structure VersionDisk where
  /-- `write_text` opens and empties the temporary file. -/
  openFile : Except String Unit
  /-- `write_text` writes into it; when that fails, so many bytes are in the file. -/
  fill : Except (String × ℕ) Unit
  /-- `os.replace`. -/
  replace : Except String Unit

/-- A disk on which nothing fails. -/
def VersionDisk.works : VersionDisk := ⟨.ok (), .ok (), .ok ()⟩

/-- `f"version={version}\ndescription={description}\n"`. -/
def versionText (version description : String) : String :=
  "version=" ++ version ++ "\ndescription=" ++ description ++ "\n"

/-- The line of the update log about a failure. -/
def versionFailure (e : String) : String := "⚠️ خطا در نوشتن version.txt محلی: " ++ e

/-- `_write_local_version_file`, with the lines that it logs. -/
def writeLocalVersionFile (disk : VersionDisk) (version description : String) (f : VersionFiles) :
    VersionFiles × List String :=
  let content := Str.encode (versionText version description)
  match disk.openFile with
  | .error e => (f, [versionFailure e])
  | .ok () =>
    match disk.fill with
    | .error (e, n) => ({ f with tmp := some (content.take n) }, [versionFailure e])
    | .ok () =>
      match disk.replace with
      | .error e => ({ f with tmp := some content }, [versionFailure e])
      | .ok () => (⟨some content, none⟩, [])

/-- The file holds the whole new text, or a failure is logged and the file is as it was. -/
theorem writeLocalVersionFile_cases (disk : VersionDisk) (version description : String)
    (f : VersionFiles) :
    writeLocalVersionFile disk version description f =
        (⟨some (Str.encode (versionText version description)), none⟩, []) ∨
      ∃ e, (writeLocalVersionFile disk version description f).2 = [versionFailure e] ∧
        getCurrentVersionInfo (writeLocalVersionFile disk version description f).1 =
          getCurrentVersionInfo f := by
  unfold writeLocalVersionFile
  dsimp only
  cases disk.openFile with
  | error e => exact .inr ⟨e, rfl, rfl⟩
  | ok =>
    cases disk.fill with
    | error e => exact .inr ⟨e.1, rfl, rfl⟩
    | ok =>
      cases disk.replace with
      | error e => exact .inr ⟨e, rfl, rfl⟩
      | ok => exact .inl rfl

/-! ### The lines of the file -/

section Lines

variable {version description : String}

/-- A version that stands on one line and is not in quotes. -/
structure VersionText (version : String) : Prop where
  nonempty : version ≠ ""
  stripped : Str.strip version = version
  single_line : ∀ ch ∈ version.toList, Str.isLineEnd ch = false
  unwrapped : ¬ Wrapped version.toList

/-- The first line of the description. -/
def firstLine (description : String) : List Char := (Str.splitlines description).headD []

theorem exists_headD_newline (s : List Char) :
    (Str.linesFrom false (s ++ ['\n'])).headD [] = (Str.linesFrom false s).headD [] ∧
      ∀ line ∈ (Str.linesFrom false (s ++ ['\n'])).tail,
        line ∈ (Str.linesFrom false s).tail ∨ line = [] := by
  rcases Str.linesFrom_newline false s with h | h
  · rw [h]
    exact ⟨rfl, fun line hline => .inl hline⟩
  · rw [h]
    cases Str.linesFrom false s with
    | nil => exact ⟨rfl, fun line hline => absurd hline List.not_mem_nil⟩
    | cons first rest =>
      refine ⟨rfl, fun line hline => ?_⟩
      rcases List.mem_append.1 hline with hrest | hlast
      · exact .inl hrest
      · exact .inr (List.mem_singleton.1 hlast)

/-- The line of the version, the line of the description, and what of the description is behind
it. -/
theorem splitlines_versionText (hline : ∀ ch ∈ version.toList, Str.isLineEnd ch = false)
    (description : String) :
    ∃ rest, Str.splitlines (versionText version description) =
        ("version".toList ++ '=' :: version.toList) ::
          ("description".toList ++ '=' :: firstLine description) :: rest ∧
      ∀ line ∈ rest, line ∈ (Str.splitlines description).tail ∨ line = [] := by
  obtain ⟨hfirst, hrest⟩ := exists_headD_newline description.toList
  have htext : (versionText version description).toList =
      ("version=".toList ++ version.toList) ++
        '\n' :: ("description=".toList ++ (description.toList ++ ['\n'])) := by
    simp [versionText]
  have hversion : ∀ ch ∈ "version=".toList ++ version.toList, Str.isLineEnd ch = false := by
    intro ch hch
    rcases List.mem_append.1 hch with h | h
    · exact Str.isLineEnd_of_all (by decide) ch h
    · exact hline ch h
  have hdescription : ∀ ch ∈ "description=".toList, Str.isLineEnd ch = false :=
    Str.isLineEnd_of_all (by decide)
  refine ⟨(Str.linesFrom false (description.toList ++ ['\n'])).tail, ?_, hrest⟩
  rw [Str.splitlines, htext, Str.linesFrom_append hversion (by simp),
    Str.linesFrom_lineEnd (by decide), List.headD_cons, List.tail_cons, List.append_nil,
    decide_eq_false (by decide), Str.linesFrom_append hdescription (by decide), hfirst]
  rfl

/-! ### The entries of the lines -/

/-- A line that begins with a name and an equals sign. -/
theorem parseKvLine_entry {name : List Char} (hname : Str.Trimmed (name ++ ['=']))
    (hno : '=' ∉ name) (hfirst : name.head? ≠ some '#') (hne : name ≠ []) (x : List Char) :
    parseKvLine (name ++ '=' :: x) = some
      (Str.lower (Str.strip (String.ofList name)), unquote (Str.strip (String.ofList x))) := by
  obtain ⟨y, hline, hy⟩ := Str.exists_strip_append hname (by simp) x
  rw [List.append_assoc, List.append_assoc, List.singleton_append, List.singleton_append] at hline
  obtain ⟨htake, hdrop⟩ := Str.cut_append hno y
  have hread : ¬ (name ++ '=' :: y = [] ∨ (name ++ '=' :: y).head? = some '#') := by
    rw [List.head?_append_of_ne_nil _ hne]
    simp [hfirst]
  unfold parseKvLine
  dsimp only
  rw [hline, if_neg hread, if_neg (by simp), htake, hdrop, List.tail_cons, hy]

theorem parseKvLine_blank {line : List Char} (h : Str.Blank line) : parseKvLine line = none := by
  have hstrip : Str.strip (String.ofList line) = Str.strip "" := Str.strip_append_blank [] h
  unfold parseKvLine
  dsimp only
  rw [hstrip]
  rfl

theorem Wrapped.eq_append {v : List Char} (h : Wrapped v) :
    ∃ q mid, v = q :: (mid ++ [q]) ∧ Str.isSpace q = false := by
  obtain ⟨hlen, hends, hq⟩ := h
  cases v with
  | nil => cases hlen
  | cons q rest =>
    have hne : rest ≠ [] := by
      rintro rfl
      exact Nat.not_succ_le_self 1 hlen
    rw [List.getLast?_cons_of_ne_nil hne, List.getLast?_eq_getLast_of_ne_nil hne] at hends
    have hlast : rest.getLast hne = q := (Option.some.inj hends).symm
    have hspace : Str.isSpace q = false := by
      rcases hq with h | h
      · rw [Option.some.inj h]
        decide
      · rw [Option.some.inj h]
        decide
    refine ⟨q, rest.dropLast, ?_, hspace⟩
    conv_lhs => rw [← List.dropLast_append_getLast hne, hlast]

/-- The quotes are taken off a value, and nothing else. -/
theorem ink_unquote (v : String) :
    Str.ink (unquote v).toList + (if Wrapped v.toList then 2 else 0) = Str.ink v.toList := by
  unfold unquote
  split_ifs with h
  · obtain ⟨q, mid, hv, hq⟩ := h.eq_append
    have hmid : v.toList.tail.dropLast = mid := by
      rw [hv, List.tail_cons, List.dropLast_concat]
    rw [String.toList_ofList, hmid, hv, Str.ink_cons, Str.ink_append, Str.ink_cons, hq]
    rfl
  · rfl

/-- An entry has less in it than its line. -/
theorem ink_parseKvLine {line : List Char} {k v : String} (h : parseKvLine line = some (k, v)) :
    Str.ink v.toList < Str.ink line := by
  have hline : Str.ink (Str.strip (String.ofList line)).toList = Str.ink line := by
    rw [Str.ink_strip, String.toList_ofList]
  simp only [parseKvLine] at h
  set stripped := (Str.strip (String.ofList line)).toList with hstripped
  split_ifs at h with hskip heq
  set behind := (stripped.dropWhile (· ≠ '=')).tail with hbehind
  have hcut : Str.ink stripped = Str.ink (stripped.takeWhile (· ≠ '=')) + (Str.ink behind + 1) := by
    have hsign : Str.isSpace '=' = false := by decide
    conv_lhs => rw [Str.eq_cut heq]
    rw [Str.ink_append, Str.ink_cons, hsign, if_neg (by decide), hbehind]
  obtain ⟨-, hv⟩ := Prod.mk.inj (Option.some.inj h)
  have hquote := ink_unquote (Str.strip (String.ofList behind))
  rw [hv, Str.ink_strip, String.toList_ofList] at hquote
  omega

/-! ### Reading what was written -/

/-- The version is the one that was written, and the description is the one that was written up to
white space around it. -/
def ReadBack (version description : String) (info : VersionInfo) : Prop :=
  info.version = version ∧ Str.strip info.description = Str.strip description

/-- A description of one line that is not in quotes. -/
structure PlainDescription (description : String) : Prop where
  one_line : ∀ line ∈ (Str.splitlines description).tail, Str.Blank line
  unwrapped : ¬ Wrapped (Str.strip description).toList

theorem getCurrentVersionInfo_works (version description : String) (f : VersionFiles) :
    getCurrentVersionInfo (writeLocalVersionFile .works version description f).1 =
      ⟨((parseKvText (versionText version description)).get? "version").getD "نامشخص",
        ((parseKvText (versionText version description)).get? "description").getD ""⟩ := by
  have hread : readText (Str.encode (versionText version description)) =
      some (Str.universalNewlines (versionText version description)) := by
    rw [readText, Bytes.decodeStrict_encode, Option.map_some, String.ofList_toList]
  have hfile : (writeLocalVersionFile .works version description f).1.txt =
      some (Str.encode (versionText version description)) := rfl
  unfold getCurrentVersionInfo
  rw [hfile, Option.bind_some, hread]
  dsimp only
  rw [parseKvText, Str.splitlines_universalNewlines, ← parseKvText]

/-- What some lines enter under a key, in turn. -/
def saidBy (lines : List (List Char)) (k : String) : List String :=
  lines.filterMap fun line => Dict.entryAt k (parseKvLine line)

/-- What the file says: the version, the first line of the description, and whatever the other lines of
the description happen to say. -/
theorem exists_parseKvText (hv : VersionText version) (description : String) :
    ∃ rest : List (List Char),
      (∀ line ∈ rest, line ∈ (Str.splitlines description).tail ∨ line = []) ∧
      (parseKvText (versionText version description)).get? "version" =
        (version :: saidBy rest "version").getLast? ∧
      (parseKvText (versionText version description)).get? "description" =
        (unquote (Str.strip (String.ofList (firstLine description))) ::
          saidBy rest "description").getLast? := by
  obtain ⟨rest, hlines, hrest⟩ := splitlines_versionText hv.single_line description
  have hfirst : parseKvLine ("version".toList ++ '=' :: version.toList) =
      some ("version", version) := by
    have hvalue : unquote (Str.strip (String.ofList version.toList)) = version := by
      rw [String.ofList_toList, hv.stripped, unquote, if_neg hv.unwrapped]
    rw [parseKvLine_entry (by decide) (by decide) (by decide) (by decide), hvalue]
    rfl
  have hsecond : parseKvLine ("description".toList ++ '=' :: firstLine description) =
      some ("description", unquote (Str.strip (String.ofList (firstLine description)))) := by
    rw [parseKvLine_entry (by decide) (by decide) (by decide) (by decide)]
    rfl
  have hget : ∀ k, (parseKvText (versionText version description)).get? k =
      (saidBy (Str.splitlines (versionText version description)) k).getLast? := by
    intro k
    rw [parseKvText, Dict.get?_collect, saidBy]
  have hself : ∀ k v : String, Dict.entryAt k (some (k, v)) = some v := fun _ _ => if_pos rfl
  have hother : ∀ k k' v : String, k ≠ k' → Dict.entryAt k' (some (k, v)) = none :=
    fun _ _ _ hne => if_neg hne
  refine ⟨rest, hrest, ?_, ?_⟩
  · rw [hget, hlines, saidBy, List.filterMap_cons, List.filterMap_cons, hfirst, hsecond, hself,
      hother _ _ _ (by decide)]
    rfl
  · rw [hget, hlines, saidBy, List.filterMap_cons, List.filterMap_cons, hfirst, hsecond, hself,
      hother _ _ _ (by decide)]
    rfl

theorem strip_firstLine (h : ∀ line ∈ (Str.splitlines description).tail, Str.Blank line) :
    Str.strip (String.ofList (firstLine description)) = Str.strip description := by
  obtain ⟨b, htext, hb⟩ := Str.exists_blank_of_tail h
  rw [← Str.strip_append_blank _ hb, firstLine, Str.splitlines, ← htext, String.ofList_toList]

theorem ink_description (description : String) :
    Str.ink description.toList = Str.ink (Str.strip (String.ofList (firstLine description))).toList +
      ((Str.splitlines description).tail.map Str.ink).sum := by
  rw [← Str.ink_linesFrom false, ← Str.splitlines, Str.ink_strip, String.toList_ofList, firstLine]
  cases Str.splitlines description with
  | nil => rfl
  | cons line lines => rfl

/-- One line without quotes is read back. -/
theorem readBack_of_plain (hv : VersionText version) (hd : PlainDescription description)
    (f : VersionFiles) :
    ReadBack version description
      (getCurrentVersionInfo (writeLocalVersionFile .works version description f).1) := by
  obtain ⟨rest, hrest, hversion, hdescription⟩ := exists_parseKvText hv description
  have hnone : ∀ k, saidBy rest k = [] := by
    intro k
    refine List.filterMap_eq_nil_iff.2 fun line hline => ?_
    have hblank : Str.Blank line := by
      rcases hrest line hline with h | rfl
      · exact hd.one_line line h
      · exact Str.blank_nil
    rw [parseKvLine_blank hblank]
    rfl
  rw [getCurrentVersionInfo_works, hversion, hdescription, hnone, hnone,
    strip_firstLine hd.one_line, unquote, if_neg hd.unwrapped]
  exact ⟨rfl, Str.strip_strip description⟩

/-- Whatever the disk does, a plain description is read back, or a failure is logged and what is read
stays as it was. -/
theorem readBack_or_kept (hv : VersionText version) (hd : PlainDescription description)
    (disk : VersionDisk) (f : VersionFiles) :
    let written := writeLocalVersionFile disk version description f
    ReadBack version description (getCurrentVersionInfo written.1) ∨
      ∃ e, written.2 = [versionFailure e] ∧
        getCurrentVersionInfo written.1 = getCurrentVersionInfo f := by
  rcases writeLocalVersionFile_cases disk version description f with h | h
  · rw [h]
    exact .inl (readBack_of_plain hv hd f)
  · exact .inr h

/-- Only one line without quotes is read back: whatever is read has less in it otherwise. -/
theorem plain_of_readBack (hv : VersionText version) {f : VersionFiles}
    (h : ReadBack version description
      (getCurrentVersionInfo (writeLocalVersionFile .works version description f).1)) :
    PlainDescription description := by
  obtain ⟨rest, hrest, -, hdescription⟩ := exists_parseKvText hv description
  obtain ⟨-, hback⟩ := h
  obtain ⟨value, hvalue⟩ : ∃ value, (unquote (Str.strip (String.ofList (firstLine description))) ::
      saidBy rest "description").getLast? = some value :=
    Option.ne_none_iff_exists'.1 (mt List.getLast?_eq_none_iff.1 (List.cons_ne_nil _ _))
  rw [getCurrentVersionInfo_works, hdescription, hvalue, Option.getD_some] at hback
  have hall : Str.ink value.toList = Str.ink description.toList := by
    rw [← Str.ink_strip, hback, Str.ink_strip]
  have hlines := ink_description description
  have hquote := ink_unquote (Str.strip (String.ofList (firstLine description)))
  rcases List.mem_cons.1 (List.mem_of_getLast? hvalue) with hfirst | hmem
  · rw [← hfirst] at hquote
    have htail : ∀ line ∈ (Str.splitlines description).tail, Str.Blank line := by
      intro line hline
      have hzero : ((Str.splitlines description).tail.map Str.ink).sum = 0 := by omega
      exact Str.ink_eq_zero.1
        (List.sum_eq_zero_iff_forall_eq_nat.1 hzero _ (List.mem_map_of_mem hline))
    refine ⟨htail, fun hwrapped => ?_⟩
    rw [← strip_firstLine htail] at hwrapped
    rw [if_pos hwrapped] at hquote
    omega
  · -- an entry of another line is shorter than the line
    obtain ⟨line, hline, hentry⟩ := List.mem_filterMap.1 hmem
    have hless := ink_parseKvLine (Dict.entryAt_eq_some.1 hentry)
    have hmost : Str.ink line ≤ Str.ink description.toList := by
      rcases hrest line hline with h | rfl
      · exact Str.ink_le_of_mem_lines (List.mem_of_mem_tail h)
      · exact Nat.zero_le _
    omega

/-- **What is written is read back** exactly when the description is one line without quotes. -/
theorem getCurrentVersionInfo_write_iff (hv : VersionText version) (description : String)
    (f : VersionFiles) :
    ReadBack version description
        (getCurrentVersionInfo (writeLocalVersionFile .works version description f).1) ↔
      PlainDescription description :=
  ⟨plain_of_readBack hv, fun hd => readBack_of_plain hv hd f⟩

theorem versionText_number : VersionText "1.0" :=
  ⟨by decide, by decide, Str.isLineEnd_of_all (by decide), by decide⟩

theorem getCurrentVersionInfo_write_release :
    ReadBack "1.0" " bug fixes\n \n" (getCurrentVersionInfo
      (writeLocalVersionFile .works "1.0" " bug fixes\n \n" ⟨none, none⟩).1) :=
  (getCurrentVersionInfo_write_iff versionText_number " bug fixes\n \n" ⟨none, none⟩).2
    ⟨by decide, by decide⟩

/-- The text behind the first line of a description is read as further lines of the file, and the last
line that names the version counts. -/
theorem getCurrentVersionInfo_write_twoLines :
    VersionText "1.0" ∧
      getCurrentVersionInfo
          (writeLocalVersionFile .works "1.0" "fixes\nversion=0.1" ⟨none, none⟩).1 =
        ⟨"0.1", "fixes"⟩ ∧
      ¬ ReadBack "1.0" "fixes\nversion=0.1" (getCurrentVersionInfo
          (writeLocalVersionFile .works "1.0" "fixes\nversion=0.1" ⟨none, none⟩).1) := by
  have hread : getCurrentVersionInfo
      (writeLocalVersionFile .works "1.0" "fixes\nversion=0.1" ⟨none, none⟩).1 =
        ⟨"0.1", "fixes"⟩ := by
    rw [getCurrentVersionInfo_works]
    decide +kernel
  refine ⟨versionText_number, hread, fun hback => ?_⟩
  rw [hread] at hback
  exact absurd hback.1 (by decide)

end Lines

end Update

end RvgGateway
