import RvgGateway.Lib.Bytes
import RvgGateway.Lib.Paths

/-!
# Files of an update

`_download_one_file` of `updater.py` writes one file of a manifest below `APP_DIR`: first to a
temporary file beside the target, which then replaces the target.  Before it does, it compares the
text of the resolved target with the text of the resolved `APP_DIR`.

* `writesInside_iff` : an entry is never written outside of `APP_DIR` exactly when its target is
  neither `APP_DIR` itself nor behind a sibling of `APP_DIR` whose name begins with that of
  `APP_DIR`.
-/

namespace RvgGateway

namespace Update

open Paths (Path Part parts resolve text Inside Sibling Plain)

/-- `APP_DIR`. -/
structure AppDir where
  text : List Char
  absolute : text.head? = some '/'

/-- `APP_DIR.resolve()`. -/
def AppDir.path (d : AppDir) : Path := resolve (parts d.text)

/-- An entry of a manifest. -/
structure Entry where
  path : String
  url : String
  sha1 : Option String

/-- What is outside of the process; an error is the text of the exception. -/
structure World where
  /-- `r.content` of a request that succeeds. -/
  get : String → Except String Bytes
  /-- `hashlib.sha1(content).hexdigest()`. -/
  sha1 : Bytes → String
  /-- `mkdir(parents=True, exist_ok=True)`. -/
  mkdir : Path → Except String Unit
  /-- `write_bytes` opens the file. -/
  openFile : Path → Except String Unit
  /-- `write_bytes` writes into the file that it has opened. -/
  fill : Path → Bytes → Except String Unit
  /-- `os.replace`. -/
  replace : Path → Path → Except String Unit

/-- `entry.get("path", "").lstrip("/")`. -/
def Entry.rel (entry : Entry) : List Char := entry.path.toList.dropWhile (· = '/')

/-- `(APP_DIR / rel).resolve()`. -/
def target (d : AppDir) (rel : List Char) : Path := resolve (parts d.text ++ parts rel)

/-- `target.with_name(target.name + ".rvgtmp")`, which raises for the root. -/
def tmpTarget (target : Path) : Except String Path :=
  match target.getLast? with
  | none => .error "PosixPath('/') has an empty name"
  | some name => .ok (target.dropLast ++ [name ++ ".rvgtmp".toList])

/-- The part of `_download_one_file` behind the checks: how it ends, and the files that were written
to. -/
def writeTarget (w : World) (content : Bytes) (target : Path) : Except String Unit × List Path :=
  match w.mkdir target.dropLast with
  | .error e => (.error e, [])
  | .ok () =>
    match tmpTarget target with
    | .error e => (.error e, [])
    | .ok tmp =>
      match w.openFile tmp with
      | .error e => (.error e, [])
      | .ok () =>
        match w.fill tmp content with
        | .error e => (.error e, [tmp])
        | .ok () =>
          match w.replace tmp target with
          | .error e => (.error e, [tmp])
          | .ok () => (.ok (), [tmp, target])

/-- `_download_one_file`: how it ends, and the files that were written to. -/
def downloadOneFile (d : AppDir) (w : World) (entry : Entry) : Except String Unit × List Path :=
  let rel := entry.rel
  if rel = [] ∨ entry.url = "" then (.error "ورودی مانیفست ناقص است (path/url خالی)", [])
  else
    let target := target d rel
    if ¬ text d.path <+: text target then
      (.error ("مسیر غیرمجاز رد شد: " ++ String.ofList rel), [])
    else
      match w.get entry.url with
      | .error e => (.error e, [])
      | .ok content =>
        if ∃ sha1 ∈ entry.sha1, sha1 ≠ "" ∧ w.sha1 content ≠ sha1 then
          (.error ("عدم تطابق sha1 برای " ++ String.ofList rel ++ " (دانلود ناقص/خراب)"), [])
        else writeTarget w content target

/-! ### Where files are written -/

/-- Whatever the network and the disk do, an entry with this path is written inside of `APP_DIR`
only. -/
def WritesInside (d : AppDir) (path : String) : Prop :=
  ∀ (w : World) (url : String) (sha1 : Option String),
    let entry : Entry := ⟨path, url, sha1⟩
    (downloadOneFile d w entry).2 ≠ [] → Inside d.path (target d entry.rel) ∧
      ∀ file ∈ (downloadOneFile d w entry).2, Inside d.path file

/-- The entry leads to `APP_DIR` itself, or through a sibling whose name begins with its name. -/
def Escapes (d : AppDir) (path : String) : Prop :=
  let rel := Entry.rel ⟨path, "", none⟩
  rel ≠ [] ∧ d.path ≠ [] ∧ (d.path = target d rel ∨ Sibling d.path (target d rel))

section Written

variable {d : AppDir} {w : World}

theorem plain_path (d : AppDir) : ∀ p ∈ d.path, Plain p :=
  Paths.plain_of_mem_resolve Paths.plain_of_mem_parts

theorem plain_target (d : AppDir) (rel : List Char) : ∀ p ∈ target d rel, Plain p := by
  refine Paths.plain_of_mem_resolve fun p hp => ?_
  rcases List.mem_append.1 hp with hp | hp
  · exact Paths.plain_of_mem_parts p hp
  · exact Paths.plain_of_mem_parts p hp

/-- The temporary file is the target under another name. -/
theorem tmpTarget_eq_ok {t tmp : Path} (h : tmpTarget t = .ok tmp) :
    ∃ front name name', t = front ++ [name] ∧ tmp = front ++ [name'] := by
  unfold tmpTarget at h
  cases hlast : t.getLast? with
  | none => rw [hlast] at h; cases h
  | some name =>
    rw [hlast] at h
    cases h
    exact ⟨t.dropLast, name, _, (List.dropLast_append_getLast? name hlast).symm, rfl⟩

/-- Only the target and its temporary file are written to, and the root is not. -/
theorem mem_writeTarget {content : Bytes} {t file : Path}
    (h : file ∈ (writeTarget w content t).2) :
    ∃ tmp, tmpTarget t = .ok tmp ∧ (file = tmp ∨ file = t) := by
  unfold writeTarget at h
  cases hmkdir : w.mkdir t.dropLast with
  | error e => rw [hmkdir] at h; cases h
  | ok _ =>
    rw [hmkdir] at h
    cases htmp : tmpTarget t with
    | error e => rw [htmp] at h; cases h
    | ok tmp =>
      rw [htmp] at h
      refine ⟨tmp, rfl, ?_⟩
      cases hopen : w.openFile tmp with
      | error e => simp only [hopen] at h; cases h
      | ok _ =>
        cases hfill : w.fill tmp content with
        | error e => simp only [hopen, hfill, List.mem_singleton] at h; exact .inl h
        | ok _ =>
          cases hreplace : w.replace tmp t with
          | error e => simp only [hopen, hfill, hreplace, List.mem_singleton] at h; exact .inl h
          | ok _ => simpa only [hopen, hfill, hreplace, List.mem_pair] using h

/-- A file is written to only behind the checks. -/
theorem mem_downloadOneFile {entry : Entry} {file : Path}
    (h : file ∈ (downloadOneFile d w entry).2) :
    entry.rel ≠ [] ∧ text d.path <+: text (target d entry.rel) ∧
      ∃ content, file ∈ (writeTarget w content (target d entry.rel)).2 := by
  unfold downloadOneFile at h
  by_cases hempty : entry.rel = [] ∨ entry.url = ""
  · rw [if_pos hempty] at h
    cases h
  rw [if_neg hempty] at h
  refine ⟨fun hrel => hempty (.inl hrel), ?_⟩
  by_cases hguard : text d.path <+: text (target d entry.rel)
  swap
  · dsimp only at h
    rw [if_pos hguard] at h
    cases h
  refine ⟨hguard, ?_⟩
  dsimp only at h
  rw [if_neg (not_not.2 hguard)] at h
  cases hget : w.get entry.url with
  | error e => rw [hget] at h; cases h
  | ok content =>
    rw [hget] at h
    dsimp only at h
    split_ifs at h
    · cases h
    · exact ⟨content, h⟩

end Written

/-- A network and a disk on which everything succeeds, but that a directory is not replaced by a
file. -/
def goodWorld (dir : Path) : World where
  get _ := .ok []
  sha1 _ := ""
  mkdir _ := .ok ()
  openFile _ := .ok ()
  fill _ _ := .ok ()
  replace _ file := if file = dir then .error "Is a directory" else .ok ()

/-- An entry that escapes is written to. -/
theorem written_of_escapes {d : AppDir} {path : String} (h : Escapes d path) :
    (downloadOneFile d (goodWorld d.path) ⟨path, "https", none⟩).2 ≠ [] := by
  obtain ⟨hrel, hroot, hescapes⟩ := h
  have hguard : text d.path <+: text (target d (Entry.rel ⟨path, "https", none⟩)) :=
    (Paths.text_isPrefix_cases (plain_path d) (plain_target d _)).2 (.inr hescapes)
  have hne : target d (Entry.rel ⟨path, "https", none⟩) ≠ [] := by
    rcases hescapes with heq | ⟨front, c, x, rest, -, -, htarget⟩
    · exact fun hnil => hroot (heq.trans hnil)
    · intro hnil
      have hlen := congrArg List.length (htarget.symm.trans hnil)
      simp at hlen
  have hname := List.getLast?_eq_some_getLast hne
  have hempty : ¬ (Entry.rel ⟨path, "https", none⟩ = [] ∨ "https" = "") := by
    rintro (hnil | hurl)
    · exact hrel hnil
    · exact absurd hurl (by decide)
  unfold downloadOneFile
  rw [if_neg hempty]
  dsimp only
  rw [if_neg (not_not.2 hguard)]
  simp only [goodWorld, Option.mem_def, reduceCtorEq, false_and, exists_false, if_false,
    writeTarget, tmpTarget, hname]
  split_ifs <;> simp

theorem not_writesInside {d : AppDir} {path : String} (h : Escapes d path) :
    ¬ WritesInside d path := by
  intro hinside
  obtain ⟨htarget, -⟩ := hinside (goodWorld d.path) "https" none (written_of_escapes h)
  obtain ⟨-, -, heq | hsibling⟩ := h
  · exact htarget.2 heq
  · exact hsibling.not_inside htarget

/-- The updater writes inside of `APP_DIR` only, whatever the network and the disk do, exactly for
the entries that do not escape. -/
theorem writesInside_iff (d : AppDir) (path : String) : WritesInside d path ↔ ¬ Escapes d path := by
  refine ⟨fun hinside hesc => not_writesInside hesc hinside, fun hesc w url sha1 hne => ?_⟩
  obtain ⟨first, hfirst⟩ := List.exists_mem_of_ne_nil _ hne
  obtain ⟨hrel, hguard, content, hwritten⟩ := mem_downloadOneFile hfirst
  obtain ⟨tmp, htmp, -⟩ := mem_writeTarget hwritten
  obtain ⟨front, name, name', htarget, rfl⟩ := tmpTarget_eq_ok htmp
  have hinside : Inside d.path (target d (Entry.rel ⟨path, url, sha1⟩)) := by
    rcases (Paths.text_isPrefix_cases (plain_path d) (plain_target d _)).1 hguard with
      hin | heq | hsibling
    · exact hin
    · refine absurd ⟨hrel, fun hroot => ?_, .inl heq⟩ hesc
      rw [← heq, hroot] at htarget
      simp at htarget
    · refine absurd ⟨hrel, fun hroot => ?_, .inr hsibling⟩ hesc
      obtain ⟨front', c, -, -, -, hfront, -⟩ := hsibling
      rw [hroot] at hfront
      simp at hfront
  refine ⟨hinside, fun file hfile => ?_⟩
  obtain ⟨-, -, content', hwritten'⟩ := mem_downloadOneFile hfile
  obtain ⟨tmp', htmp', rfl | rfl⟩ := mem_writeTarget hwritten'
  · rw [htmp] at htmp'
    cases htmp'
    rw [htarget] at hinside
    exact hinside.rename
  · exact hinside

/-- `/srv/app`. -/
def srvApp : AppDir := ⟨"/srv/app".toList, rfl⟩

/-- An entry for `../app-old/main.py` is written beside `/srv/app`. -/
theorem sibling_written :
    let entry : Entry := ⟨"../app-old/main.py", "https", none⟩
    let files := (downloadOneFile srvApp (goodWorld srvApp.path) entry).2
    files.map (fun file => String.ofList (text file)) =
        ["/srv/app-old/main.py.rvgtmp", "/srv/app-old/main.py"] ∧
      ¬ WritesInside srvApp entry.path := by
  refine ⟨by decide +kernel, not_writesInside ⟨by decide, by decide, .inr ?_⟩⟩
  exact ⟨["srv".toList], "app".toList, "-old".toList, ["main.py".toList], by decide, by decide,
    by decide⟩

end Update

end RvgGateway
