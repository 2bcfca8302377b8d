import RvgGateway.Update.History

/-!
# An update of the files

`perform_update` downloads the files of a manifest one after another, counts those that were written,
and writes `version.txt` when there is one.  A download goes to a temporary file first, which then
takes the name of its target.  What came of the update is entered into the history.

* `downloadFile` : `_download_one_file`, with the contents of the disk; it does what
  `downloadOneFile` does, and changes no other files (`downloadFile_refines`).
* `performUpdate` : `perform_update`.
* `Delivered` : a file that was downloaded completely and has the checksum of its entry.
* `update_atomic` : **after any number of updates, whatever failed, every file but the temporary ones
  and the history is as it was before or holds a complete download.**
* `updated_not_offered` : **a release that has been installed is not offered again**, if its version
  and its description are read back.
-/

namespace RvgGateway

namespace Update

open Paths (Path)

/-- The network and the disk, and what a write that fails leaves in the file it has opened. -/
structure Disk extends World where
  /-- So many bytes. -/
  kept : Path → Bytes → ℕ

/-! ### One file -/

/-- The part of `_download_one_file` behind the checks. -/
def writeFile (w : Disk) (content : Bytes) (target : Path) (files : Files) :
    Except String Unit × Files :=
  match w.mkdir target.dropLast with
  | .error e => (.error e, files)
  | .ok () =>
    match tmpTarget target with
    | .error e => (.error e, files)
    | .ok tmp =>
      match w.openFile tmp with
      | .error e => (.error e, files)
      | .ok () =>
        match w.fill tmp content with
        | .error e =>
          (.error e, Function.update files tmp (some (content.take (w.kept tmp content))))
        | .ok () =>
          match w.replace tmp target with
          | .error e => (.error e, Function.update files tmp (some content))
          | .ok () =>
            (.ok (), Function.update (Function.update files tmp none) target (some content))

/-- `_download_one_file`. -/
def downloadFile (d : AppDir) (w : Disk) (entry : Entry) (files : Files) :
    Except String Unit × Files :=
  let rel := entry.rel
  if rel = [] ∨ entry.url = "" then (.error "ورودی مانیفست ناقص است (path/url خالی)", files)
  else
    let target := target d rel
    if ¬ Paths.text d.path <+: Paths.text target then
      (.error ("مسیر غیرمجاز رد شد: " ++ String.ofList rel), files)
    else
      match w.get entry.url with
      | .error e => (.error e, files)
      | .ok content =>
        if ∃ sha1 ∈ entry.sha1, sha1 ≠ "" ∧ w.sha1 content ≠ sha1 then
          (.error ("عدم تطابق sha1 برای " ++ String.ofList rel ++ " (دانلود ناقص/خراب)"), files)
        else writeFile w content target files

/-! ### `perform_update` -/

/-- An entry of `files`, and how the network and the disk are when its turn comes. -/
structure UpdateTurn where
  disk : Disk
  /-- `entry.get('path', '?')`, in an f-string. -/
  label : String
  /-- An entry that is no object, or whose path is no text, raises. -/
  entry : Except String Entry

/-- What the loop over the files counts. -/
structure Downloaded where
  written : ℕ
  /-- `fail_msgs`, one for each file that failed. -/
  failMsgs : List String

/-- The loop over the files: what it has counted, or what it raises, and the files. -/
def downloadAll (d : AppDir) : List UpdateTurn → Downloaded → Files → Except String Downloaded × Files
  | [], n, files => (.ok n, files)
  | turn :: turns, n, files =>
    match turn.entry with
    | .error exc => (.error exc, files)
    | .ok entry =>
      match downloadFile d turn.disk entry files with
      | (.ok (), files) => downloadAll d turns { n with written := n.written + 1 } files
      | (.error err, files) =>
        downloadAll d turns { n with failMsgs := n.failMsgs ++ [turn.label ++ ": " ++ err] } files

/-- What `_fetch_manifest_from_worker` returns to `perform_update`. -/
inductive FetchedManifest where
  | error (msg : String)
  | ok (version description : Json) (files : List UpdateTurn)

/-- A call of `perform_update`: what it finds. -/
structure UpdateCall where
  probeDisk : ProbeDisk
  /-- `UPDATE_MANIFEST_URL`. -/
  url : String
  manifest : FetchedManifest
  versionDisk : VersionDisk
  historyDisk : HistoryDisk
  /-- `time.time()`, for the history. -/
  time : PyFloat

/-- `LOCAL_VERSION_FILE` and the file it is written through. -/
def versionPath (d : AppDir) : Path := d.path ++ ["version.txt".toList]

def versionTmp (d : AppDir) : Path := d.path ++ ["version.tmp".toList]

/-- The two files among all files. -/
def versionFiles (d : AppDir) (files : Files) : VersionFiles :=
  ⟨files (versionPath d), files (versionTmp d)⟩

/-- All files with these two replaced. -/
def withVersionFiles (d : AppDir) (v : VersionFiles) (files : Files) : Files :=
  Function.update (Function.update files (versionPath d) v.txt) (versionTmp d) v.tmp

/-- `"; ".join(fail_msgs[:5]) or "دانلود هیچ فایلی موفق نبود"`. -/
def noFileError (failMsgs : List String) : String :=
  let error := "; ".intercalate (failMsgs.take 5)
  if error = "" then "دانلود هیچ فایلی موفق نبود" else error

/-- `f"{failed} فایل با خطا رد شد" if failed else None`. -/
def failedNote (failed : ℕ) : Option String :=
  if failed = 0 then none else some (toString failed ++ " فایل با خطا رد شد")

/-- `perform_update`: what it returns, and the files. -/
def performUpdate (u : Setup) (c : UpdateCall) (files : Files) : Bool × Files :=
  match checkWritable u.app c.probeDisk files with
  | (some _, files) => (false, files)
  | (none, files) =>
    if c.url = "" then (false, files)
    else
      let oldVersion := (getCurrentVersionInfo (versionFiles u.app files)).version
      match c.manifest with
      | .error msg =>
        let entry := ⟨c.time, oldVersion, .str "نامشخص", .str "", .err msg⟩
        (false, saveUpdateHistoryEntry u c.historyDisk entry files)
      | .ok version description turns =>
        let entry (status : HistoryStatus) : HistoryEntry :=
          ⟨c.time, oldVersion, version, description, status⟩
        if turns.isEmpty then (false, files)
        else
          match downloadAll u.app turns ⟨0, []⟩ files with
          | (.error exc, files) =>
            (false, saveUpdateHistoryEntry u c.historyDisk (entry (.err exc)) files)
          | (.ok n, files) =>
            if n.written = 0 then
              let error := noFileError n.failMsgs
              (false, saveUpdateHistoryEntry u c.historyDisk (entry (.err error)) files)
            else
              let v := (writeLocalVersionFile c.versionDisk (u.formatted version)
                (u.formatted description) (versionFiles u.app files)).1
              let files := withVersionFiles u.app v files
              let note := failedNote n.failMsgs.length
              (true, saveUpdateHistoryEntry u c.historyDisk (entry (.ok note)) files)

/-! ### What is left on the disk -/

/-- The files through which others are written, and the test file. -/
def Temporary (d : AppDir) (p : Path) : Prop :=
  (∃ front name, p = front ++ [name ++ ".rvgtmp".toList]) ∨ p = versionTmp d ∨ p = probePath d

/-- The turn downloads this content for this file: the guard has let the entry through, and the
checksum is right if there is one. -/
structure Delivered (d : AppDir) (turn : UpdateTurn) (p : Path) (content : Bytes) : Prop where
  entry : ∃ entry, turn.entry = .ok entry ∧ p = target d entry.rel ∧
    Paths.text d.path <+: Paths.text p ∧ turn.disk.get entry.url = .ok content ∧
    ∀ sha1 ∈ entry.sha1, sha1 ≠ "" → turn.disk.sha1 content = sha1

section Files

variable {d : AppDir} {w : Disk} {content : Bytes} {t p : Path} {files files' : Files} {entry : Entry}

theorem tmpTarget_temporary (d : AppDir) {tmp : Path} (h : tmpTarget t = .ok tmp) :
    Temporary d tmp := by
  unfold tmpTarget at h
  cases hlast : t.getLast? with
  | none => rw [hlast] at h; cases h
  | some name =>
    rw [hlast] at h
    cases h
    exact .inl ⟨_, _, rfl⟩

/-- How a write can end: before the temporary file is opened, with something in it, or with the
content under the name of the target. -/
theorem writeFile_cases (w : Disk) (content : Bytes) (t : Path) (files : Files) :
    (∃ e, writeFile w content t files = (.error e, files) ∧
        writeTarget w.toWorld content t = (.error e, [])) ∨
      (∃ e tmp b, tmpTarget t = .ok tmp ∧
        writeFile w content t files = (.error e, Function.update files tmp (some b)) ∧
        writeTarget w.toWorld content t = (.error e, [tmp])) ∨
      ∃ tmp, tmpTarget t = .ok tmp ∧
        writeFile w content t files =
          (.ok (), Function.update (Function.update files tmp none) t (some content)) ∧
        writeTarget w.toWorld content t = (.ok (), [tmp, t]) := by
  unfold writeFile writeTarget
  cases w.mkdir t.dropLast with
  | error e => exact .inl ⟨e, rfl, rfl⟩
  | ok u =>
    cases tmpTarget t with
    | error e => exact .inl ⟨e, rfl, rfl⟩
    | ok tmp =>
      dsimp only
      cases w.openFile tmp with
      | error e => exact .inl ⟨e, rfl, rfl⟩
      | ok u =>
        dsimp only
        cases w.fill tmp content with
        | error e => exact .inr (.inl ⟨e, tmp, _, rfl, rfl, rfl⟩)
        | ok u =>
          dsimp only
          cases w.replace tmp t with
          | error e => exact .inr (.inl ⟨e, tmp, _, rfl, rfl, rfl⟩)
          | ok u => exact .inr (.inr ⟨tmp, rfl, rfl, rfl⟩)

/-- A file that is not temporary keeps what it had, or has got all of the content. -/
theorem writeFile_apply (hp : ¬ Temporary d p) :
    (writeFile w content t files).2 p = files p ∨
      p = t ∧ (writeFile w content t files).2 p = some content := by
  have hne : ∀ {tmp}, tmpTarget t = .ok tmp → p ≠ tmp :=
    fun htmp h => hp (h ▸ tmpTarget_temporary d htmp)
  obtain ⟨e, h, -⟩ | ⟨e, tmp, b, htmp, h, -⟩ | ⟨tmp, htmp, h, -⟩ := writeFile_cases w content t files
  · exact .inl (by rw [h])
  · exact .inl (by rw [h]; exact Function.update_of_ne (hne htmp) _ _)
  · rw [h]
    by_cases hpt : p = t
    · subst hpt
      exact .inr ⟨rfl, Function.update_self _ _ _⟩
    · refine .inl ?_
      change Function.update (Function.update files tmp none) t (some content) p = files p
      rw [Function.update_of_ne hpt, Function.update_of_ne (hne htmp)]

theorem downloadFile_apply {turn : UpdateTurn} (hentry : turn.entry = .ok entry)
    (hp : ¬ Temporary d p) (files : Files) :
    (downloadFile d turn.disk entry files).2 p = files p ∨
      ∃ content, Delivered d turn p content ∧
        (downloadFile d turn.disk entry files).2 p = some content := by
  unfold downloadFile
  by_cases hempty : entry.rel = [] ∨ entry.url = ""
  · exact .inl (by rw [if_pos hempty])
  rw [if_neg hempty]
  dsimp only
  by_cases hguard : Paths.text d.path <+: Paths.text (target d entry.rel)
  swap
  · exact .inl (by rw [if_pos hguard])
  rw [if_neg (not_not.2 hguard)]
  cases hget : turn.disk.get entry.url with
  | error e => exact .inl rfl
  | ok content =>
    dsimp only
    split_ifs with hsum
    · exact .inl rfl
    · refine (writeFile_apply hp).imp_right fun ⟨heq, hcontent⟩ => ⟨content, ⟨entry, hentry, heq, ?_,
        hget, fun sha1 hsha1 hne => ?_⟩, hcontent⟩
      · rw [heq]
        exact hguard
      · exact by_contra fun h => hsum ⟨sha1, hsha1, hne, h⟩

/-- **Refinement**: the download ends as `downloadOneFile` says, and changes only the files that it
names. -/
theorem downloadFile_refines (d : AppDir) (w : Disk) (entry : Entry) (files : Files) :
    (downloadFile d w entry files).1 = (downloadOneFile d w.toWorld entry).1 ∧
      ∀ p ∉ (downloadOneFile d w.toWorld entry).2, (downloadFile d w entry files).2 p = files p := by
  unfold downloadFile downloadOneFile
  by_cases hempty : entry.rel = [] ∨ entry.url = ""
  · rw [if_pos hempty, if_pos hempty]
    exact ⟨rfl, fun _ _ => rfl⟩
  rw [if_neg hempty, if_neg hempty]
  dsimp only
  by_cases hguard : Paths.text d.path <+: Paths.text (target d entry.rel)
  swap
  · rw [if_pos hguard, if_pos hguard]
    exact ⟨rfl, fun _ _ => rfl⟩
  rw [if_neg (not_not.2 hguard), if_neg (not_not.2 hguard)]
  cases w.get entry.url with
  | error e => exact ⟨rfl, fun _ _ => rfl⟩
  | ok content =>
    dsimp only
    split_ifs
    · exact ⟨rfl, fun _ _ => rfl⟩
    · obtain ⟨e, h, h'⟩ | ⟨e, tmp, b, -, h, h'⟩ | ⟨tmp, -, h, h'⟩ :=
        writeFile_cases w content (target d entry.rel) files
      · rw [h, h']
        exact ⟨rfl, fun _ _ => rfl⟩
      · rw [h, h']
        exact ⟨rfl, fun p hp => Function.update_of_ne (by simpa using hp) _ _⟩
      · rw [h, h']
        refine ⟨rfl, fun p hp => ?_⟩
        obtain ⟨htmp, htarget⟩ : p ≠ tmp ∧ p ≠ target d entry.rel := by simpa using hp
        exact (Function.update_of_ne htarget _ _).trans (Function.update_of_ne htmp _ _)

/-- The loop over the files. -/
theorem downloadAll_apply (hp : ¬ Temporary d p) (turns : List UpdateTurn) (n : Downloaded)
    (files : Files) :
    (downloadAll d turns n files).2 p = files p ∨
      ∃ turn ∈ turns, ∃ content, Delivered d turn p content ∧
        (downloadAll d turns n files).2 p = some content := by
  induction turns generalizing n files with
  | nil => exact .inl rfl
  | cons turn turns ih =>
    -- what the first turn leaves is kept, or a later turn delivers
    have hlater : ∀ entry, turn.entry = .ok entry → ∀ n,
        let after := downloadAll d turns n (downloadFile d turn.disk entry files).2
        after.2 p = files p ∨ ∃ turn' ∈ turn :: turns, ∃ content, Delivered d turn' p content ∧
          after.2 p = some content := by
      intro entry hentry n
      rcases ih n (downloadFile d turn.disk entry files).2 with h | ⟨turn', hturn', content, h⟩
      · rcases downloadFile_apply hentry hp files with h' | ⟨content, hdel, h'⟩
        · exact .inl (h.trans h')
        · exact .inr ⟨turn, List.mem_cons_self, content, hdel, h.trans h'⟩
      · exact .inr ⟨turn', List.mem_cons_of_mem _ hturn', content, h⟩
    unfold downloadAll
    cases hentry : turn.entry with
    | error exc => exact .inl rfl
    | ok entry =>
      dsimp only
      have h := hlater entry hentry
      cases hdown : downloadFile d turn.disk entry files with
      | mk result after =>
        rw [hdown] at h
        cases result with
        | error e => exact h _
        | ok u => exact h _

end Files

/-! ### Updates -/

/-- The turns of a call. -/
def UpdateCall.turns (c : UpdateCall) : List UpdateTurn :=
  match c.manifest with
  | .error _ => []
  | .ok _ _ turns => turns

/-- The file has the whole text of the version that the call installs. -/
def UpdateCall.Versions (u : Setup) (c : UpdateCall) (b : Bytes) : Prop :=
  ∃ version description turns, c.manifest = .ok version description turns ∧
    b = Str.encode (versionText (u.formatted version) (u.formatted description))

/-- The entry of the history tells of the call. -/
def UpdateCall.Tells (c : UpdateCall) (entry : HistoryEntry) : Prop :=
  entry.time = c.time ∧
    match c.manifest with
    | .error msg => entry.status = .err msg
    | .ok version description _ => entry.toVersion = version ∧ entry.description = description

/-- Calls one after another. -/
def performUpdates (u : Setup) (cs : List UpdateCall) (files : Files) : Files :=
  cs.foldl (fun files c => (performUpdate u c files).2) files

theorem writeLocalVersionFile_txt (disk : VersionDisk) (version description : String)
    (f : VersionFiles) :
    (writeLocalVersionFile disk version description f).1.txt = f.txt ∨
      (writeLocalVersionFile disk version description f).1.txt =
        some (Str.encode (versionText version description)) := by
  unfold writeLocalVersionFile
  dsimp only
  cases disk.openFile with
  | error e => exact .inl rfl
  | ok u =>
    dsimp only
    cases disk.fill with
    | error e => exact .inl rfl
    | ok u =>
      dsimp only
      cases disk.replace with
      | error e => exact .inl rfl
      | ok u => exact .inr rfl

theorem versionPath_ne_versionTmp (d : AppDir) : versionPath d ≠ versionTmp d := by
  intro h
  exact absurd (List.append_cancel_left h) (by decide)

theorem withVersionFiles_apply {d : AppDir} {p : Path} (hp : ¬ Temporary d p) (v : VersionFiles)
    (files : Files) :
    withVersionFiles d v files p = if p = versionPath d then v.txt else files p := by
  have hne : p ≠ versionTmp d := fun h => hp (.inr (.inl h))
  unfold withVersionFiles
  rw [Function.update_of_ne hne]
  split_ifs with h
  · rw [h, Function.update_self]
  · rw [Function.update_of_ne h]

/-- What one update can leave in a file that is not temporary. -/
inductive Leaves (u : Setup) (c : UpdateCall) (files : Files) (p : Path) : Option Bytes → Prop
  | kept : Leaves u c files p (files p)
  | delivered {turn : UpdateTurn} {content : Bytes} (hturn : turn ∈ c.turns)
      (h : Delivered u.app turn p content) : Leaves u c files p (some content)
  | version {b : Bytes} (hp : p = versionPath u.app) (hb : c.Versions u b) :
      Leaves u c files p (some b)
  | history {entry : HistoryEntry} {b : Bytes} (hp : p = u.historyPath) (htells : c.Tells entry)
      (hb : HistoryFront u entry b) : Leaves u c files p (some b)

/-- The entry in the history comes behind all else. -/
theorem Leaves.save {u : Setup} {c : UpdateCall} {files after : Files} {p : Path}
    (h : Leaves u c files p (after p)) {entry : HistoryEntry} (htells : c.Tells entry) :
    Leaves u c files p (saveUpdateHistoryEntry u c.historyDisk entry after p) := by
  rcases saveUpdateHistoryEntry_apply u c.historyDisk entry after p with heq | ⟨hp, b, hb, heq⟩
  · rwa [heq]
  · rw [heq]
    exact .history hp htells hb

/-- One update. -/
theorem performUpdate_leaves {u : Setup} {p : Path} (hp : ¬ Temporary u.app p) (c : UpdateCall)
    (files : Files) : Leaves u c files p ((performUpdate u c files).2 p) := by
  have hprobe : (checkWritable u.app c.probeDisk files).2 p = files p :=
    checkWritable_apply (fun h => hp (.inr (.inr h))) c.probeDisk files
  unfold performUpdate
  cases hcheck : checkWritable u.app c.probeDisk files with
  | mk err probed =>
  rw [hcheck] at hprobe
  have hkept : Leaves u c files p (probed p) := by
    have hsame : probed p = files p := hprobe
    rw [hsame]
    exact .kept
  cases err with
  | some e => exact hkept
  | none =>
    dsimp only
    split_ifs
    · exact hkept
    cases hmanifest : c.manifest with
    | error msg => exact hkept.save ⟨rfl, by rw [hmanifest]⟩
    | ok version description turns =>
      have hturns : c.turns = turns := by rw [UpdateCall.turns, hmanifest]
      have htells : ∀ from_ status, c.Tells ⟨c.time, from_, version, description, status⟩ :=
        fun _ _ => ⟨rfl, by rw [hmanifest]; exact ⟨rfl, rfl⟩⟩
      dsimp only
      split_ifs
      · exact hkept
      have hloop : Leaves u c files p ((downloadAll u.app turns ⟨0, []⟩ probed).2 p) := by
        rcases downloadAll_apply hp turns ⟨0, []⟩ probed with heq | ⟨turn, hturn, content, hdel, heq⟩
        · rwa [heq]
        · rw [heq]
          exact .delivered (hturns ▸ hturn) hdel
      cases hall : downloadAll u.app turns ⟨0, []⟩ probed with
      | mk result after =>
        rw [hall] at hloop
        cases result with
        | error exc => exact hloop.save (htells _ _)
        | ok n =>
          dsimp only
          split_ifs
          · exact hloop.save (htells _ _)
          · refine Leaves.save ?_ (htells _ _)
            rw [withVersionFiles_apply hp]
            split_ifs with hversion
            · rcases writeLocalVersionFile_txt c.versionDisk (u.formatted version)
                (u.formatted description) (versionFiles u.app after) with h | h
              · rw [h]
                exact hversion ▸ hloop
              · rw [h]
                exact .version hversion ⟨version, description, turns, hmanifest, rfl⟩
            · exact hloop

/-- **Updates are atomic for every file but the history.**  After any number of updates, whatever the
network and the disk did in each of them, a file that is not temporary is as it was, or holds all of
what one of the updates downloaded for it, with the checksum of the manifest if there is one, or, if
it is `version.txt`, the whole text of one of the versions, or, if it is the history, a front part of
a history that begins with one of the updates. -/
theorem update_atomic (u : Setup) (cs : List UpdateCall) (files : Files) (p : Path)
    (hp : ¬ Temporary u.app p) :
    performUpdates u cs files p = files p ∨
      (∃ c ∈ cs, ∃ turn ∈ c.turns, ∃ content, Delivered u.app turn p content ∧
        performUpdates u cs files p = some content) ∨
      (p = versionPath u.app ∧ ∃ c ∈ cs, ∃ b, c.Versions u b ∧
        performUpdates u cs files p = some b) ∨
      p = u.historyPath ∧ ∃ c ∈ cs, ∃ entry b, c.Tells entry ∧ HistoryFront u entry b ∧
        performUpdates u cs files p = some b := by
  induction cs using List.reverseRecOn with
  | nil => exact .inl rfl
  | append_singleton cs c ih =>
    have hlast : performUpdates u (cs ++ [c]) files =
        (performUpdate u c (performUpdates u cs files)).2 := by
      rw [performUpdates, List.foldl_append]
      rfl
    have hleaves := performUpdate_leaves hp c (performUpdates u cs files)
    rw [hlast]
    generalize (performUpdate u c (performUpdates u cs files)).2 p = b at hleaves
    cases hleaves with
    | kept =>
      obtain h | ⟨c', hc', rest⟩ | ⟨hversion, c', hc', rest⟩ | ⟨hhistory, c', hc', rest⟩ := ih
      · exact .inl h
      · exact .inr (.inl ⟨c', List.mem_append_left _ hc', rest⟩)
      · exact .inr (.inr (.inl ⟨hversion, c', List.mem_append_left _ hc', rest⟩))
      · exact .inr (.inr (.inr ⟨hhistory, c', List.mem_append_left _ hc', rest⟩))
    | delivered hturn hdel => exact .inr (.inl ⟨c, by simp, _, hturn, _, hdel, rfl⟩)
    | version hversion hb => exact .inr (.inr (.inl ⟨hversion, c, by simp, _, hb, rfl⟩))
    | history hhistory htells hb =>
      exact .inr (.inr (.inr ⟨hhistory, c, by simp, _, _, htells, hb, rfl⟩))

/-- A disk on which nothing fails. -/
def ProbeDisk.works : ProbeDisk := ⟨.ok (), .ok (), .ok ()⟩

def HistoryDisk.works : HistoryDisk := ⟨.ok (), true, .ok (), .ok ()⟩

/-- The panel in `/srv/app`, with its data in `/data`, and with a history that cannot be read. -/
def srvSetup : Setup := ⟨srvApp, ["data".toList], fun _ => none, fun _ => "[]", fun _ => ""⟩

/-- Two files of a release; the write of the second one breaks off. -/
def brokenRelease : UpdateCall where
  probeDisk := .works
  url := "https://updates"
  manifest := .ok (.str "9.5") (.str "fixes")
    [⟨⟨goodWorld [], fun _ _ => 0⟩, "main.py", .ok ⟨"main.py", "u", none⟩⟩,
      ⟨⟨{ goodWorld [] with fill := fun _ _ => .error "ENOSPC" }, fun _ _ => 1⟩, "updater.py",
        .ok ⟨"updater.py", "u", none⟩⟩]
  versionDisk := .works
  historyDisk := .works
  time := .finite 1000

/-- What that release leaves in `version.txt`. -/
theorem update_atomic_brokenRelease :
    let p := versionPath srvApp
    let left := performUpdates srvSetup [brokenRelease] (fun _ => none)
    left p = none ∨
      (∃ c ∈ [brokenRelease], ∃ turn ∈ c.turns, ∃ content, Delivered srvApp turn p content ∧
        left p = some content) ∨
      (p = versionPath srvApp ∧ ∃ c ∈ [brokenRelease], ∃ b, c.Versions srvSetup b ∧
        left p = some b) ∨
      p = srvSetup.historyPath ∧ ∃ c ∈ [brokenRelease], ∃ entry b, c.Tells entry ∧
        HistoryFront srvSetup entry b ∧ left p = some b :=
  update_atomic srvSetup [brokenRelease] (fun _ => none) (versionPath srvApp) (by
    rintro (⟨front, name, h⟩ | h | h)
    · have hlast := congrArg List.getLast? h
      rw [versionPath, List.getLast?_concat, List.getLast?_concat, Option.some_inj] at hlast
      have hend := congrArg List.getLast? hlast
      rw [List.getLast?_append_of_ne_nil _ (by decide)] at hend
      exact absurd hend (by decide)
    · exact versionPath_ne_versionTmp srvApp h
    · exact absurd (List.append_cancel_left h) (by decide))

/-! ### What is offered afterwards -/

section Offers

variable (digit : Char → Option ℕ)

/-- `int(p)` for the matches of `\d+`; `digit` is the value of a decimal digit, and `acc` that of the
match that is being read. -/
def versionNumbers : Option ℕ → List Char → List ℕ
  | acc, [] => acc.toList
  | acc, ch :: s =>
    match digit ch with
    | some n => versionNumbers (some (acc.getD 0 * 10 + n)) s
    | none => acc.toList ++ versionNumbers none s

/-- `_parse_version_tuple`. -/
def parseVersionTuple (v : String) : Option (List ℕ) :=
  match versionNumbers digit none v.toList with
  | [] => none
  | parts => some parts

/-- `is_newer_version`. -/
def isNewerVersion (latest current : String) : Bool :=
  if latest = "" then false
  else if current = "" || current = "نامشخص" then true
  else
    match parseVersionTuple digit latest, parseVersionTuple digit current with
    | some lv, some cv => decide (cv < lv)
    | _, _ => latest ≠ current

/-- No version is newer than itself, unless it is taken for an unknown one. -/
theorem isNewerVersion_self {v : String} (hv : v ≠ "") :
    isNewerVersion digit v v = decide (v = "نامشخص") := by
  unfold isNewerVersion
  by_cases hunknown : v = "نامشخص"
  · simp [hunknown]
  · rw [if_neg hv, if_neg (by simp [hv, hunknown])]
    cases parseVersionTuple digit v with
    | none => simp [hunknown]
    | some parts => simp [hunknown]

theorem versionFiles_withVersionFiles (d : AppDir) (v : VersionFiles) (files : Files) :
    versionFiles d (withVersionFiles d v files) = v := by
  unfold versionFiles withVersionFiles
  rw [Function.update_of_ne (versionPath_ne_versionTmp d), Function.update_self, Function.update_self]

/-- The history is not one of the two files of the version. -/
theorem versionFiles_saveUpdateHistoryEntry (u : Setup) (disk : HistoryDisk) (entry : HistoryEntry)
    (files : Files) :
    versionFiles u.app (saveUpdateHistoryEntry u disk entry files) = versionFiles u.app files := by
  have hlast : ∀ p ∈ [versionPath u.app, versionTmp u.app], p ≠ u.historyPath := by
    intro p hp h
    rw [List.mem_cons, List.mem_singleton] at hp
    rcases hp with rfl | rfl <;>
    · have hname := congrArg List.getLast? h
      simp only [versionPath, versionTmp, Setup.historyPath, List.getLast?_concat] at hname
      exact absurd hname (by decide)
  have hsame : ∀ p ∈ [versionPath u.app, versionTmp u.app],
      saveUpdateHistoryEntry u disk entry files p = files p := fun p hp =>
    (saveUpdateHistoryEntry_apply u disk entry files p).resolve_right fun h => hlast p hp h.1
  unfold versionFiles
  rw [hsame _ List.mem_cons_self, hsame _ (List.mem_cons_of_mem _ (List.mem_singleton_self _))]

/-- An update that succeeds has written `version.txt`, and the history behind it. -/
theorem performUpdate_done {u : Setup} {c : UpdateCall} {files : Files}
    {version description : Json} {turns : List UpdateTurn}
    (hmanifest : c.manifest = .ok version description turns)
    (hdone : (performUpdate u c files).1 = true) :
    ∃ after entry, (performUpdate u c files).2 = saveUpdateHistoryEntry u c.historyDisk entry
      (withVersionFiles u.app (writeLocalVersionFile c.versionDisk (u.formatted version)
        (u.formatted description) (versionFiles u.app after)).1 after) := by
  unfold performUpdate at hdone ⊢
  cases hcheck : checkWritable u.app c.probeDisk files with
  | mk err probed =>
  rw [hcheck, hmanifest] at hdone
  cases err with
  | some e => cases hdone
  | none =>
    rw [hmanifest]
    dsimp only at hdone ⊢
    split_ifs at hdone ⊢
    cases hall : downloadAll u.app turns ⟨0, []⟩ probed with
    | mk result after =>
      rw [hall] at hdone
      cases result with
      | error exc => cases hdone
      | ok n =>
        dsimp only at hdone ⊢
        split_ifs at hdone ⊢
        exact ⟨after, _, rfl⟩

/-- **An installed release is not offered again.**  When `perform_update` has returned `True`, with a
version on one line that is not in quotes, a plain description, and a disk on which `version.txt` can
be written, the version that is read back is that of the release, and the release is not newer. -/
theorem updated_not_offered (u : Setup) (c : UpdateCall) (files : Files)
    (version description : String) (turns : List UpdateTurn)
    (hmanifest : c.manifest = .ok (.str version) (.str description) turns)
    (hdisk : c.versionDisk = .works)
    (hversion : VersionText version) (hdescription : PlainDescription description)
    (hdone : (performUpdate u c files).1 = true) :
    let current := getCurrentVersionInfo (versionFiles u.app (performUpdate u c files).2)
    current.version = version ∧
      isNewerVersion digit version current.version = decide (version = "نامشخص") := by
  have hcurrent : (getCurrentVersionInfo
      (versionFiles u.app (performUpdate u c files).2)).version = version := by
    obtain ⟨after, entry, hafter⟩ := performUpdate_done hmanifest hdone
    rw [hafter, versionFiles_saveUpdateHistoryEntry, versionFiles_withVersionFiles, hdisk]
    exact (readBack_of_plain hversion hdescription (versionFiles u.app after)).1
  exact ⟨hcurrent, by rw [hcurrent, isNewerVersion_self digit hversion.nonempty]⟩

/-- The value of a digit of ASCII. -/
def asciiDigit (ch : Char) : Option ℕ :=
  if '0' ≤ ch ∧ ch ≤ '9' then some (ch.toNat - '0'.toNat) else none

example : parseVersionTuple asciiDigit "v9.14" = some [9, 14] := by decide

/-- A release of one file. -/
def smallRelease : UpdateCall where
  probeDisk := .works
  url := "https://updates"
  manifest := .ok (.str "1.0") (.str " bug fixes\n \n")
    [⟨⟨goodWorld [], fun _ _ => 0⟩, "main.py", .ok ⟨"main.py", "u", none⟩⟩]
  versionDisk := .works
  historyDisk := .works
  time := .finite 1000

theorem updated_not_offered_smallRelease :
    let current := getCurrentVersionInfo
      (versionFiles srvApp (performUpdate srvSetup smallRelease fun _ => none).2)
    current.version = "1.0" ∧
      isNewerVersion asciiDigit "1.0" current.version = decide ("1.0" = "نامشخص") :=
  updated_not_offered asciiDigit srvSetup smallRelease (fun _ => none) "1.0" " bug fixes\n \n" _ rfl
    rfl versionText_number ⟨by decide, by decide⟩ (by decide +kernel)

end Offers

end Update

end RvgGateway
