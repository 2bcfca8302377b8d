import Mathlib.Logic.Function.Basic
import RvgGateway.Lib.Json
import RvgGateway.Update.Download
import RvgGateway.Update.VersionFile

/-!
# The history of updates

Beside the files of a release, `perform_update` writes two files of its own: it tries whether
`APP_DIR` can be written, with a file that it removes again, and it enters what came of the update
into `update_history.json`.  The history is read, changed and written in place: a write that breaks
off leaves a front part of it, which the next call cannot read and starts over from.

* `checkWritable` : `_check_writable`.
* `saveUpdateHistoryEntry` : `_save_update_history_entry`.
* `saveUpdateHistoryEntry_apply` : no other file is touched, and this one gets a front part of a
  history that begins with the entry.
-/

namespace RvgGateway

namespace Update

open Paths (Path)

/-- The files under their resolved paths. -/
abbrev Files := Path → Option Bytes

/-- Where the panel is installed, and how Python reads and writes JSON. -/
structure Setup where
  app : AppDir
  /-- `DATA_DIR`, resolved. -/
  data : Path
  /-- `json.loads`, `none` when it raises. -/
  loads : String → Option Json
  /-- `json.dumps(v, ensure_ascii=False, indent=2)`. -/
  dumps : Json → String
  /-- A value that is not a text, in an f-string. -/
  format : Json → String

/-- A value in an f-string. -/
def Setup.formatted (u : Setup) : Json → String
  | .str s => s
  | v => u.format v

/-- `HISTORY_FILE`. -/
def Setup.historyPath (u : Setup) : Path := u.data ++ ["update_history.json".toList]

/-! ### The test file -/

/-- `APP_DIR / ".rvg_write_test"`. -/
def probePath (d : AppDir) : Path := d.path ++ [".rvg_write_test".toList]

/-- What the disk does in `_check_writable`; an error is the text of the exception. -/
structure ProbeDisk where
  openFile : Except String Unit
  /-- When it fails, so many bytes are in the file. -/
  fill : Except (String × ℕ) Unit
  unlink : Except String Unit

/-- `_check_writable`: the error, if there is one, and the files. -/
def checkWritable (d : AppDir) (disk : ProbeDisk) (files : Files) : Option String × Files :=
  match disk.openFile with
  | .error e => (some e, files)
  | .ok () =>
    match disk.fill with
    | .error (e, n) =>
      (some e, Function.update files (probePath d) (some ((Bytes.ascii "ok").take n)))
    | .ok () =>
      match disk.unlink with
      | .error e => (some e, Function.update files (probePath d) (some (Bytes.ascii "ok")))
      | .ok () => (none, Function.update files (probePath d) none)

/-- Only the test file is touched. -/
theorem checkWritable_apply {d : AppDir} {p : Path} (hp : p ≠ probePath d) (disk : ProbeDisk)
    (files : Files) : (checkWritable d disk files).2 p = files p := by
  unfold checkWritable
  cases disk.openFile with
  | error e => rfl
  | ok =>
    cases disk.fill with
    | error e => exact Function.update_of_ne hp _ _
    | ok =>
      cases disk.unlink with
      | error e => exact Function.update_of_ne hp _ _
      | ok => exact Function.update_of_ne hp _ _

/-! ### The history -/

/-- How an update has ended. -/
inductive HistoryStatus where
  | err (error : String)
  | ok (note : Option String)

/-- An entry of the history. -/
structure HistoryEntry where
  /-- `time.time()`. -/
  time : PyFloat
  fromVersion : String
  toVersion : Json
  description : Json
  status : HistoryStatus

/-- The dictionary of an entry. -/
def HistoryEntry.json (e : HistoryEntry) : Json :=
  .obj <|
    [("time", .float e.time), ("from_version", .str e.fromVersion), ("to_version", e.toVersion),
      ("description", e.description)] ++
    match e.status with
    | .err error => [("status", .str "err"), ("error", .str error)]
    | .ok note => [("status", .str "ok"), ("note", (note.map Json.str).getD .null)]

/-- What the disk does in `_save_update_history_entry`. -/
structure HistoryDisk where
  mkdir : Except String Unit
  /-- The file can be read, if it exists. -/
  readable : Bool
  openFile : Except String Unit
  /-- When it fails, so many bytes are in the file. -/
  fill : Except (String × ℕ) Unit

/-- `load_update_history`. -/
def loadUpdateHistory (u : Setup) (readable : Bool) (files : Files) : List Json :=
  if readable then
    match ((files u.historyPath).bind readText).bind u.loads with
    | some (.arr hist) => hist
    | _ => []
  else []

/-- The number of entries that are kept. -/
def historyMax : ℕ := 200

/-- `_save_update_history_entry`. -/
def saveUpdateHistoryEntry (u : Setup) (disk : HistoryDisk) (entry : HistoryEntry) (files : Files) :
    Files :=
  match disk.mkdir with
  | .error _ => files
  | .ok () =>
    let hist := (entry.json :: loadUpdateHistory u disk.readable files).take historyMax
    let text := Str.encode (u.dumps (.arr hist))
    match disk.openFile with
    | .error _ => files
    | .ok () =>
      match disk.fill with
      | .error (_, n) => Function.update files u.historyPath (some (text.take n))
      | .ok () => Function.update files u.historyPath (some text)

/-- The bytes are a front part of a history that begins with the entry. -/
def HistoryFront (u : Setup) (entry : HistoryEntry) (b : Bytes) : Prop :=
  ∃ rest : List Json, rest.length < historyMax ∧
    b <+: Str.encode (u.dumps (.arr (entry.json :: rest)))

/-- A file is as it was, or is the history and begins with the entry as far as it goes. -/
theorem saveUpdateHistoryEntry_apply (u : Setup) (disk : HistoryDisk) (entry : HistoryEntry)
    (files : Files) (p : Path) :
    saveUpdateHistoryEntry u disk entry files p = files p ∨
      p = u.historyPath ∧ ∃ b, HistoryFront u entry b ∧
        saveUpdateHistoryEntry u disk entry files p = some b := by
  have hwrites : ∀ b, HistoryFront u entry b →
      Function.update files u.historyPath (some b) p = files p ∨
        p = u.historyPath ∧ ∃ b', HistoryFront u entry b' ∧
          Function.update files u.historyPath (some b) p = some b' := by
    intro b hb
    by_cases hp : p = u.historyPath
    · subst hp
      exact .inr ⟨rfl, b, hb, Function.update_self _ _ _⟩
    · exact .inl (Function.update_of_ne hp _ _)
  have hfront : ∀ n b, b <+: Str.encode (u.dumps (.arr ((entry.json ::
      loadUpdateHistory u disk.readable files).take (n + 1)))) → n < historyMax →
        HistoryFront u entry b := by
    intro n b hb hn
    rw [List.take_succ_cons] at hb
    exact ⟨_, (List.length_take_le _ _).trans_lt hn, hb⟩
  unfold saveUpdateHistoryEntry
  cases disk.mkdir with
  | error e => exact .inl rfl
  | ok =>
    dsimp only
    cases disk.openFile with
    | error e => exact .inl rfl
    | ok =>
      dsimp only
      cases disk.fill with
      | error e => exact hwrites _ (hfront 199 _ (List.take_prefix _ _) (by decide))
      | ok => exact hwrites _ (hfront 199 _ List.prefix_rfl (by decide))

end Update

end RvgGateway
