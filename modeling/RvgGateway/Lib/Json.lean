import Mathlib.Data.Rat.Floor
import RvgGateway.Lib.Dict

/-!
# JSON as Python reads it

The values that `json.loads` returns, and what the operations of Python do to them when a program
does not look at their types first: truth values, `int`, access to a field, and `dict.update`, which
raises half way through a sequence that is not one of pairs.

* `Json` : the values.
* `Json.truthy`, `Json.toInt`, `Json.get?` : `bool(v)`, `int(v)` and `v.get(name)`.
* `Json.update` : `d.update(v)`.
-/

namespace RvgGateway

/-- A number with a fraction or an exponent. -/
inductive PyFloat where
  | finite (q : ℚ)
  /-- `Infinity`, `-Infinity` and numbers out of range. -/
  | infinite (neg : Bool)
  | nan
  deriving DecidableEq

/-- A value of JSON. -/
inductive Json where
  | null
  | bool (b : Bool)
  | int (n : ℤ)
  | float (x : PyFloat)
  | str (s : String)
  | arr (items : List Json)
  /-- The pairs in the order of the text; a name can occur twice. -/
  | obj (pairs : List (String × Json))

namespace Json

/-! ### Access -/

/-- The dictionary of an object, where the last pair with a name counts. -/
def dict : Json → Dict String Json
  | obj pairs => pairs.foldl (fun d p => d.set p.1 p.2) ∅
  | _ => ∅

/-- `isinstance(v, dict)`. -/
def isObj : Json → Bool
  | obj _ => true
  | _ => false

/-- `v.get(name)` of an object. -/
def get? (v : Json) (name : String) : Option Json := v.dict.get? name

/-- `v.get(name)` of an object, with a default. -/
def getD (v : Json) (name : String) (default : Json) : Json := (v.get? name).getD default

/-- `v == s` for a text `s`. -/
def isText (s : String) : Json → Bool
  | str t => t = s
  | _ => false

/-! ### Conversions -/

/-- `bool(v)`. -/
def truthy : Json → Bool
  | null => false
  | bool b => b
  | int n => n ≠ 0
  | float x => x ≠ .finite 0
  | str s => s ≠ ""
  | arr items => !items.isEmpty
  | obj pairs => !pairs.isEmpty

/-- What `int(v)` does. -/
inductive IntResult where
  | ok (n : ℤ)
  /-- It raises `TypeError` or `ValueError`. -/
  | rejected
  /-- It raises `OverflowError`. -/
  | overflow

/-- `int(v)`, where `ofStr` is `int` on strings. -/
def toInt (ofStr : String → Option ℤ) : Json → IntResult
  | int n => .ok n
  | bool b => .ok (if b then 1 else 0)
  | float (.finite q) => .ok (q.num.tdiv q.den)
  | float (.infinite _) => .overflow
  | str s =>
    match ofStr s with
    | some n => .ok n
    | none => .rejected
  | _ => .rejected

/-- A dictionary as an object. -/
theorem get?_obj_entries (d : Dict String Json) (name : String) :
    (obj d.entries).get? name = d.get? name := by
  change (d.entries.foldl (fun d p => Dict.set d p.1 p.2) ∅).get? name = _
  rw [Dict.get?_foldl_set d.nodup, Dict.get?_empty, Option.or_none]
  rfl

/-! ### Updates -/

/-- A key of a dictionary; numbers and truth values that are equal are one key. -/
inductive Key where
  | str (s : String)
  | null
  | number (q : ℚ)
  | infinite (neg : Bool)
  | nan
  deriving DecidableEq

theorem Key.str_injective : Function.Injective Key.str := fun _ _ h => Key.str.inj h

/-- A dictionary with the values of JSON. -/
abbrev Table := Dict Key Json

/-- The value as a key, if it can be hashed. -/
def key? : Json → Option Key
  | null => some .null
  | bool b => some (.number (if b then 1 else 0))
  | int n => some (.number n)
  | float (.finite q) => some (.number q)
  | float (.infinite neg) => some (.infinite neg)
  | float .nan => some .nan
  | str s => some (.str s)
  | arr _ => none
  | obj _ => none

/-- An item of a sequence as a key and a value: a list, a string or an object of length two. -/
def pair? : Json → Option (Key × Json)
  | arr [k, v] => k.key?.map fun k => (k, v)
  | str s =>
    match s.toList with
    | [k, v] => some (.str (String.ofList [k]), str (String.ofList [v]))
    | _ => none
  | obj pairs =>
    match (obj pairs).dict.keys with
    | [k, v] => some (.str k, str v)
    | _ => none
  | _ => none

/-- `d.update` of a sequence, and whether it ran to the end. -/
def updatePairs : List Json → Table → Table × Bool
  | [], d => (d, true)
  | item :: items, d =>
    match item.pair? with
    | some p => updatePairs items (d.set p.1 p.2)
    | none => (d, false)

/-- `d.update(v)`, and whether it ran to the end; a string is a sequence of strings of length one. -/
def update : Json → Table → Table × Bool
  | obj pairs, d => (d.merge ((obj pairs).dict.mapKeys .str Key.str_injective), true)
  | arr items, d => updatePairs items d
  | str s, d => (d, s = "")
  | _, d => (d, false)

/-- `d.update(v)` runs to the end. -/
def updates : Json → Bool
  | obj _ => true
  | arr items => items.all fun item => item.pair?.isSome
  | str s => s = ""
  | _ => false

theorem updatePairs_ran (items : List Json) (d : Table) :
    (updatePairs items d).2 = items.all fun item => item.pair?.isSome := by
  induction items generalizing d with
  | nil => rfl
  | cons item items ih =>
    cases hp : item.pair? with
    | none => simp [updatePairs, hp]
    | some p => simp [updatePairs, hp, ih]

/-- Whether an update runs to the end does not depend on the dictionary. -/
theorem update_ran (v : Json) (d : Table) : (v.update d).2 = v.updates := by
  cases v with
  | arr items => exact updatePairs_ran items d
  | _ => rfl

/-- An object leaves its fields in the dictionary. -/
theorem get?_update {v : Json} {name : String} {w : Json} (h : v.get? name = some w) (d : Table) :
    (v.update d).1.get? (.str name) = some w := by
  cases v with
  | obj pairs =>
    change (d.merge _).get? _ = _
    rw [Dict.get?_merge, Dict.get?_mapKeys Key.str_injective]
    change (Option.or ((obj pairs).get? name) _) = _
    rw [h, Option.some_or]
  | _ => cases h

/-- A value with fields updates. -/
theorem updates_of_get? {v : Json} {name : String} {w : Json} (h : v.get? name = some w) :
    v.updates = true := by
  cases v with
  | obj pairs => rfl
  | _ => cases h

end Json

end RvgGateway
