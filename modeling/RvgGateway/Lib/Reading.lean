import Mathlib.Data.List.Induction
import RvgGateway.Lib.Text

/-!
# Reading by position

A byte string is read with `b[i]`, which raises an `IndexError` behind the end, with `b[i:j]`, which
is merely short there, and with `struct.unpack`, which raises when the slice it is given does not
have the width of its format.

* `Bytes.drop_index`, `Bytes.drop_slice` : what stands at a position is the byte or the slice read
  there, and what stands behind it.
* `Bytes.hexGroups_of_le`, `Bytes.hexGroups_of_lt` : groups of four digits can be read exactly from
  a byte string that is long enough.
-/

namespace RvgGateway

/-- What ends a parse: a refusal of the parser's own, or what the reading of a position raises. -/
inductive Fault where
  /-- The exception of the parser, with its text. -/
  | refused (msg : String)
  | indexError
  /-- `struct.error`. -/
  | structError
  deriving DecidableEq, Repr

theorem toOption_bind {ε α β : Type} (x : Except ε α) (f : α → Except ε β) :
    (x >>= f).toOption = x.toOption >>= fun a => (f a).toOption := by
  cases x with
  | error e => rfl
  | ok a => rfl

theorem ok_of_toOption {ε α : Type} {x : Except ε α} {a : α} (h : x.toOption = some a) :
    x = .ok a := by
  cases x with
  | error e => cases h
  | ok b => cases h; rfl

namespace Bytes

/-- `b[i]`. -/
def index (b : Bytes) (i : ℕ) : Except Fault UInt8 :=
  match b[i]? with
  | some x => .ok x
  | none => .error .indexError

/-- `struct.unpack` of one big-endian number of `w` bytes. -/
def unpackBE (w : ℕ) (b : Bytes) : Except Fault ℕ :=
  if b.length = w then .ok (toNatBE b) else .error .structError

/-- The groups `f"{b[i]:02x}{b[i+1]:02x}"` for the next `n` even distances from `i`. -/
def hexGroups (b : Bytes) : ℕ → ℕ → Except Fault (List String)
  | _, 0 => .ok []
  | i, n + 1 => do
    let x ← index b i
    let y ← index b (i + 1)
    let groups ← hexGroups b (i + 2) n
    .ok ((hex2 x ++ hex2 y) :: groups)

variable {b : Bytes} {i n w : ℕ}

theorem index_of_lt (h : i < b.length) : index b i = .ok (b.getD i 0) := by
  rw [index, List.getD_eq_getElem?_getD, List.getElem?_eq_getElem h]
  rfl

theorem index_of_le (h : b.length ≤ i) : index b i = .error .indexError := by
  rw [index, List.getElem?_eq_none h]

theorem toOption_index (b : Bytes) (i : ℕ) : (index b i).toOption = b[i]? := by
  unfold index
  cases b[i]? with
  | none => rfl
  | some x => rfl

theorem unpackBE_of_length (h : b.length = w) : unpackBE w b = .ok (toNatBE b) := if_pos h

/-- A byte string is the encoding of its number in as many bytes. -/
theorem ofNatBE_toNatBE (b : Bytes) : ofNatBE b.length (toNatBE b) = b := by
  induction b using List.reverseRecOn with
  | nil => rfl
  | append_singleton b x ih =>
    have hnum : toNatBE (b ++ [x]) = toNatBE b * 256 + x.toNat := by
      rw [toNatBE, List.foldl_append]
      rfl
    have hx := x.toNat_lt
    have hdiv : (toNatBE b * 256 + x.toNat) / 256 = toNatBE b := by omega
    have hlast : UInt8.ofNat (toNatBE b * 256 + x.toNat) = x := by
      apply UInt8.toNat_inj.1
      rw [UInt8.toNat_ofNat']
      omega
    rw [List.length_append, List.length_singleton, ofNatBE, hnum, hdiv, ih, hlast]

/-! ### What stands at a position -/

theorem drop_index (h : i < b.length) : b.drop i = b.getD i 0 :: b.drop (i + 1) := by
  rw [List.getD_eq_getElem?_getD, List.getElem?_eq_getElem h, List.drop_eq_getElem_cons h]
  rfl

theorem drop_slice (b : Bytes) (i n : ℕ) : b.drop i = slice b i (i + n) ++ b.drop (i + n) := by
  rw [slice, Nat.add_sub_cancel_left, ← List.drop_drop, List.take_append_drop]

theorem length_slice (b : Bytes) (i n : ℕ) :
    (slice b i (i + n)).length = min n (b.length - i) := by
  rw [slice, Nat.add_sub_cancel_left, List.length_take, List.length_drop]

theorem length_slice_of_le (h : i + n ≤ b.length) : (slice b i (i + n)).length = n := by
  rw [length_slice]
  omega

/-- A slice of full length does not reach behind the end. -/
theorem le_of_length_slice (h : (slice b i (i + n)).length = n) (hn : 0 < n) :
    i + n ≤ b.length := by
  rw [length_slice] at h
  omega

/-! ### Groups of hexadecimal digits -/

/-- Groups that are all there. -/
theorem hexGroups_of_le (h : i + 2 * n ≤ b.length) :
    hexGroups b i n = .ok (colonHex.groups ((b.drop i).take (2 * n))) := by
  induction n generalizing i with
  | zero => rfl
  | succ n ih =>
    have hi : i < b.length := by omega
    have hi' : i + 1 < b.length := by omega
    have hrest : hexGroups b (i + 2) n = .ok (colonHex.groups ((b.drop (i + 2)).take (2 * n))) :=
      ih (by omega)
    rw [hexGroups, index_of_lt hi, index_of_lt hi', hrest, drop_index hi, drop_index hi']
    rfl

/-- A group that is not there raises. -/
theorem hexGroups_of_lt (hi : i ≤ b.length) (h : b.length < i + 2 * n) :
    hexGroups b i n = .error .indexError := by
  induction n generalizing i with
  | zero => omega
  | succ n ih =>
    by_cases h0 : i < b.length
    · by_cases h1 : i + 1 < b.length
      · have hrest : hexGroups b (i + 2) n = .error .indexError := ih (by omega) (by omega)
        rw [hexGroups, index_of_lt h0, index_of_lt h1, hrest]
        rfl
      · rw [hexGroups, index_of_lt h0, index_of_le (Nat.not_lt.1 h1)]
        rfl
    · rw [hexGroups, index_of_le (Nat.not_lt.1 h0)]
      rfl

end Bytes

end RvgGateway
