import Mathlib.Data.List.Basic
import Mathlib.Algebra.Order.Ring.Nat

/-!
# Byte strings

Byte strings are lists of `UInt8`.  This file has the fixed-width integer encodings that wire
formats use: big- and little-endian bytes of a number, and the two-byte `struct` format `">H"`,
which refuses a number that does not fit and a string that is not two bytes long.
-/

namespace RvgGateway

/-- Byte strings. -/
abbrev Bytes := List UInt8

namespace Bytes

/-- The number a byte string stands for, most significant byte first. -/
def toNatBE (b : Bytes) : ℕ := b.foldl (fun n x => n * 256 + x.toNat) 0

/-- The last `w` bytes of `n`, most significant first. -/
def ofNatBE : ℕ → ℕ → Bytes
  | 0, _ => []
  | w + 1, n => ofNatBE w (n / 256) ++ [UInt8.ofNat n]

/-- The number a byte string stands for, least significant byte first. -/
def toNatLE : Bytes → ℕ
  | [] => 0
  | x :: b => x.toNat + 256 * toNatLE b

/-- The lowest `w` bytes of `n`, least significant first. -/
def ofNatLE : ℕ → ℕ → Bytes
  | 0, _ => []
  | w + 1, n => UInt8.ofNat n :: ofNatLE w (n / 256)

/-- `struct.pack(">H", n)`: two bytes, refused when `n` does not fit. -/
def packH (n : ℕ) : Option Bytes :=
  if n < 65536 then some [UInt8.ofNat (n / 256), UInt8.ofNat n] else none

/-- `struct.unpack(">H", b)[0]`: refused unless `b` has two bytes. -/
def unpackH : Bytes → Option ℕ
  | [x, y] => some (x.toNat * 256 + y.toNat)
  | _ => none

@[simp] theorem length_ofNatBE (w n : ℕ) : (ofNatBE w n).length = w := by
  induction w generalizing n with
  | zero => rfl
  | succ w ih => simp [ofNatBE, ih]

@[simp] theorem length_ofNatLE (w n : ℕ) : (ofNatLE w n).length = w := by
  induction w generalizing n with
  | zero => rfl
  | succ w ih => simp [ofNatLE, ih]

/-- Splitting off the lowest byte of a number. -/
theorem mod_pow_succ (w n : ℕ) : n % 256 ^ (w + 1) = n % 256 + 256 * (n / 256 % 256 ^ w) := by
  rw [pow_succ', Nat.mod_mul]

theorem toNatBE_ofNatBE (w n : ℕ) : toNatBE (ofNatBE w n) = n % 256 ^ w := by
  induction w generalizing n with
  | zero => simp [ofNatBE, toNatBE, Nat.mod_one]
  | succ w ih =>
    rw [ofNatBE, toNatBE, List.foldl_append, ← toNatBE, ih, mod_pow_succ]
    simp only [List.foldl_cons, List.foldl_nil, UInt8.toNat_ofNat']
    omega

theorem toNatLE_ofNatLE (w n : ℕ) : toNatLE (ofNatLE w n) = n % 256 ^ w := by
  induction w generalizing n with
  | zero => simp [ofNatLE, toNatLE, Nat.mod_one]
  | succ w ih =>
    rw [ofNatLE, toNatLE, ih, UInt8.toNat_ofNat', mod_pow_succ]

/-- Numbers that fit in `w` bytes have different little-endian encodings. -/
theorem ofNatLE_injOn {w m n : ℕ} (hm : m < 256 ^ w) (hn : n < 256 ^ w)
    (h : ofNatLE w m = ofNatLE w n) : m = n := by
  have := congrArg toNatLE h
  rwa [toNatLE_ofNatLE, toNatLE_ofNatLE, Nat.mod_eq_of_lt hm, Nat.mod_eq_of_lt hn] at this

theorem packH_eq_some {n : ℕ} (h : n < 65536) :
    packH n = some [UInt8.ofNat (n / 256), UInt8.ofNat n] := if_pos h

theorem packH_eq_none_iff {n : ℕ} : packH n = none ↔ 65536 ≤ n := by
  simp [packH]

/-- Unpacking what was packed gives the number back. -/
theorem unpackH_packH {n : ℕ} {b : Bytes} (h : packH n = some b) : unpackH b = some n := by
  simp only [packH] at h
  split_ifs at h with hn
  cases h
  simp only [unpackH, UInt8.toNat_ofNat']
  congr 1
  omega

/-- Packing is the two-byte big-endian encoding. -/
theorem toNatBE_packH {n : ℕ} {b : Bytes} (h : packH n = some b) : toNatBE b = n := by
  simp only [packH] at h
  split_ifs at h with hn
  cases h
  simp only [toNatBE, List.foldl_cons, List.foldl_nil, UInt8.toNat_ofNat']
  omega

theorem toNatBE_pair_lt (x y : UInt8) : toNatBE [x, y] < 65536 := by
  have := x.toNat_lt
  have := y.toNat_lt
  simp only [toNatBE, List.foldl_cons, List.foldl_nil]
  omega

end Bytes

end RvgGateway
