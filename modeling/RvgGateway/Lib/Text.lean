import RvgGateway.Lib.Bytes

/-!
# Text in byte strings

The conversions between bytes and text that headers and keys go through: ASCII bytes, hexadecimal
strings as `bytes.fromhex` reads them, dotted and colon-separated addresses, and UTF-8 decoded with
invalid bytes left out (`errors="ignore"`).
-/

namespace RvgGateway

namespace Bytes

/-- The bytes of an ASCII string. -/
def ascii (s : String) : Bytes := s.toList.map fun ch => UInt8.ofNat ch.toNat

/-- The value of a hexadecimal digit. -/
def hexVal (ch : Char) : Option ℕ :=
  if '0' ≤ ch ∧ ch ≤ '9' then some (ch.toNat - '0'.toNat)
  else if 'a' ≤ ch ∧ ch ≤ 'f' then some (ch.toNat - 'a'.toNat + 10)
  else if 'A' ≤ ch ∧ ch ≤ 'F' then some (ch.toNat - 'A'.toNat + 10)
  else none

/-- ASCII white space, which `bytes.fromhex` skips between pairs of digits. -/
def isSpace (ch : Char) : Bool := ch = ' ' || ('\t' ≤ ch && ch ≤ '\r')

/-- `bytes.fromhex`. -/
def fromHex : List Char → Option Bytes
  | [] => some []
  | [ch] => if isSpace ch then some [] else none
  | ch :: ch' :: s =>
    if isSpace ch then fromHex (ch' :: s)
    else
      match hexVal ch, hexVal ch', fromHex s with
      | some x, some y, some b => some (UInt8.ofNat (x * 16 + y) :: b)
      | _, _, _ => none

/-- The lower-case hexadecimal digit of a number below sixteen. -/
def hexDigit (n : ℕ) : Char :=
  if n < 10 then Char.ofNat ('0'.toNat + n) else Char.ofNat ('a'.toNat + (n - 10))

/-- `f"{b:02x}"`. -/
def hex2 (b : UInt8) : String := String.ofList [hexDigit (b.toNat / 16), hexDigit (b.toNat % 16)]

/-- `".".join(str(x) for x in b)`. -/
def dotted (b : Bytes) : String := String.intercalate "." (b.map fun x => toString x.toNat)

/-- The bytes in pairs, as hexadecimal groups joined by colons. -/
def colonHex (b : Bytes) : String :=
  let rec groups : Bytes → List String
    | x :: y :: b => (hex2 x ++ hex2 y) :: groups b
    | _ => []
  String.intercalate ":" (groups b)

/-! ### UTF-8 -/

/-- A continuation byte. -/
def isCont (b : UInt8) : Bool := 0x80 ≤ b && b < 0xC0

/-- For the first byte of a sequence: the bits it contributes, the number of bytes behind it, and
the least code point that needs that many. -/
def utf8Lead (b : UInt8) : Option (ℕ × ℕ × ℕ) :=
  if b < 0x80 then some (b.toNat, 0, 0)
  else if 0xC0 ≤ b ∧ b < 0xE0 then some (b.toNat - 0xC0, 1, 0x80)
  else if 0xE0 ≤ b ∧ b < 0xF0 then some (b.toNat - 0xE0, 2, 0x800)
  else if 0xF0 ≤ b ∧ b < 0xF8 then some (b.toNat - 0xF0, 3, 0x10000)
  else none

/-- The character at the front of a byte string, and how many bytes behind the first it takes. -/
def utf8Head (b : UInt8) (rest : Bytes) : Option (Char × ℕ) := do
  let (bits, n, least) ← utf8Lead b
  let tail := rest.take n
  let code := tail.foldl (fun k x => k * 64 + (x.toNat - 0x80)) bits
  if tail.length = n ∧ tail.all isCont ∧ least ≤ code ∧ code.isValidChar then
    some (Char.ofNat code, n)
  else none

/-- The characters of `b.decode("utf-8", errors="ignore")`: a byte at which no sequence starts is
left out.  The rest of an invalid sequence consists of continuation bytes, which start none. -/
def decodeIgnore : Bytes → List Char
  | [] => []
  | b :: rest =>
    match utf8Head b rest with
    | some (ch, n) => ch :: decodeIgnore (rest.drop n)
    | none => decodeIgnore rest
termination_by b => b.length
decreasing_by
  · simp only [List.length_drop, List.length_cons]; omega
  · simp

example : decodeIgnore [0x61, 0xE2, 0x82, 0x41, 0xC3, 0xA9] = ['a', 'A', 'é'] := by decide +kernel

/-- `b.decode("utf-8")`, `none` when it raises. -/
def decodeStrict : Bytes → Option (List Char)
  | [] => some []
  | b :: rest =>
    match utf8Head b rest with
    | some (ch, n) => (decodeStrict (rest.drop n)).map (ch :: ·)
    | none => none
termination_by b => b.length
decreasing_by simp only [List.length_drop, List.length_cons]; omega

/-- `b[i:j]`. -/
def slice (b : Bytes) (i j : ℕ) : Bytes := (b.drop i).take (j - i)

end Bytes

/-! ### Strings -/

namespace Str

/-- `str.isspace` of one character. -/
def isSpace (ch : Char) : Bool :=
  ('\t' ≤ ch && ch ≤ '\r') || ('\x1c' ≤ ch && ch ≤ ' ') || ch = '\u0085' || ch = '\u00a0' ||
    ch = '\u1680' || ('\u2000' ≤ ch && ch ≤ '\u200a') || ch = '\u2028' || ch = '\u2029' ||
    ch = '\u202f' || ch = '\u205f' || ch = '\u3000'

/-- `s.strip()`. -/
def strip (s : String) : String :=
  String.ofList (((s.toList.dropWhile isSpace).reverse.dropWhile isSpace).reverse)

/-- `s.lower()` on ASCII letters. -/
def lower (s : String) : String := String.ofList (s.toList.map Char.toLower)

/-- `s.upper()` on ASCII letters. -/
def upper (s : String) : String := String.ofList (s.toList.map Char.toUpper)

end Str

end RvgGateway
