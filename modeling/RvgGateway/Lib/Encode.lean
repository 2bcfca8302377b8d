import RvgGateway.Lib.Text

/-!
# Text that carries other text

The encodings of the standard library of Python by which texts are put into links: percent-encoding
(`urllib.parse.quote`), Base64 in both alphabets, and the string literals of JSON.  With them the
string operations that pick a protocol name apart.
-/

namespace RvgGateway

namespace Str

/-! ### Parts of strings -/

/-- `s.startswith(t)`. -/
def startsWith (t s : String) : Bool := t.toList.isPrefixOf s.toList

/-- `s.endswith(t)`. -/
def endsWith (t s : String) : Bool := t.toList.isSuffixOf s.toList

/-- `t in s`. -/
def contains (t s : String) : Bool := s.toList.tails.any t.toList.isPrefixOf

/-- `s[:n]`. -/
def take (n : ℕ) (s : String) : String := String.ofList (s.toList.take n)

/-- `s.rstrip(c)`. -/
def rstrip (c : Char) (s : String) : String :=
  String.ofList (s.toList.reverse.dropWhile (· = c)).reverse

/-- The characters behind the next `skip` ones, without the occurrences of `t`. -/
def removeL (t : List Char) : ℕ → List Char → List Char
  | _, [] => []
  | skip + 1, _ :: s => removeL t skip s
  | 0, ch :: s =>
    if t.isPrefixOf (ch :: s) then removeL t (t.length - 1) s else ch :: removeL t 0 s

/-- `s.replace(t, "")`, for a text `t` that is not empty. -/
def remove (t s : String) : String := String.ofList (removeL t.toList 0 s.toList)

/-- `s.split(c)`. -/
def split (c : Char) (s : String) : List String := (s.toList.splitOn c).map String.ofList

/-- `s.encode()`. -/
def encode (s : String) : Bytes := s.toUTF8.toList

/-! ### Percent-encoding -/

/-- The bytes that `quote` leaves alone. -/
def isSafe (b : UInt8) : Bool :=
  (0x30 ≤ b && b ≤ 0x39) || (0x41 ≤ b && b ≤ 0x5A) || (0x61 ≤ b && b ≤ 0x7A) ||
    [0x5F, 0x2E, 0x2D, 0x7E, 0x2F].contains b

/-- `f"%{b:02X}"`. -/
def percent (b : UInt8) : List Char :=
  '%' :: (Bytes.hex2 b).toList.map Char.toUpper

/-- `urllib.parse.quote`. -/
def quote (s : String) : String :=
  String.ofList ((encode s).flatMap fun b => if isSafe b then [Char.ofNat b.toNat] else percent b)

/-! ### Base64 -/

/-- The character of a number below 64, in the alphabet with these last two. -/
def base64Char (last : Char × Char) (n : ℕ) : Char :=
  if n < 26 then Char.ofNat ('A'.toNat + n)
  else if n < 52 then Char.ofNat ('a'.toNat + (n - 26))
  else if n < 62 then Char.ofNat ('0'.toNat + (n - 52))
  else if n = 62 then last.1
  else last.2

/-- Base64 with padding. -/
def base64 (last : Char × Char) : Bytes → List Char
  | a :: b :: c :: rest =>
    let n := a.toNat * 65536 + b.toNat * 256 + c.toNat
    [n / 262144, n / 4096 % 64, n / 64 % 64, n % 64].map (base64Char last) ++ base64 last rest
  | [a, b] =>
    let n := a.toNat * 65536 + b.toNat * 256
    [n / 262144, n / 4096 % 64, n / 64 % 64].map (base64Char last) ++ ['=']
  | [a] =>
    let n := a.toNat * 65536
    [n / 262144, n / 4096 % 64].map (base64Char last) ++ ['=', '=']
  | [] => []

/-- `base64.b64encode`. -/
def b64encode (s : String) : String := String.ofList (base64 ('+', '/') (encode s))

/-- `base64.urlsafe_b64encode`. -/
def urlsafeB64encode (s : String) : String := String.ofList (base64 ('-', '_') (encode s))

/-- The six bits of a character in either alphabet. -/
def base64Value (ch : Char) : Option ℕ :=
  if 'A' ≤ ch && ch ≤ 'Z' then some (ch.toNat - 65)
  else if 'a' ≤ ch && ch ≤ 'z' then some (ch.toNat - 71)
  else if '0' ≤ ch && ch ≤ '9' then some (ch.toNat + 4)
  else if ch = '+' || ch = '-' then some 62
  else if ch = '/' || ch = '_' then some 63
  else none

/-- Decode Base64 as Python does: other characters are skipped, and what stands behind a complete
padding is not read.  `quad` is the position in a group of four, `left` the bits that are left over
and `pads` the number of padding characters in a row. -/
def unbase64 : List Char → (quad left pads : ℕ) → Option Bytes
  | [], quad, _, _ => if quad = 0 then some [] else none
  | ch :: cs, quad, left, pads =>
    if ch = '=' then
      if quad < 2 then unbase64 cs quad left pads
      else if 4 ≤ quad + (pads + 1) then some []
      else unbase64 cs quad left (pads + 1)
    else
      match base64Value ch with
      | none => unbase64 cs quad left pads
      | some v =>
        if quad = 0 then unbase64 cs 1 v 0
        else if quad = 1 then
          (unbase64 cs 2 (v % 16) 0).map (UInt8.ofNat (left * 4 + v / 16) :: ·)
        else if quad = 2 then
          (unbase64 cs 3 (v % 4) 0).map (UInt8.ofNat (left * 16 + v / 4) :: ·)
        else (unbase64 cs 0 0 0).map (UInt8.ofNat (left * 64 + v) :: ·)

/-- `s.isascii()`. -/
def isAscii (s : String) : Bool := s.toList.all fun ch => ch.toNat < 128

/-- `base64.urlsafe_b64decode`, `none` when it raises. -/
def urlsafeB64decode (s : String) : Option Bytes :=
  if isAscii s then unbase64 s.toList 0 0 0 else none

example : urlsafeB64decode "YWI=" = some [0x61, 0x62] := by decide +kernel

/-! ### JSON -/

/-- A character in a JSON string, with `ensure_ascii=False`. -/
def jsonChar (ch : Char) : List Char :=
  if ch = '"' then ['\\', '"']
  else if ch = '\\' then ['\\', '\\']
  else if ch = '\n' then ['\\', 'n']
  else if ch = '\r' then ['\\', 'r']
  else if ch = '\t' then ['\\', 't']
  else if ch = '\x08' then ['\\', 'b']
  else if ch = '\x0c' then ['\\', 'f']
  else if ch.toNat < 0x20 then
    ['\\', 'u', '0', '0'] ++ (Bytes.hex2 (UInt8.ofNat ch.toNat)).toList
  else [ch]

/-- A string literal of JSON. -/
def jsonString (s : String) : String :=
  String.ofList (['"'] ++ s.toList.flatMap jsonChar ++ ['"'])

/-- `json.dumps` of an object of strings, with `separators=(",", ":")`. -/
def jsonStrings (fields : List (String × String)) : String :=
  "\x7b" ++ String.intercalate "," (fields.map fun f => jsonString f.1 ++ ":" ++ jsonString f.2) ++
    "\x7d"

example : quote "a b/é" = "a%20b/%C3%A9" := by decide +kernel

example : b64encode "ab" = "YWI=" := by decide +kernel

end Str

end RvgGateway
