import Mathlib.Data.List.DropRight
import RvgGateway.Lib.Encode

/-!
# Encodings read back

What is written in UTF-8, as hexadecimal digits or in Base64 is read back as it was.

* `Bytes.decodeStrict_encode` : `s.encode().decode()` is `s`.
* `Bytes.fromHex_hex` : `bytes.fromhex(b.hex())` is `b`.
* `Str.unbase64_base64` : Base64 is read back, whatever the alphabet.
* `Str.urlsafeB64decode_padded` : the padding can be left out, as the length of the rest tells it.
-/

namespace RvgGateway

/-! ### UTF-8 -/

/-- The bytes of an array, from a position on. -/
theorem toList_loop (a : ByteArray) (i : ℕ) (r : Bytes) :
    ByteArray.toList.loop a i r = r.reverse ++ a.data.toList.drop i := by
  fun_induction ByteArray.toList.loop a i r with
  | case1 i r h ih =>
    have hi : i < a.data.toList.length := h
    have hget : a.get! i = a.data.toList[i] := getElem!_pos a.data i h
    rw [ih, List.drop_eq_getElem_cons hi, hget, List.reverse_cons, List.append_assoc]
    rfl
  | case2 i r h =>
    have hi : a.data.toList.length ≤ i := Nat.not_lt.1 h
    rw [List.drop_eq_nil_of_le hi, List.append_nil]

theorem Str.encode_eq (s : String) : Str.encode s = s.toList.flatMap String.utf8EncodeChar := by
  have hbytes : s.toUTF8 = s.toList.utf8Encode := String.utf8Encode_toList.symm
  rw [Str.encode, hbytes, ByteArray.toList, toList_loop, List.utf8Encode]
  simp

namespace Bytes

theorem utf8Lead_one : ∀ n < 128, utf8Lead (UInt8.ofNat n) = some (n, 0, 0) := by decide

theorem utf8Lead_two : ∀ n < 32, utf8Lead (UInt8.ofNat (n + 0xc0)) = some (n, 1, 0x80) := by decide

theorem utf8Lead_three : ∀ n < 16, utf8Lead (UInt8.ofNat (n + 0xe0)) = some (n, 2, 0x800) := by
  decide

theorem utf8Lead_four : ∀ n < 8, utf8Lead (UInt8.ofNat (n + 0xf0)) = some (n, 3, 0x10000) := by
  decide

theorem isCont_ofNat : ∀ n < 64, isCont (UInt8.ofNat (n + 0x80)) = true ∧
    (UInt8.ofNat (n + 0x80)).toNat - 0x80 = n := by decide

/-- A complete sequence at the front. -/
theorem utf8Head_of_lead {b : UInt8} {tail rest : Bytes} {bits least code : ℕ} {ch : Char}
    (hlead : utf8Lead b = some (bits, tail.length, least)) (hcont : tail.all isCont = true)
    (hcode : tail.foldl (fun k x => k * 64 + (x.toNat - 0x80)) bits = code) (hle : least ≤ code)
    (hch : ch.toNat = code) : utf8Head b (tail ++ rest) = some (ch, tail.length) := by
  have hvalid : code.isValidChar := hch ▸ ch.valid
  have hback : Char.ofNat code = ch := by rw [← hch, Char.ofNat_toNat]
  unfold utf8Head
  rw [hlead]
  simp only [Option.bind_eq_bind, Option.bind_some, List.take_left', hcode]
  rw [if_pos ⟨trivial, hcont, hle, hvalid⟩, hback]

/-- The bytes of a character are a sequence for it. -/
theorem utf8Head_encodeChar (ch : Char) (rest : Bytes) :
    ∃ b tail, String.utf8EncodeChar ch = b :: tail ∧
      utf8Head b (tail ++ rest) = some (ch, tail.length) := by
  have hlt : ch.toNat < 0x110000 := by
    rcases ch.valid with h | ⟨-, h⟩
    · exact h.trans (by decide)
    · exact h
  have hval : ch.val.toNat = ch.toNat := rfl
  unfold String.utf8EncodeChar
  simp only [hval]
  generalize hv : ch.toNat = v at hlt ⊢
  split_ifs with h1 h2 h3
  · refine ⟨_, [], rfl, utf8Head_of_lead (utf8Lead_one v (by omega)) rfl rfl (Nat.zero_le _) hv⟩
  · obtain ⟨hc0, ht0⟩ := isCont_ofNat (v % 64) (by omega)
    refine ⟨_, _, rfl, utf8Head_of_lead (utf8Lead_two (v / 64 % 32) (by omega)) ?_ rfl ?_ ?_⟩
    · simp only [List.all_cons, List.all_nil, hc0, Bool.and_self]
    · simp only [List.foldl_cons, List.foldl_nil, ht0]
      omega
    · simp only [List.foldl_cons, List.foldl_nil, ht0]
      omega
  · obtain ⟨hc0, ht0⟩ := isCont_ofNat (v % 64) (by omega)
    obtain ⟨hc1, ht1⟩ := isCont_ofNat (v / 64 % 64) (by omega)
    refine ⟨_, _, rfl, utf8Head_of_lead (utf8Lead_three (v / 4096 % 16) (by omega)) ?_ rfl ?_ ?_⟩
    · simp only [List.all_cons, List.all_nil, hc0, hc1, Bool.and_self]
    · simp only [List.foldl_cons, List.foldl_nil, ht0, ht1]
      omega
    · simp only [List.foldl_cons, List.foldl_nil, ht0, ht1]
      omega
  · obtain ⟨hc0, ht0⟩ := isCont_ofNat (v % 64) (by omega)
    obtain ⟨hc1, ht1⟩ := isCont_ofNat (v / 64 % 64) (by omega)
    obtain ⟨hc2, ht2⟩ := isCont_ofNat (v / 4096 % 64) (by omega)
    refine ⟨_, _, rfl, utf8Head_of_lead (utf8Lead_four (v / 262144 % 8) (by omega)) ?_ rfl ?_ ?_⟩
    · simp only [List.all_cons, List.all_nil, hc0, hc1, hc2, Bool.and_self]
    · simp only [List.foldl_cons, List.foldl_nil, ht0, ht1, ht2]
      omega
    · simp only [List.foldl_cons, List.foldl_nil, ht0, ht1, ht2]
      omega

theorem decodeStrict_flatMap (cs : List Char) :
    decodeStrict (cs.flatMap String.utf8EncodeChar) = some cs := by
  induction cs with
  | nil => simp [decodeStrict]
  | cons ch cs ih =>
    obtain ⟨b, tail, hbytes, hhead⟩ :=
      utf8Head_encodeChar ch (cs.flatMap String.utf8EncodeChar)
    rw [List.flatMap_cons, hbytes, List.cons_append, decodeStrict, hhead]
    simp only [List.drop_left', ih, Option.map_some]

/-- A text in UTF-8 is read back. -/
theorem decodeStrict_encode (s : String) : decodeStrict (Str.encode s) = some s.toList := by
  rw [Str.encode_eq, decodeStrict_flatMap]

/-! ### Hexadecimal digits -/

theorem hexVal_hexDigit : ∀ n < 16, hexVal (hexDigit n) = some n ∧ isSpace (hexDigit n) = false := by
  decide

/-- Digits are read back. -/
theorem fromHex_hex (b : Bytes) : fromHex (b.flatMap fun x => (hex2 x).toList) = some b := by
  induction b with
  | nil => rfl
  | cons x b ih =>
    have hx := x.toNat_lt
    obtain ⟨hhigh, hspace⟩ := hexVal_hexDigit (x.toNat / 16) (by omega)
    obtain ⟨hlow, -⟩ := hexVal_hexDigit (x.toNat % 16) (by omega)
    have hbyte : x.toNat / 16 * 16 + x.toNat % 16 = x.toNat := Nat.div_add_mod' _ _
    rw [List.flatMap_cons, hex2, String.toList_ofList, List.cons_append, List.cons_append,
      List.nil_append, fromHex, hspace, hhigh, hlow, ih]
    simp only [Bool.false_eq_true, if_false, hbyte, UInt8.ofNat_toNat]

end Bytes

/-! ### Base64 -/

namespace Str

/-- The last two characters of an alphabet have the values 62 and 63. -/
def IsAlphabet (last : Char × Char) : Prop :=
  base64Value last.1 = some 62 ∧ base64Value last.2 = some 63

theorem isAlphabet_urlsafe : IsAlphabet ('-', '_') := ⟨by decide, by decide⟩

section Base64

variable {last : Char × Char} {ch : Char} {cs : List Char} {v left pads : ℕ}

theorem base64Value_base64Char (h : IsAlphabet last) {n : ℕ} (hn : n < 64) :
    base64Value (base64Char last n) = some n := by
  have hfirst : ∀ n < 62, base64Value (base64Char ('-', '_') n) = some n := by decide
  by_cases hlast : n < 62
  · have hsame : base64Char last n = base64Char ('-', '_') n := by
      unfold base64Char
      split_ifs
      · rfl
      · rfl
      · rfl
    rw [hsame, hfirst n hlast]
  · obtain rfl | rfl : n = 62 ∨ n = 63 := by omega
    · exact h.1
    · exact h.2

theorem ne_pad (h : base64Value ch = some v) : ch ≠ '=' := by
  rintro rfl
  cases h

theorem toNat_lt_of_base64Value (h : base64Value ch = some v) : ch.toNat < 128 := by
  have hle : ∀ top : Char, top.toNat < 128 → ch ≤ top → ch.toNat < 128 :=
    fun top htop hch => Nat.lt_of_le_of_lt hch htop
  unfold base64Value at h
  split_ifs at h with h1 h2 h3 h4 h5
  · exact hle 'Z' (by decide) (of_decide_eq_true (Bool.and_eq_true_iff.1 h1).2)
  · exact hle 'z' (by decide) (of_decide_eq_true (Bool.and_eq_true_iff.1 h2).2)
  · exact hle '9' (by decide) (of_decide_eq_true (Bool.and_eq_true_iff.1 h3).2)
  · rcases Bool.or_eq_true_iff.1 h4 with h | h
    · rw [of_decide_eq_true h]; decide
    · rw [of_decide_eq_true h]; decide
  · rcases Bool.or_eq_true_iff.1 h5 with h | h
    · rw [of_decide_eq_true h]; decide
    · rw [of_decide_eq_true h]; decide

/-! A character of the alphabet, at each position of its group. -/

theorem unbase64_first (h : base64Value ch = some v) :
    unbase64 (ch :: cs) 0 left pads = unbase64 cs 1 v 0 := by
  rw [unbase64, if_neg (ne_pad h), h]
  rfl

theorem unbase64_second (h : base64Value ch = some v) :
    unbase64 (ch :: cs) 1 left pads =
      (unbase64 cs 2 (v % 16) 0).map (UInt8.ofNat (left * 4 + v / 16) :: ·) := by
  rw [unbase64, if_neg (ne_pad h), h]
  rfl

theorem unbase64_third (h : base64Value ch = some v) :
    unbase64 (ch :: cs) 2 left pads =
      (unbase64 cs 3 (v % 4) 0).map (UInt8.ofNat (left * 16 + v / 4) :: ·) := by
  rw [unbase64, if_neg (ne_pad h), h]
  rfl

theorem unbase64_fourth (h : base64Value ch = some v) :
    unbase64 (ch :: cs) 3 left pads =
      (unbase64 cs 0 0 0).map (UInt8.ofNat (left * 64 + v) :: ·) := by
  rw [unbase64, if_neg (ne_pad h), h]
  rfl

/-- Base64 is read back. -/
theorem unbase64_base64 (h : IsAlphabet last) (b : Bytes) :
    unbase64 (base64 last b) 0 0 0 = some b := by
  have hval : ∀ n < 64, base64Value (base64Char last n) = some n :=
    fun n hn => base64Value_base64Char h hn
  fun_induction base64 last b with
  | case1 a b c rest n ih =>
    have ha := a.toNat_lt
    have hb := b.toNat_lt
    have hc := c.toNat_lt
    have h1 : n / 262144 * 4 + n / 4096 % 64 / 16 = a.toNat := by omega
    have h2 : n / 4096 % 64 % 16 * 16 + n / 64 % 64 / 4 = b.toNat := by omega
    have h3 : n / 64 % 64 % 4 * 64 + n % 64 = c.toNat := by omega
    simp only [List.map_cons, List.map_nil, List.cons_append, List.nil_append]
    rw [unbase64_first (hval _ (by omega)), unbase64_second (hval _ (by omega)),
      unbase64_third (hval _ (by omega)), unbase64_fourth (hval _ (by omega)), ih, h1, h2, h3]
    simp only [Option.map_some, UInt8.ofNat_toNat]
  | case2 a b n =>
    have ha := a.toNat_lt
    have hb := b.toNat_lt
    have h1 : n / 262144 * 4 + n / 4096 % 64 / 16 = a.toNat := by omega
    have h2 : n / 4096 % 64 % 16 * 16 + n / 64 % 64 / 4 = b.toNat := by omega
    simp only [List.map_cons, List.map_nil, List.cons_append, List.nil_append]
    rw [unbase64_first (hval _ (by omega)), unbase64_second (hval _ (by omega)),
      unbase64_third (hval _ (by omega)), h1, h2]
    simp [unbase64]
  | case3 a n =>
    have ha := a.toNat_lt
    have h1 : n / 262144 * 4 + n / 4096 % 64 / 16 = a.toNat := by omega
    simp only [List.map_cons, List.map_nil, List.cons_append, List.nil_append]
    rw [unbase64_first (hval _ (by omega)), unbase64_second (hval _ (by omega)), h1]
    simp [unbase64]
  | case4 => rfl

/-- Base64 is a text in the alphabet with as much padding as its length asks for. -/
theorem base64_eq_append (h : IsAlphabet last) (b : Bytes) :
    ∃ core, base64 last b = core ++ List.replicate ((4 - core.length % 4) % 4) '=' ∧
      ∀ ch ∈ core, (base64Value ch).isSome := by
  have hval : ∀ n < 64, (base64Value (base64Char last n)).isSome = true :=
    fun n hn => by rw [base64Value_base64Char h hn]; rfl
  fun_induction base64 last b with
  | case1 a b c rest n ih =>
    have ha := a.toNat_lt
    have hb := b.toNat_lt
    have hc := c.toNat_lt
    obtain ⟨core, hcore, hvalues⟩ := ih
    refine ⟨[n / 262144, n / 4096 % 64, n / 64 % 64, n % 64].map (base64Char last) ++ core, ?_, ?_⟩
    · have hlen : ([n / 262144, n / 4096 % 64, n / 64 % 64, n % 64].map (base64Char last) ++
          core).length % 4 = core.length % 4 := by
        simp only [List.length_append, List.length_map, List.length_cons, List.length_nil]
        omega
      rw [hlen, hcore, List.append_assoc]
    · intro ch hch
      rcases List.mem_append.1 hch with hch | hch
      · obtain ⟨k, hk, rfl⟩ := List.mem_map.1 hch
        simp only [List.mem_cons, List.not_mem_nil, or_false] at hk
        exact hval k (by omega)
      · exact hvalues ch hch
  | case2 a b n =>
    have ha := a.toNat_lt
    have hb := b.toNat_lt
    refine ⟨[n / 262144, n / 4096 % 64, n / 64 % 64].map (base64Char last), rfl, ?_⟩
    intro ch hch
    obtain ⟨k, hk, rfl⟩ := List.mem_map.1 hch
    simp only [List.mem_cons, List.not_mem_nil, or_false] at hk
    exact hval k (by omega)
  | case3 a n =>
    have ha := a.toNat_lt
    refine ⟨[n / 262144, n / 4096 % 64].map (base64Char last), rfl, ?_⟩
    intro ch hch
    obtain ⟨k, hk, rfl⟩ := List.mem_map.1 hch
    simp only [List.mem_cons, List.not_mem_nil, or_false] at hk
    exact hval k (by omega)
  | case4 => exact ⟨[], rfl, fun _ hch => absurd hch List.not_mem_nil⟩

theorem rstrip_append_replicate {c : Char} {core : List Char} (k : ℕ) (h : ∀ ch ∈ core, ch ≠ c) :
    (rstrip c (String.ofList (core ++ List.replicate k c))).toList = core := by
  have hcore : core.reverse.dropWhile (fun ch => decide (ch = c)) = core.reverse := by
    cases hrev : core.reverse with
    | nil => rfl
    | cons ch rest =>
      have hmem : ch ∈ core := List.mem_reverse.1 (hrev ▸ List.mem_cons_self)
      rw [List.dropWhile_cons_of_neg (by simpa using h ch hmem)]
  rw [rstrip, String.toList_ofList, String.toList_ofList, List.reverse_append,
    List.reverse_replicate, List.dropWhile_append_of_pos fun ch hch => ?_, hcore,
    List.reverse_reverse]
  exact decide_eq_true (List.eq_of_mem_replicate hch)

end Base64

/-! ### Base64 without its padding -/

/-- The text of `urlsafe_b64encode` without its padding. -/
theorem rstrip_urlsafeB64encode (s : String) :
    ∃ core, (rstrip '=' (urlsafeB64encode s)).toList = core ∧
      (urlsafeB64encode s).toList = core ++ List.replicate ((4 - core.length % 4) % 4) '=' ∧
      ∀ ch ∈ core, (base64Value ch).isSome := by
  obtain ⟨core, hcore, hvalues⟩ := base64_eq_append isAlphabet_urlsafe (encode s)
  have hpad : ∀ ch ∈ core, ch ≠ '=' := by
    intro ch hch
    obtain ⟨v, hv⟩ := Option.isSome_iff_exists.1 (hvalues ch hch)
    exact ne_pad hv
  refine ⟨core, ?_, ?_, hvalues⟩
  · rw [urlsafeB64encode, hcore, rstrip_append_replicate _ hpad]
  · rw [urlsafeB64encode, String.toList_ofList, hcore]

theorem dot_notMem_rstrip (s : String) : '.' ∉ (rstrip '=' (urlsafeB64encode s)).toList := by
  obtain ⟨core, hcore, -, hvalues⟩ := rstrip_urlsafeB64encode s
  rw [hcore]
  intro hdot
  cases hvalues '.' hdot

/-- With the padding that its length asks for it is read back. -/
theorem urlsafeB64decode_padded (s : String) :
    let core := (rstrip '=' (urlsafeB64encode s)).toList
    urlsafeB64decode (String.ofList (core ++ List.replicate ((4 - core.length % 4) % 4) '=')) =
      some (encode s) := by
  obtain ⟨core, hcore, htext, hvalues⟩ := rstrip_urlsafeB64encode s
  simp only [hcore, ← htext, String.ofList_toList]
  have hascii : isAscii (urlsafeB64encode s) = true := by
    rw [isAscii, htext, List.all_append, Bool.and_eq_true]
    refine ⟨List.all_eq_true.2 fun ch hch => decide_eq_true ?_, List.all_eq_true.2 fun ch hch => ?_⟩
    · obtain ⟨v, hv⟩ := Option.isSome_iff_exists.1 (hvalues ch hch)
      exact toNat_lt_of_base64Value hv
    · rw [List.eq_of_mem_replicate hch]
      rfl
  rw [urlsafeB64decode, if_pos hascii, urlsafeB64encode, String.toList_ofList,
    unbase64_base64 isAlphabet_urlsafe]

end Str

end RvgGateway
