import RvgGateway.Lib.Lines
import RvgGateway.Lib.ReadBack

/-!
# FakeTLS domains

A link of the MTProto proxy can name a domain that the proxy pretends to be.  What is stored or
submitted as the domain may be dirty (a URL, a link in Markdown), so `mtproto_native.py` cleans it
wherever it is used, and `client_secret` puts it in hexadecimal digits behind the secret of the proxy.

* `sanitizeDomain` : `sanitize_domain`; `clientSecret` : `client_secret`.
* `sanitizeDomain_eq` : the result is empty or a `Hostname`.
* `sanitizeDomain_sanitizeDomain` : **cleaning twice is cleaning once**.
* `eeDomain_clientSecret` : the domain is read back from the secret.
-/

namespace RvgGateway

namespace Mtproto

/-! ### Cleaning a domain -/

/-- `DEFAULT_FAKE_TLS_DOMAIN`. -/
def defaultFakeTlsDomain : String := ""

/-- The group of `re.match(r"^\[([^\]]+)\]\(.*\)$", s)`, where no newline ends `s`. -/
def markdownText : List Char → Option (List Char)
  | '[' :: s =>
    match s.dropWhile (· ≠ ']') with
    | ']' :: '(' :: rest =>
      if s.takeWhile (· ≠ ']') ≠ [] ∧ rest.getLast? = some ')' ∧ '\n' ∉ rest then
        some (s.takeWhile (· ≠ ']'))
      else none
    | _ => none
  | _ => none

/-- A letter of ASCII. -/
def isLetter (ch : Char) : Bool := ('a' ≤ ch && ch ≤ 'z') || ('A' ≤ ch && ch ≤ 'Z')

/-- `re.sub(r"^[a-zA-Z]+://", "", s)`. -/
def dropScheme (s : List Char) : List Char :=
  match s.dropWhile isLetter with
  | ':' :: '/' :: '/' :: rest => if s.takeWhile isLetter = [] then s else rest
  | _ => s

/-- The characters of a host name. -/
def isHostChar (ch : Char) : Bool := isLetter ch || ('0' ≤ ch && ch ≤ '9') || ch = '.' || ch = '-'

/-- `re.fullmatch(r"[A-Za-z0-9.\-]{1,253}", s)` and `"." in s`. -/
def isHostText (s : List Char) : Bool :=
  s ≠ [] && s.length ≤ 253 && s.all isHostChar && s.contains '.'

/-- `sanitize_domain`; a domain that is absent is empty. -/
def sanitizeDomain (raw : String) : String :=
  if raw = "" then defaultFakeTlsDomain
  else
    let s := Str.strip raw
    let s := match markdownText s.toList with
      | some text => Str.strip (String.ofList text)
      | none => s
    let s := Str.strip (String.ofList
      (((dropScheme s.toList).takeWhile (· ≠ '/')).takeWhile (· ≠ '?')))
    if !isHostText s.toList then defaultFakeTlsDomain else Str.lower s

example : sanitizeDomain "[www.Example.org](https://www.example.org)" = "www.example.org" := by
  decide +kernel

/-- The host names that `sanitize_domain` returns. -/
structure Hostname (s : String) : Prop where
  chars : ∀ ch ∈ s.toList, isHostChar ch = true
  lower : Str.lower s = s
  dot : '.' ∈ s.toList
  length_le : s.toList.length ≤ 253

theorem toNat_lt_of_isHostChar {ch : Char} (h : isHostChar ch = true) : ch.toNat < 128 := by
  have hle : ∀ {a b : Char}, a ≤ b → a.toNat ≤ b.toNat := fun hab => hab
  simp only [isHostChar, isLetter, Bool.or_eq_true, Bool.and_eq_true, decide_eq_true_eq] at h
  rcases h with ((((⟨-, h⟩ | ⟨-, h⟩) | ⟨-, h⟩) | rfl) | rfl)
  · exact Nat.lt_of_le_of_lt (hle h) (by decide)
  · exact Nat.lt_of_le_of_lt (hle h) (by decide)
  · exact Nat.lt_of_le_of_lt (hle h) (by decide)
  · decide
  · decide

theorem isHostChar_toLower {ch : Char} (h : isHostChar ch = true) :
    isHostChar ch.toLower = true ∧ ch.toLower.toLower = ch.toLower ∧ Str.isSpace ch = false := by
  have hall : ∀ n < 128, isHostChar (Char.ofNat n) = true →
      isHostChar (Char.ofNat n).toLower = true ∧
        (Char.ofNat n).toLower.toLower = (Char.ofNat n).toLower ∧
        Str.isSpace (Char.ofNat n) = false := by
    decide +kernel
  have hch := hall ch.toNat (toNat_lt_of_isHostChar h)
  rw [Char.ofNat_toNat] at hch
  exact hch h

/-- The lower-case form of a text that `sanitize_domain` accepts. -/
theorem hostname_lower {s : String} (h : isHostText s.toList = true) : Hostname (Str.lower s) := by
  simp only [isHostText, Bool.and_eq_true, decide_eq_true_eq, List.all_eq_true,
    List.contains_iff_mem] at h
  obtain ⟨⟨⟨-, hlen⟩, hchars⟩, hdot⟩ := h
  have htext : (Str.lower s).toList = s.toList.map Char.toLower := by
    rw [Str.lower, String.toList_ofList]
  refine ⟨?_, ?_, ?_, ?_⟩
  · rw [htext]
    intro ch hch
    obtain ⟨ch', hmem, rfl⟩ := List.mem_map.1 hch
    exact (isHostChar_toLower (hchars ch' hmem)).1
  · refine String.toList_inj.1 ?_
    rw [Str.lower, String.toList_ofList, htext, List.map_map]
    exact List.map_congr_left fun ch hch => (isHostChar_toLower (hchars ch hch)).2.1
  · rw [htext]
    exact List.mem_map.2 ⟨'.', hdot, by decide⟩
  · rw [htext, List.length_map]
    exact hlen

theorem sanitizeDomain_eq (raw : String) :
    sanitizeDomain raw = "" ∨ Hostname (sanitizeDomain raw) := by
  unfold sanitizeDomain
  split_ifs with hempty
  · exact .inl rfl
  · dsimp only
    split_ifs with hhost
    · exact .inl rfl
    · exact .inr (hostname_lower (by simpa using hhost))

/-! ### Clean domains stay as they are -/

theorem markdownText_eq_none {s : List Char} (h : '[' ∉ s) : markdownText s = none := by
  cases s with
  | nil => rfl
  | cons ch s =>
    have hch : ch ≠ '[' := fun heq => h (heq ▸ List.mem_cons_self)
    unfold markdownText
    split
    · rename_i heq
      exact absurd (List.cons.inj heq).1 hch
    · rfl

theorem dropScheme_eq_self {s : List Char} (h : ':' ∉ s) : dropScheme s = s := by
  unfold dropScheme
  split
  · rename_i rest heq
    have hmem : ':' ∈ s.dropWhile isLetter := by
      rw [heq]
      exact List.mem_cons_self
    exact absurd ((List.dropWhile_sublist isLetter).subset hmem) h
  · rfl

/-- A host name is clean. -/
theorem Hostname.sanitizeDomain_eq {s : String} (h : Hostname s) : sanitizeDomain s = s := by
  have hno : ∀ ch, isHostChar ch = false → ch ∉ s.toList := by
    intro ch hch hmem
    rw [h.chars ch hmem] at hch
    cases hch
  have hkeep : ∀ ch, isHostChar ch = false → s.toList.takeWhile (· ≠ ch) = s.toList := by
    intro ch hch
    refine List.takeWhile_eq_self_iff.2 fun ch' hmem => decide_eq_true ?_
    rintro rfl
    exact hno ch' hch hmem
  have hstrip : Str.strip s = s := Str.strip_of_trimmed
    ⟨fun ch hch => (isHostChar_toLower (h.chars ch (List.mem_of_mem_head? hch))).2.2,
      fun ch hch => (isHostChar_toLower (h.chars ch (List.mem_of_getLast? hch))).2.2⟩
  have hempty : s ≠ "" := by
    rintro rfl
    exact absurd h.dot List.not_mem_nil
  have hhost : isHostText s.toList = true := by
    simp only [isHostText, Bool.and_eq_true, decide_eq_true_eq, List.all_eq_true,
      List.contains_iff_mem]
    exact ⟨⟨⟨List.ne_nil_of_mem h.dot, h.length_le⟩, h.chars⟩, h.dot⟩
  unfold sanitizeDomain
  rw [if_neg hempty, hstrip]
  dsimp only
  rw [markdownText_eq_none (hno '[' (by decide))]
  dsimp only
  rw [dropScheme_eq_self (hno ':' (by decide)), hkeep '/' (by decide), hkeep '?' (by decide),
    String.ofList_toList, hstrip, hhost]
  exact h.lower

/-- Cleaning twice is cleaning once. -/
theorem sanitizeDomain_sanitizeDomain (raw : String) :
    sanitizeDomain (sanitizeDomain raw) = sanitizeDomain raw := by
  rcases sanitizeDomain_eq raw with h | h
  · rw [h]
    rfl
  · exact h.sanitizeDomain_eq

/-! ### The domain in the secret -/

/-- `s.encode().hex()`. -/
def encodeHex (s : String) : String :=
  String.ofList ((Str.encode s).flatMap fun x => (Bytes.hex2 x).toList)

/-- `client_secret`; a domain that is absent is empty. -/
def clientSecret (rawSecret domain : String) : String :=
  if domain ≠ "" then "ee" ++ rawSecret ++ encodeHex (sanitizeDomain domain) else "dd" ++ rawSecret

/-- The domain that a client reads in a secret of the `ee` form: the text whose hexadecimal digits
stand behind a raw secret of so many characters. -/
def eeDomain (rawLength : ℕ) (secret : String) : Option String :=
  if Str.startsWith "ee" secret then
    ((Bytes.fromHex (secret.toList.drop (2 + rawLength))).bind Bytes.decodeStrict).map String.ofList
  else none

/-- The secret has the `dd` form. -/
def hasDdForm (secret : String) : Bool := Str.startsWith "dd" secret

theorem eeDomain_ee (rawSecret domain : String) :
    eeDomain rawSecret.length ("ee" ++ rawSecret ++ encodeHex domain) = some domain ∧
      hasDdForm ("ee" ++ rawSecret ++ encodeHex domain) = false := by
  have htext : ("ee" ++ rawSecret ++ encodeHex domain).toList =
      "ee".toList ++ rawSecret.toList ++ (encodeHex domain).toList := by
    rw [String.toList_append, String.toList_append]
  have hlen : ("ee".toList ++ rawSecret.toList).length = 2 + rawSecret.length := by
    rw [List.length_append, String.length_toList]
    rfl
  have hee : Str.startsWith "ee" ("ee" ++ rawSecret ++ encodeHex domain) = true := by
    rw [Str.startsWith, htext, List.isPrefixOf_iff_prefix, List.append_assoc]
    exact List.prefix_append _ _
  refine ⟨?_, ?_⟩
  · rw [eeDomain, if_pos hee, htext, ← hlen, List.drop_left' rfl, encodeHex, String.toList_ofList,
      Bytes.fromHex_hex, Option.bind_some, Bytes.decodeStrict_encode, Option.map_some,
      String.ofList_toList]
  · rw [hasDdForm, Str.startsWith, htext]
    rfl

theorem eeDomain_dd (rawLength : ℕ) (rawSecret : String) :
    eeDomain rawLength ("dd" ++ rawSecret) = none ∧ hasDdForm ("dd" ++ rawSecret) = true := by
  have hee : Str.startsWith "ee" ("dd" ++ rawSecret) = false := by
    rw [Str.startsWith, String.toList_append]
    rfl
  refine ⟨?_, ?_⟩
  · rw [eeDomain, hee]
    rfl
  · rw [hasDdForm, Str.startsWith, String.toList_append, List.isPrefixOf_iff_prefix]
    exact List.prefix_append _ _

/-- A domain that may be empty, which means that there is none. -/
def domainOption (domain : String) : Option String := if domain = "" then none else some domain

/-- A client reads the clean domain in the secret, unless there is none. -/
theorem eeDomain_clientSecret (rawSecret raw : String) :
    eeDomain rawSecret.length (clientSecret rawSecret (sanitizeDomain raw)) =
        domainOption (sanitizeDomain raw) ∧
      (hasDdForm (clientSecret rawSecret (sanitizeDomain raw)) = true ↔
        sanitizeDomain raw = "") := by
  unfold clientSecret domainOption
  rw [sanitizeDomain_sanitizeDomain]
  by_cases hdomain : sanitizeDomain raw = ""
  · obtain ⟨hread, hform⟩ := eeDomain_dd rawSecret.length rawSecret
    rw [if_neg (not_not.2 hdomain), if_pos hdomain, hread, hform]
    exact ⟨rfl, iff_of_true rfl hdomain⟩
  · obtain ⟨hread, hform⟩ := eeDomain_ee rawSecret (sanitizeDomain raw)
    rw [if_pos hdomain, if_neg hdomain, hread, hform]
    exact ⟨rfl, iff_of_false Bool.false_ne_true hdomain⟩

end Mtproto

end RvgGateway
