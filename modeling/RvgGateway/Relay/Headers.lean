import RvgGateway.Lib.Text

/-!
# Request headers

The headers with which a client names its target: `parse_vless_header` of `protocol/vless/vless.py`
and `parse_trojan_header` of `protocol/trojan/trojan.py`.  Both parsers index and slice a chunk that
is assumed to hold the whole header; an index behind the end raises, a slice behind the end is
merely short.

`VlessHeader.parse_encode` and `TrojanHeader.parse_encode` : a chunk that starts with a complete
header parses to the fields of the header and to what follows it.
-/

namespace RvgGateway

namespace Relay

/-- What a header asks for, and the bytes behind it. -/
structure Parsed where
  command : UInt8
  address : String
  port : ℕ
  payload : Bytes
  deriving DecidableEq

/-- The type bytes of addresses. -/
structure AddressTypes where
  ipv4 : UInt8
  domain : UInt8
  ipv6 : UInt8
  ipv4_ne_domain : ipv4 ≠ domain
  ipv4_ne_ipv6 : ipv4 ≠ ipv6
  domain_ne_ipv6 : domain ≠ ipv6

/-- The types of VLESS. -/
def vlessTypes : AddressTypes := ⟨1, 2, 3, by decide, by decide, by decide⟩

/-- The types of Trojan. -/
def trojanTypes : AddressTypes := ⟨1, 3, 4, by decide, by decide, by decide⟩

/-- The branches for the type of the address: the address and the position behind it. -/
def readAddress (t : AddressTypes) (atyp : UInt8) (chunk : Bytes) (pos : ℕ) : Option (String × ℕ) :=
  if atyp = t.ipv4 then some (Bytes.dotted (chunk.slice pos (pos + 4)), pos + 4)
  else if atyp = t.domain then
    chunk[pos]?.map fun dlen =>
      (String.ofList (Bytes.decodeIgnore (chunk.slice (pos + 1) (pos + 1 + dlen.toNat))),
        pos + 1 + dlen.toNat)
  else if atyp = t.ipv6 then
    -- `ab[i + 1]` raises when the slice is short
    if (chunk.slice pos (pos + 16)).length = 16 then
      some (Bytes.colonHex (chunk.slice pos (pos + 16)), pos + 16)
    else none
  else none

/-- `parse_vless_header`; `none` is an exception. -/
def parseVlessHeader (chunk : Bytes) : Option Parsed :=
  if chunk.length < 24 then none
  else do
    let addon_len ← chunk[17]?
    let pos := 18 + addon_len.toNat
    let command ← chunk[pos]?
    let port := Bytes.toNatBE (chunk.slice (pos + 1) (pos + 3))
    let addr_type ← chunk[pos + 3]?
    let (address, pos) ← readAddress vlessTypes addr_type chunk (pos + 4)
    some ⟨command, address, port, chunk.drop pos⟩

/-- `"\r\n"`. -/
def crlf : Bytes := [13, 10]

/-- `TROJAN_HEADER_MIN`. -/
def trojanHeaderMin : ℕ := 56 + 2 + 1 + 1 + 1 + 2 + 2

/-- `b.decode("ascii", errors="ignore")`. -/
def asciiIgnore (b : Bytes) : String :=
  String.ofList ((b.filter fun x => x < 128).map fun x => Char.ofNat x.toNat)

/-- `parse_trojan_header`: the hash of the password, and the rest; `none` is an exception. -/
def parseTrojanHeader (chunk : Bytes) : Option (String × Parsed) :=
  if chunk.length < trojanHeaderMin then none
  else if chunk.slice 56 58 ≠ crlf then none
  else do
    let command ← chunk[58]?
    let atyp ← chunk[59]?
    let (address, pos) ← readAddress trojanTypes atyp chunk 60
    let port := Bytes.toNatBE (chunk.slice pos (pos + 2))
    if chunk.slice (pos + 2) (pos + 4) ≠ crlf then none
    else some (asciiIgnore (chunk.take 56), ⟨command, address, port, chunk.drop (pos + 4)⟩)

/-! ### Complete headers -/

/-- An address as it stands in a header. -/
inductive Address where
  | ipv4 (b : Bytes) (length_eq : b.length = 4)
  | domain (b : Bytes) (length_lt : b.length < 256)
  | ipv6 (b : Bytes) (length_eq : b.length = 16)

namespace Address

/-- The type byte. -/
def typeByte (t : AddressTypes) : Address → UInt8
  | ipv4 .. => t.ipv4
  | domain .. => t.domain
  | ipv6 .. => t.ipv6

/-- The bytes behind the type byte. -/
def bytes : Address → Bytes
  | ipv4 b _ => b
  | domain b _ => UInt8.ofNat b.length :: b
  | ipv6 b _ => b

/-- The text that is handed to the resolver. -/
def text : Address → String
  | ipv4 b _ => Bytes.dotted b
  | domain b _ => String.ofList (Bytes.decodeIgnore b)
  | ipv6 b _ => Bytes.colonHex b

end Address

/-- A complete VLESS header. -/
structure VlessHeader where
  version : UInt8
  uuid : Bytes
  addons : Bytes
  command : UInt8
  port : Bytes
  address : Address
  uuid_length : uuid.length = 16
  addons_length : addons.length < 256
  port_length : port.length = 2

/-- The bytes of the header. -/
def VlessHeader.encode (h : VlessHeader) : Bytes :=
  h.version :: h.uuid ++ UInt8.ofNat h.addons.length :: h.addons ++ h.command :: h.port ++
    h.address.typeByte vlessTypes :: h.address.bytes

/-- A header for port 80 of 127.0.0.1. -/
def VlessHeader.localhost : VlessHeader where
  version := 0
  uuid := List.replicate 16 0
  addons := []
  command := 1
  port := [0, 80]
  address := .ipv4 [127, 0, 0, 1] rfl
  uuid_length := rfl
  addons_length := by decide
  port_length := rfl

/-- A complete Trojan header. -/
structure TrojanHeader where
  hash : Bytes
  command : UInt8
  address : Address
  port : Bytes
  hash_length : hash.length = 56
  port_length : port.length = 2

/-- The bytes of the header. -/
def TrojanHeader.encode (h : TrojanHeader) : Bytes :=
  h.hash ++ crlf ++ h.command :: h.address.typeByte trojanTypes :: h.address.bytes ++ h.port ++ crlf

/-- A complete Trojan header is never too short for the parser. -/
theorem TrojanHeader.min_le_encode (h : TrojanHeader) : trojanHeaderMin ≤ h.encode.length := by
  have haddress : 1 ≤ h.address.bytes.length := by
    cases h.address with
    | ipv4 b hb => simp [Address.bytes, hb]
    | domain b hb => simp [Address.bytes]
    | ipv6 b hb => simp [Address.bytes, hb]
  have hhash := h.hash_length
  have hport := h.port_length
  simp only [TrojanHeader.encode, crlf, trojanHeaderMin, List.length_append, List.length_cons,
    List.length_nil]
  omega

/-! ### Reading at a position -/

section Positions

variable {chunk mid rest : Bytes} {pos n : ℕ} {x : UInt8}

theorem index_at (h : chunk.drop pos = x :: rest) : chunk[pos]? = some x := by
  have h0 : (chunk.drop pos)[0]? = some x := by rw [h]; rfl
  rwa [List.getElem?_drop, Nat.add_zero] at h0

theorem getD_at (h : chunk.drop pos = x :: rest) : chunk.getD pos 0 = x := by
  rw [List.getD_eq_getElem?_getD, index_at h]; rfl

theorem after_index (h : chunk.drop pos = x :: rest) : chunk.drop (pos + 1) = rest := by
  rw [← List.drop_drop, h]; rfl

theorem slice_at (h : chunk.drop pos = mid ++ rest) (hmid : mid.length = n) :
    chunk.slice pos (pos + n) = mid := by
  unfold Bytes.slice
  rw [h, Nat.add_sub_cancel_left, List.take_append_of_le_length hmid.ge,
    List.take_of_length_le hmid.le]

theorem after_slice (h : chunk.drop pos = mid ++ rest) (hmid : mid.length = n) :
    chunk.drop (pos + n) = rest := by
  rw [← List.drop_drop, h, List.drop_append_of_le_length hmid.ge, List.drop_of_length_le hmid.le,
    List.nil_append]

/-- Reading an address that is there. -/
theorem readAddress_at {t : AddressTypes} {a : Address}
    (h : chunk.drop pos = a.bytes ++ rest) :
    ∃ pos', readAddress t (a.typeByte t) chunk pos = some (a.text, pos') ∧
      chunk.drop pos' = rest := by
  cases a with
  | ipv4 b hb =>
    refine ⟨pos + 4, ?_, after_slice h hb⟩
    have hslice : chunk.slice pos (pos + 4) = b := slice_at h hb
    unfold readAddress Address.typeByte
    rw [if_pos rfl, hslice]
    rfl
  | domain b hb =>
    have hlen : (UInt8.ofNat b.length).toNat = b.length := UInt8.toNat_ofNat_of_lt' hb
    have hnext := after_index h
    refine ⟨pos + 1 + b.length, ?_, after_slice hnext rfl⟩
    unfold readAddress Address.typeByte
    rw [if_neg t.ipv4_ne_domain.symm, if_pos rfl, index_at h, Option.map_some, hlen,
      slice_at hnext rfl]
    rfl
  | ipv6 b hb =>
    refine ⟨pos + 16, ?_, after_slice h hb⟩
    have hslice : chunk.slice pos (pos + 16) = b := slice_at h hb
    unfold readAddress Address.typeByte
    rw [if_neg t.ipv4_ne_ipv6.symm, if_neg t.domain_ne_ipv6.symm, if_pos rfl, hslice, if_pos hb]
    rfl

end Positions

/-! ### Parsing what was encoded -/

/-- A chunk that starts with a complete VLESS header parses to the header's fields and the rest,
unless it is too short for the parser. -/
theorem VlessHeader.parse_encode (h : VlessHeader) (payload : Bytes)
    (hlen : 24 ≤ (h.encode ++ payload).length) :
    parseVlessHeader (h.encode ++ payload) =
      some ⟨h.command, h.address.text, Bytes.toNatBE h.port, payload⟩ := by
  generalize hchunk : h.encode ++ payload = chunk at hlen ⊢
  have haddons : (UInt8.ofNat h.addons.length).toNat = h.addons.length :=
    UInt8.toNat_ofNat_of_lt' h.addons_length
  -- the suffixes of the chunk at the positions that the parser visits
  have h0 : chunk.drop 0 = h.version :: (h.uuid ++ (UInt8.ofNat h.addons.length :: (h.addons ++
      (h.command :: (h.port ++ (h.address.typeByte vlessTypes ::
        (h.address.bytes ++ payload))))))) := by
    rw [← hchunk]; simp [VlessHeader.encode]
  have h17 := after_slice (after_index h0) h.uuid_length
  have hcmd := after_slice (after_index h17) rfl
  have hport := after_index hcmd
  have htype := after_slice hport h.port_length
  obtain ⟨pos, hread, hrest⟩ := readAddress_at (t := vlessTypes) (after_index htype)
  have hslice : chunk.slice (18 + h.addons.length + 1) (18 + h.addons.length + 3) = h.port :=
    slice_at hport h.port_length
  unfold parseVlessHeader
  rw [if_neg (Nat.not_lt.2 hlen), index_at h17]
  simp only [Option.bind_eq_bind, Option.bind_some, haddons]
  rw [index_at hcmd]
  simp only [Option.bind_some]
  rw [index_at htype]
  simp only [Option.bind_some]
  rw [hread, hslice]
  simp only [Option.bind_some, hrest]

/-- A chunk that starts with a complete Trojan header parses to the header's fields and the rest,
unless it is too short for the parser. -/
theorem TrojanHeader.parse_encode (h : TrojanHeader) (payload : Bytes)
    (hlen : trojanHeaderMin ≤ (h.encode ++ payload).length) :
    parseTrojanHeader (h.encode ++ payload) = some (asciiIgnore h.hash,
      ⟨h.command, h.address.text, Bytes.toNatBE h.port, payload⟩) := by
  generalize hchunk : h.encode ++ payload = chunk at hlen ⊢
  have h0 : chunk.drop 0 = h.hash ++ (crlf ++ (h.command :: h.address.typeByte trojanTypes ::
      (h.address.bytes ++ (h.port ++ (crlf ++ payload))))) := by
    rw [← hchunk]; simp [TrojanHeader.encode]
  have hhash : chunk.take 56 = h.hash := by
    have hslice := slice_at h0 h.hash_length
    simpa [Bytes.slice] using hslice
  have h56 := after_slice h0 h.hash_length
  have hcmd := after_slice h56 (n := 2) rfl
  have htype := after_index hcmd
  obtain ⟨pos, hread, hport⟩ := readAddress_at (t := trojanTypes) (after_index htype)
  have hend := after_slice hport h.port_length
  have hcrlf : chunk.slice 56 58 = crlf := slice_at h56 rfl
  have hcrlf' : chunk.slice (pos + 2) (pos + 4) = crlf := slice_at hend rfl
  have hrest : chunk.drop (pos + 4) = payload := after_slice (n := 2) hend rfl
  unfold parseTrojanHeader
  rw [if_neg (Nat.not_lt.2 hlen), hcrlf, if_neg (by simp), index_at hcmd]
  simp only [Option.bind_eq_bind, Option.bind_some]
  rw [index_at htype]
  simp only [Option.bind_some]
  rw [hread]
  simp only [Option.bind_some]
  rw [hcrlf', if_neg (by simp), slice_at hport h.port_length, hrest, hhash]

/-- The parser never reads the hash of another user from the beginning of a Trojan header. -/
theorem parseTrojanHeader_hash {chunk : Bytes} {pwHash : String} {parsed : Parsed}
    (h : parseTrojanHeader chunk = some (pwHash, parsed)) :
    56 ≤ chunk.length ∧ pwHash = asciiIgnore (chunk.take 56) := by
  unfold parseTrojanHeader at h
  split_ifs at h with hmin
  refine ⟨?_, ?_⟩
  · unfold trojanHeaderMin at hmin
    omega
  · simp only [Option.bind_eq_bind, Option.bind_eq_some_iff] at h
    obtain ⟨_, -, _, -, ⟨_, _⟩, -, h⟩ := h
    split_ifs at h
    cases h
    rfl

end Relay

end RvgGateway
