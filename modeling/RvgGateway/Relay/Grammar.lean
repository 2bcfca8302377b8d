import RvgGateway.Lib.Reading
import RvgGateway.Relay.Headers

/-!
# What the header parsers accept

`parse_vless_header` and `parse_trojan_header` once more, with the exceptions that they raise told
apart: `ValueError` for a header that they refuse, `IndexError` where an index goes behind the end.

Neither parser asks for the length of an address.  The VLESS parser hands out an IPv4 address or a
domain that is cut off, and runs behind the end elsewhere; the Trojan parser notices at the `CRLF`
behind the port, except for an IPv6 address, whose groups it reads before.

* `Raising.parseVlessHeader_exact_iff` : the VLESS parser does exactly what its grammar says on the
  chunks that are not cut off inside the header.
* `Raising.parseTrojanHeader_exact_iff` : the Trojan parser does so on the chunks that are not cut
  off inside an IPv6 address.
-/

namespace RvgGateway

namespace Relay

/-- What a VLESS header asks for. -/
def VlessHeader.parsed (h : VlessHeader) (payload : Bytes) : Parsed :=
  ⟨h.command, h.address.text, Bytes.toNatBE h.port, payload⟩

/-- What a Trojan header asks for. -/
def TrojanHeader.parsed (h : TrojanHeader) (payload : Bytes) : Parsed :=
  ⟨h.command, h.address.text, Bytes.toNatBE h.port, payload⟩

namespace Raising

/-- The branches for the type of the address: the address and the position behind it. -/
def readAddress (t : AddressTypes) (unknown : String) (atyp : UInt8) (chunk : Bytes) (pos : ℕ) :
    Except Fault (String × ℕ) :=
  if atyp = t.ipv4 then .ok (Bytes.dotted (chunk.slice pos (pos + 4)), pos + 4)
  else if atyp = t.domain then do
    let dlen ← chunk.index pos
    let pos := pos + 1
    .ok (String.ofList (Bytes.decodeIgnore (chunk.slice pos (pos + dlen.toNat))), pos + dlen.toNat)
  else if atyp = t.ipv6 then do
    let groups ← (chunk.slice pos (pos + 16)).hexGroups 0 8
    .ok (String.intercalate ":" groups, pos + 16)
  else .error (.refused (unknown ++ toString atyp.toNat))

/-- `parse_vless_header`; what is refused is a `ValueError`. -/
def parseVlessHeader (chunk : Bytes) : Except Fault Parsed :=
  if chunk.length < 24 then .error (.refused "chunk too small")
  else do
    let pos := 1 + 16
    let addon_len ← chunk.index pos
    let pos := pos + (1 + addon_len.toNat)
    let command ← chunk.index pos
    let pos := pos + 1
    let port := Bytes.toNatBE (chunk.slice pos (pos + 2))
    let pos := pos + 2
    let addr_type ← chunk.index pos
    let pos := pos + 1
    let (address, pos) ← readAddress vlessTypes "unknown addr type: " addr_type chunk pos
    .ok ⟨command, address, port, chunk.drop pos⟩

/-- `parse_trojan_header`; what is refused is a `ValueError`. -/
def parseTrojanHeader (chunk : Bytes) : Except Fault (String × Parsed) :=
  if chunk.length < trojanHeaderMin then .error (.refused "chunk too small for trojan header")
  else
    let pw_hash := asciiIgnore (chunk.take 56)
    let pos := 56
    if chunk.slice pos (pos + 2) ≠ crlf then
      .error (.refused "invalid trojan header: missing CRLF after hash")
    else do
      let pos := pos + 2
      let command ← chunk.index pos
      let pos := pos + 1
      let atyp ← chunk.index pos
      let pos := pos + 1
      let (address, pos) ← readAddress trojanTypes "unknown trojan atyp: " atyp chunk pos
      let port := Bytes.toNatBE (chunk.slice pos (pos + 2))
      let pos := pos + 2
      if chunk.slice pos (pos + 2) ≠ crlf then
        .error (.refused "invalid trojan header: missing trailing CRLF")
      else
        let pos := pos + 2
        .ok (pw_hash, ⟨command, address, port, chunk.drop pos⟩)

/-! ### The address -/

/-- Where an address of the given type ends that starts at `pos`. -/
def addressEnd (t : AddressTypes) (atyp : UInt8) (chunk : Bytes) (pos : ℕ) : Option ℕ :=
  if atyp = t.ipv4 then some (pos + 4)
  else if atyp = t.domain then some (pos + 1 + (chunk.getD pos 0).toNat)
  else if atyp = t.ipv6 then some (pos + 16)
  else none

section Address

variable {t : AddressTypes} {unknown : String} {atyp : UInt8} {chunk rest : Bytes} {pos e : ℕ}

/-- An address that is there is read. -/
theorem readAddress_at {a : Address} (h : chunk.drop pos = a.bytes ++ rest) :
    readAddress t unknown (a.typeByte t) chunk pos = .ok (a.text, pos + a.bytes.length) := by
  cases a with
  | ipv4 b hb =>
    have hslice : chunk.slice pos (pos + 4) = b := slice_at h hb
    rw [readAddress, Address.typeByte, if_pos rfl, hslice, Address.bytes, hb]
    rfl
  | domain b hb =>
    have hlen : (UInt8.ofNat b.length).toNat = b.length := UInt8.toNat_ofNat_of_lt' hb
    have hnext := after_index h
    have hindex : chunk.index pos = .ok (UInt8.ofNat b.length) := by
      rw [Bytes.index, index_at h]
    have hslice : chunk.slice (pos + 1) (pos + 1 + b.length) = b := slice_at hnext rfl
    rw [readAddress, Address.typeByte, if_neg t.ipv4_ne_domain.symm, if_pos rfl, hindex]
    simp only [bind, Except.bind, hlen, hslice, Address.text, Address.bytes, List.length_cons]
    rw [Nat.add_assoc, Nat.add_comm 1]
  | ipv6 b hb =>
    have hslice : chunk.slice pos (pos + 16) = b := slice_at h hb
    have hgroups : b.hexGroups 0 8 = .ok (Bytes.colonHex.groups b) := by
      have hle : 0 + 2 * 8 ≤ b.length := by omega
      have h := Bytes.hexGroups_of_le hle
      rwa [List.drop_zero, List.take_of_length_le (by omega)] at h
    rw [readAddress, Address.typeByte, if_neg t.ipv4_ne_ipv6.symm, if_neg t.domain_ne_ipv6.symm,
      if_pos rfl, hslice, hgroups, Address.bytes, hb]
    rfl

/-- An address that is there ends inside the chunk. -/
theorem addressEnd_at {a : Address} (h : chunk.drop pos = a.bytes ++ rest) :
    addressEnd t (a.typeByte t) chunk pos = some (pos + a.bytes.length) := by
  cases a with
  | ipv4 b hb => rw [addressEnd, Address.typeByte, if_pos rfl, Address.bytes, hb]
  | domain b hb =>
    have hlen : (UInt8.ofNat b.length).toNat = b.length := UInt8.toNat_ofNat_of_lt' hb
    have hget : chunk.getD pos 0 = UInt8.ofNat b.length := getD_at h
    rw [addressEnd, Address.typeByte, if_neg t.ipv4_ne_domain.symm, if_pos rfl, hget, hlen,
      Address.bytes, List.length_cons, Nat.add_assoc, Nat.add_comm 1]
  | ipv6 b hb =>
    rw [addressEnd, Address.typeByte, if_neg t.ipv4_ne_ipv6.symm, if_neg t.domain_ne_ipv6.symm,
      if_pos rfl, Address.bytes, hb]

/-- An address that ends inside the chunk is there. -/
theorem exists_address (h : addressEnd t atyp chunk pos = some e) (he : e ≤ chunk.length) :
    ∃ a : Address, a.typeByte t = atyp ∧ chunk.drop pos = a.bytes ++ chunk.drop e := by
  unfold addressEnd at h
  split_ifs at h with h4 hd h6
  · cases h
    refine ⟨.ipv4 (chunk.slice pos (pos + 4)) (Bytes.length_slice_of_le he), h4.symm, ?_⟩
    exact Bytes.drop_slice chunk pos 4
  · cases h
    have hpos : pos < chunk.length := by omega
    have hlen := Bytes.length_slice_of_le he
    refine ⟨.domain (chunk.slice (pos + 1) (pos + 1 + (chunk.getD pos 0).toNat)) ?_, hd.symm, ?_⟩
    · rw [hlen]
      exact UInt8.toNat_lt _
    · rw [Bytes.drop_index hpos, Address.bytes, hlen, UInt8.ofNat_toNat, List.cons_append]
      exact congrArg _ (Bytes.drop_slice chunk (pos + 1) _)
  · cases h
    refine ⟨.ipv6 (chunk.slice pos (pos + 16)) (Bytes.length_slice_of_le he), h6.symm, ?_⟩
    exact Bytes.drop_slice chunk pos 16

/-- An address that ends inside the chunk is read. -/
theorem readAddress_inside (unknown : String) (h : addressEnd t atyp chunk pos = some e)
    (he : e ≤ chunk.length) :
    ∃ text, readAddress t unknown atyp chunk pos = .ok (text, e) := by
  obtain ⟨a, htypeByte, haddress⟩ := exists_address h he
  have hend : some (pos + a.bytes.length) = some e := by
    rw [← addressEnd_at (t := t) haddress, htypeByte, h]
  rw [← htypeByte, readAddress_at haddress, Option.some.inj hend]
  exact ⟨_, rfl⟩

/-- An address of unknown type is refused. -/
theorem readAddress_unknown (h : addressEnd t atyp chunk pos = none) :
    readAddress t unknown atyp chunk pos =
      .error (.refused (unknown ++ toString atyp.toNat)) := by
  unfold addressEnd at h
  split_ifs at h with h4 hd h6
  rw [readAddress, if_neg h4, if_neg hd, if_neg h6]

/-- An IPv6 address that is cut off raises. -/
theorem readAddress_ipv6_short (h : chunk.length < pos + 16) :
    readAddress t unknown t.ipv6 chunk pos = .error .indexError := by
  have hslice : (chunk.slice pos (pos + 16)).hexGroups 0 8 = .error .indexError := by
    refine Bytes.hexGroups_of_lt (Nat.zero_le _) ?_
    rw [Bytes.length_slice]
    omega
  rw [readAddress, if_neg t.ipv4_ne_ipv6.symm, if_neg t.domain_ne_ipv6.symm, if_pos rfl, hslice]
  rfl

/-- An address of another type that is cut off, but for the length byte of a domain, is short. -/
theorem readAddress_short (unknown : String) (h : addressEnd t atyp chunk pos = some e)
    (h6 : atyp ≠ t.ipv6) (hpos : pos < chunk.length) :
    ∃ text, readAddress t unknown atyp chunk pos = .ok (text, e) := by
  unfold addressEnd at h
  split_ifs at h with h4 hd
  · cases h
    exact ⟨_, by rw [readAddress, if_pos h4]⟩
  · cases h
    refine ⟨String.ofList (Bytes.decodeIgnore
      (chunk.slice (pos + 1) (pos + 1 + (chunk.getD pos 0).toNat))), ?_⟩
    rw [readAddress, if_neg h4, if_pos hd, Bytes.index_of_lt hpos]
    rfl

/-- Without the exceptions told apart, it is the address of the parsers that only return. -/
theorem readAddress_toOption :
    (readAddress t unknown atyp chunk pos).toOption = Relay.readAddress t atyp chunk pos := by
  unfold readAddress Relay.readAddress
  split_ifs with h4 hd h6 h16
  · rfl
  · unfold Bytes.index
    cases chunk[pos]? with
    | none => rfl
    | some dlen => rfl
  · have hle : 0 + 2 * 8 ≤ (chunk.slice pos (pos + 16)).length := by omega
    rw [Bytes.hexGroups_of_le hle, List.drop_zero, List.take_of_length_le (by omega)]
    rfl
  · have hlt : (chunk.slice pos (pos + 16)).length < 0 + 2 * 8 := by
      have := Bytes.length_slice chunk pos 16
      omega
    rw [Bytes.hexGroups_of_lt (Nat.zero_le _) hlt]
    rfl
  · rfl

end Address

/-! ### The VLESS header -/

/-- The position of the byte with the type of the address. -/
def vlessTypePos (chunk : Bytes) : ℕ := 21 + (chunk.getD 17 0).toNat

/-- The chunk has the length that is asked for and ends inside the header. -/
def VlessCutOff (chunk : Bytes) : Prop :=
  24 ≤ chunk.length ∧ (chunk.length ≤ vlessTypePos chunk ∨
    ∃ e, addressEnd vlessTypes (chunk.getD (vlessTypePos chunk) 0) chunk (vlessTypePos chunk + 1) =
      some e ∧ chunk.length < e)

section Vless

variable {chunk payload : Bytes}

/-- The parser is at the address when the byte with its type is there. -/
theorem parseVlessHeader_of_type (h24 : 24 ≤ chunk.length)
    (htype : vlessTypePos chunk < chunk.length) :
    parseVlessHeader chunk =
      (readAddress vlessTypes "unknown addr type: " (chunk.getD (vlessTypePos chunk) 0) chunk
        (vlessTypePos chunk + 1)).bind fun r =>
          .ok ⟨chunk.getD (vlessTypePos chunk - 3) 0, r.1,
            Bytes.toNatBE (chunk.slice (vlessTypePos chunk - 2) (vlessTypePos chunk)),
            chunk.drop r.2⟩ := by
  have htypePos : 1 + 16 + (1 + (chunk.getD 17 0).toNat) + 1 + 2 = vlessTypePos chunk := by
    unfold vlessTypePos; omega
  have hcommand : 1 + 16 + (1 + (chunk.getD 17 0).toNat) = vlessTypePos chunk - 3 := by omega
  have hport : vlessTypePos chunk - 3 + 1 = vlessTypePos chunk - 2 := by omega
  have hport' : vlessTypePos chunk - 2 + 2 = vlessTypePos chunk := by omega
  have h17 : 17 < chunk.length := by omega
  have hcommand' : vlessTypePos chunk - 3 < chunk.length := by omega
  unfold parseVlessHeader
  rw [if_neg (Nat.not_lt.2 h24)]
  simp only [bind, Bytes.index_of_lt h17, Except.bind, hcommand, Bytes.index_of_lt hcommand',
    hport, hport', Bytes.index_of_lt htype]

/-- Without the byte with the type of the address the parser runs behind the end. -/
theorem parseVlessHeader_of_no_type (h24 : 24 ≤ chunk.length)
    (htype : chunk.length ≤ vlessTypePos chunk) :
    parseVlessHeader chunk = .error .indexError := by
  have htypePos : 1 + 16 + (1 + (chunk.getD 17 0).toNat) + 1 + 2 = vlessTypePos chunk := by
    unfold vlessTypePos; omega
  have h17 : 17 < chunk.length := by omega
  unfold parseVlessHeader
  rw [if_neg (Nat.not_lt.2 h24)]
  simp only [bind, Bytes.index_of_lt h17, Except.bind]
  by_cases hcommand : 1 + 16 + (1 + (chunk.getD 17 0).toNat) < chunk.length
  · simp only [Bytes.index_of_lt hcommand, htypePos, Bytes.index_of_le htype]
  · simp only [Bytes.index_of_le (Nat.not_lt.1 hcommand)]

/-- A complete header is not cut off, and the byte with the type of its address is there. -/
theorem encode_not_cutOff {h : VlessHeader} (hchunk : chunk = h.encode ++ payload) :
    ¬ VlessCutOff chunk := by
  have haddons : (UInt8.ofNat h.addons.length).toNat = h.addons.length :=
    UInt8.toNat_ofNat_of_lt' h.addons_length
  have h0 : chunk.drop 0 = h.version :: (h.uuid ++ (UInt8.ofNat h.addons.length :: (h.addons ++
      (h.command :: (h.port ++ (h.address.typeByte vlessTypes ::
        (h.address.bytes ++ payload))))))) := by
    rw [hchunk]; simp [VlessHeader.encode]
  have h17 := after_slice (after_index h0) h.uuid_length
  have htype := after_slice (after_index (after_slice (after_index h17) rfl)) h.port_length
  have hget : chunk.getD 17 0 = UInt8.ofNat h.addons.length := getD_at h17
  have hpos : vlessTypePos chunk = 17 + 1 + h.addons.length + 1 + 2 := by
    rw [vlessTypePos, hget, haddons]
    omega
  rw [← hpos] at htype
  have hget' : chunk.getD (vlessTypePos chunk) 0 = h.address.typeByte vlessTypes := getD_at htype
  have hlen : chunk.length = vlessTypePos chunk + 1 + h.address.bytes.length + payload.length := by
    have hdrop := congrArg List.length (after_index htype)
    have hin := congrArg List.length htype
    simp only [List.length_drop, List.length_append, List.length_cons] at hdrop hin
    omega
  rintro ⟨-, hshort | ⟨e, he, hshort⟩⟩
  · omega
  · rw [hget', addressEnd_at (after_index htype)] at he
    cases he
    omega

/-- A chunk that is not cut off is too short, has an address of unknown type, or starts with a
complete header. -/
theorem of_not_vlessCutOff (h24 : 24 ≤ chunk.length) (hcut : ¬ VlessCutOff chunk) :
    (∃ msg, parseVlessHeader chunk = .error (.refused msg)) ∨
      ∃ (h : VlessHeader) (payload : Bytes), chunk = h.encode ++ payload := by
  have htype : vlessTypePos chunk < chunk.length := by
    by_contra hno
    exact hcut ⟨h24, .inl (Nat.not_lt.1 hno)⟩
  cases he : addressEnd vlessTypes (chunk.getD (vlessTypePos chunk) 0) chunk
      (vlessTypePos chunk + 1) with
  | none =>
    left
    rw [parseVlessHeader_of_type h24 htype, readAddress_unknown he]
    exact ⟨_, rfl⟩
  | some e =>
    have hle : e ≤ chunk.length := by
      by_contra hlt
      exact hcut ⟨h24, .inr ⟨e, he, Nat.not_le.1 hlt⟩⟩
    obtain ⟨a, htypeByte, haddress⟩ := exists_address he hle
    generalize hn : (chunk.getD 17 0).toNat = n
    have hpos : vlessTypePos chunk = 18 + n + 1 + 2 := by
      rw [vlessTypePos, hn]
      omega
    have hn_lt : n < 256 := hn ▸ UInt8.toNat_lt _
    have haddons : (chunk.slice 18 (18 + n)).length = n := Bytes.length_slice_of_le (by omega)
    refine .inr ⟨{
      version := chunk.getD 0 0
      uuid := chunk.slice 1 (1 + 16)
      addons := chunk.slice 18 (18 + n)
      command := chunk.getD (18 + n) 0
      port := chunk.slice (18 + n + 1) (18 + n + 1 + 2)
      address := a
      uuid_length := Bytes.length_slice_of_le (by omega)
      addons_length := by rwa [haddons]
      port_length := Bytes.length_slice_of_le (by omega) }, chunk.drop e, ?_⟩
    have hlenByte : UInt8.ofNat n = chunk.getD 17 0 := by rw [← hn, UInt8.ofNat_toNat]
    -- the chunk field by field, from the first
    have h0 : chunk.drop 0 = chunk.getD 0 0 :: chunk.drop 1 := Bytes.drop_index (by omega)
    have h1 : chunk.drop 1 = chunk.slice 1 (1 + 16) ++ chunk.drop 17 := Bytes.drop_slice chunk 1 16
    have h17 : chunk.drop 17 = chunk.getD 17 0 :: chunk.drop 18 := Bytes.drop_index (by omega)
    have h18 := Bytes.drop_slice chunk 18 n
    have hcommand : chunk.drop (18 + n) = chunk.getD (18 + n) 0 :: chunk.drop (18 + n + 1) :=
      Bytes.drop_index (by omega)
    have hport := Bytes.drop_slice chunk (18 + n + 1) 2
    have htype' := Bytes.drop_index htype
    rw [hpos] at htype' htypeByte haddress
    simp only [VlessHeader.encode, List.cons_append, List.append_assoc, haddons, hlenByte,
      htypeByte]
    rw [← haddress, ← htype', ← hport, ← hcommand, ← h18, ← h17, ← h1, ← h0]
    rfl

/-- A header that is cut off is not refused: the parser runs behind its end or hands it out. -/
theorem parseVlessHeader_cutOff (hcut : VlessCutOff chunk) :
    parseVlessHeader chunk = .error .indexError ∨
      ∃ parsed, parseVlessHeader chunk = .ok parsed := by
  obtain ⟨h24, hshort⟩ := hcut
  by_cases htype : vlessTypePos chunk < chunk.length
  · obtain ⟨e, he, hlt⟩ := hshort.resolve_left (Nat.not_le.2 htype)
    rw [parseVlessHeader_of_type h24 htype]
    by_cases h6 : chunk.getD (vlessTypePos chunk) 0 = vlessTypes.ipv6
    · left
      rw [h6] at he ⊢
      cases he
      rw [readAddress_ipv6_short hlt]
      rfl
    · by_cases hpos : vlessTypePos chunk + 1 < chunk.length
      · obtain ⟨text, hread⟩ := readAddress_short "unknown addr type: " he h6 hpos
        rw [hread]
        exact .inr ⟨_, rfl⟩
      · by_cases h4 : chunk.getD (vlessTypePos chunk) 0 = vlessTypes.ipv4
        · rw [readAddress, if_pos h4]
          exact .inr ⟨_, rfl⟩
        · -- neither an IPv4 nor an IPv6 address: a domain without its length byte
          have hd : chunk.getD (vlessTypePos chunk) 0 = vlessTypes.domain := by
            by_contra hd
            rw [addressEnd, if_neg h4, if_neg hd, if_neg h6] at he
            cases he
          left
          rw [readAddress, if_neg h4, if_pos hd, Bytes.index_of_le (Nat.not_lt.1 hpos)]
          rfl
  · exact .inl (parseVlessHeader_of_no_type h24 (Nat.not_lt.1 htype))

/-- Without the exceptions told apart, it is the parser that only returns. -/
theorem parseVlessHeader_toOption :
    (parseVlessHeader chunk).toOption = Relay.parseVlessHeader chunk := by
  unfold parseVlessHeader Relay.parseVlessHeader
  split_ifs with h24
  · rfl
  · rw [toOption_bind, Bytes.toOption_index]
    refine Option.bind_congr fun addon_len _ => ?_
    have hpos : 1 + 16 + (1 + addon_len.toNat) = 18 + addon_len.toNat := by omega
    rw [toOption_bind, Bytes.toOption_index, hpos]
    refine Option.bind_congr fun command _ => ?_
    rw [toOption_bind, Bytes.toOption_index]
    refine Option.bind_congr fun addr_type _ => ?_
    rw [toOption_bind, readAddress_toOption]
    rfl

/-- A chunk that starts with a complete header parses to the fields of the header. -/
theorem parseVlessHeader_encode {h : VlessHeader} (hchunk : chunk = h.encode ++ payload)
    (h24 : 24 ≤ chunk.length) : parseVlessHeader chunk = .ok (h.parsed payload) := by
  have hparse : Relay.parseVlessHeader chunk = some (h.parsed payload) := by
    rw [hchunk] at h24 ⊢
    exact h.parse_encode payload h24
  rw [← parseVlessHeader_toOption] at hparse
  exact ok_of_toOption hparse

/-- The chunk is parsed exactly as the grammar of VLESS headers says. -/
structure VlessExact (chunk : Bytes) : Prop where
  /-- What is handed out stands in the chunk. -/
  sound : ∀ parsed, parseVlessHeader chunk = .ok parsed →
    ∃ (h : VlessHeader) (payload : Bytes), chunk = h.encode ++ payload ∧ parsed = h.parsed payload
  /-- What stands in a chunk that is long enough is handed out. -/
  complete : ∀ (h : VlessHeader) (payload : Bytes), chunk = h.encode ++ payload →
    24 ≤ chunk.length → parseVlessHeader chunk = .ok (h.parsed payload)
  /-- Everything else is refused. -/
  refuses : (¬ ∃ (h : VlessHeader) (payload : Bytes),
      chunk = h.encode ++ payload ∧ 24 ≤ chunk.length) →
    ∃ msg, parseVlessHeader chunk = .error (.refused msg)

theorem not_vlessExact (hcut : VlessCutOff chunk) : ¬ VlessExact chunk := by
  intro hexact
  have hnone : ¬ ∃ (h : VlessHeader) (payload : Bytes), chunk = h.encode ++ payload :=
    fun ⟨_, _, hchunk⟩ => encode_not_cutOff hchunk hcut
  obtain hindex | ⟨parsed, hok⟩ := parseVlessHeader_cutOff hcut
  · obtain ⟨msg, hrefused⟩ := hexact.refuses fun ⟨h, payload, hchunk, _⟩ =>
      hnone ⟨h, payload, hchunk⟩
    rw [hindex] at hrefused
    cases hrefused
  · obtain ⟨h, payload, hchunk, -⟩ := hexact.sound parsed hok
    exact hnone ⟨h, payload, hchunk⟩

/-- The VLESS parser is exact on the chunks that are not cut off inside the header, and on no
others. -/
theorem parseVlessHeader_exact_iff (chunk : Bytes) : VlessExact chunk ↔ ¬ VlessCutOff chunk := by
  refine ⟨fun hexact hcut => not_vlessExact hcut hexact, fun hcut => ?_⟩
  by_cases h24 : 24 ≤ chunk.length
  · obtain ⟨msg, hrefused⟩ | ⟨h, payload, hchunk⟩ := of_not_vlessCutOff h24 hcut
    · refine ⟨fun parsed hok => ?_, fun h payload hchunk h24 => ?_, fun _ => ⟨msg, hrefused⟩⟩
      · rw [hrefused] at hok; cases hok
      · exact parseVlessHeader_encode hchunk h24
    · have hok := parseVlessHeader_encode hchunk h24
      refine ⟨fun parsed hparsed => ⟨h, payload, hchunk, ?_⟩, fun h payload hchunk h24 => ?_,
        fun hnone => absurd ⟨h, payload, hchunk, h24⟩ hnone⟩
      · rw [hok] at hparsed
        cases hparsed
        rfl
      · exact parseVlessHeader_encode hchunk h24
  · have hrefused : parseVlessHeader chunk = .error (.refused "chunk too small") := by
      rw [parseVlessHeader, if_pos (Nat.not_le.1 h24)]
    refine ⟨fun parsed hok => ?_, fun h payload _ hlen => absurd hlen h24,
      fun _ => ⟨_, hrefused⟩⟩
    rw [hrefused] at hok
    cases hok

/-- Two bytes of an IPv4 address are handed out as an address. -/
theorem vless_ipv4_cutOff :
    let chunk : Bytes := 0 :: List.replicate 16 0 ++ [0, 1, 0, 80, 1, 127, 0]
    parseVlessHeader chunk = .ok ⟨1, "127.0", 80, []⟩ ∧ ¬ VlessExact chunk := by
  refine ⟨by decide +kernel, not_vlessExact ⟨by decide, .inr ⟨26, by decide, by decide⟩⟩⟩

end Vless

/-! ### The Trojan header -/

/-- The chunk is long enough for the parser and ends inside an IPv6 address. -/
def TrojanIpv6CutOff (chunk : Bytes) : Prop :=
  trojanHeaderMin ≤ chunk.length ∧ chunk.length < 60 + 16 ∧ chunk.slice 56 58 = crlf ∧
    chunk.getD 59 0 = trojanTypes.ipv6

section Trojan

variable {chunk payload : Bytes}

/-- The parser is at the address when the hash is followed by a `CRLF`. -/
theorem parseTrojanHeader_of_crlf (hmin : trojanHeaderMin ≤ chunk.length)
    (hcrlf : chunk.slice 56 58 = crlf) :
    parseTrojanHeader chunk =
      (readAddress trojanTypes "unknown trojan atyp: " (chunk.getD 59 0) chunk 60).bind fun r =>
        if chunk.slice (r.2 + 2) (r.2 + 2 + 2) ≠ crlf then
          .error (.refused "invalid trojan header: missing trailing CRLF")
        else .ok (asciiIgnore (chunk.take 56), ⟨chunk.getD 58 0, r.1,
          Bytes.toNatBE (chunk.slice r.2 (r.2 + 2)), chunk.drop (r.2 + 2 + 2)⟩) := by
  have h58 : 58 < chunk.length := by unfold trojanHeaderMin at hmin; omega
  have h59 : 59 < chunk.length := by unfold trojanHeaderMin at hmin; omega
  unfold parseTrojanHeader
  rw [if_neg (Nat.not_lt.2 hmin)]
  simp only [Nat.reduceAdd, hcrlf, ne_eq, not_true, if_false, bind, Bytes.index_of_lt h58,
    Bytes.index_of_lt h59, Except.bind]

/-- A chunk without its `CRLF` behind the hash is refused. -/
theorem parseTrojanHeader_of_no_crlf (hcrlf : chunk.slice 56 58 ≠ crlf) :
    ∃ msg, parseTrojanHeader chunk = .error (.refused msg) := by
  unfold parseTrojanHeader
  by_cases hmin : chunk.length < trojanHeaderMin
  · exact ⟨_, if_pos hmin⟩
  · exact ⟨_, (if_neg hmin).trans (if_pos hcrlf)⟩

/-- A `CRLF` that is read stands inside the chunk. -/
theorem le_of_slice_crlf {pos : ℕ} (h : chunk.slice pos (pos + 2) = crlf) :
    pos + 2 ≤ chunk.length :=
  Bytes.le_of_length_slice (by rw [h]; rfl) (by decide)

/-- A chunk whose parts are all there starts with a complete header. -/
theorem exists_trojanHeader {a : Address} {e : ℕ}
    (htypeByte : a.typeByte trojanTypes = chunk.getD 59 0)
    (haddress : chunk.drop 60 = a.bytes ++ chunk.drop e) (hcrlf : chunk.slice 56 58 = crlf)
    (hend : chunk.slice (e + 2) (e + 2 + 2) = crlf) :
    ∃ h : TrojanHeader, chunk = h.encode ++ chunk.drop (e + 2 + 2) := by
  have hle := le_of_slice_crlf hend
  have h60 : 60 ≤ chunk.length := by
    have hlen := congrArg List.length haddress
    simp only [List.length_drop, List.length_append] at hlen
    have : e + 2 + 2 ≤ chunk.length := hle
    omega
  refine ⟨{
    hash := chunk.slice 0 (0 + 56)
    command := chunk.getD 58 0
    address := a
    port := chunk.slice e (e + 2)
    hash_length := Bytes.length_slice_of_le (by omega)
    port_length := Bytes.length_slice_of_le (by omega) }, ?_⟩
  -- the chunk field by field, from the first
  have h0 : chunk.drop 0 = chunk.slice 0 (0 + 56) ++ chunk.drop 56 := Bytes.drop_slice chunk 0 56
  have h56 : chunk.drop 56 = crlf ++ chunk.drop 58 := hcrlf ▸ Bytes.drop_slice chunk 56 2
  have h58 : chunk.drop 58 = chunk.getD 58 0 :: chunk.drop 59 := Bytes.drop_index (by omega)
  have h59 : chunk.drop 59 = chunk.getD 59 0 :: chunk.drop 60 := Bytes.drop_index (by omega)
  have hport := Bytes.drop_slice chunk e 2
  have htail : chunk.drop (e + 2) = crlf ++ chunk.drop (e + 2 + 2) :=
    hend ▸ Bytes.drop_slice chunk (e + 2) 2
  simp only [TrojanHeader.encode, List.cons_append, List.append_assoc, htypeByte]
  rw [← htail, ← hport, ← haddress, ← h59, ← h58, ← h56, ← h0]
  rfl

/-- Without the exceptions told apart, it is the parser that only returns. -/
theorem parseTrojanHeader_toOption :
    (parseTrojanHeader chunk).toOption = Relay.parseTrojanHeader chunk := by
  by_cases hmin : chunk.length < trojanHeaderMin
  · rw [parseTrojanHeader, Relay.parseTrojanHeader, if_pos hmin, if_pos hmin]
    rfl
  by_cases hcrlf : chunk.slice 56 58 = crlf
  · unfold parseTrojanHeader Relay.parseTrojanHeader
    rw [if_neg hmin, if_neg hmin]
    simp only [Nat.reduceAdd, hcrlf, ne_eq, not_true, if_false]
    rw [toOption_bind, Bytes.toOption_index]
    refine Option.bind_congr fun command _ => ?_
    rw [toOption_bind, Bytes.toOption_index]
    refine Option.bind_congr fun atyp _ => ?_
    rw [toOption_bind, readAddress_toOption]
    refine Option.bind_congr fun r _ => ?_
    split_ifs
    · rfl
    · rfl
  · obtain ⟨msg, hrefused⟩ := parseTrojanHeader_of_no_crlf hcrlf
    rw [hrefused, Relay.parseTrojanHeader, if_neg hmin, if_pos hcrlf]
    rfl

/-- What the parser does with a chunk that is long enough and has its `CRLF` behind the hash. -/
theorem parseTrojanHeader_cases (hcut : ¬ TrojanIpv6CutOff chunk) :
    (∃ msg, parseTrojanHeader chunk = .error (.refused msg)) ∨
      ∃ (h : TrojanHeader) (payload : Bytes), chunk = h.encode ++ payload := by
  by_cases hmin : trojanHeaderMin ≤ chunk.length
  swap
  · exact .inl ⟨_, by rw [parseTrojanHeader, if_pos (Nat.not_le.1 hmin)]⟩
  by_cases hcrlf : chunk.slice 56 58 = crlf
  swap
  · exact .inl (parseTrojanHeader_of_no_crlf hcrlf)
  have h60 : 60 < chunk.length := by unfold trojanHeaderMin at hmin; omega
  cases he : addressEnd trojanTypes (chunk.getD 59 0) chunk 60 with
  | none =>
    left
    rw [parseTrojanHeader_of_crlf hmin hcrlf, readAddress_unknown he]
    exact ⟨_, rfl⟩
  | some e =>
    -- whatever the address, the parser looks for the second `CRLF` behind it
    have hread : ∃ text, readAddress trojanTypes "unknown trojan atyp: " (chunk.getD 59 0) chunk
        60 = .ok (text, e) := by
      by_cases h6 : chunk.getD 59 0 = trojanTypes.ipv6
      · have hlen : 60 + 16 ≤ chunk.length := by
          by_contra hlt
          exact hcut ⟨hmin, Nat.not_le.1 hlt, hcrlf, h6⟩
        have hsix : e = 60 + 16 := by
          rw [h6] at he
          cases he
          rfl
        exact readAddress_inside _ he (hsix ▸ hlen)
      · exact readAddress_short _ he h6 h60
    obtain ⟨text, hread⟩ := hread
    by_cases hend : chunk.slice (e + 2) (e + 2 + 2) = crlf
    · right
      have hle := le_of_slice_crlf hend
      obtain ⟨a, htypeByte, haddress⟩ := exists_address he (by omega)
      obtain ⟨h, hchunk⟩ := exists_trojanHeader htypeByte haddress hcrlf hend
      exact ⟨h, _, hchunk⟩
    · left
      rw [parseTrojanHeader_of_crlf hmin hcrlf, hread]
      exact ⟨_, if_pos hend⟩

/-- An IPv6 address that is cut off makes the parser run behind the end. -/
theorem parseTrojanHeader_ipv6_cutOff (hcut : TrojanIpv6CutOff chunk) :
    parseTrojanHeader chunk = .error .indexError := by
  obtain ⟨hmin, hlt, hcrlf, h6⟩ := hcut
  rw [parseTrojanHeader_of_crlf hmin hcrlf, h6, readAddress_ipv6_short hlt]
  rfl

/-- A chunk that starts with a complete header parses to the fields of the header. -/
theorem parseTrojanHeader_encode {h : TrojanHeader} (hchunk : chunk = h.encode ++ payload) :
    parseTrojanHeader chunk = .ok (asciiIgnore h.hash, h.parsed payload) := by
  have hmin : trojanHeaderMin ≤ chunk.length := by
    rw [hchunk, List.length_append]
    exact Nat.le_add_right_of_le h.min_le_encode
  have hparse : Relay.parseTrojanHeader chunk = some (asciiIgnore h.hash, h.parsed payload) := by
    rw [hchunk] at hmin ⊢
    exact h.parse_encode payload hmin
  rw [← parseTrojanHeader_toOption] at hparse
  exact ok_of_toOption hparse

/-- ASCII bytes survive the decoding. -/
theorem ascii_asciiIgnore {b : Bytes} (h : ∀ x ∈ b, x < 128) : Bytes.ascii (asciiIgnore b) = b := by
  have hchar : ∀ n < 128, (Char.ofNat n).toNat = n := by decide +kernel
  have hbyte : ∀ x : UInt8, x < 128 → UInt8.ofNat (Char.ofNat x.toNat).toNat = x := by
    intro x hx
    rw [hchar x.toNat (UInt8.lt_iff_toNat_lt.1 hx), UInt8.ofNat_toNat]
  unfold Bytes.ascii asciiIgnore
  rw [String.toList_ofList, List.map_map, List.filter_eq_self.2 fun x hx => decide_eq_true (h x hx)]
  exact (List.map_congr_left fun x hx => hbyte x (h x hx)).trans (List.map_id b)

/-- The chunk is parsed exactly as the grammar of Trojan headers says. -/
structure TrojanExact (chunk : Bytes) : Prop where
  /-- The parser returns on the chunks that start with a complete header. -/
  accepts_iff : (∃ r, parseTrojanHeader chunk = .ok r) ↔
    ∃ (h : TrojanHeader) (payload : Bytes), chunk = h.encode ++ payload
  /-- It returns the fields of the header and what is behind it. -/
  fields : ∀ (h : TrojanHeader) (payload : Bytes), chunk = h.encode ++ payload →
    ∃ pw_hash, parseTrojanHeader chunk = .ok (pw_hash, h.parsed payload) ∧
      ((∀ x ∈ h.hash, x < 128) → Bytes.ascii pw_hash = h.hash)
  /-- Everything else is refused. -/
  refuses : (¬ ∃ (h : TrojanHeader) (payload : Bytes), chunk = h.encode ++ payload) →
    ∃ msg, parseTrojanHeader chunk = .error (.refused msg)

theorem not_trojanExact (hcut : TrojanIpv6CutOff chunk) : ¬ TrojanExact chunk := by
  intro hexact
  have hindex := parseTrojanHeader_ipv6_cutOff hcut
  by_cases hchunk : ∃ (h : TrojanHeader) (payload : Bytes), chunk = h.encode ++ payload
  · obtain ⟨r, hok⟩ := hexact.accepts_iff.2 hchunk
    rw [hindex] at hok
    cases hok
  · obtain ⟨msg, hrefused⟩ := hexact.refuses hchunk
    rw [hindex] at hrefused
    cases hrefused

/-- The Trojan parser is exact on the chunks that are not cut off inside an IPv6 address, and on no
others. -/
theorem parseTrojanHeader_exact_iff (chunk : Bytes) :
    TrojanExact chunk ↔ ¬ TrojanIpv6CutOff chunk := by
  refine ⟨fun hexact hcut => not_trojanExact hcut hexact, fun hcut => ?_⟩
  obtain ⟨msg, hrefused⟩ | hchunk := parseTrojanHeader_cases hcut
  · have hno : ∀ r, parseTrojanHeader chunk ≠ .ok r := by
      intro r hok
      rw [hrefused] at hok
      cases hok
    have hnone : ¬ ∃ (h : TrojanHeader) (payload : Bytes), chunk = h.encode ++ payload :=
      fun ⟨_, _, hchunk⟩ => hno _ (parseTrojanHeader_encode hchunk)
    exact ⟨⟨fun ⟨r, hok⟩ => absurd hok (hno r), fun hchunk => absurd hchunk hnone⟩,
      fun h payload hchunk => absurd ⟨h, payload, hchunk⟩ hnone, fun _ => ⟨msg, hrefused⟩⟩
  · refine ⟨⟨fun _ => hchunk, fun ⟨h, payload, hchunk⟩ => ⟨_, parseTrojanHeader_encode hchunk⟩⟩,
      fun h payload hchunk => ⟨_, parseTrojanHeader_encode hchunk, ascii_asciiIgnore⟩,
      fun hnone => absurd hchunk hnone⟩

/-- Five bytes of an IPv6 address where the shortest header would end. -/
theorem trojan_ipv6_cutOff :
    let chunk : Bytes := List.replicate 56 48 ++ [13, 10, 1, 4, 32, 1, 13, 184, 0]
    parseTrojanHeader chunk = .error .indexError ∧ ¬ TrojanExact chunk := by
  have hcut : TrojanIpv6CutOff (List.replicate 56 48 ++ [13, 10, 1, 4, 32, 1, 13, 184, 0]) := by
    refine ⟨by decide, by decide, by decide, by decide⟩
  exact ⟨parseTrojanHeader_ipv6_cutOff hcut, not_trojanExact hcut⟩

end Trojan

end Raising

end Relay

end RvgGateway
