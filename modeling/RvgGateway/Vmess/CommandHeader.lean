import RvgGateway.Relay.Grammar
import RvgGateway.Vmess.Header

/-!
# What the command parser accepts

`parse_command_header` of `protocol/vmess/vmess.py` once more, with an `IndexError` behind the end
and a `struct.error` for a slice that is not as wide as its format, and the format of the header:
a body whose parts follow one another, and the checksum of the body.

* `Raising.parseCommandHeader_eq` : the parser raises nothing but its own error, so that it is the
  parser that asks for the length before each access and reads without failing.
* `Raising.parseCommandHeader_exact` : it returns on the byte strings that start with a header,
  returns what the header says, and refuses all others.
-/

namespace RvgGateway

namespace Vmess

open Relay (Address AddressTypes)

/-- The types of addresses of VMess: 1, 2 and 3, as in VLESS. -/
def vmessTypes : AddressTypes := Relay.vlessTypes

namespace Raising

/-- The address of the given type at `pos`, and the position behind it. -/
def parseAddress (payload : Bytes) (atyp : UInt8) (pos : ℕ) : Except Fault (String × ℕ) :=
  if atyp = 0x01 then
    if payload.length < pos + 4 then .error (.refused "short ipv4")
    else .ok (Bytes.dotted (payload.slice pos (pos + 4)), pos + 4)
  else if atyp = 0x02 then
    if payload.length < pos + 1 then .error (.refused "short domain len")
    else do
      let dlen ← payload.index pos
      let pos := pos + 1
      if payload.length < pos + dlen.toNat then .error (.refused "short domain")
      else
        .ok (String.ofList (Bytes.decodeIgnore (payload.slice pos (pos + dlen.toNat))),
          pos + dlen.toNat)
  else if atyp = 0x03 then
    if payload.length < pos + 16 then .error (.refused "short ipv6")
    else do
      let groups ← (payload.slice pos (pos + 16)).hexGroups 0 8
      .ok (String.intercalate ":" groups, pos + 16)
  else .error (.refused ("unknown atyp " ++ toString atyp.toNat))

/-- `parse_command_header`; what is refused is a `VMessError`. -/
def parseCommandHeader (payload : Bytes) : Except Fault VMessRequest :=
  if payload.length < 38 then .error (.refused "command header too short")
  else do
    let version ← payload.index 0
    let body_iv := payload.slice 1 17
    let body_key := payload.slice 17 33
    let response_token ← payload.index 33
    let option ← payload.index 34
    let nibbles ← payload.index 35
    let padding_len := nibbles.toNat >>> 4
    let security := nibbles.toNat &&& 0x0F
    let command ← payload.index 37
    let pos := 38
    if payload.length < pos + 2 then .error (.refused "missing port")
    else
      let port ← Bytes.unpackBE 2 (payload.slice pos (pos + 2))
      let pos := pos + 2
      if payload.length < pos + 1 then .error (.refused "missing atyp")
      else
        let atyp ← payload.index pos
        let pos := pos + 1
        let (address, pos) ← parseAddress payload atyp pos
        let pos := pos + padding_len
        if payload.length < pos + 4 then .error (.refused "missing checksum")
        else
          let checksum ← Bytes.unpackBE 4 (payload.slice pos (pos + 4))
          if fnv1a32 (payload.take pos) ≠ checksum then
            .error (.refused "invalid auth (fnv checksum mismatch)")
          else
            .ok {
              uuid := "", version := version.toNat, bodyKey := body_key, bodyIv := body_iv
              responseToken := response_token.toNat, option := option.toNat
              paddingLen := padding_len, security, command := command.toNat, address, port }

/-! ### Nothing but its own error -/

/-- The exception of the parser as one of the module's. -/
def liftRefused {α : Type} : Except Fault α → Option (Except Exc α)
  | .ok a => some (.ok a)
  | .error (.refused msg) => some (.error (.vmessError msg))
  | .error _ => none

section Refusals

variable {payload : Bytes}

theorem parseAddress_eq (payload : Bytes) (atyp : UInt8) (pos : ℕ) :
    liftRefused (parseAddress payload atyp pos) =
      some (Vmess.parseAddress payload atyp.toNat pos) := by
  have hatyp1 : atyp.toNat = 0x01 ↔ atyp = 0x01 := UInt8.toNat_inj (b := 0x01)
  have hatyp2 : atyp.toNat = 0x02 ↔ atyp = 0x02 := UInt8.toNat_inj (b := 0x02)
  have hatyp3 : atyp.toNat = 0x03 ↔ atyp = 0x03 := UInt8.toNat_inj (b := 0x03)
  unfold parseAddress Vmess.parseAddress
  simp only [hatyp1, hatyp2, hatyp3]
  split_ifs with h1 hlen h2 hlen hlen' h3 hlen
  · rfl
  · rfl
  · rfl
  · rw [Bytes.index_of_lt (Nat.not_lt.1 hlen)]
    simp only [bind, Except.bind, if_pos hlen', liftRefused]
  · rw [Bytes.index_of_lt (Nat.not_lt.1 hlen)]
    simp only [bind, Except.bind, if_neg hlen', liftRefused]
  · rfl
  · have hslice : (payload.slice pos (pos + 16)).length = 16 :=
      Bytes.length_slice_of_le (Nat.not_lt.1 hlen)
    rw [Bytes.hexGroups_of_le (by omega), List.drop_zero, List.take_of_length_le (by omega)]
    rfl
  · rfl

/-- Behind the address: the checksum. -/
def checkSum (payload : Bytes) (r : String × ℕ) : Except Fault VMessRequest :=
  let pos := r.2 + (payload.getD 35 0).toNat >>> 4
  if payload.length < pos + 4 then .error (.refused "missing checksum")
  else if fnv1a32 (payload.take pos) ≠ Bytes.toNatBE (payload.slice pos (pos + 4)) then
    .error (.refused "invalid auth (fnv checksum mismatch)")
  else .ok {
    uuid := "", version := (payload.getD 0 0).toNat
    bodyKey := payload.slice 17 33, bodyIv := payload.slice 1 17
    responseToken := (payload.getD 33 0).toNat, option := (payload.getD 34 0).toNat
    paddingLen := (payload.getD 35 0).toNat >>> 4, security := (payload.getD 35 0).toNat &&& 0x0F
    command := (payload.getD 37 0).toNat, address := r.1
    port := Bytes.toNatBE (payload.slice 38 40) }

/-- The parser is at the address when the byte with its type is there. -/
theorem parseCommandHeader_of_le (h41 : 41 ≤ payload.length) :
    parseCommandHeader payload =
      (parseAddress payload (payload.getD 40 0) 41).bind (checkSum payload) := by
  have hindex : ∀ i < 41, payload.index i = .ok (payload.getD i 0) :=
    fun i hi => Bytes.index_of_lt (by omega)
  have hport : (payload.slice 38 40).length = 2 := Bytes.length_slice_of_le (n := 2) (by omega)
  have h38 : ¬ payload.length < 38 := by omega
  have h40 : ¬ payload.length < 40 := by omega
  unfold parseCommandHeader
  rw [if_neg h38, hindex 0 (by decide), hindex 33 (by decide), hindex 34 (by decide),
    hindex 35 (by decide), hindex 37 (by decide)]
  simp only [bind, Except.bind, Nat.reduceAdd, if_neg h40, Bytes.unpackBE_of_length hport,
    if_neg (Nat.not_lt.2 h41), hindex 40 (by decide)]
  cases parseAddress payload (payload.getD 40 0) 41 with
  | error e => rfl
  | ok r =>
    unfold checkSum
    dsimp only
    by_cases hshort : payload.length < r.2 + (payload.getD 35 0).toNat >>> 4 + 4
    · rw [if_pos hshort, if_pos hshort]
    · rw [if_neg hshort, if_neg hshort,
        Bytes.unpackBE_of_length (Bytes.length_slice_of_le (Nat.not_lt.1 hshort))]

/-- Without the byte with the type of the address a header is refused. -/
theorem parseCommandHeader_short (h41 : payload.length < 41) :
    ∃ msg, parseCommandHeader payload = .error (.refused msg) ∧
      Vmess.parseCommandHeader payload = .error (.vmessError msg) := by
  unfold parseCommandHeader Vmess.parseCommandHeader
  by_cases h38 : payload.length < 38
  · rw [if_pos h38, if_pos h38]
    exact ⟨_, rfl, rfl⟩
  have hindex : ∀ i < 38, payload.index i = .ok (payload.getD i 0) :=
    fun i hi => Bytes.index_of_lt (by omega)
  rw [if_neg h38, if_neg h38, hindex 0 (by decide), hindex 33 (by decide), hindex 34 (by decide),
    hindex 35 (by decide), hindex 37 (by decide)]
  simp only [bind, Except.bind, Nat.reduceAdd]
  by_cases h40 : payload.length < 40
  · rw [if_pos h40, if_pos h40]
    exact ⟨_, rfl, rfl⟩
  have hport : (payload.slice 38 40).length = 2 := Bytes.length_slice_of_le (n := 2) (by omega)
  rw [if_neg h40, if_neg h40, Bytes.unpackBE_of_length hport]
  simp only [if_pos h41]
  exact ⟨_, rfl, rfl⟩

/-- The parser raises nothing but its own error, and is the parser that reads without failing. -/
theorem parseCommandHeader_eq (payload : Bytes) :
    liftRefused (parseCommandHeader payload) = some (Vmess.parseCommandHeader payload) := by
  by_cases h41 : payload.length < 41
  · obtain ⟨msg, hnew, hold⟩ := parseCommandHeader_short h41
    rw [hnew, hold]
    rfl
  have h38 : ¬ payload.length < 38 := by omega
  have h40 : ¬ payload.length < 40 := by omega
  rw [parseCommandHeader_of_le (Nat.not_lt.1 h41), Vmess.parseCommandHeader, if_neg h38]
  simp only [Nat.reduceAdd, if_neg h40, if_neg h41]
  have haddress := parseAddress_eq payload (payload.getD 40 0) 41
  cases hres : parseAddress payload (payload.getD 40 0) 41 with
  | error e =>
    rw [hres] at haddress
    cases e with
    | refused msg =>
      rw [← Option.some.inj haddress]
      rfl
    | indexError => cases haddress
    | structError => cases haddress
  | ok r =>
    rw [hres] at haddress
    rw [← Option.some.inj haddress]
    simp only [Except.bind, checkSum]
    by_cases hshort : payload.length < r.2 + (payload.getD 35 0).toNat >>> 4 + 4
    · rw [if_pos hshort, if_pos hshort]
      rfl
    rw [if_neg hshort, if_neg hshort]
    split_ifs
    · rfl
    · rfl

end Refusals

end Raising

/-! ### Complete headers -/

/-- A command header as a client writes it. -/
structure CommandHeader where
  version : UInt8
  iv : Bytes
  key : Bytes
  token : UInt8
  option : UInt8
  /-- The padding; its length is the upper half of a byte. -/
  padding : Bytes
  /-- The lower half of that byte. -/
  security : ℕ
  reserved : UInt8
  command : UInt8
  port : Bytes
  address : Address
  iv_length : iv.length = 16
  key_length : key.length = 16
  padding_length : padding.length < 16
  security_lt : security < 16
  port_length : port.length = 2

namespace CommandHeader

/-- What the checksum is taken of. -/
def body (h : CommandHeader) : Bytes :=
  h.version :: h.iv ++ h.key ++ h.token :: h.option ::
    UInt8.ofNat (h.padding.length * 16 + h.security) :: h.reserved :: h.command :: h.port ++
      h.address.typeByte vmessTypes :: h.address.bytes ++ h.padding

/-- The bytes of the header. -/
def encode (h : CommandHeader) : Bytes := h.body ++ Bytes.ofNatBE 4 (fnv1a32 h.body)

/-- What the header asks for. -/
def request (h : CommandHeader) : VMessRequest where
  uuid := ""
  version := h.version.toNat
  bodyKey := h.key
  bodyIv := h.iv
  responseToken := h.token.toNat
  option := h.option.toNat
  paddingLen := h.padding.length
  security := h.security
  command := h.command.toNat
  address := h.address.text
  port := Bytes.toNatBE h.port

theorem length_body (h : CommandHeader) :
    h.body.length = 41 + h.address.bytes.length + h.padding.length := by
  have hiv := h.iv_length
  have hkey := h.key_length
  have hport := h.port_length
  simp only [body, List.length_append, List.length_cons]
  omega

end CommandHeader

theorem fnv1a32_lt (data : Bytes) : fnv1a32 data < 256 ^ 4 := by
  have hstep : ∀ h, h < 256 ^ 4 →
      data.foldl (fun h b => ((h ^^^ b.toNat) * 0x01000193) &&& 0xFFFFFFFF) h < 256 ^ 4 := by
    induction data with
    | nil => exact fun h hlt => hlt
    | cons b data ih =>
      intro h _
      exact ih _ (Nat.lt_of_le_of_lt Nat.and_le_right (by decide))
  exact hstep _ (by decide)

namespace Raising

open Relay.Raising (addressEnd readAddress addressEnd_at readAddress_at readAddress_unknown
  readAddress_inside exists_address)
open Relay (getD_at after_index slice_at after_slice)

section Format

variable {payload rest : Bytes}

/-- An address that does not end behind the header is read as the other parsers read it. -/
theorem parseAddress_of_le {atyp : UInt8} {pos : ℕ}
    (h : ∀ e, addressEnd vmessTypes atyp payload pos = some e → e ≤ payload.length) :
    parseAddress payload atyp pos = readAddress vmessTypes "unknown atyp " atyp payload pos := by
  unfold parseAddress
  unfold addressEnd at h
  split_ifs with h1 hshort h2 hlen h3 hshort
  · have hle := h (pos + 4) (if_pos h1)
    omega
  · rw [readAddress, if_pos (show atyp = vmessTypes.ipv4 from h1)]
  · have hle := h _ ((if_neg h1).trans (if_pos h2))
    omega
  · have hle := h _ ((if_neg h1).trans (if_pos h2))
    rw [readAddress, if_neg (show ¬ atyp = vmessTypes.ipv4 from h1),
      if_pos (show atyp = vmessTypes.domain from h2), Bytes.index_of_lt (Nat.not_lt.1 hlen)]
    exact if_neg (Nat.not_lt.2 hle)
  · have hle := h _ ((if_neg h1).trans ((if_neg h2).trans (if_pos h3)))
    omega
  · rw [readAddress, if_neg (show ¬ atyp = vmessTypes.ipv4 from h1),
      if_neg (show ¬ atyp = vmessTypes.domain from h2),
      if_pos (show atyp = vmessTypes.ipv6 from h3)]
  · rw [readAddress, if_neg (show ¬ atyp = vmessTypes.ipv4 from h1),
      if_neg (show ¬ atyp = vmessTypes.domain from h2),
      if_neg (show ¬ atyp = vmessTypes.ipv6 from h3)]

/-- An address that ends behind the header is refused. -/
theorem parseAddress_short {atyp : UInt8} {pos e : ℕ}
    (h : addressEnd vmessTypes atyp payload pos = some e) (he : payload.length < e) :
    ∃ msg, parseAddress payload atyp pos = .error (.refused msg) := by
  unfold addressEnd at h
  unfold parseAddress
  split_ifs at h with h1 h2 h3
  · cases h
    rw [if_pos (show atyp = 0x01 from h1), if_pos he]
    exact ⟨_, rfl⟩
  · cases h
    rw [if_neg (show ¬ atyp = 0x01 from h1), if_pos (show atyp = 0x02 from h2)]
    by_cases hlen : payload.length < pos + 1
    · rw [if_pos hlen]
      exact ⟨_, rfl⟩
    · rw [if_neg hlen, Bytes.index_of_lt (Nat.not_lt.1 hlen)]
      exact ⟨_, if_pos he⟩
  · cases h
    rw [if_neg (show ¬ atyp = 0x01 from h1), if_neg (show ¬ atyp = 0x02 from h2),
      if_pos (show atyp = 0x03 from h3), if_pos he]
    exact ⟨_, rfl⟩

/-- A header that is there is parsed to what it asks for. -/
theorem parseCommandHeader_encode {h : CommandHeader} (hpayload : payload = h.encode ++ rest) :
    parseCommandHeader payload = .ok h.request := by
  have h0 : payload.drop 0 = h.version :: (h.iv ++ (h.key ++ (h.token :: h.option ::
      UInt8.ofNat (h.padding.length * 16 + h.security) :: h.reserved :: h.command :: (h.port ++
        (h.address.typeByte vmessTypes :: (h.address.bytes ++ (h.padding ++
          (Bytes.ofNatBE 4 (fnv1a32 h.body) ++ rest)))))))) := by
    rw [hpayload]; simp [CommandHeader.encode, CommandHeader.body]
  -- the suffixes of the header at the positions that the parser visits
  have h1 := after_index h0
  have h17 := after_slice h1 h.iv_length
  have h33 := after_slice h17 h.key_length
  have h34 := after_index h33
  have h35 := after_index h34
  have h37 := after_index (after_index h35)
  have h38 := after_index h37
  have h40 := after_slice h38 h.port_length
  have h41 := after_index h40
  have hlen : payload.length = h.body.length + 4 + rest.length := by
    rw [hpayload, CommandHeader.encode, List.length_append, List.length_append,
      Bytes.length_ofNatBE]
  have hbody := h.length_body
  have hpadding := h.padding_length
  have hsecurity := h.security_lt
  have hnibbles : (payload.getD 35 0).toNat = h.padding.length * 16 + h.security := by
    rw [getD_at h35, UInt8.toNat_ofNat']
    omega
  have hupper : (payload.getD 35 0).toNat >>> 4 = h.padding.length := by
    rw [hnibbles, Nat.shiftRight_eq_div_pow]
    omega
  have hlower : (payload.getD 35 0).toNat &&& 0x0F = h.security := by
    rw [hnibbles, show 0x0F = 2 ^ 4 - 1 from rfl, Nat.and_two_pow_sub_one_eq_mod]
    omega
  have hpos : 41 + h.address.bytes.length + h.padding.length = h.body.length := hbody.symm
  have hsum : payload.slice h.body.length (h.body.length + 4) =
      Bytes.ofNatBE 4 (fnv1a32 h.body) := by
    have hbehind := after_slice (after_slice h41 rfl) rfl
    rw [show 40 + 1 + h.address.bytes.length + h.padding.length = h.body.length from hpos]
      at hbehind
    exact slice_at hbehind (Bytes.length_ofNatBE _ _)
  have htake : payload.take h.body.length = h.body := by
    rw [hpayload, CommandHeader.encode, List.append_assoc, List.take_left]
  have haddress : parseAddress payload (payload.getD 40 0) 41 =
      .ok (h.address.text, 41 + h.address.bytes.length) := by
    rw [getD_at h40, parseAddress_of_le, readAddress_at h41]
    intro e he
    rw [addressEnd_at h41] at he
    cases he
    omega
  have hcheck : fnv1a32 h.body = Bytes.toNatBE (Bytes.ofNatBE 4 (fnv1a32 h.body)) := by
    rw [Bytes.toNatBE_ofNatBE, Nat.mod_eq_of_lt (fnv1a32_lt _)]
  rw [parseCommandHeader_of_le (by omega), haddress]
  simp only [Except.bind, checkSum, hupper, hlower, hpos, htake, hsum]
  rw [if_neg (by omega), if_neg (not_not.2 hcheck), getD_at h0, getD_at h33,
    getD_at h34, getD_at h37, slice_at h1 h.iv_length, slice_at h17 h.key_length,
    slice_at h38 h.port_length]
  rfl

/-- A byte string whose parts are all there starts with what a checksum is taken of. -/
theorem exists_body {a : Address} {e n : ℕ} (hn : (payload.getD 35 0).toNat >>> 4 = n)
    (htypeByte : a.typeByte vmessTypes = payload.getD 40 0)
    (haddress : payload.drop 41 = a.bytes ++ payload.drop e) (hfits : e + n ≤ payload.length)
    (h41 : 41 ≤ payload.length) :
    ∃ h : CommandHeader, payload = h.body ++ payload.drop (e + n) := by
  have hnibble := UInt8.toNat_lt (payload.getD 35 0)
  rw [Nat.shiftRight_eq_div_pow] at hn
  have hn_lt : n < 16 := by omega
  have hpadding : (payload.slice e (e + n)).length = n := Bytes.length_slice_of_le hfits
  have hnibbles : UInt8.ofNat (n * 16 + (payload.getD 35 0).toNat % 16) = payload.getD 35 0 := by
    apply UInt8.toNat_inj.1
    rw [UInt8.toNat_ofNat']
    omega
  refine ⟨{
    version := payload.getD 0 0
    iv := payload.slice 1 (1 + 16)
    key := payload.slice 17 (17 + 16)
    token := payload.getD 33 0
    option := payload.getD 34 0
    padding := payload.slice e (e + n)
    security := (payload.getD 35 0).toNat % 16
    reserved := payload.getD 36 0
    command := payload.getD 37 0
    port := payload.slice 38 (38 + 2)
    address := a
    iv_length := Bytes.length_slice_of_le (by omega)
    key_length := Bytes.length_slice_of_le (by omega)
    padding_length := by rwa [hpadding]
    security_lt := Nat.mod_lt _ (by decide)
    port_length := Bytes.length_slice_of_le (by omega) }, ?_⟩
  -- the header field by field, from the first
  have h0 : payload.drop 0 = payload.getD 0 0 :: payload.drop 1 := Bytes.drop_index (by omega)
  have h1 : payload.drop 1 = payload.slice 1 (1 + 16) ++ payload.drop 17 :=
    Bytes.drop_slice payload 1 16
  have h17 : payload.drop 17 = payload.slice 17 (17 + 16) ++ payload.drop 33 :=
    Bytes.drop_slice payload 17 16
  have h33 : payload.drop 33 = payload.getD 33 0 :: payload.drop 34 := Bytes.drop_index (by omega)
  have h34 : payload.drop 34 = payload.getD 34 0 :: payload.drop 35 := Bytes.drop_index (by omega)
  have h35 : payload.drop 35 = payload.getD 35 0 :: payload.drop 36 := Bytes.drop_index (by omega)
  have h36 : payload.drop 36 = payload.getD 36 0 :: payload.drop 37 := Bytes.drop_index (by omega)
  have h37 : payload.drop 37 = payload.getD 37 0 :: payload.drop 38 := Bytes.drop_index (by omega)
  have h38 : payload.drop 38 = payload.slice 38 (38 + 2) ++ payload.drop 40 :=
    Bytes.drop_slice payload 38 2
  have h40 : payload.drop 40 = payload.getD 40 0 :: payload.drop 41 := Bytes.drop_index (by omega)
  have hpad := Bytes.drop_slice payload e n
  simp only [CommandHeader.body, List.cons_append, List.append_assoc, htypeByte, hpadding,
    hnibbles]
  rw [← hpad, ← haddress, ← h40, ← h38, ← h37, ← h36, ← h35, ← h34, ← h33, ← h17, ← h1, ← h0]
  rfl

/-- With the checksum of that behind it, it starts with a header. -/
theorem exists_commandHeader {a : Address} {e n : ℕ} (hn : (payload.getD 35 0).toNat >>> 4 = n)
    (htypeByte : a.typeByte vmessTypes = payload.getD 40 0)
    (haddress : payload.drop 41 = a.bytes ++ payload.drop e)
    (hfits : e + n + 4 ≤ payload.length)
    (hsum : fnv1a32 (payload.take (e + n)) =
      Bytes.toNatBE (payload.slice (e + n) (e + n + 4))) :
    ∃ (h : CommandHeader) (rest : Bytes), payload = h.encode ++ rest := by
  have h41 : 41 ≤ payload.length := by
    by_contra hlt
    have hlen := congrArg List.length haddress
    simp only [List.length_drop, List.length_append] at hlen
    omega
  obtain ⟨h, hbody⟩ := exists_body hn htypeByte haddress (by omega) h41
  have htake : payload.take (e + n) = h.body := by
    have hsplit := List.take_append_drop (e + n) payload
    exact List.append_cancel_right (hsplit.trans hbody)
  have hfour : (payload.slice (e + n) (e + n + 4)).length = 4 :=
    Bytes.length_slice_of_le hfits
  have hchecksum : payload.slice (e + n) (e + n + 4) = Bytes.ofNatBE 4 (fnv1a32 h.body) := by
    have hbytes := Bytes.ofNatBE_toNatBE (payload.slice (e + n) (e + n + 4))
    rw [hfour, ← hsum, htake] at hbytes
    exact hbytes.symm
  refine ⟨h, payload.drop (e + n + 4), ?_⟩
  rw [CommandHeader.encode, List.append_assoc, ← hchecksum, ← Bytes.drop_slice, ← hbody]

/-- A byte string that does not start with a header is refused. -/
theorem parseCommandHeader_cases (payload : Bytes) :
    (∃ msg, parseCommandHeader payload = .error (.refused msg)) ∨
      ∃ (h : CommandHeader) (rest : Bytes), payload = h.encode ++ rest := by
  by_cases h41 : payload.length < 41
  · obtain ⟨msg, hrefused, -⟩ := parseCommandHeader_short h41
    exact .inl ⟨msg, hrefused⟩
  rw [parseCommandHeader_of_le (Nat.not_lt.1 h41)]
  cases he : addressEnd vmessTypes (payload.getD 40 0) payload 41 with
  | none =>
    left
    have hends : ∀ e', addressEnd vmessTypes (payload.getD 40 0) payload 41 = some e' →
        e' ≤ payload.length := by
      intro e' he'
      cases he.symm.trans he'
    rw [parseAddress_of_le hends, readAddress_unknown he]
    exact ⟨_, rfl⟩
  | some e =>
    by_cases hle : e ≤ payload.length
    swap
    · left
      obtain ⟨msg, hrefused⟩ := parseAddress_short he (Nat.not_le.1 hle)
      rw [hrefused]
      exact ⟨_, rfl⟩
    obtain ⟨a, htypeByte, haddress⟩ := exists_address he hle
    have hends : ∀ e', addressEnd vmessTypes (payload.getD 40 0) payload 41 = some e' →
        e' ≤ payload.length := by
      intro e' he'
      cases he.symm.trans he'
      exact hle
    obtain ⟨text, hread⟩ := readAddress_inside "unknown atyp " he hle
    rw [parseAddress_of_le hends, hread]
    generalize hn : (payload.getD 35 0).toNat >>> 4 = n
    simp only [Except.bind, checkSum, hn]
    by_cases hshort : payload.length < e + n + 4
    · rw [if_pos hshort]
      exact .inl ⟨_, rfl⟩
    by_cases hsum : fnv1a32 (payload.take (e + n)) =
        Bytes.toNatBE (payload.slice (e + n) (e + n + 4))
    swap
    · rw [if_neg hshort, if_pos hsum]
      exact .inl ⟨_, rfl⟩
    exact .inr (exists_commandHeader hn htypeByte haddress (Nat.not_lt.1 hshort) hsum)

end Format

/-- The byte string is parsed exactly as the format of command headers says. -/
structure CommandExact (payload : Bytes) : Prop where
  /-- The parser returns on the byte strings that start with a header. -/
  accepts_iff : (∃ r, parseCommandHeader payload = .ok r) ↔
    ∃ (h : CommandHeader) (rest : Bytes), payload = h.encode ++ rest
  /-- It returns what the header says. -/
  fields : ∀ (h : CommandHeader) (rest : Bytes), payload = h.encode ++ rest →
    parseCommandHeader payload = .ok h.request
  /-- Everything else is refused. -/
  refuses : (¬ ∃ (h : CommandHeader) (rest : Bytes), payload = h.encode ++ rest) →
    ∃ msg, parseCommandHeader payload = .error (.refused msg)

/-- The command parser is exact. -/
theorem parseCommandHeader_exact (payload : Bytes) : CommandExact payload := by
  refine ⟨⟨fun ⟨r, hok⟩ => ?_, fun ⟨h, rest, hpayload⟩ => ⟨_, parseCommandHeader_encode hpayload⟩⟩,
    fun h rest hpayload => parseCommandHeader_encode hpayload, fun hnone => ?_⟩
  · obtain ⟨msg, hrefused⟩ | hpayload := parseCommandHeader_cases payload
    · rw [hok] at hrefused
      cases hrefused
    · exact hpayload
  · exact (parseCommandHeader_cases payload).resolve_right hnone

end Raising

end Vmess

end RvgGateway
