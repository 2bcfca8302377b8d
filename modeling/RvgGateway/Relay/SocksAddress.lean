import RvgGateway.Lib.Reading
import RvgGateway.Relay.Headers

/-!
# The address in front of a Shadowsocks stream

The first payload of a Shadowsocks stream starts with the target, in the format of SOCKS5.  Unlike the
parsers of VLESS and of Trojan, `parse_socks5_addr` checks the lengths before it slices.

`parseSocks5Addr_eq_ok_iff` : it accepts exactly the buffers that start with a complete address, and
reads the address and its length off.
-/

namespace RvgGateway

namespace Relay

/-- `parse_socks5_addr`: the address, the port and the length of both, or the text of the
`ValueError`. -/
def parseSocks5Addr (buf : Bytes) : Except String (String × ℕ × ℕ) :=
  if buf.length < 2 then .error "too short"
  else
    let atyp := buf.getD 0 0
    let port := fun pos => Bytes.toNatBE (buf.slice pos (pos + 2))
    if atyp = 1 then
      if buf.length < 1 + 4 + 2 then .error "short ipv4"
      else .ok (Bytes.dotted (buf.slice 1 (1 + 4)), port 5, 7)
    else if atyp = 3 then
      let dlen := (buf.getD 1 0).toNat
      if buf.length < 2 + dlen + 2 then .error "short domain"
      else
        .ok (String.ofList (Bytes.decodeIgnore (buf.slice 2 (2 + dlen))), port (2 + dlen),
          2 + dlen + 2)
    else if atyp = 4 then
      if buf.length < 1 + 16 + 2 then .error "short ipv6"
      else .ok (Bytes.colonHex (buf.slice 1 (1 + 16)), port 17, 19)
    else .error (s!"unknown atyp {atyp}")

/-- A complete address with its port. -/
structure SocksAddress where
  address : Address
  port : Bytes
  port_length : port.length = 2

namespace SocksAddress

/-- The bytes of the address. -/
def encode (h : SocksAddress) : Bytes :=
  h.address.typeByte trojanTypes :: h.address.bytes ++ h.port

/-- What `parse_socks5_addr` is to return for it. -/
def parsed (h : SocksAddress) : String × ℕ × ℕ :=
  (h.address.text, Bytes.toNatBE h.port, h.encode.length)

end SocksAddress

variable {buf : Bytes}

theorem parseSocks5Addr_encode (h : SocksAddress) (rest : Bytes) :
    parseSocks5Addr (h.encode ++ rest) = .ok h.parsed := by
  obtain ⟨address, port, hport⟩ := h
  generalize hbuf : SocksAddress.encode ⟨address, port, hport⟩ ++ rest = buf
  have hdrop : buf.drop 0 = address.typeByte trojanTypes :: (address.bytes ++ (port ++ rest)) := by
    simp [← hbuf, SocksAddress.encode]
  have htype := getD_at hdrop
  have hnext := after_index hdrop
  have hlen : buf.length = 1 + address.bytes.length + 2 + rest.length := by
    simp only [← hbuf, SocksAddress.encode, List.length_append, List.length_cons, hport]
    omega
  cases address with
  | ipv4 b hb =>
    have hbytes : (Address.ipv4 b hb).bytes.length = 4 := hb
    have hslice : buf.slice 1 (1 + 4) = b := slice_at hnext hb
    have hafter : buf.slice 5 (5 + 2) = port := slice_at (after_slice hnext hb) hport
    rw [parseSocks5Addr, if_neg (by omega), htype]
    change (if buf.length < 1 + 4 + 2 then _ else _) = _
    rw [if_neg (by omega), hslice]
    simp [hafter, SocksAddress.parsed, SocksAddress.encode, Address.text, Address.bytes, hb, hport]
  | domain b hb =>
    have hbytes : (Address.domain b hb).bytes.length = 1 + b.length := by
      simp [Address.bytes, Nat.add_comm]
    have hcount : (UInt8.ofNat b.length).toNat = b.length := UInt8.toNat_ofNat_of_lt' hb
    have hslice : buf.slice 2 (2 + b.length) = b := slice_at (after_index hnext) rfl
    have hafter : buf.slice (2 + b.length) (2 + b.length + 2) = port :=
      slice_at (after_slice (after_index hnext) rfl) hport
    have hone : buf.getD 1 0 = UInt8.ofNat b.length := getD_at hnext
    rw [parseSocks5Addr, if_neg (by omega), htype, hone, hcount]
    change (if buf.length < 2 + b.length + 2 then _ else _) = _
    rw [if_neg (by omega)]
    simp [SocksAddress.parsed, SocksAddress.encode, Address.text, Address.bytes, hport, hslice, hafter]
    omega
  | ipv6 b hb =>
    have hbytes : (Address.ipv6 b hb).bytes.length = 16 := hb
    have hslice : buf.slice 1 (1 + 16) = b := slice_at hnext hb
    have hafter : buf.slice 17 (17 + 2) = port := slice_at (after_slice hnext hb) hport
    rw [parseSocks5Addr, if_neg (by omega), htype]
    change (if buf.length < 1 + 16 + 2 then _ else _) = _
    rw [if_neg (by omega), hslice]
    simp [hafter, SocksAddress.parsed, SocksAddress.encode, Address.text, Address.bytes, hb, hport]

/-- A buffer that is long enough for an address of `n` bytes behind the position `pos`, taken apart. -/
theorem drop_address (buf : Bytes) (pos n : ℕ) (hlen : pos + n + 2 ≤ buf.length) :
    buf.drop pos =
        buf.slice pos (pos + n) ++ buf.slice (pos + n) (pos + n + 2) ++ buf.drop (pos + n + 2) ∧
      (buf.slice pos (pos + n)).length = n ∧ (buf.slice (pos + n) (pos + n + 2)).length = 2 := by
  refine ⟨?_, Bytes.length_slice_of_le (by omega), Bytes.length_slice_of_le hlen⟩
  rw [Bytes.drop_slice buf pos n, Bytes.drop_slice buf (pos + n) 2, List.append_assoc]

/-- **What `parse_socks5_addr` accepts**: the buffers that start with a complete address, which it
reads. -/
theorem parseSocks5Addr_eq_ok_iff {r : String × ℕ × ℕ} :
    parseSocks5Addr buf = .ok r ↔
      ∃ (h : SocksAddress) (rest : Bytes), buf = h.encode ++ rest ∧ r = h.parsed := by
  constructor
  · intro h
    suffices hbuf : ∃ (h : SocksAddress) (rest : Bytes), buf = h.encode ++ rest by
      obtain ⟨a, rest, rfl⟩ := hbuf
      rw [parseSocks5Addr_encode] at h
      exact ⟨a, rest, rfl, (Except.ok.inj h).symm⟩
    have htype := Bytes.drop_index (b := buf) (i := 0)
    simp only [parseSocks5Addr] at h
    split_ifs at h with htwo hv4 hlen hname hlen hv6 hlen
    · obtain ⟨hdrop, haddress, hport⟩ := drop_address buf 1 4 (by omega)
      refine ⟨⟨.ipv4 _ haddress, _, hport⟩, buf.drop 7, ?_⟩
      have hbuf := htype (by omega)
      rw [hv4, hdrop] at hbuf
      exact hbuf
    · have hcount := Bytes.drop_index (b := buf) (i := 1) (by omega)
      obtain ⟨hdrop, haddress, hport⟩ :=
        drop_address buf 2 (buf.getD 1 0).toNat (by omega)
      refine ⟨⟨.domain _ (haddress.trans_lt (UInt8.toNat_lt _)), _, hport⟩,
        buf.drop (2 + (buf.getD 1 0).toNat + 2), ?_⟩
      have hbuf := htype (by omega)
      rw [hname, hcount, hdrop] at hbuf
      simp only [SocksAddress.encode, Address.bytes, haddress, UInt8.ofNat_toNat]
      exact hbuf
    · obtain ⟨hdrop, haddress, hport⟩ := drop_address buf 1 16 (by omega)
      refine ⟨⟨.ipv6 _ haddress, _, hport⟩, buf.drop 19, ?_⟩
      have hbuf := htype (by omega)
      rw [hv6, hdrop] at hbuf
      exact hbuf
  · rintro ⟨a, rest, rfl, rfl⟩
    exact parseSocks5Addr_encode a rest

end Relay

end RvgGateway
