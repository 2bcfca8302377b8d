import RvgGateway.Lib.Dialogue
import RvgGateway.Relay.Headers

/-!
# The SOCKS5 negotiation of the Zeus proxy

`_handle_client` of `zeussocks5.py` from the greeting to the tunnel: the choice of a method, the user
name and the password, and the request for a target.  A failure at any stage is answered, if at all,
and ends the connection.

* `handleClient` : the dialogue with a client; it returns the target of the tunnel.
* `Socks5Request` : all that a client says, as it stands on the wire.
* `greet_done`, `authenticate_done`, `readTarget_done` : what each stage takes and sends.
* `tunnel_iff` : **a tunnel is opened exactly for a complete request with the credentials in force,
  however it is cut into pieces, and what follows the request is what the tunnel forwards.**
-/

namespace RvgGateway

namespace Zeus

open Dialogue (readExactly send stop)

/-- `_creds`; both are gone when there is no proxy. -/
structure Creds where
  user : Option String
  password : Option String

/-- `b.decode(errors="ignore")`. -/
def decodeText (b : Bytes) : String := String.ofList (Bytes.decodeIgnore b)

/-! ### The dialogue -/

/-- Stage 1: the methods of the client. -/
def greet : Dialogue Unit := do
  let head ← readExactly 2
  if head.getD 0 0 ≠ 0x05 then stop
  else do
    let methods ← readExactly (head.getD 1 0).toNat
    if 0x02 ∉ methods then do
      send [0x05, 0xff]
      stop
    else send [0x05, 0x02]

/-- Stage 2: the user name and the password; the version byte is not looked at. -/
def authenticate (creds : Creds) : Dialogue Unit := do
  let authHead ← readExactly 2
  let uname ← readExactly (authHead.getD 1 0).toNat
  let plen ← readExactly 1
  let passwd ← readExactly (plen.getD 0 0).toNat
  if some (decodeText uname) ≠ creds.user ∨ some (decodeText passwd) ≠ creds.password then do
    send [0x01, 0x01]
    stop
  else send [0x01, 0x00]

/-- The reply to a request, with an address of zeros. -/
def reply (code : UInt8) : Bytes := [0x05, code, 0x00, 0x01, 0x00, 0x00, 0x00, 0x00, 0x00, 0x00]

/-- The branches for the type of the address; `inetNtop` is `socket.inet_ntop` for IPv6. -/
def readDstAddr (inetNtop : Bytes → String) (atyp : UInt8) : Dialogue String :=
  if atyp = 0x01 then do
    let addrBytes ← readExactly 4
    return Bytes.dotted addrBytes
  else if atyp = 0x03 then do
    let dlen ← readExactly 1
    let name ← readExactly (dlen.getD 0 0).toNat
    return decodeText name
  else if atyp = 0x04 then do
    let addrBytes ← readExactly 16
    return inetNtop addrBytes
  else do
    send (reply 0x08)
    stop

/-- Stage 3: the request for a connection. -/
def readTarget (inetNtop : Bytes → String) : Dialogue (String × ℕ) := do
  let reqHead ← readExactly 4
  if reqHead.getD 0 0 ≠ 0x05 ∨ reqHead.getD 1 0 ≠ 0x01 then do
    send (reply 0x07)
    stop
  else do
    let dstAddr ← readDstAddr inetNtop (reqHead.getD 3 0)
    let portBytes ← readExactly 2
    return (dstAddr, Bytes.toNatBE portBytes)

/-- `_handle_client` until the tunnel is open.  `creds` are those in force when the password has
arrived, and `dial` says whether `open_connection` succeeds within its ten seconds. -/
def handleClient (creds : Creds) (inetNtop : Bytes → String) (dial : String × ℕ → Bool) :
    Dialogue (String × ℕ) := do
  greet
  authenticate creds
  let target ← readTarget inetNtop
  if dial target then do
    send (reply 0x00)
    return target
  else do
    send (reply 0x05)
    stop

/-! ### What a client says -/

/-- The text of an address. -/
def addressText (inetNtop : Bytes → String) : Relay.Address → String
  | .ipv4 b _ => Bytes.dotted b
  | .domain b _ => decodeText b
  | .ipv6 b _ => inetNtop b

/-- The three messages of a client, in which the fields that the server does not look at are
arbitrary. -/
structure Socks5Request where
  methods : Bytes
  authVersion : UInt8
  uname : Bytes
  passwd : Bytes
  rsv : UInt8
  address : Relay.Address
  port : Bytes
  methods_lt : methods.length < 256
  uname_lt : uname.length < 256
  passwd_lt : passwd.length < 256
  port_length : port.length = 2

namespace Socks5Request

variable (r : Socks5Request)

def greeting : Bytes := 0x05 :: UInt8.ofNat r.methods.length :: r.methods

def credentials : Bytes :=
  r.authVersion :: UInt8.ofNat r.uname.length :: r.uname ++
    UInt8.ofNat r.passwd.length :: r.passwd

def request : Bytes :=
  0x05 :: 0x01 :: r.rsv :: r.address.typeByte Relay.trojanTypes :: r.address.bytes ++ r.port

/-- The bytes on the wire. -/
def encode : Bytes := r.greeting ++ r.credentials ++ r.request

/-- The client offers the method of the server and knows the credentials. -/
def Authentic (creds : Creds) : Prop :=
  0x02 ∈ r.methods ∧ some (decodeText r.uname) = creds.user ∧
    some (decodeText r.passwd) = creds.password

/-- What is dialled. -/
def target (inetNtop : Bytes → String) : String × ℕ :=
  (addressText inetNtop r.address, Bytes.toNatBE r.port)

end Socks5Request

/-! ### The stages -/

section Stages

variable {s w rest : Bytes} {creds : Creds} {inetNtop : Bytes → String}

/-- Two bytes of which the second counts what follows. -/
theorem exists_counted {b : Bytes} (hb : b.length = 2) {x : Bytes}
    (hx : x.length = (b.getD 1 0).toNat) :
    x.length < 256 ∧ b = [b.getD 0 0, UInt8.ofNat x.length] := by
  obtain ⟨v, n, rfl⟩ := List.length_eq_two.1 hb
  have hx' : x.length = n.toNat := hx
  exact ⟨hx' ▸ n.toNat_lt, by simp [hx']⟩

/-- One byte that counts what follows. -/
theorem exists_count {b : Bytes} (hb : b.length = 1) {x : Bytes}
    (hx : x.length = (b.getD 0 0).toNat) : x.length < 256 ∧ b = [UInt8.ofNat x.length] := by
  obtain ⟨n, rfl⟩ := List.length_eq_one_iff.1 hb
  have hx' : x.length = n.toNat := hx
  exact ⟨hx' ▸ n.toNat_lt, by simp [hx']⟩

theorem greet_done : greet.settle w = ⟨s, .done (), rest⟩ ↔
    ∃ methods : Bytes, methods.length < 256 ∧ 0x02 ∈ methods ∧
      w = 0x05 :: UInt8.ofNat methods.length :: methods ++ rest ∧ s = [0x05, 0x02] := by
  unfold greet
  rw [Dialogue.settle_readExactly_done]
  constructor
  · rintro ⟨head, v, hhead, rfl, h⟩
    split_ifs at h with h5
    · exact absurd h Dialogue.settle_stop_done
    rw [Dialogue.settle_readExactly_done] at h
    obtain ⟨methods, v, hmethods, rfl, h⟩ := h
    by_cases h2 : 0x02 ∈ methods
    · rw [if_neg (not_not.2 h2), Dialogue.settle_send] at h
      obtain ⟨hlt, hb⟩ := exists_counted hhead hmethods
      rw [not_not.1 h5] at hb
      cases h
      exact ⟨methods, hlt, h2, by rw [hb]; rfl, rfl⟩
    · rw [if_pos h2] at h
      exact absurd h Dialogue.settle_refuse_done
  · rintro ⟨methods, hlt, h2, rfl, rfl⟩
    refine ⟨[0x05, UInt8.ofNat methods.length], methods ++ rest, rfl, rfl, ?_⟩
    rw [if_neg (by simp)]
    refine Dialogue.settle_readExactly_done.2
      ⟨methods, rest, (UInt8.toNat_ofNat_of_lt' hlt).symm, rfl, ?_⟩
    rw [if_neg (not_not.2 h2)]
    rfl

theorem authenticate_done : (authenticate creds).settle w = ⟨s, .done (), rest⟩ ↔
    ∃ (version : UInt8) (uname passwd : Bytes), uname.length < 256 ∧ passwd.length < 256 ∧
      some (decodeText uname) = creds.user ∧ some (decodeText passwd) = creds.password ∧
      w = version :: UInt8.ofNat uname.length :: uname ++
        UInt8.ofNat passwd.length :: passwd ++ rest ∧ s = [0x01, 0x00] := by
  unfold authenticate
  simp only [Dialogue.settle_readExactly_done]
  constructor
  · rintro ⟨head, v, hhead, rfl, uname, v, huname, rfl, plen, v, hplen, rfl, passwd, v, hpasswd, rfl,
      h⟩
    split_ifs at h with hcreds
    · exact absurd h Dialogue.settle_refuse_done
    obtain ⟨hulen, hub⟩ := exists_counted hhead huname
    obtain ⟨hplt, hpb⟩ := exists_count hplen hpasswd
    obtain ⟨huser, hpass⟩ := not_or.1 hcreds
    rw [Dialogue.settle_send] at h
    cases h
    refine ⟨head.getD 0 0, uname, passwd, hulen, hplt, not_not.1 huser, not_not.1 hpass, ?_, rfl⟩
    rw [hpb]
    nth_rewrite 1 [hub]
    simp
  · rintro ⟨version, uname, passwd, hulen, hplt, huser, hpass, rfl, rfl⟩
    refine ⟨[version, UInt8.ofNat uname.length], _, rfl, by simp; rfl, uname,
      [UInt8.ofNat passwd.length] ++ (passwd ++ rest), (UInt8.toNat_ofNat_of_lt' hulen).symm, by simp,
      [UInt8.ofNat passwd.length], passwd ++ rest, rfl, rfl, passwd, rest,
      (UInt8.toNat_ofNat_of_lt' hplt).symm, rfl, ?_⟩
    rw [if_neg (not_or.2 ⟨not_not.2 huser, not_not.2 hpass⟩)]
    rfl

theorem readDstAddr_done {atyp : UInt8} {dst : String} :
    (readDstAddr inetNtop atyp).settle w = ⟨s, .done dst, rest⟩ ↔
      ∃ a : Relay.Address, atyp = a.typeByte Relay.trojanTypes ∧ w = a.bytes ++ rest ∧
        dst = addressText inetNtop a ∧ s = [] := by
  unfold readDstAddr
  constructor
  · intro h
    split_ifs at h with h1 h3 h4
    · rw [Dialogue.settle_readExactly_done] at h
      obtain ⟨b, v, hb, rfl, h⟩ := h
      cases h
      exact ⟨.ipv4 b hb, h1, rfl, rfl, rfl⟩
    · simp only [Dialogue.settle_readExactly_done] at h
      obtain ⟨dlen, v, hdlen, rfl, b, v, hb, rfl, h⟩ := h
      obtain ⟨hlt, rfl⟩ := exists_count hdlen hb
      cases h
      exact ⟨.domain b hlt, h3, rfl, rfl, rfl⟩
    · rw [Dialogue.settle_readExactly_done] at h
      obtain ⟨b, v, hb, rfl, h⟩ := h
      cases h
      exact ⟨.ipv6 b hb, h4, rfl, rfl, rfl⟩
    · exact absurd h Dialogue.settle_refuse_done
  · rintro ⟨a, rfl, rfl, rfl, rfl⟩
    cases a with
    | ipv4 b hb =>
      have htype : (Relay.Address.ipv4 b hb).typeByte Relay.trojanTypes = 0x01 := rfl
      rw [htype, if_pos rfl, Dialogue.settle_readExactly_done]
      exact ⟨b, rest, hb, rfl, rfl⟩
    | domain b hb =>
      have htype : (Relay.Address.domain b hb).typeByte Relay.trojanTypes = 0x03 := rfl
      rw [htype, if_neg (by decide), if_pos rfl]
      simp only [Dialogue.settle_readExactly_done]
      exact ⟨[UInt8.ofNat b.length], b ++ rest, rfl, rfl, b, rest,
        (UInt8.toNat_ofNat_of_lt' hb).symm, rfl, rfl⟩
    | ipv6 b hb =>
      have htype : (Relay.Address.ipv6 b hb).typeByte Relay.trojanTypes = 0x04 := rfl
      rw [htype, if_neg (by decide), if_neg (by decide), if_pos rfl,
        Dialogue.settle_readExactly_done]
      exact ⟨b, rest, hb, rfl, rfl⟩

theorem readTarget_done {target : String × ℕ} :
    (readTarget inetNtop).settle w = ⟨s, .done target, rest⟩ ↔
      ∃ (rsv : UInt8) (a : Relay.Address) (port : Bytes), port.length = 2 ∧
        w = 0x05 :: 0x01 :: rsv :: a.typeByte Relay.trojanTypes :: a.bytes ++ port ++ rest ∧
        target = (addressText inetNtop a, Bytes.toNatBE port) ∧ s = [] := by
  unfold readTarget
  rw [Dialogue.settle_readExactly_done]
  constructor
  · rintro ⟨head, v, hhead, rfl, h⟩
    split_ifs at h with hver
    · exact absurd h Dialogue.settle_refuse_done
    rw [Dialogue.settle_bind_done] at h
    obtain ⟨dst, s₁, s₂, u, haddr, hport, rfl⟩ := h
    obtain ⟨a, htype, rfl, rfl, rfl⟩ := readDstAddr_done.1 haddr
    rw [Dialogue.settle_readExactly_done] at hport
    obtain ⟨port, u, hlen, rfl, hport⟩ := hport
    cases hport
    obtain ⟨x, y, z, t, rfl⟩ := List.length_eq_four.1 hhead
    obtain ⟨hx, hy⟩ := not_or.1 hver
    refine ⟨z, a, port, hlen, ?_, rfl, rfl⟩
    rw [← htype, ← not_not.1 hx, ← not_not.1 hy]
    simp
  · rintro ⟨rsv, a, port, hlen, rfl, rfl, rfl⟩
    refine ⟨[0x05, 0x01, rsv, a.typeByte Relay.trojanTypes], a.bytes ++ (port ++ rest), rfl,
      by simp, ?_⟩
    rw [if_neg (by simp), Dialogue.settle_bind_done]
    refine ⟨_, [], [], port ++ rest, readDstAddr_done.2 ⟨a, rfl, rfl, rfl, rfl⟩, ?_, rfl⟩
    rw [Dialogue.settle_readExactly_done]
    exact ⟨port, rest, hlen, rfl, rfl⟩

/-- A dialogue with the server has returned: every stage has, on what the stage before left. -/
theorem handleClient_done {dial : String × ℕ → Bool} {target : String × ℕ} :
    (handleClient creds inetNtop dial).settle w = ⟨s, .done target, rest⟩ ↔
      ∃ r : Socks5Request, r.Authentic creds ∧ w = r.encode ++ rest ∧ target = r.target inetNtop ∧
        dial target = true ∧ s = [0x05, 0x02, 0x01, 0x00] ++ reply 0x00 := by
  unfold handleClient
  simp only [Dialogue.settle_bind_done]
  constructor
  · rintro ⟨⟨⟩, s₁, s₂, w₁, hgreet, ⟨⟨⟩, s₃, s₄, w₂, hauth, ⟨t, s₅, s₆, w₃, htarget, hdial, rfl⟩,
      rfl⟩, rfl⟩
    obtain ⟨methods, hmlt, h2, rfl, rfl⟩ := greet_done.1 hgreet
    obtain ⟨version, uname, passwd, hulen, hplt, huser, hpass, rfl, rfl⟩ := authenticate_done.1 hauth
    obtain ⟨rsv, a, port, hport, rfl, rfl, rfl⟩ := readTarget_done.1 htarget
    split_ifs at hdial with hd
    · rw [Dialogue.settle_send_done] at hdial
      obtain ⟨s', rfl, hdial⟩ := hdial
      cases hdial
      exact ⟨⟨methods, version, uname, passwd, rsv, a, port, hmlt, hulen, hplt, hport⟩,
        ⟨h2, huser, hpass⟩,
        by simp [Socks5Request.encode, Socks5Request.greeting, Socks5Request.credentials,
          Socks5Request.request],
        rfl, hd, by simp⟩
    · exact absurd hdial Dialogue.settle_refuse_done
  · rintro ⟨r, ⟨h2, huser, hpass⟩, rfl, rfl, hd, rfl⟩
    have hgreet : greet.settle (r.encode ++ rest) =
        ⟨[0x05, 0x02], .done (), r.credentials ++ (r.request ++ rest)⟩ :=
      greet_done.2 ⟨r.methods, r.methods_lt, h2,
        by simp [Socks5Request.encode, Socks5Request.greeting], rfl⟩
    have hauth : (authenticate creds).settle (r.credentials ++ (r.request ++ rest)) =
        ⟨[0x01, 0x00], .done (), r.request ++ rest⟩ :=
      authenticate_done.2 ⟨r.authVersion, r.uname, r.passwd, r.uname_lt, r.passwd_lt, huser, hpass,
        by simp [Socks5Request.credentials], rfl⟩
    have htarget : (readTarget inetNtop).settle (r.request ++ rest) =
        ⟨[], .done (r.target inetNtop), rest⟩ :=
      readTarget_done.2 ⟨r.rsv, r.address, r.port, r.port_length, by simp [Socks5Request.request],
        rfl, rfl⟩
    refine ⟨(), _, _, _, hgreet, ⟨(), _, _, _, hauth, ⟨_, _, _, _, htarget, ?_, rfl⟩, rfl⟩, rfl⟩
    rw [if_pos hd, Dialogue.settle_send_done]
    exact ⟨[], rfl, rfl⟩

end Stages

/-- **The negotiation is exact.**  Whatever arrives and however it is cut into pieces, the tunnel to
a target is open when the bytes so far are a complete request with the credentials in force, the
request names that target and it could be dialled, and never otherwise; the client has then been sent
the three replies, and what stands behind the request is left for the tunnel. -/
theorem tunnel_iff (creds : Creds) (inetNtop : Bytes → String) (dial : String × ℕ → Bool)
    (pieces : List Bytes) (sent rest : Bytes) (target : String × ℕ) :
    pieces.foldl Dialogue.Connection.feed (.start (handleClient creds inetNtop dial)) =
        ⟨sent, .done target, rest⟩ ↔
      ∃ r : Socks5Request, r.Authentic creds ∧ pieces.flatten = r.encode ++ rest ∧
        target = r.target inetNtop ∧ dial target = true ∧
        sent = [0x05, 0x02, 0x01, 0x00] ++ reply 0x00 := by
  rw [Dialogue.feed_pieces]
  exact handleClient_done

end Zeus

end RvgGateway
