import Mathlib.Data.Finset.Basic
import Mathlib.Algebra.Order.Ring.Int
import RvgGateway.Vmess.Body

/-!
# VMess request headers

The pieces of `decode_request` in `protocol/vmess/vmess.py`: the command key of a user, the AuthID
with the time inside it, the replay filter, the sealed header and the command it carries.

A header is read with `read_exact`; here it is the front of a wire, and a wire that is too short
means that the transport ended.
-/

namespace RvgGateway

namespace Vmess

variable (c : Crypto)

/-! ### Command keys and AuthIDs -/

/-- `CMD_KEY_TAIL`. -/
def cmdKeyTail : Bytes := Bytes.ascii "c48619fe-8f02-49e0-b9e9-edf763e17e21"

/-- `cmd_key_for`, refused for a string that is not hexadecimal.  The cache in front of it only
remembers results. -/
def cmdKeyFor (uuid : String) : Option Bytes :=
  (Bytes.fromHex ((uuid.toList.filter (· ≠ '-')).map Char.toLower)).map fun raw =>
    c.md5 (raw ++ cmdKeyTail)

/-- One bit of the CRC-32 division. -/
def crc32Bit (r : UInt32) : UInt32 := if r &&& 1 = 1 then (r >>> 1) ^^^ 0xEDB88320 else r >>> 1

/-- `zlib.crc32`. -/
def crc32 (b : Bytes) : UInt32 :=
  (b.foldl (fun r x => crc32Bit^[8] (r ^^^ x.toUInt32)) 0xFFFFFFFF) ^^^ 0xFFFFFFFF

/-- `struct.unpack(">q", b)[0]` of eight bytes. -/
def unpackQ (b : Bytes) : ℤ :=
  if Bytes.toNatBE b < 2 ^ 63 then Bytes.toNatBE b else Bytes.toNatBE b - 2 ^ 64

/-- `decode_auth_id`: the time inside an AuthID that is valid for the key. -/
def decodeAuthId (cmdKey authId : Bytes) : Option ℤ :=
  match c.aesDecryptBlock (kdf16 c cmdKey [Bytes.ascii "AES Auth ID Encryption"]) authId with
  | none => none
  | some pt =>
    if pt.length ≠ 16 then none
    else if Bytes.toNatBE (Bytes.slice pt 12 16) ≠ (crc32 (pt.take 12)).toNat then none
    else some (unpackQ (pt.take 8))

/-- `AUTH_ID_TIME_TOLERANCE`, in seconds. -/
def authIdTimeTolerance : ℤ := 120

/-! ### The replay filter -/

/-- `ReplayFilter`. -/
structure ReplayFilter (α : Type*) where
  /-- `size`. -/
  size : ℕ
  /-- `_seen`. -/
  seen : Finset α
  /-- `_order`, oldest first. -/
  order : List α

namespace ReplayFilter

variable {α : Type*} [DecidableEq α]

/-- `__init__`. -/
def init (size : ℕ) : ReplayFilter α := ⟨size, ∅, []⟩

/-- `check_and_add`; `false` means replay. -/
def checkAndAdd (f : ReplayFilter α) (item : α) : Bool × ReplayFilter α :=
  if item ∈ f.seen then (false, f)
  else
    let seen := insert item f.seen
    let order := f.order ++ [item]
    if f.size < order.length then
      match order with
      | [] => (true, { f with seen, order })
      | oldest :: order => (true, { f with seen := seen.erase oldest, order })
    else (true, { f with seen, order })

theorem checkAndAdd_fst (f : ReplayFilter α) (item : α) :
    (f.checkAndAdd item).1 = decide (item ∉ f.seen) := by
  rw [checkAndAdd]
  by_cases h : item ∈ f.seen
  · simp [h]
  · simp only [h, if_false, not_false_eq_true, decide_true]
    split_ifs
    · split <;> rfl
    · rfl

end ReplayFilter

/-! ### The sealed header -/

/-- `read_exact`: the next `n` bytes and what is behind them. -/
def readExact (n : ℕ) (wire : Bytes) : Except Exc (Bytes × Bytes) :=
  if n ≤ wire.length then .ok (wire.take n, wire.drop n) else .error .transportClosed

/-- The body of the `try` in `open_aead_header`. -/
def openAeadHeaderBody (cmdKey authId wire : Bytes) : Except Exc (Bytes × Bytes) := do
  let (encLen, wire) ← readExact 18 wire
  let (nonce, wire) ← readExact 8 wire
  let lenKey := kdf16 c cmdKey [Bytes.ascii "VMess Header AEAD Key_Length", authId, nonce]
  let lenIv := (kdf c cmdKey [Bytes.ascii "VMess Header AEAD Nonce_Length", authId, nonce]).take
    gcmNonceSize
  match c.aead.decrypt ⟨.AESGCM, lenKey⟩ lenIv encLen authId with
  | none => .error .invalidTag
  | some len =>
    match Bytes.unpackH len with
    | none => .error .structError
    | some ptLen =>
      let (encPayload, wire) ← readExact (ptLen + tag) wire
      let payloadKey := kdf16 c cmdKey [Bytes.ascii "VMess Header AEAD Key", authId, nonce]
      let payloadIv := (kdf c cmdKey [Bytes.ascii "VMess Header AEAD Nonce", authId, nonce]).take
        gcmNonceSize
      match c.aead.decrypt ⟨.AESGCM, payloadKey⟩ payloadIv encPayload authId with
      | none => .error .invalidTag
      | some payload => .ok (payload, wire)

/-- `open_aead_header`: every exception becomes a `VMessAuthError`. -/
def openAeadHeader (cmdKey authId wire : Bytes) : Except Exc (Bytes × Bytes) :=
  match openAeadHeaderBody c cmdKey authId wire with
  | .ok res => .ok res
  | .error _ => .error (.vmessAuthError "AEAD header open failed")

/-! ### The command header -/

/-- `VMessRequest`. -/
structure VMessRequest where
  uuid : String
  version : ℕ
  bodyKey : Bytes
  bodyIv : Bytes
  responseToken : ℕ
  option : ℕ
  paddingLen : ℕ
  security : ℕ
  command : ℕ
  address : String
  port : ℕ
  deriving DecidableEq, Repr

/-- `CMD_TCP`. -/
def cmdTcp : ℕ := 0x01

/-- `_fnv1a32`. -/
def fnv1a32 (data : Bytes) : ℕ :=
  data.foldl (fun h b => ((h ^^^ b.toNat) * 0x01000193) &&& 0xFFFFFFFF) 0x811C9DC5

/-- The address of the given type at `pos`, and the position behind it. -/
def parseAddress (payload : Bytes) (atyp pos : ℕ) : Except Exc (String × ℕ) :=
  if atyp = 0x01 then
    if payload.length < pos + 4 then .error (.vmessError "short ipv4")
    else .ok (Bytes.dotted (Bytes.slice payload pos (pos + 4)), pos + 4)
  else if atyp = 0x02 then
    if payload.length < pos + 1 then .error (.vmessError "short domain len")
    else
      let dlen := (payload.getD pos 0).toNat
      let pos := pos + 1
      if payload.length < pos + dlen then .error (.vmessError "short domain")
      else .ok (String.ofList (Bytes.decodeIgnore (Bytes.slice payload pos (pos + dlen))), pos + dlen)
  else if atyp = 0x03 then
    if payload.length < pos + 16 then .error (.vmessError "short ipv6")
    else .ok (Bytes.colonHex (Bytes.slice payload pos (pos + 16)), pos + 16)
  else .error (.vmessError ("unknown atyp " ++ toString atyp))

/-- `parse_command_header`; `uuid` is left empty. -/
def parseCommandHeader (payload : Bytes) : Except Exc VMessRequest :=
  if payload.length < 38 then .error (.vmessError "command header too short")
  else
    let byte := fun i => (payload.getD i 0).toNat
    let paddingLen := byte 35 >>> 4
    if payload.length < 38 + 2 then .error (.vmessError "missing port")
    else
      let port := Bytes.toNatBE (Bytes.slice payload 38 40)
      if payload.length < 40 + 1 then .error (.vmessError "missing atyp")
      else
        match parseAddress payload (byte 40) 41 with
        | .error e => .error e
        | .ok (address, pos) =>
          let pos := pos + paddingLen
          if payload.length < pos + 4 then .error (.vmessError "missing checksum")
          else if fnv1a32 (payload.take pos) ≠ Bytes.toNatBE (Bytes.slice payload pos (pos + 4)) then
            .error (.vmessError "invalid auth (fnv checksum mismatch)")
          else .ok {
            uuid := "", version := byte 0
            bodyKey := Bytes.slice payload 17 33, bodyIv := Bytes.slice payload 1 17
            responseToken := byte 33, option := byte 34, paddingLen
            security := byte 35 &&& 0x0F, command := byte 37, address, port }

end Vmess

end RvgGateway
