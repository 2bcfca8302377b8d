import RvgGateway.Crypto
import RvgGateway.Lib.Framing

/-!
# The Shadowsocks AEAD stream

`protocol/shadowsocks/shadowsocks.py`: the subkey derivation and `_AEADStream`, the object that
encrypts what goes to the client and decrypts what comes from it.  On the wire a direction is

    salt ‖ chunk ‖ chunk ‖ …        chunk = seal(length, 2 bytes) ‖ seal(payload)

where `seal` adds a 16-byte tag and uses a little-endian counter as its nonce, advanced once per
sealed block.

Encryption (`AEADStream.encryptChunk`) puts the salt in front of the first chunk.  Decryption is
incremental: `AEADStream.feed` appends to a buffer and `AEADStream.tryDecryptChunks` is the
generator that yields the payloads of the complete chunks, run until it stops.
-/

namespace RvgGateway

namespace Shadowsocks

/-- Largest read from the target that a relay encrypts as one chunk. -/
def relayBuf : ℕ := 1024 * 1024

/-- Largest payload length that the decoder accepts. -/
def maxChunk : ℕ := 0x3FFF

/-- An entry of `CIPHERS`. -/
structure CipherInfo where
  /-- `key_len`. -/
  keyLen : ℕ
  /-- `salt_len`. -/
  saltLen : ℕ
  /-- `nonce_len`. -/
  nonceLen : ℕ
  /-- `cls`. -/
  cls : AeadCls
  deriving DecidableEq, Repr

/-- `CIPHERS`. -/
def ciphers : String → Option CipherInfo
  | "chacha20-ietf-poly1305" => some ⟨32, 32, 12, .ChaCha20Poly1305⟩
  | "aes-256-gcm" => some ⟨32, 32, 12, .AESGCM⟩
  | _ => none

/-- `DEFAULT_CIPHER`. -/
def defaultCipher : String := "chacha20-ietf-poly1305"

/-- The exceptions of this module. -/
inductive Exc where
  /-- `ValueError`, raised by the decoder. -/
  | valueError (msg : String)
  /-- `struct.error`: a length that does not fit in two bytes, or is not two bytes. -/
  | structError
  /-- `OverflowError`: the nonce counter does not fit in the nonce. -/
  | overflowError
  deriving DecidableEq, Repr

/-- The exception is a `ValueError`. -/
def Exc.isValueError : Exc → Bool
  | .valueError _ => true
  | _ => false

/-! ### Key derivation -/

variable (c : Crypto)

/-- The `while` loop of `_hkdf_sha1`: `okm`, `t` and the block counter `i` (which stays below 256
for the key lengths of `CIPHERS`). -/
def hkdfLoop (prk info : Bytes) (length : ℕ) (okm t : Bytes) (i : ℕ) : Bytes :=
  if okm.length < length then
    let t := c.hmacSha1 prk (t ++ info ++ [UInt8.ofNat i])
    hkdfLoop prk info length (okm ++ t) t (i + 1)
  else okm
termination_by length - okm.length
decreasing_by simp only [List.length_append, c.length_hmacSha1]; omega

/-- `_hkdf_sha1`. -/
def hkdfSha1 (key salt info : Bytes) (length : ℕ) : Bytes :=
  let prk := c.hmacSha1 salt key
  (hkdfLoop c prk info length [] [] 1).take length

/-- `b"ss-subkey"`. -/
def ssSubkey : Bytes := [0x73, 0x73, 0x2D, 0x73, 0x75, 0x62, 0x6B, 0x65, 0x79]

/-- `_subkey`. -/
def subkey (masterKey salt : Bytes) (keyLen : ℕ) : Bytes := hkdfSha1 c masterKey salt ssSubkey keyLen

/-! ### The stream object -/

/-- `_AEADStream`. -/
structure AEADStream where
  /-- The `CIPHERS` entry (`key_len`, `salt_len`, `nonce_len`, `cipher_cls`). -/
  info : CipherInfo
  masterKey : Bytes
  encSalt : Bytes
  encAead : AeadKey
  encNonce : ℕ
  encSaltSent : Bool
  decSalt : Option Bytes
  decAead : Option AeadKey
  decNonce : ℕ
  /-- `_buf`, received and not yet decrypted. -/
  buf : Bytes
  deriving DecidableEq, Repr

namespace AEADStream

/-- `__init__`; `encSalt` is what `secrets.token_bytes(self.salt_len)` returned. -/
def init (masterKey : Bytes) (info : CipherInfo) (encSalt : Bytes) : AEADStream where
  info := info
  masterKey := masterKey
  encSalt := encSalt
  encAead := ⟨info.cls, subkey c masterKey encSalt info.keyLen⟩
  encNonce := 0
  encSaltSent := false
  decSalt := none
  decAead := none
  decNonce := 0
  buf := []

/-- `_nonce_bytes`: refused (`OverflowError`) once the counter does not fit. -/
def nonceBytes (s : AEADStream) (counter : ℕ) : Option Bytes :=
  if counter < 256 ^ s.info.nonceLen then some (Bytes.ofNatLE s.info.nonceLen counter) else none

/-! ### Encryption -/

/-- `self.enc_aead.encrypt(self._nonce_bytes(self.enc_nonce), m, None)` and the increment of
`enc_nonce` after it. -/
def sealBlock (s : AEADStream) (m : Bytes) : Except Exc (Bytes × AEADStream) :=
  match s.nonceBytes s.encNonce with
  | none => .error .overflowError
  | some nonce => .ok (c.aead.encrypt s.encAead nonce m [], { s with encNonce := s.encNonce + 1 })

/-- `encrypt_chunk`. -/
def encryptChunk (s : AEADStream) (payload : Bytes) : Except Exc (Bytes × AEADStream) :=
  let out := if s.encSaltSent then [] else s.encSalt
  let s := { s with encSaltSent := true }
  match Bytes.packH payload.length with
  | none => .error .structError
  | some length =>
    match s.sealBlock c length with
    | .error e => .error e
    | .ok (encLen, s) =>
      match s.sealBlock c payload with
      | .error e => .error e
      | .ok (encPayload, s) => .ok (out ++ encLen ++ encPayload, s)

/-- The concatenated outputs of `encrypt_chunk` on a list of payloads. -/
def encryptChunks (s : AEADStream) : List Bytes → Except Exc (Bytes × AEADStream)
  | [] => .ok ([], s)
  | p :: ps =>
    match s.encryptChunk c p with
    | .error e => .error e
    | .ok (out, s) =>
      match encryptChunks s ps with
      | .error e => .error e
      | .ok (rest, s) => .ok (out ++ rest, s)

/-! ### Decryption -/

/-- `feed`. -/
def feed (s : AEADStream) (data : Bytes) : AEADStream := { s with buf := s.buf ++ data }

/-- `_ensure_dec_key`. -/
def ensureDecKey (s : AEADStream) : Bool × AEADStream :=
  if s.decAead.isSome then (true, s)
  else if s.buf.length < s.info.saltLen then (false, s)
  else
    let salt := s.buf.take s.info.saltLen
    (true, { s with
      decSalt := some salt
      buf := s.buf.drop s.info.saltLen
      decAead := some ⟨s.info.cls, subkey c s.masterKey salt s.info.keyLen⟩ })

/-- `self.dec_aead.decrypt(self._nonce_bytes(self.dec_nonce), block, None)`; every failure (also
of `_nonce_bytes`) is turned into a `ValueError` by the caller. -/
def openBlock (s : AEADStream) (block : Bytes) : Option Bytes :=
  s.decAead.bind fun k => (s.nonceBytes s.decNonce).bind fun nonce => c.aead.decrypt k nonce block []

/-- One round of the `while True` loop of `try_decrypt_chunks`.  The length block is opened, and
`dec_nonce` advanced, before it is known whether the payload block is complete. -/
def round (s : AEADStream) : Pass AEADStream Bytes Exc :=
  if s.buf.length < 2 + Aead.tagLen then .wait s
  else
    match s.openBlock c (s.buf.take (2 + Aead.tagLen)) with
    | none => .fail (.valueError "AEAD decrypt (length) failed — bad key/tag")
    | some lengthBytes =>
      let s := { s with decNonce := s.decNonce + 1 }
      match Bytes.unpackH lengthBytes with
      | none => .fail .structError
      | some length =>
        if maxChunk < length then
          .fail (.valueError "invalid SS AEAD chunk length (exceeds spec limit)")
        else if s.buf.length < 2 + Aead.tagLen + length + Aead.tagLen then .wait s
        else
          let rest := s.buf.drop (2 + Aead.tagLen)
          let encPayload := rest.take (length + Aead.tagLen)
          let s := { s with buf := rest.drop (length + Aead.tagLen) }
          match s.openBlock c encPayload with
          | none => .fail (.valueError "AEAD decrypt (payload) failed — bad key/tag")
          | some payload => .emit payload { s with decNonce := s.decNonce + 1 }

theorem feed_append (s : AEADStream) (a b : Bytes) : (s.feed a).feed b = s.feed (a ++ b) := by
  simp [feed]

variable {c}

theorem length_buf_round {s s' : AEADStream} {p : Bytes} (h : s.round c = .emit p s') :
    s'.buf.length < s.buf.length := by
  simp only [round] at h
  split_ifs at h
  split at h
  · cases h
  split at h
  · cases h
  split_ifs at h
  split at h
  · cases h
  cases h
  simp only [Aead.tagLen, List.length_drop] at *
  omega

variable (c)

/-- The `while True` loop as a decoder. -/
def loop : Decoder AEADStream UInt8 Bytes Exc where
  feed := feed
  pass := round c
  size s := s.buf.length
  feed_append := feed_append
  size_lt := length_buf_round

/-- `try_decrypt_chunks`, exhausted: the payloads it yields, and the exception it ends in or the
state it leaves. -/
def tryDecryptChunks (s : AEADStream) : Decoder.Outcome AEADStream Bytes Exc :=
  match s.ensureDecKey c with
  | (false, s) => ⟨[], .ok s⟩
  | (true, s) => (loop c).exhaust s

/-- What a relay does with the segments it receives: `feed`, then exhaust `try_decrypt_chunks`;
the first exception ends it. -/
def decryptSegments (s : AEADStream) : List Bytes → List Bytes × Option Exc
  | [] => ([], none)
  | d :: ds =>
    match (s.feed d).tryDecryptChunks c with
    | ⟨ps, .error e⟩ => (ps, some e)
    | ⟨ps, .ok s⟩ => (ps ++ (decryptSegments s ds).1, (decryptSegments s ds).2)

end AEADStream

end Shadowsocks

end RvgGateway
