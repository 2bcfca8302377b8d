import Mathlib.Data.Nat.Bitwise
import RvgGateway.Vmess.Kdf

/-!
# VMess body chunks

`BodyWriter` and `BodyReader` of `protocol/vmess/vmess.py`.  A chunk is a size field, the sealed
payload and random padding; the size field is plain, masked with the SHAKE-128 stream of the IV, or
sealed itself, depending on the option byte.  A chunk with an empty payload ends the body.

The bytes of `secrets.token_bytes` are an arbitrary stream, of which the writer counts how much it
has drawn.  `fill` is the list of its future results; an exhausted list means that the transport
has ended and `fill` returns nothing any more.
-/

namespace RvgGateway

namespace Vmess

/-- `SEC_AES128_GCM`. -/
def secAes128Gcm : ℕ := 3

/-- `SEC_CHACHA20_POLY1305`. -/
def secChacha20Poly1305 : ℕ := 4

/-- `OPT_CHUNK_MASKING`. -/
def optChunkMasking : ℕ := 0x04

/-- `OPT_GLOBAL_PADDING`. -/
def optGlobalPadding : ℕ := 0x08

/-- `OPT_AUTH_LENGTH`. -/
def optAuthLength : ℕ := 0x10

/-- `GCM_NONCE_SIZE`. -/
def gcmNonceSize : ℕ := 12

/-- `TAG`. -/
def tag : ℕ := 16

/-- `MAX_CHUNK`, the largest payload of a chunk. -/
def maxChunk : ℕ := 0x4000

/-- The exceptions of this module and of the library calls it makes. -/
inductive Exc where
  /-- `VMessError`. -/
  | vmessError (msg : String)
  /-- `VMessAuthError`. -/
  | vmessAuthError (msg : String)
  /-- `InvalidTag`: an AEAD block does not open. -/
  | invalidTag
  /-- `struct.error`. -/
  | structError
  /-- `AttributeError`: a method of an object that was not created. -/
  | attributeError
  /-- `ValueError`: not a hexadecimal string. -/
  | valueError
  /-- The transport ended while bytes were still needed. -/
  | transportClosed
  deriving DecidableEq, Repr

theorem bind_eq_ok {ε α β : Type} {x : Except ε α} {f : α → Except ε β} {b : β} :
    (x >>= f) = .ok b ↔ ∃ a, x = .ok a ∧ f a = .ok b := by
  cases x <;> simp [bind, Except.bind]

/-- A bit of an option byte is set: `bool(option & bit)`. -/
def hasOption (option bit : ℕ) : Bool := option &&& bit != 0

/-! ### The SHAKE stream and the chunk nonces -/

/-- `ShakeStream`. -/
structure ShakeStream where
  /-- The seed of the stream. -/
  iv : Bytes
  /-- `_consumed`. -/
  consumed : ℕ
  deriving DecidableEq, Repr

namespace ShakeStream

/-- `next16`. -/
def next16 (c : Crypto) (s : ShakeStream) : ℕ × ShakeStream :=
  (Bytes.toNatBE [c.shake128 s.iv s.consumed, c.shake128 s.iv (s.consumed + 1)],
    { s with consumed := s.consumed + 2 })

/-- `next_padding_len`. -/
def nextPaddingLen (c : Crypto) (s : ShakeStream) : ℕ × ShakeStream :=
  let (n, s) := s.next16 c
  (n % 64, s)

/-- `mask`. -/
def mask (c : Crypto) (s : ShakeStream) : ℕ × ShakeStream := s.next16 c

end ShakeStream

/-- `_ChunkNonce`. -/
structure ChunkNonce where
  /-- `_c`, the IV with its first two bytes overwritten. -/
  c : Bytes
  /-- `_count`. -/
  count : ℕ
  /-- `_size`. -/
  size : ℕ
  deriving DecidableEq, Repr

namespace ChunkNonce

/-- `_ChunkNonce(iv)`. -/
def init (iv : Bytes) : ChunkNonce := ⟨iv, 0, gcmNonceSize⟩

/-- `next`; the count is masked to sixteen bits, so `struct.pack` takes it. -/
def next (s : ChunkNonce) : Bytes × ChunkNonce :=
  let b := Bytes.ofNatBE 2 (s.count &&& 0xFFFF) ++ s.c.drop 2
  (b.take s.size, { s with c := b, count := s.count + 1 })

end ChunkNonce

variable (c : Crypto)

/-- `make_body_aead`. -/
def makeBodyAead (bodyKey : Bytes) (security : ℕ) : Except Exc AeadKey :=
  if security = secAes128Gcm then .ok ⟨.AESGCM, bodyKey⟩
  else if security = secChacha20Poly1305 then
    let first := c.md5 bodyKey
    .ok ⟨.ChaCha20Poly1305, first ++ c.md5 first⟩
  else .error (.vmessError ("unsupported security " ++ toString security))

/-! ### Writing -/

/-- `BodyWriter`. -/
structure BodyWriter where
  aead : AeadKey
  masking : Bool
  padding : Bool
  authlen : Bool
  lenAead : Option AeadKey
  lenNonce : ChunkNonce
  shake : Option ShakeStream
  payloadNonce : ChunkNonce
  /-- Bytes drawn from `secrets.token_bytes` so far. -/
  drawn : ℕ
  deriving DecidableEq, Repr

namespace BodyWriter

/-- `__init__`. -/
def init (bodyKey bodyIv : Bytes) (security option : ℕ) : Except Exc BodyWriter := do
  let aead ← makeBodyAead c bodyKey security
  let masking := hasOption option optChunkMasking
  let padding := hasOption option optGlobalPadding && !hasOption option optAuthLength
  let authlen := hasOption option optAuthLength
  let lenAead ←
    if authlen then
      some <$> makeBodyAead c (kdf16 c bodyKey [Bytes.ascii "auth_len"]) security
    else .ok none
  return {
    aead, masking, padding, authlen, lenAead
    lenNonce := .init bodyIv
    shake := if masking then some ⟨bodyIv, 0⟩ else none
    payloadNonce := .init bodyIv
    drawn := 0 }

variable (token : ℕ → UInt8)

/-- The length of the padding of the next chunk; `None` has no `next_padding_len`. -/
def paddingSize (w : BodyWriter) : Except Exc (ℕ × BodyWriter) :=
  if w.padding then
    match w.shake with
    | none => .error .attributeError
    | some s => .ok ((s.nextPaddingLen c).1, { w with shake := some (s.nextPaddingLen c).2 })
  else .ok (0, w)

/-- The size field of a chunk, sealed, masked or plain. -/
def sizeField (w : BodyWriter) (payload : Bytes) (paddingSize : ℕ) :
    Except Exc (Bytes × BodyWriter) :=
  let sizeVal := payload.length + tag + paddingSize
  if w.authlen then
    match w.lenAead, Bytes.packH payload.length with
    | none, _ => .error .attributeError
    | _, none => .error .structError
    | some k, some len =>
      .ok (c.aead.encrypt k w.lenNonce.next.1 len [], { w with lenNonce := w.lenNonce.next.2 })
  else
    match w.shake with
    | some s =>
      match Bytes.packH (sizeVal ^^^ (s.mask c).1) with
      | none => .error .structError
      | some size => .ok (size, { w with shake := some (s.mask c).2 })
    | none =>
      match Bytes.packH sizeVal with
      | none => .error .structError
      | some size => .ok (size, w)

/-- `secrets.token_bytes(n)`. -/
def tokenBytes (w : BodyWriter) (n : ℕ) : Bytes × BodyWriter :=
  ((List.range n).map fun i => token (w.drawn + i), { w with drawn := w.drawn + n })

/-- `_seal`. -/
def sealChunk (w : BodyWriter) (payload : Bytes) : Except Exc (Bytes × BodyWriter) := do
  let (paddingSize, w) ← w.paddingSize c
  let (size, w) ← w.sizeField c payload paddingSize
  let out := size ++ c.aead.encrypt w.aead w.payloadNonce.next.1 payload []
  let (pad, w) := { w with payloadNonce := w.payloadNonce.next.2 }.tokenBytes token paddingSize
  return (out ++ pad, w)

/-- `_seal` on each of the pieces, joined. -/
def sealChunks (w : BodyWriter) : List Bytes → Except Exc (Bytes × BodyWriter)
  | [] => .ok ([], w)
  | p :: ps => do
    let (out, w) ← w.sealChunk c token p
    let (rest, w) ← sealChunks w ps
    return (out ++ rest, w)

/-- The slices `payload[i:i + MAX_CHUNK]`. -/
def slices (payload : Bytes) : List Bytes :=
  if payload = [] then []
  else payload.take maxChunk :: slices (payload.drop maxChunk)
termination_by payload.length
decreasing_by
  have := List.length_pos_of_ne_nil ‹_›
  simp only [List.length_drop, maxChunk]
  omega

/-- `write_chunk`. -/
def writeChunk (w : BodyWriter) (payload : Bytes) : Except Exc (Bytes × BodyWriter) :=
  if payload.length ≤ maxChunk then w.sealChunk c token payload
  else w.sealChunks c token (slices payload)

/-- `write_eof`. -/
def writeEof (w : BodyWriter) : Except Exc (Bytes × BodyWriter) := w.sealChunk c token []

/-- The outputs of `write_chunk` on a list of payloads and of the `write_eof` behind them. -/
def writeBody (w : BodyWriter) : List Bytes → Except Exc (Bytes × BodyWriter)
  | [] => w.writeEof c token
  | p :: ps => do
    let (out, w) ← w.writeChunk c token p
    let (rest, w) ← writeBody w ps
    return (out ++ rest, w)

end BodyWriter

/-! ### Reading -/

/-- `BodyReader`. -/
structure BodyReader where
  aead : AeadKey
  authlen : Bool
  masking : Bool
  padding : Bool
  lenAead : Option AeadKey
  lenNonce : ChunkNonce
  shake : Option ShakeStream
  payloadNonce : ChunkNonce
  /-- `_buf`. -/
  buf : Bytes
  /-- `_done`. -/
  done : Bool
  /-- What `_fill` will return, call by call. -/
  fill : List Bytes
  deriving DecidableEq, Repr

namespace BodyReader

/-- `__init__`. -/
def init (bodyKey bodyIv : Bytes) (security option : ℕ) (fill : List Bytes) :
    Except Exc BodyReader := do
  let aead ← makeBodyAead c bodyKey security
  let authlen := hasOption option optAuthLength
  let masking := hasOption option optChunkMasking && !authlen
  let padding := hasOption option optGlobalPadding && !authlen
  let lenAead ←
    if authlen then
      some <$> makeBodyAead c (kdf16 c bodyKey [Bytes.ascii "auth_len"]) security
    else .ok none
  return {
    aead, authlen, masking, padding, lenAead
    lenNonce := .init bodyIv
    shake := if masking then some ⟨bodyIv, 0⟩ else none
    payloadNonce := .init bodyIv
    buf := [], done := false, fill }

/-- The loop of `_need`, over the results of `_fill`: the buffer and the results left. -/
def needLoop (n : ℕ) : Bytes → List Bytes → Bool × Bytes × List Bytes
  | buf, [] => (decide (n ≤ buf.length), buf, [])
  | buf, chunk :: fill =>
    if n ≤ buf.length then (true, buf, chunk :: fill)
    else if chunk = [] then (false, buf, fill)
    else needLoop n (buf ++ chunk) fill

/-- `_need`. -/
def need (r : BodyReader) (n : ℕ) : Bool × BodyReader :=
  let (ok, buf, fill) := needLoop n r.buf r.fill
  (ok, { r with buf, fill })

/-- The end of a body: `_done` is set and `b""` returned. -/
def finish (r : BodyReader) : Except Exc Bytes × BodyReader := (.ok [], { r with done := true })

/-- The payload block of a chunk: `size` bytes on the wire, of which `enc` are sealed. -/
def readPayload (r : BodyReader) (size enc : ℕ) : Except Exc Bytes × BodyReader :=
  match r.need size with
  | (false, r) => (.error (.vmessError "truncated chunk payload"), r)
  | (true, r) =>
    let encPayload := r.buf.take enc
    let nonce := r.payloadNonce.next.1
    let r := { r with buf := r.buf.drop size, payloadNonce := r.payloadNonce.next.2 }
    match c.aead.decrypt r.aead nonce encPayload [] with
    | none => (.error .invalidTag, r)
    | some payload => (.ok payload, r)

/-- `read` with a sealed size field. -/
def readAuthlen (r : BodyReader) : Except Exc Bytes × BodyReader :=
  match r.need (2 + tag) with
  | (false, r) => r.finish
  | (true, r) =>
    let encSize := r.buf.take (2 + tag)
    let nonce := r.lenNonce.next.1
    let r := { r with buf := r.buf.drop (2 + tag), lenNonce := r.lenNonce.next.2 }
    match r.lenAead with
    | none => (.error .attributeError, r)
    | some k =>
      match c.aead.decrypt k nonce encSize [] with
      | none => (.error .invalidTag, r)
      | some len =>
        match Bytes.unpackH len with
        | none => (.error .structError, r)
        | some n =>
          let size := n + tag
          if size = tag then r.finish
          else if size < tag ∨ maxChunk + tag < size then
            (.error (.vmessError ("invalid chunk size " ++ toString size)), r)
          else r.readPayload c size size

/-- The length of the padding of the next chunk. -/
def paddingLen (r : BodyReader) : ℕ × BodyReader :=
  if r.padding then
    match r.shake with
    | some s => ((s.nextPaddingLen c).1, { r with shake := some (s.nextPaddingLen c).2 })
    | none => (0, r)
  else (0, r)

/-- The mask of the next size field. -/
def nextMask (r : BodyReader) : ℕ × BodyReader :=
  match r.shake with
  | some s => ((s.mask c).1, { r with shake := some (s.mask c).2 })
  | none => (0, r)

/-- `read` with a plain or masked size field. -/
def readMasked (r : BodyReader) : Except Exc Bytes × BodyReader :=
  match r.need 2 with
  | (false, r) => r.finish
  | (true, r) =>
    let (padLen, r) := r.paddingLen c
    let rawSize := Bytes.toNatBE (r.buf.take 2)
    let (mask, r) := { r with buf := r.buf.drop 2 }.nextMask c
    let size := rawSize ^^^ mask
    if size = tag + padLen then r.finish
    else if size < tag + padLen ∨ maxChunk + tag + 64 < size then
      (.error (.vmessError ("invalid chunk size " ++ toString size)), r)
    else r.readPayload c size (size - padLen)

/-- `read`: the next piece of the body, `b""` at its end. -/
def read (r : BodyReader) : Except Exc Bytes × BodyReader :=
  if r.done then (.ok [], r)
  else if r.authlen then r.readAuthlen c
  else r.readMasked c

/-- The results of `k` calls of `read`, one after the other. -/
def reads (r : BodyReader) : ℕ → List (Except Exc Bytes)
  | 0 => []
  | k + 1 => (r.read c).1 :: reads (r.read c).2 k

end BodyReader

end Vmess

end RvgGateway
