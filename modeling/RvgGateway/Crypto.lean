import RvgGateway.Lib.Aead

/-!
# Cryptographic primitives

The gateway calls the `cryptography` package for AEAD and AES and `hashlib` for its hash
functions.  `Crypto` collects these functions as parameters of the model, with the digest sizes
that the callers slice by.  Nothing else is known of them; results that need a correct or a
nonce-bound AEAD assume `Aead.Correct` or `Aead.NonceBound`.
-/

namespace RvgGateway

/-- The AEAD classes of the `cryptography` package. -/
inductive AeadCls where
  | AESGCM
  | ChaCha20Poly1305
  deriving DecidableEq, Repr

/-- An AEAD object: its class and its key. -/
structure AeadKey where
  /-- The class. -/
  cls : AeadCls
  /-- The key it was constructed with. -/
  key : Bytes
  deriving DecidableEq, Repr

/-- The primitives, with the sizes of their results. -/
structure Crypto where
  /-- `AESGCM` and `ChaCha20Poly1305`. -/
  aead : Aead AeadKey
  /-- `hmac.new(key, message, sha1).digest()`. -/
  hmacSha1 : Bytes → Bytes → Bytes
  length_hmacSha1 : ∀ k m, (hmacSha1 k m).length = 20
  /-- `hashlib.md5(m).digest()`. -/
  md5 : Bytes → Bytes
  length_md5 : ∀ m, (md5 m).length = 16
  /-- `hashlib.sha224(m).digest()`. -/
  sha224 : Bytes → Bytes
  length_sha224 : ∀ m, (sha224 m).length = 28
  /-- `hashlib.sha256(m).digest()`. -/
  sha256 : Bytes → Bytes
  length_sha256 : ∀ m, (sha256 m).length = 32
  /-- Byte `i` of the SHAKE-128 output for a seed. -/
  shake128 : Bytes → ℕ → UInt8
  /-- AES in ECB mode on one block, refused for a key or a block of the wrong size. -/
  aesDecryptBlock : Bytes → Bytes → Option Bytes

/-- Cut or pad a byte string to `n` bytes. -/
def Bytes.fit (n : ℕ) (b : Bytes) : Bytes := (b ++ List.replicate n 0).take n

@[simp] theorem Bytes.length_fit (n : ℕ) (b : Bytes) : (b.fit n).length = n := by
  simp [Bytes.fit]

namespace Crypto

/-- Primitives that can be computed by hand: the transparent AEAD, hash functions that cut or pad
their input, a SHAKE stream of zeros and the identity as block cipher. -/
def transparent : Crypto where
  aead := Aead.transparent AeadKey
  hmacSha1 _ m := Bytes.fit 20 m
  length_hmacSha1 _ m := Bytes.length_fit 20 m
  md5 := Bytes.fit 16
  length_md5 := Bytes.length_fit 16
  sha224 := Bytes.fit 28
  length_sha224 := Bytes.length_fit 28
  sha256 := Bytes.fit 32
  length_sha256 := Bytes.length_fit 32
  shake128 _ _ := 0
  aesDecryptBlock _ b := if b.length = 16 then some b else none

theorem transparent_correct : transparent.aead.Correct := Aead.transparent_correct

theorem transparent_nonceBound : transparent.aead.NonceBound := Aead.transparent_nonceBound

end Crypto

end RvgGateway
