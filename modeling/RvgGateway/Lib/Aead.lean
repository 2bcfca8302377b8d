import RvgGateway.Lib.Bytes

/-!
# Authenticated encryption

An AEAD scheme over an arbitrary type of keys, with the two facts that protocols rely on:

* `Aead.Correct` : decrypting what was encrypted under the same key, nonce and associated data
  returns the plaintext, and a ciphertext is sixteen bytes (the tag) longer than its plaintext;
* `Aead.NonceBound` : a ciphertext that opens under one twelve-byte nonce opens under no other.

Neither is assumed of the scheme itself: a result that needs one of them says so.
-/

namespace RvgGateway

/-- An AEAD scheme with keys `K`; decryption may fail. -/
structure Aead (K : Type*) where
  /-- `encrypt k nonce plaintext aad`. -/
  encrypt : K → Bytes → Bytes → Bytes → Bytes
  /-- `decrypt k nonce ciphertext aad`, `none` when authentication fails. -/
  decrypt : K → Bytes → Bytes → Bytes → Option Bytes

namespace Aead

/-- Length of the authentication tag. -/
def tagLen : ℕ := 16

/-- Length of a nonce. -/
def nonceLen : ℕ := 12

variable {K : Type*}

/-- Decryption inverts encryption, and encryption adds a tag. -/
structure Correct (A : Aead K) : Prop where
  decrypt_encrypt : ∀ k n m aad, A.decrypt k n (A.encrypt k n m aad) aad = some m
  length_encrypt : ∀ k n m aad, (A.encrypt k n m aad).length = m.length + tagLen

/-- No ciphertext opens under two different nonces. -/
def NonceBound (A : Aead K) : Prop :=
  ∀ k n n' c aad m, n.length = nonceLen → n'.length = nonceLen → n ≠ n' →
    A.decrypt k n c aad = some m → A.decrypt k n' c aad = none

/-- A ciphertext that opens is longer than its plaintext by the tag. -/
def StripsTag (A : Aead K) : Prop :=
  ∀ k n c aad m, A.decrypt k n c aad = some m → m.length + tagLen = c.length

/-- The tag of `transparent`: the nonce, cut or padded to sixteen bytes. -/
def transparentTag (n : Bytes) : Bytes := (n ++ List.replicate tagLen 0).take tagLen

/-- A scheme that leaves the plaintext readable and uses the nonce as its tag.  It has both
properties above and evaluates, so concrete runs can be computed with it. -/
def transparent (K : Type*) : Aead K where
  encrypt _ n m _ := m ++ transparentTag n
  decrypt _ n c _ :=
    if c.drop (c.length - tagLen) = transparentTag n then some (c.take (c.length - tagLen)) else none

theorem length_transparentTag (n : Bytes) : (transparentTag n).length = tagLen := by
  simp [transparentTag, tagLen]

theorem transparent_correct : (transparent K).Correct where
  decrypt_encrypt k n m aad := by simp [transparent, length_transparentTag]
  length_encrypt k n m aad := by simp [transparent, length_transparentTag]

theorem transparentTag_inj {n n' : Bytes} (hn : n.length = nonceLen) (hn' : n'.length = nonceLen)
    (h : transparentTag n = transparentTag n') : n = n' := by
  have key : ∀ b : Bytes, b.length = nonceLen → (transparentTag b).take nonceLen = b := by
    intro b hb
    rw [transparentTag, List.take_take, ← hb]
    simp [hb, nonceLen, tagLen]
  rw [← key n hn, h, key n' hn']

theorem transparent_nonceBound : (transparent K).NonceBound := by
  intro k n n' c aad m hn hn' hne h
  simp only [transparent] at h ⊢
  split_ifs at h with hc
  rw [if_neg]
  exact fun hc' => hne (transparentTag_inj hn hn' (hc.symm.trans hc'))

theorem transparent_stripsTag : (transparent K).StripsTag := by
  intro k n c aad m h
  simp only [transparent] at h
  split_ifs at h with htag
  cases h
  have hlen := congrArg List.length htag
  rw [List.length_drop, length_transparentTag] at hlen
  rw [List.length_take]
  omega

end Aead

end RvgGateway
