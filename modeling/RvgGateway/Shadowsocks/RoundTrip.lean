import Mathlib.Data.List.TakeWhile
import RvgGateway.Shadowsocks.Segmentation

/-!
# What the relays send can be decoded

A relay reads up to `relayBuf` bytes from the target and encrypts them as one chunk.  The decoder
accepts chunks of at most `maxChunk` bytes, and the length field holds at most 65535.

* `encryptChunks_eq` : when encryption succeeds, and the wire it produces.
* `exhaust_wire` : what the decoder makes of such a wire: the payloads up to the first that is too
  long, which ends it.
* `roundTrips_iff` : the payload lists that survive the round trip.
-/

namespace RvgGateway

namespace Shadowsocks

open AEADStream

variable {c : Crypto} {masterKey encSalt encSalt' : Bytes} {info : CipherInfo}

/-! ### The wire -/

/-- The chunk of `payload` from nonce `n` on. -/
def wireChunk (c : Crypto) (k : AeadKey) (nonceLen n : ℕ) (payload : Bytes) : Bytes :=
  c.aead.encrypt k (Bytes.ofNatLE nonceLen n) ((Bytes.packH payload.length).getD []) [] ++
    c.aead.encrypt k (Bytes.ofNatLE nonceLen (n + 1)) payload []

/-- The chunks of `payloads` from nonce `n` on. -/
def wireChunks (c : Crypto) (k : AeadKey) (nonceLen : ℕ) : ℕ → List Bytes → Bytes
  | _, [] => []
  | n, p :: ps => wireChunk c k nonceLen n p ++ wireChunks c k nonceLen (n + 2) ps

/-- What one `encrypt_chunk` puts in front. -/
def saltPart (s : AEADStream) : Bytes := if s.encSaltSent then [] else s.encSalt

/-- A call of `encrypt_chunk` succeeds when the length fits in two bytes and both nonces exist. -/
theorem encryptChunk_eq (s : AEADStream) (p : Bytes) :
    s.encryptChunk c p =
      if p.length < 65536 ∧ s.encNonce + 2 ≤ 256 ^ s.info.nonceLen then
        .ok (saltPart s ++ wireChunk c s.encAead s.info.nonceLen s.encNonce p,
          { s with encSaltSent := true, encNonce := s.encNonce + 2 })
      else .error (if p.length < 65536 then .overflowError else .structError) := by
  by_cases hp : p.length < 65536
  · simp only [encryptChunk, Bytes.packH_eq_some hp, sealBlock, nonceBytes, hp, true_and, if_true]
    by_cases h₀ : s.encNonce < 256 ^ s.info.nonceLen
    · by_cases h₁ : s.encNonce + 1 < 256 ^ s.info.nonceLen
      · have h₂ : s.encNonce + 2 ≤ 256 ^ s.info.nonceLen := h₁
        simp [h₀, h₁, h₂, wireChunk, Bytes.packH_eq_some hp, saltPart]
      · have h₂ : ¬ s.encNonce + 2 ≤ 256 ^ s.info.nonceLen := h₁
        simp [h₀, h₁, h₂]
    · have h₂ : ¬ s.encNonce + 2 ≤ 256 ^ s.info.nonceLen := by omega
      simp [h₀, h₂]
  · simp [encryptChunk, Bytes.packH_eq_none_iff.2 (Nat.not_lt.1 hp), hp]

/-- The payloads fit: every length in two bytes, every nonce in the counter. -/
def Fits (s : AEADStream) (ps : List Bytes) : Prop :=
  (∀ p ∈ ps, p.length < 65536) ∧ s.encNonce + 2 * ps.length ≤ 256 ^ s.info.nonceLen

/-- `encrypt_chunk` on all payloads succeeds exactly when they fit, and produces the salt and the
chunks. -/
theorem encryptChunks_eq (s : AEADStream) (hs : s.encNonce ≤ 256 ^ s.info.nonceLen)
    (ps : List Bytes) (out : Bytes) :
    (∃ t, s.encryptChunks c ps = .ok (out, t)) ↔
      Fits s ps ∧ out = (if ps = [] then [] else saltPart s) ++
        wireChunks c s.encAead s.info.nonceLen s.encNonce ps := by
  induction ps generalizing s out with
  | nil => simp [encryptChunks, Fits, wireChunks, hs, eq_comm]
  | cons p ps ih =>
    rw [encryptChunks, encryptChunk_eq]
    -- sealing `p` raises when its length does not fit or the nonces run out
    by_cases hp : p.length < 65536 ∧ s.encNonce + 2 ≤ 256 ^ s.info.nonceLen
    · let s' : AEADStream := { s with encSaltSent := true, encNonce := s.encNonce + 2 }
      have hfits : Fits s (p :: ps) ↔ Fits s' ps := by
        simp only [Fits, List.forall_mem_cons, List.length_cons, hp.1, true_and, s']
        rw [show s.encNonce + 2 * (ps.length + 1) = s.encNonce + 2 + 2 * ps.length by omega]
      have hsalt : (if ps = [] then [] else saltPart s') = ([] : Bytes) := by
        simp [saltPart, s']
      simp only [hp, and_self, if_true, hfits, wireChunks, reduceCtorEq, if_false]
      constructor
      · rintro ⟨t, ht⟩
        cases hrest : s'.encryptChunks c ps with
        | error e => simp [s', hrest] at ht
        | ok res =>
          obtain ⟨rest, t'⟩ := res
          obtain ⟨hf, hrest'⟩ := (ih s' hp.2 rest).1 ⟨t', hrest⟩
          simp only [s', hrest, Except.ok.injEq, Prod.mk.injEq] at ht
          rw [hsalt, List.nil_append] at hrest'
          exact ⟨hf, by rw [← ht.1, hrest', List.append_assoc]⟩
      · rintro ⟨hf, rfl⟩
        obtain ⟨t, ht⟩ := (ih s' hp.2 _).2 ⟨hf, rfl⟩
        rw [hsalt, List.nil_append] at ht
        exact ⟨t, by simp [s', ht]⟩
    · simp only [hp, if_false, reduceCtorEq, exists_false, false_iff, not_and]
      rintro ⟨hlen, hn⟩
      simp only [List.length_cons] at hn
      exact absurd ⟨hlen p (by simp), by omega⟩ hp

/-! ### Decoding the wire -/

section Decode

variable (hc : c.aead.Correct)
include hc

theorem length_wireChunk (k : AeadKey) (nl n : ℕ) {p : Bytes} (hp : p.length < 65536) :
    (wireChunk c k nl n p).length = chunkSize p.length := by
  rw [wireChunk, List.length_append, hc.length_encrypt, hc.length_encrypt,
    Bytes.packH_eq_some hp]
  rfl

/-- The front of a wire of chunks. -/
theorem front_wireChunk {s : AEADStream} {k : AeadKey} (hk : s.decAead = some k) {n : ℕ}
    (hn : n + 2 ≤ 256 ^ s.info.nonceLen) {p : Bytes} (hp : p.length < 65536) (rest : Bytes) :
    front (opener c s) n (wireChunk c k s.info.nonceLen n p ++ rest) =
      if maxChunk < p.length then .tooLong else .chunk p.length p := by
  set nl := s.info.nonceLen with hnl
  set lenBlock := c.aead.encrypt k (Bytes.ofNatLE nl n) ((Bytes.packH p.length).getD []) []
  set payBlock := c.aead.encrypt k (Bytes.ofNatLE nl (n + 1)) p []
  have hlen : lenBlock.length = 2 + Aead.tagLen := by
    rw [hc.length_encrypt, Bytes.packH_eq_some hp]; rfl
  have hpay : payBlock.length = p.length + Aead.tagLen := hc.length_encrypt _ _ _ _
  have hw : wireChunk c k nl n p ++ rest = lenBlock ++ (payBlock ++ rest) := by
    rw [wireChunk, List.append_assoc]
  have hopen : ∀ m block b, m < 256 ^ nl → c.aead.decrypt k (Bytes.ofNatLE nl m) block [] = some b →
      opener c s m block = some b := by
    intro m block b hm hb
    simp [opener, hk, nonceBytes, ← hnl, hm, hb]
  have h₁ : opener c s n lenBlock = some ((Bytes.packH p.length).getD []) :=
    hopen _ _ _ (by omega) (hc.decrypt_encrypt _ _ _ _)
  have h₂ : opener c s (n + 1) payBlock = some p :=
    hopen _ _ _ (by omega) (hc.decrypt_encrypt _ _ _ _)
  have hunpack : Bytes.unpackH ((Bytes.packH p.length).getD []) = some p.length :=
    Bytes.unpackH_packH (by rw [Bytes.packH_eq_some hp]; rfl)
  have hsize : ¬ (lenBlock ++ (payBlock ++ rest)).length < chunkSize p.length := by
    simp only [List.length_append, hlen, hpay, chunkSize]; omega
  rw [hw]
  simp only [front, hunpack, h₁, h₂, hsize, if_false, List.take_left' hlen, List.drop_left' hlen,
    List.take_left' hpay]
  rw [if_neg]
  rw [List.length_append, hlen]
  omega

/-- The decoder yields the payloads before the first that is too long, and fails there. -/
theorem exhaust_wire {k : AeadKey} (ps : List Bytes) {n : ℕ} {t : AEADStream}
    (hk : t.decAead = some k) (hn : t.decNonce = n)
    (hb : t.buf = wireChunks c k t.info.nonceLen n ps)
    (hmax : n + 2 * ps.length ≤ 256 ^ t.info.nonceLen) (hlen : ∀ p ∈ ps, p.length < 65536) :
    ((decoder c).exhaust t).items = ps.takeWhile (fun p => p.length ≤ maxChunk) ∧
      raised ((decoder c).exhaust t).ending =
        if ∀ p ∈ ps, p.length ≤ maxChunk then none
        else some (.valueError "invalid SS AEAD chunk length (exceeds spec limit)") := by
  have hkey : t.decAead.isSome = true := by rw [hk]; rfl
  have hpass : (decoder c).pass t = roundOf t (front (opener c t) t.decNonce t.buf) :=
    (pass_of_key hkey).trans (round_front t)
  induction ps generalizing n t with
  | nil =>
    have hf : front (opener c t) t.decNonce t.buf = .short := by
      simp [front, hb, wireChunks]
    rw [hf] at hpass
    rw [Decoder.exhaust_wait hpass]
    simp [raised]
  | cons p ps ih =>
    obtain ⟨hp, hps⟩ := List.forall_mem_cons.1 hlen
    simp only [List.length_cons] at hmax
    have hf := front_wireChunk hc hk (n := n) (by omega) hp
      (wireChunks c k t.info.nonceLen (n + 2) ps)
    have hb' : t.buf = wireChunk c k t.info.nonceLen n p ++
      wireChunks c k t.info.nonceLen (n + 2) ps := hb
    rw [hn, hb', hf] at hpass
    -- the decoder stops at the first length above the limit
    by_cases hlong : maxChunk < p.length
    · rw [if_pos hlong] at hpass
      rw [Decoder.exhaust_fail hpass]
      simp [raised, Nat.not_le.2 hlong]
    · rw [if_neg hlong] at hpass
      rw [Decoder.exhaust_emit hpass]
      set t' : AEADStream :=
        { t with decNonce := t.decNonce + 2, buf := t.buf.drop (chunkSize p.length) }
      have hdrop : t'.buf = wireChunks c k t'.info.nonceLen (n + 2) ps := by
        change t.buf.drop _ = _
        rw [hb', List.drop_left' (length_wireChunk hc _ _ _ hp)]
      obtain ⟨hitems, hend⟩ := ih (n := n + 2) (t := t') hk (by simp [t', hn]) hdrop
        (show n + 2 + 2 * ps.length ≤ 256 ^ t.info.nonceLen by omega) hps hkey
        ((pass_of_key (s := t') hkey).trans (round_front t'))
      rw [Decoder.Outcome.items_prepend, Decoder.Outcome.ending_prepend, hitems, hend]
      simp [Nat.not_lt.1 hlong]

end Decode

/-! ### The round trip -/

/-- No call of `encrypt_chunk` raises, and a fresh stream with the same master key yields payloads
with the same concatenation, without raising. -/
def RoundTrips (c : Crypto) (masterKey : Bytes) (info : CipherInfo) (encSalt encSalt' : Bytes)
    (payloads : List Bytes) : Prop :=
  ∃ wire s, (init c masterKey info encSalt).encryptChunks c payloads = .ok (wire, s) ∧
    ∃ decoded, (init c masterKey info encSalt').decryptSegments c [wire] = (decoded, none) ∧
      decoded.flatten = payloads.flatten

/-- A stream that receives a salt and chunks sealed under the subkey of that salt. -/
theorem decrypt_wire (hc : c.aead.Correct) (hsalt : encSalt.length = info.saltLen)
    (ps : List Bytes) (hmax : 2 * ps.length ≤ 256 ^ info.nonceLen)
    (hlen : ∀ p ∈ ps, p.length < 65536) :
    (init c masterKey info encSalt').decryptSegments c
        [encSalt ++ wireChunks c ⟨info.cls, subkey c masterKey encSalt info.keyLen⟩
          info.nonceLen 0 ps] =
      (ps.takeWhile (fun p => p.length ≤ maxChunk),
        if ∀ p ∈ ps, p.length ≤ maxChunk then none
        else some (.valueError "invalid SS AEAD chunk length (exceeds spec limit)")) := by
  set wire := encSalt ++ wireChunks c ⟨info.cls, subkey c masterKey encSalt info.keyLen⟩
    info.nonceLen 0 ps
  have ha : info.saltLen ≤ wire.length := by
    rw [List.length_append, hsalt]; omega
  have htake : wire.take info.saltLen = encSalt := List.take_left' hsalt
  have hdrop : wire.drop info.saltLen = _ := List.drop_left' hsalt
  obtain ⟨hitems, hend⟩ := exhaust_wire hc (n := 0)
    (k := ⟨info.cls, subkey c masterKey encSalt info.keyLen⟩) ps
    (t := keyed c masterKey info encSalt' wire) (by simp [keyed, htake]) rfl
    (by simp [keyed, hdrop, init]) (by simpa [keyed, init] using hmax) hlen
  rw [decryptSegments_singleton, exhaust_init ha, hitems, hend]

theorem fits_init (hnonce : info.nonceLen = Aead.nonceLen) (payloads : List Bytes) :
    Fits (init c masterKey info encSalt) payloads ↔
      (∀ p ∈ payloads, p.length < 65536) ∧ 2 * payloads.length ≤ 256 ^ Aead.nonceLen := by
  simp [Fits, init, hnonce]

/-- A list that survives has no payload above `maxChunk`, and the nonce counter lasts for it. -/
theorem RoundTrips.le_maxChunk (hc : c.aead.Correct) (hnonce : info.nonceLen = Aead.nonceLen)
    (hsalt : encSalt.length = info.saltLen) {payloads : List Bytes}
    (h : RoundTrips c masterKey info encSalt encSalt' payloads) :
    (∀ p ∈ payloads, p.length ≤ maxChunk) ∧ 2 * payloads.length ≤ 256 ^ Aead.nonceLen := by
  obtain ⟨wire, s, hs, decoded, hdec, -⟩ := h
  obtain ⟨hf, rfl⟩ := (encryptChunks_eq _ (Nat.zero_le _) payloads wire).1 ⟨s, hs⟩
  obtain ⟨hlen, hmax⟩ := (fits_init hnonce payloads).1 hf
  rcases eq_or_ne payloads [] with rfl | hne
  · simp
  · rw [if_neg hne] at hdec
    have := hdec.symm.trans
      (decrypt_wire hc hsalt payloads (show _ ≤ 256 ^ info.nonceLen from hnonce ▸ hmax) hlen)
    refine ⟨?_, hmax⟩
    by_contra hlong
    simp [hlong] at this

/-- Conversely every such list survives. -/
theorem roundTrips_of_le_maxChunk (hc : c.aead.Correct) (hnonce : info.nonceLen = Aead.nonceLen)
    (hpos : 0 < info.saltLen) (hsalt : encSalt.length = info.saltLen) {payloads : List Bytes}
    (hle : ∀ p ∈ payloads, p.length ≤ maxChunk)
    (hmax : 2 * payloads.length ≤ 256 ^ Aead.nonceLen) :
    RoundTrips c masterKey info encSalt encSalt' payloads := by
  have hlen : ∀ p ∈ payloads, p.length < 65536 := fun p hp => (hle p hp).trans_lt (by decide)
  rcases eq_or_ne payloads [] with rfl | hne
  · exact ⟨[], _, rfl, [], decryptSegments_empty hpos, rfl⟩
  · obtain ⟨s, hs⟩ := (encryptChunks_eq (c := c) (init c masterKey info encSalt) (Nat.zero_le _)
      payloads _).2 ⟨(fits_init hnonce payloads).2 ⟨hlen, hmax⟩, rfl⟩
    refine ⟨_, s, hs, payloads, ?_, rfl⟩
    rw [if_neg hne]
    refine (decrypt_wire hc hsalt payloads (hnonce ▸ hmax) hlen).trans ?_
    rw [if_pos hle, List.takeWhile_eq_self_iff.2 (by simpa using hle)]

/-- **Which payload lists survive the round trip**: those without a payload above `maxChunk`, as
long as the nonce counter lasts. -/
theorem roundTrips_iff (c : Crypto) (hc : c.aead.Correct) (name : String) (info : CipherInfo)
    (hname : ciphers name = some info) (masterKey encSalt encSalt' : Bytes)
    (hsalt : encSalt.length = info.saltLen) (payloads : List Bytes) :
    RoundTrips c masterKey info encSalt encSalt' payloads ↔
      (∀ p ∈ payloads, p.length ≤ maxChunk) ∧ 2 * payloads.length ≤ 256 ^ Aead.nonceLen := by
  obtain ⟨hsize, hnonce⟩ := ciphers_sizes hname
  exact ⟨RoundTrips.le_maxChunk hc hnonce hsalt, fun ⟨hle, hmax⟩ =>
    roundTrips_of_le_maxChunk hc hnonce (hsize ▸ Nat.zero_lt_succ 31) hsalt hle hmax⟩

/-- Two payloads of up to `maxChunk` bytes survive. -/
theorem roundTrips_iff_two_payloads : Crypto.transparent.aead.Correct ∧
    ciphers "aes-256-gcm" = some ⟨32, 32, 12, .AESGCM⟩ ∧ (List.replicate 32 (0 : UInt8)).length = 32 ∧
    (RoundTrips Crypto.transparent [] ⟨32, 32, 12, .AESGCM⟩ (List.replicate 32 0) []
        [[1, 2, 3], [4]] ↔
      (∀ p ∈ ([[1, 2, 3], [4]] : List Bytes), p.length ≤ maxChunk) ∧
        2 * ([[1, 2, 3], [4]] : List Bytes).length ≤ 256 ^ Aead.nonceLen) :=
  ⟨Crypto.transparent_correct, rfl, rfl,
    roundTrips_iff Crypto.transparent Crypto.transparent_correct "aes-256-gcm" _ rfl [] _ []
      rfl [[1, 2, 3], [4]]⟩

/-- One read of `maxChunk + 1` bytes does not survive. -/
theorem relay_read_not_decodable : ¬ ∀ (c : Crypto), c.aead.Correct → ∀ (name : String)
    (info : CipherInfo), ciphers name = some info → ∀ masterKey encSalt encSalt' : Bytes,
      encSalt.length = info.saltLen → ∀ payloads : List Bytes,
        (∀ p ∈ payloads, 1 ≤ p.length ∧ p.length ≤ relayBuf) →
          RoundTrips c masterKey info encSalt encSalt' payloads := by
  intro h
  have hlen : (List.replicate (maxChunk + 1) (0 : UInt8)).length = maxChunk + 1 :=
    List.length_replicate ..
  have htrip := h Crypto.transparent Crypto.transparent_correct "aes-256-gcm"
    ⟨32, 32, 12, .AESGCM⟩ rfl [] (List.replicate 32 0) [] rfl
    [List.replicate (maxChunk + 1) 0] fun p hp => by
      rw [List.mem_singleton.1 hp, hlen, maxChunk, relayBuf]
      omega
  have hle := (htrip.le_maxChunk Crypto.transparent_correct rfl rfl).1 _ (List.mem_singleton_self _)
  rw [hlen] at hle
  omega

end Shadowsocks

end RvgGateway
