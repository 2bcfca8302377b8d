import Mathlib.Data.Nat.Find
import RvgGateway.Shadowsocks.Stream

/-!
# Decoding and segmentation

The decoder of `RvgGateway.Shadowsocks.Stream` should not care how TCP or the WebSocket layer cuts
the wire.  It does: when the buffer ends inside the payload block of a chunk, the length block has
been opened and the nonce advanced, but the length block stays in the buffer, so the next call
opens it again under the wrong nonce.

* `Front` classifies the front of a wire and `Reads` follows its complete chunks; both speak about
  bytes and the AEAD only.
* `AEADStream.round_front` says that one round of the code acts on the front of its buffer.
* `decoder_stable`, `resumes_of_not_endsInside` : items and failures are final, and every boundary
  resumes except one inside a payload block, so the library result `Decoder.Stable.feedAll_flatten`
  applies to every other cut.
* `segmentation_iff` : exactly which cuts are harmless.
-/

namespace RvgGateway

namespace Shadowsocks

open AEADStream

/-! ### The front of a wire -/

/-- What stands at the front of a wire. -/
inductive Front where
  /-- Not even a length block. -/
  | short
  /-- A length block that does not open. -/
  | badLength
  /-- A length block whose plaintext is not two bytes long. -/
  | notLength
  /-- A length above `maxChunk`. -/
  | tooLong
  /-- A good length block and the beginning of its payload block. -/
  | incomplete
  /-- A complete chunk whose payload block does not open. -/
  | badPayload
  /-- A complete chunk: the announced length and the payload. -/
  | chunk (length : ℕ) (payload : Bytes)
  deriving DecidableEq, Repr

/-- Size on the wire of a chunk that announces `length`. -/
def chunkSize (length : ℕ) : ℕ := 2 + Aead.tagLen + length + Aead.tagLen

/-- The front of the wire `w`, where `op` opens blocks and `n` is the next nonce. -/
def front (op : ℕ → Bytes → Option Bytes) (n : ℕ) (w : Bytes) : Front :=
  if w.length < 2 + Aead.tagLen then .short
  else
    match op n (w.take (2 + Aead.tagLen)) with
    | none => .badLength
    | some lengthBytes =>
      match Bytes.unpackH lengthBytes with
      | none => .notLength
      | some length =>
        if maxChunk < length then .tooLong
        else if w.length < chunkSize length then .incomplete
        else
          match op (n + 1) ((w.drop (2 + Aead.tagLen)).take (length + Aead.tagLen)) with
          | none => .badPayload
          | some payload => .chunk length payload

/-- `Reads op n w ps m r` : from nonce `n` the complete chunks of `w` carry the payloads `ps`; the
nonce is then `m` and `r`, which does not start with a complete chunk, is left. -/
inductive Reads (op : ℕ → Bytes → Option Bytes) : ℕ → Bytes → List Bytes → ℕ → Bytes → Prop
  | stop {n w} : (∀ l p, front op n w ≠ .chunk l p) → Reads op n w [] n w
  | chunk {n w l p ps m r} : front op n w = .chunk l p →
      Reads op (n + 2) (w.drop (chunkSize l)) ps m r → Reads op n w (p :: ps) m r

variable {op : ℕ → Bytes → Option Bytes} {n : ℕ} {w d : Bytes}

/-- The front is final unless it waits for more bytes. -/
theorem front_append (hs : front op n w ≠ .short) (hi : front op n w ≠ .incomplete) :
    front op n (w ++ d) = front op n w := by
  have hlen : ¬ w.length < 2 + Aead.tagLen := fun h => hs (by simp [front, h])
  have hlen' : ¬ (w ++ d).length < 2 + Aead.tagLen := by rw [List.length_append]; omega
  have htake : (w ++ d).take (2 + Aead.tagLen) = w.take (2 + Aead.tagLen) :=
    List.take_append_of_le_length (by omega)
  have hdrop : (w ++ d).drop (2 + Aead.tagLen) = w.drop (2 + Aead.tagLen) ++ d :=
    List.drop_append_of_le_length (by omega)
  simp only [front, hlen, hlen', if_false, htake, hdrop] at hi ⊢
  cases hop : op n (w.take (2 + Aead.tagLen)) with
  | none => rfl
  | some lb =>
    simp only [hop] at hi ⊢
    cases hl : Bytes.unpackH lb with
    | none => rfl
    | some l =>
      simp only [hl] at hi ⊢
      by_cases h₁ : maxChunk < l
      · simp only [h₁, if_true]
      · by_cases h₂ : w.length < chunkSize l
        · simp [h₁, h₂] at hi
        · have h₃ : ¬ (w ++ d).length < chunkSize l := by rw [List.length_append]; omega
          simp only [h₁, h₂, h₃, if_false]
          rw [List.take_append_of_le_length]
          rw [List.length_drop]
          simp only [chunkSize] at h₂
          omega

theorem front_incomplete (h : front op n w = .incomplete) :
    ∃ lb l, 2 + Aead.tagLen ≤ w.length ∧ op n (w.take (2 + Aead.tagLen)) = some lb ∧
      Bytes.unpackH lb = some l ∧ l ≤ maxChunk ∧ w.length < chunkSize l := by
  simp only [front] at h
  split_ifs at h with h₁
  split at h
  · cases h
  · rename_i lb hlb
    split at h
    · cases h
    · rename_i l hl
      split_ifs at h with h₂ h₃
      · exact ⟨lb, l, by omega, hlb, hl, by omega, h₃⟩
      · split at h <;> cases h

/-- A chunk that has begun can be completed, found to be bad, or still be incomplete. -/
theorem front_incomplete_append (h : front op n w = .incomplete) :
    front op n (w ++ d) = .incomplete ∨ front op n (w ++ d) = .badPayload ∨
      ∃ l p, front op n (w ++ d) = .chunk l p := by
  obtain ⟨lb, l, hlen, hop, hl, hmax, -⟩ := front_incomplete h
  have hlen' : ¬ (w ++ d).length < 2 + Aead.tagLen := by rw [List.length_append]; omega
  simp only [front, hlen', if_false, List.take_append_of_le_length hlen, hop, hl,
    Nat.not_lt.2 hmax]
  split_ifs
  · exact .inl rfl
  · split
    · exact .inr (.inl rfl)
    · exact .inr (.inr ⟨_, _, rfl⟩)

theorem chunkSize_le_length {l : ℕ} {p : Bytes} (h : front op n w = .chunk l p) :
    chunkSize l ≤ w.length := by
  simp only [front] at h
  split_ifs at h with h₁
  split at h
  · cases h
  · split at h
    · cases h
    · split_ifs at h with h₂ h₃
      split at h
      · cases h
      · cases h; omega

/-! ### The decoder on the front of its buffer -/

variable {c : Crypto}

/-- The decoder's block opener, as a function of the nonce counter. -/
def opener (c : Crypto) (s : AEADStream) (n : ℕ) (block : Bytes) : Option Bytes :=
  s.decAead.bind fun k => (s.nonceBytes n).bind fun nonce => c.aead.decrypt k nonce block []

/-- What one round does with each front. -/
def roundOf (s : AEADStream) : Front → Pass AEADStream Bytes Exc
  | .short => .wait s
  | .badLength => .fail (.valueError "AEAD decrypt (length) failed — bad key/tag")
  | .notLength => .fail .structError
  | .tooLong => .fail (.valueError "invalid SS AEAD chunk length (exceeds spec limit)")
  | .incomplete => .wait { s with decNonce := s.decNonce + 1 }
  | .badPayload => .fail (.valueError "AEAD decrypt (payload) failed — bad key/tag")
  | .chunk l p => .emit p { s with decNonce := s.decNonce + 2, buf := s.buf.drop (chunkSize l) }

/-- One round of the code acts on the front of its buffer. -/
theorem round_front (s : AEADStream) :
    s.round c = roundOf s (front (opener c s) s.decNonce s.buf) := by
  simp only [AEADStream.round, front]
  by_cases h₁ : s.buf.length < 2 + Aead.tagLen
  · simp [h₁, roundOf]
  · simp only [h₁, if_false]
    change (match opener c s s.decNonce (s.buf.take (2 + Aead.tagLen)) with
      | none => _
      | some lengthBytes => _) = _
    cases opener c s s.decNonce (s.buf.take (2 + Aead.tagLen)) with
    | none => rfl
    | some lb =>
      simp only
      cases Bytes.unpackH lb with
      | none => rfl
      | some l =>
        simp only
        by_cases h₂ : maxChunk < l
        · simp [h₂, roundOf]
        · by_cases h₃ : s.buf.length < chunkSize l
          · have h₃' : s.buf.length < 2 + Aead.tagLen + l + Aead.tagLen := h₃
            simp [h₂, h₃, h₃', roundOf]
          · have h₃' : ¬ s.buf.length < 2 + Aead.tagLen + l + Aead.tagLen := h₃
            simp only [h₂, h₃, h₃', if_false]
            change (match opener c s (s.decNonce + 1)
              ((s.buf.drop (2 + Aead.tagLen)).take (l + Aead.tagLen)) with
              | none => _
              | some payload => _) = _
            cases opener c s (s.decNonce + 1)
              ((s.buf.drop (2 + Aead.tagLen)).take (l + Aead.tagLen)) with
            | none => rfl
            | some p =>
              simp only [roundOf, List.drop_drop]
              rfl

/-- `_ensure_dec_key` either lacks a part of the salt, or leaves a state with a key that does not
depend on what is fed later. -/
theorem ensureDecKey_cases (s : AEADStream) :
    (s.decAead = none ∧ s.buf.length < s.info.saltLen ∧ s.ensureDecKey c = (false, s)) ∨
    ∃ t, s.ensureDecKey c = (true, t) ∧ t.decAead.isSome = true ∧ t.buf.length ≤ s.buf.length ∧
      ∀ d, (s.feed d).ensureDecKey c = (true, t.feed d) := by
  by_cases hk : s.decAead.isSome = true
  · exact .inr ⟨s, by simp [ensureDecKey, hk], hk, le_rfl, fun d => by
      simp [ensureDecKey, feed, hk]⟩
  · have hnone : s.decAead = none := by simpa using hk
    by_cases hl : s.buf.length < s.info.saltLen
    · exact .inl ⟨hnone, hl, by simp [ensureDecKey, hnone, hl]⟩
    · have hl' : s.info.saltLen ≤ s.buf.length := Nat.not_lt.1 hl
      refine .inr ⟨_, by simp only [ensureDecKey, hk, hl]; rfl, rfl, ?_, fun d => ?_⟩
      · simp
      · have hd : s.info.saltLen ≤ s.buf.length + d.length := by omega
        simp [ensureDecKey, feed, hnone, hd, List.take_append_of_le_length hl',
          List.drop_append_of_le_length hl']

theorem ensureDecKey_of_key {s : AEADStream} (h : s.decAead.isSome = true) :
    s.ensureDecKey c = (true, s) := by
  simp [ensureDecKey, h]

/-- `_ensure_dec_key` and one round: a pass over everything received. -/
def pass (c : Crypto) (s : AEADStream) : Pass AEADStream Bytes Exc :=
  match s.ensureDecKey c with
  | (false, s) => .wait s
  | (true, s) => s.round c

theorem pass_of_key {s : AEADStream} (h : s.decAead.isSome = true) : pass c s = s.round c := by
  simp [pass, ensureDecKey_of_key h]

theorem pass_eq {s t : AEADStream} (h : s.ensureDecKey c = (true, t)) : pass c s = t.round c := by
  simp [pass, h]

/-- A round that emits has consumed a complete chunk. -/
theorem round_emit {s s' : AEADStream} {p : Bytes} (h : s.round c = .emit p s') :
    ∃ l, front (opener c s) s.decNonce s.buf = .chunk l p ∧
      s' = { s with decNonce := s.decNonce + 2, buf := s.buf.drop (chunkSize l) } := by
  rw [round_front] at h
  cases hf : front (opener c s) s.decNonce s.buf with
  | chunk l q => rw [hf] at h; cases h; exact ⟨l, rfl, rfl⟩
  | short | badLength | notLength | tooLong | incomplete | badPayload => rw [hf] at h; cases h

/-- The decoder as a whole: the salt, then the chunks. -/
def decoder (c : Crypto) : Decoder AEADStream UInt8 Bytes Exc where
  feed := feed
  pass := pass c
  size s := s.buf.length
  feed_append := feed_append
  size_lt {s p s'} h := by
    rcases ensureDecKey_cases (c := c) s with ⟨-, -, he⟩ | ⟨t, he, -, hle, -⟩
    · simp [pass, he] at h
    · rw [pass_eq he] at h
      exact (length_buf_round h).trans_le hle

theorem decoder_pass (s : AEADStream) : (decoder c).pass s = pass c s := rfl

theorem decoder_feed (s : AEADStream) (d : Bytes) : (decoder c).feed s d = s.feed d := rfl

theorem exhaust_loop {s : AEADStream} (h : s.decAead.isSome = true) :
    (loop c).exhaust s = (decoder c).exhaust s := by
  induction hn : s.buf.length using Nat.strongRecOn generalizing s with
  | _ n ih =>
    have hd : (decoder c).pass s = s.round c := pass_of_key h
    cases hp : s.round c with
    | wait s' =>
      rw [Decoder.exhaust_wait (show (loop c).pass s = _ from hp),
        Decoder.exhaust_wait (hd.trans hp)]
    | fail e =>
      rw [Decoder.exhaust_fail (show (loop c).pass s = _ from hp),
        Decoder.exhaust_fail (hd.trans hp)]
    | emit p s' =>
      rw [Decoder.exhaust_emit (show (loop c).pass s = _ from hp),
        Decoder.exhaust_emit (hd.trans hp)]
      have hlt := length_buf_round hp
      obtain ⟨l, -, rfl⟩ := round_emit hp
      rw [ih _ (hn ▸ hlt) (by exact h) rfl]

/-- `try_decrypt_chunks` works the buffer of `decoder` off. -/
theorem tryDecryptChunks_eq (s : AEADStream) :
    s.tryDecryptChunks c = (decoder c).exhaust s := by
  rcases ensureDecKey_cases (c := c) s with ⟨-, -, he⟩ | ⟨t, he, hk, -, -⟩
  · rw [tryDecryptChunks, he]
    exact (Decoder.exhaust_wait (show (decoder c).pass s = _ by simp [decoder, pass, he])).symm
  · have ht : (decoder c).pass s = (decoder c).pass t := (pass_eq he).trans (pass_of_key hk).symm
    rw [tryDecryptChunks, he, Decoder.exhaust_congr ht]
    exact exhaust_loop hk

/-- The exception of an outcome, if any. -/
def raised : Except Exc AEADStream → Option Exc
  | .error e => some e
  | .ok _ => none

/-- The relay loop feeds `decoder` segment by segment. -/
theorem decryptSegments_eq (s : AEADStream) (ds : List Bytes) :
    s.decryptSegments c ds =
      (((decoder c).feedAll s ds).items, raised ((decoder c).feedAll s ds).ending) := by
  induction ds generalizing s with
  | nil => rfl
  | cons d ds ih =>
    rw [decryptSegments, tryDecryptChunks_eq, Decoder.feedAll, decoder_feed]
    rcases (decoder c).exhaust (s.feed d) with ⟨ps, e | s'⟩
    · rfl
    · simp only [ih]; rfl

/-- Payloads and failures are final. -/
theorem decoder_stable : (decoder c).Stable where
  emit {s s' p} d h := by
    change pass c s = _ at h
    change pass c (s.feed d) = _
    rcases ensureDecKey_cases (c := c) s with ⟨-, -, he⟩ | ⟨t, he, -, -, hd⟩
    · simp [pass, he] at h
    · rw [pass_eq he] at h
      obtain ⟨l, hf, rfl⟩ := round_emit h
      rw [pass_eq (hd d), round_front]
      change roundOf (t.feed d) (front (opener c t) t.decNonce (t.buf ++ d)) = _
      rw [front_append (by simp [hf]) (by simp [hf]), hf]
      simp [roundOf, feed, decoder, List.drop_append_of_le_length (chunkSize_le_length hf)]
  fail {s e} d h := by
    change pass c s = _ at h
    change pass c (s.feed d) = _
    rcases ensureDecKey_cases (c := c) s with ⟨-, -, he⟩ | ⟨t, he, -, -, hd⟩
    · simp [pass, he] at h
    · rw [pass_eq he, round_front] at h
      rw [pass_eq (hd d), round_front]
      change roundOf (t.feed d) (front (opener c t) t.decNonce (t.buf ++ d)) = _
      cases hf : front (opener c t) t.decNonce t.buf with
      | short | incomplete | chunk => rw [hf] at h; cases h
      | badLength | notLength | tooLong | badPayload =>
        rw [front_append (by simp [hf]) (by simp [hf]), hf]
        rw [hf] at h
        exact h

/-! ### Reading a wire -/

theorem Reads.det {ps qs : List Bytes} {m m' : ℕ} {r r' : Bytes} (h : Reads op n w ps m r)
    (h' : Reads op n w qs m' r') : ps = qs ∧ m = m' ∧ r = r' := by
  induction h generalizing qs with
  | stop hs =>
    cases h' with
    | stop => exact ⟨rfl, rfl, rfl⟩
    | chunk hf => exact absurd hf (hs _ _)
  | chunk hf _ ih =>
    cases h' with
    | stop hs => exact absurd hf (hs _ _)
    | chunk hf' h'' =>
      rw [hf] at hf'
      cases hf'
      obtain ⟨rfl, rfl, rfl⟩ := ih h''
      exact ⟨rfl, rfl, rfl⟩

theorem exists_reads (op : ℕ → Bytes → Option Bytes) (n : ℕ) (w : Bytes) :
    ∃ ps m r, Reads op n w ps m r := by
  induction hw : w.length using Nat.strongRecOn generalizing n w with
  | _ k ih =>
    by_cases h : ∃ l p, front op n w = .chunk l p
    · obtain ⟨l, p, hf⟩ := h
      have hle := chunkSize_le_length hf
      obtain ⟨ps, m, r, hr⟩ := ih (w.drop (chunkSize l)).length
        (by rw [List.length_drop]; simp only [chunkSize, Aead.tagLen] at *; omega) (n + 2) _ rfl
      exact ⟨p :: ps, m, r, .chunk hf hr⟩
    · push Not at h
      exact ⟨[], n, w, .stop h⟩

/-- What follows a wire that ends in a begun chunk does not change the chunks before it. -/
theorem Reads.append {ps : List Bytes} {m : ℕ} {r : Bytes} (h : Reads op n w ps m r)
    (hd : ∀ l p, front op m (r ++ d) ≠ .chunk l p) : Reads op n (w ++ d) ps m (r ++ d) := by
  induction h with
  | stop => exact .stop hd
  | chunk hf _ ih =>
    refine .chunk (by rw [front_append (by simp [hf]) (by simp [hf]), hf]) ?_
    rw [List.drop_append_of_le_length (chunkSize_le_length hf)]
    exact ih hd

/-- A keyed decoder settles behind the complete chunks of its buffer. -/
theorem Reads.settles {ps : List Bytes} {m : ℕ} {r : Bytes} (h : Reads op n w ps m r)
    {t : AEADStream} (hk : t.decAead.isSome = true) (hop : opener c t = op) (hn : t.decNonce = n)
    (hw : t.buf = w) : (decoder c).Settles t ps { t with decNonce := m, buf := r } := by
  induction h generalizing t with
  | stop hs =>
    subst hn hw
    refine .stop fun p s' hp => ?_
    obtain ⟨l, hf, -⟩ := round_emit ((pass_of_key hk).symm.trans hp)
    exact hs l p (hop ▸ hf)
  | @chunk n w l p ps m r hf _ ih =>
    subst hn hw hop
    let t' := { t with decNonce := t.decNonce + 2, buf := t.buf.drop (chunkSize l) }
    have hp : (decoder c).pass t = .emit p t' := by
      rw [decoder_pass, pass_of_key hk, round_front, hf]; rfl
    exact .emit hp (ih (t := t') hk rfl rfl rfl)

/-! ### Cuts -/

variable {masterKey encSalt a b : Bytes} {info : CipherInfo}

/-- The block opener of a stream with this master key behind a salt. -/
def wireOpener (c : Crypto) (masterKey : Bytes) (info : CipherInfo) (salt : Bytes) (n : ℕ)
    (block : Bytes) : Option Bytes :=
  opener c { init c masterKey info [] with
    decAead := some ⟨info.cls, subkey c masterKey salt info.keyLen⟩ } n block

/-- The wire `a` ends inside the payload block of a chunk. -/
def EndsInside (c : Crypto) (masterKey : Bytes) (info : CipherInfo) (a : Bytes) (n : ℕ)
    (r : Bytes) : Prop :=
  info.saltLen ≤ a.length ∧
    (∃ ps, Reads (wireOpener c masterKey info (a.take info.saltLen)) 0 (a.drop info.saltLen) ps n r) ∧
    front (wireOpener c masterKey info (a.take info.saltLen)) n r = .incomplete

/-- The cut between `a` and `b` goes through the payload block of a chunk which `b`, if it
completes it, does not show to be bad. -/
def Straddles (c : Crypto) (masterKey : Bytes) (info : CipherInfo) (a b : Bytes) : Prop :=
  ∃ n r, EndsInside c masterKey info a n r ∧
    front (wireOpener c masterKey info (a.take info.saltLen)) n (r ++ b) ≠ .badPayload

/-- No boundary between the segments is such a cut. -/
def CutsBetweenChunks (c : Crypto) (masterKey : Bytes) (info : CipherInfo)
    (segs : List Bytes) : Prop :=
  ∀ pre post, segs = pre ++ post → post ≠ [] →
    ¬ Straddles c masterKey info pre.flatten post.flatten

/-- The decoder that has received `a`, salt included, and taken the salt off. -/
def keyed (c : Crypto) (masterKey : Bytes) (info : CipherInfo) (encSalt a : Bytes) : AEADStream :=
  { init c masterKey info encSalt with
    decSalt := some (a.take info.saltLen)
    buf := a.drop info.saltLen
    decAead := some ⟨info.cls, subkey c masterKey (a.take info.saltLen) info.keyLen⟩ }

theorem ensureDecKey_init (ha : info.saltLen ≤ a.length) :
    ((init c masterKey info encSalt).feed a).ensureDecKey c =
      (true, keyed c masterKey info encSalt a) := by
  have ha' : ¬ a.length < info.saltLen := Nat.not_lt.2 ha
  simp [ensureDecKey, init, feed, keyed, ha']

theorem feed_keyed (ha : info.saltLen ≤ a.length) :
    (keyed c masterKey info encSalt a).feed b = keyed c masterKey info encSalt (a ++ b) := by
  simp [keyed, feed, List.take_append_of_le_length ha, List.drop_append_of_le_length ha]

theorem exhaust_init (ha : info.saltLen ≤ a.length) :
    (decoder c).exhaust ((init c masterKey info encSalt).feed a) =
      (decoder c).exhaust (keyed c masterKey info encSalt a) :=
  Decoder.exhaust_congr ((pass_eq (ensureDecKey_init ha)).trans (pass_of_key rfl).symm)

/-- Every boundary resumes except one inside a payload block. -/
theorem resumes_of_not_endsInside (h : ∀ n r, ¬ EndsInside c masterKey info a n r) :
    (decoder c).Resumes ((init c masterKey info encSalt).feed a) := by
  by_cases ha : info.saltLen ≤ a.length
  · have hpass : (decoder c).pass ((init c masterKey info encSalt).feed a) =
        (decoder c).pass (keyed c masterKey info encSalt a) :=
      (pass_eq (ensureDecKey_init ha)).trans (pass_of_key rfl).symm
    refine Decoder.Resumes.congr ?_ hpass fun d => ?_
    · obtain ⟨ps, n, r, hr⟩ := exists_reads (wireOpener c masterKey info (a.take info.saltLen)) 0
        (a.drop info.saltLen)
      intro ps' t t' ht hw d
      obtain ⟨rfl, rfl⟩ := ht.det (hr.settles (c := c) (t := keyed c masterKey info encSalt a)
        rfl rfl rfl rfl)
      have hf : front (wireOpener c masterKey info (a.take info.saltLen)) n r ≠ .incomplete :=
        fun hi => h n r ⟨ha, ⟨_, hr⟩, hi⟩
      rw [decoder_pass, pass_of_key rfl, round_front] at hw
      change roundOf _ (front (wireOpener c masterKey info (a.take info.saltLen)) n r) = _ at hw
      cases hfr : front (wireOpener c masterKey info (a.take info.saltLen)) n r with
      | short => rw [hfr] at hw; cases hw; rfl
      | incomplete => exact absurd hfr hf
      | badLength | notLength | tooLong | badPayload | chunk => rw [hfr] at hw; cases hw
    · rw [decoder_pass, decoder_pass, decoder_feed, decoder_feed, feed_keyed ha, feed_append]
      refine (pass_eq (ensureDecKey_init ?_)).trans (pass_of_key rfl).symm
      rw [List.length_append]; omega
  · have hw : (decoder c).pass ((init c masterKey info encSalt).feed a) =
        .wait ((init c masterKey info encSalt).feed a) := by
      simp [decoder, pass, ensureDecKey, init, feed, Nat.not_le.1 ha]
    intro ps t t' ht ht' d
    cases ht with
    | stop => rw [hw] at ht'; cases ht'; rfl
    | emit hp => rw [hw] at hp; cases hp

/-! ### A cut through a payload block -/

/-- The decoder behind the complete chunks of `a`, waiting for the rest of a chunk: with the nonce
of its length block, as it should be. -/
def settled (c : Crypto) (masterKey : Bytes) (info : CipherInfo) (encSalt a : Bytes) (n : ℕ)
    (r : Bytes) : AEADStream :=
  { keyed c masterKey info encSalt a with decNonce := n, buf := r }

theorem pass_settled (r' : Bytes) :
    pass c (settled c masterKey info encSalt a n r') =
      roundOf (settled c masterKey info encSalt a n r')
        (front (wireOpener c masterKey info (a.take info.saltLen)) n r') := by
  rw [pass_of_key rfl, round_front]; rfl

variable {r : Bytes}

/-- At such a cut the decoder has yielded the chunks before it, and its nonce is one ahead. -/
theorem EndsInside.exhaust (h : EndsInside c masterKey info a n r) (encSalt : Bytes) :
    ∃ ps, (decoder c).exhaust ((init c masterKey info encSalt).feed a) =
        ⟨ps, .ok (settled c masterKey info encSalt a (n + 1) r)⟩ ∧
      ∀ b, (decoder c).exhaust ((init c masterKey info encSalt).feed (a ++ b)) =
        ((decoder c).exhaust (settled c masterKey info encSalt a n (r ++ b))).prepend ps := by
  obtain ⟨ha, ⟨ps, hr⟩, hf⟩ := h
  have hs := hr.settles (c := c) (t := keyed c masterKey info encSalt a) rfl rfl rfl rfl
  refine ⟨ps, ?_, fun b => ?_⟩
  · have hp : (decoder c).pass (settled c masterKey info encSalt a n r) =
        .wait (settled c masterKey info encSalt a (n + 1) r) := by
      rw [decoder_pass, pass_settled, hf]; rfl
    rw [exhaust_init ha, hs.exhaust]
    change ((decoder c).exhaust (settled c masterKey info encSalt a n r)).prepend ps = _
    rw [Decoder.exhaust_wait hp]
    simp [Decoder.Outcome.prepend]
  · have hab : info.saltLen ≤ (a ++ b).length := by rw [List.length_append]; omega
    rw [exhaust_init hab, ← feed_keyed ha]
    exact decoder_stable.settles_feed hs b

/-- The call after such a cut opens the same length block under the next nonce. -/
theorem pass_after_endsInside (hnb : c.aead.NonceBound) (hnl : info.nonceLen = Aead.nonceLen)
    (h : EndsInside c masterKey info a n r) (d : Bytes) :
    (decoder c).pass ((settled c masterKey info encSalt a (n + 1) r).feed d) =
      .fail (.valueError "AEAD decrypt (length) failed — bad key/tag") := by
  obtain ⟨lb, l, hlen, hop, -⟩ := front_incomplete h.2.2
  have hbad : wireOpener c masterKey info (a.take info.saltLen) (n + 1)
      (r.take (2 + Aead.tagLen)) = none := by
    simp only [wireOpener, opener, nonceBytes, init, Option.bind_some] at hop ⊢
    by_cases hn : n < 256 ^ info.nonceLen
    · by_cases hn' : n + 1 < 256 ^ info.nonceLen
      · simp only [hn, hn', if_true, Option.bind_some] at hop ⊢
        refine hnb _ _ _ _ _ _ (by simp [hnl]) (by simp [hnl]) (fun he => ?_) hop
        have := Bytes.ofNatLE_injOn hn hn' he
        omega
      · simp only [hn', if_false, Option.bind_none]
    · simp only [hn, if_false, Option.bind_none, reduceCtorEq] at hop
  have hlen' : ¬ (r ++ d).length < 2 + Aead.tagLen := by rw [List.length_append]; omega
  change pass c (settled c masterKey info encSalt a (n + 1) (r ++ d)) = _
  rw [pass_settled]
  simp only [front, hlen', if_false, List.take_append_of_le_length hlen, hbad, roundOf]

/-- Cuts through payload blocks stay visible at every earlier one of their kind. -/
theorem Straddles.of_append {mid : Bytes} (h : EndsInside c masterKey info a n r)
    (hs : Straddles c masterKey info (a ++ mid) b) : Straddles c masterKey info a (mid ++ b) := by
  obtain ⟨ha, ⟨ps, hr⟩, hf⟩ := h
  obtain ⟨n', r', ⟨-, ⟨ps', hr'⟩, hf'⟩, hb⟩ := hs
  rw [List.take_append_of_le_length ha] at hr' hf' hb
  rw [List.drop_append_of_le_length ha] at hr'
  refine ⟨n, r, ⟨ha, ⟨ps, hr⟩, hf⟩, ?_⟩
  rw [← List.append_assoc]
  rcases front_incomplete_append (d := mid) hf with hm | hm | ⟨l, p, hm⟩
  · obtain ⟨-, rfl, rfl⟩ := hr'.det (hr.append (by simp [hm]))
    exact hb
  · obtain ⟨-, rfl, rfl⟩ := hr'.det (hr.append (by simp [hm]))
    rw [hm] at hf'; cases hf'
  · rw [front_append (by simp [hm]) (by simp [hm]), hm]; simp

/-! ### Segmentation -/

theorem ciphers_sizes {name : String} (h : ciphers name = some info) :
    info.saltLen = 32 ∧ info.nonceLen = Aead.nonceLen := by
  unfold ciphers at h
  split at h <;> simp only [Option.some.injEq, reduceCtorEq] at h <;> subst h <;> exact ⟨rfl, rfl⟩

/-- The run ended in a `ValueError`. -/
def endsInValueError (o : List Bytes × Option Exc) : Bool := o.2.any Exc.isValueError

/-- Fed in these segments, a fresh stream yields the payloads, and ends in `ValueError` exactly
when, it does when fed in one piece. -/
def SameAsOnePiece (c : Crypto) (masterKey : Bytes) (info : CipherInfo) (encSalt : Bytes)
    (segs : List Bytes) : Prop :=
  ((init c masterKey info encSalt).decryptSegments c segs).1 =
      ((init c masterKey info encSalt).decryptSegments c [segs.flatten]).1 ∧
    endsInValueError ((init c masterKey info encSalt).decryptSegments c segs) =
      endsInValueError ((init c masterKey info encSalt).decryptSegments c [segs.flatten])

/-- The segments up to a boundary before which none lies inside a payload block count as one. -/
theorem decryptSegments_flatten (encSalt : Bytes) {pre : List Bytes} (post : List Bytes)
    (hpre : pre ≠ [])
    (h : ∀ p q, pre = p ++ q → q ≠ [] → ∀ n r, ¬ EndsInside c masterKey info p.flatten n r) :
    (init c masterKey info encSalt).decryptSegments c (pre ++ post) =
      (init c masterKey info encSalt).decryptSegments c (pre.flatten :: post) := by
  obtain ⟨d, ds, rfl⟩ := List.exists_cons_of_ne_nil hpre
  rw [decryptSegments_eq, decryptSegments_eq, List.cons_append, List.flatten_cons,
    decoder_stable.feedAll_flatten]
  intro p q hds hq
  exact resumes_of_not_endsInside (by simpa using h (d :: p) q (by simp [hds]) hq)

theorem decryptSegments_singleton (s : AEADStream) (w : Bytes) :
    s.decryptSegments c [w] =
      (((decoder c).exhaust (s.feed w)).items, raised ((decoder c).exhaust (s.feed w)).ending) := by
  rw [decryptSegments_eq, Decoder.feedAll_singleton, decoder_feed]

/-- An empty segment says nothing. -/
theorem decryptSegments_empty (hsalt : 0 < info.saltLen) :
    (init c masterKey info encSalt).decryptSegments c [[]] = ([], none) := by
  have hw : (decoder c).pass ((init c masterKey info encSalt).feed []) =
      .wait (init c masterKey info encSalt) := by
    simp [decoder, pass, ensureDecKey, init, feed, hsalt]
  rw [decryptSegments_singleton, Decoder.exhaust_wait hw]
  rfl

/-- The first cut through a payload block decides. -/
theorem sameAsOnePiece_of_endsInside (hnb : c.aead.NonceBound)
    (hnl : info.nonceLen = Aead.nonceLen) {pre post : List Bytes} (hpre : pre ≠ [])
    (hpost : post ≠ [])
    (h : ∀ p q, pre = p ++ q → q ≠ [] → ∀ n r, ¬ EndsInside c masterKey info p.flatten n r)
    (hin : EndsInside c masterKey info pre.flatten n r) :
    SameAsOnePiece c masterKey info encSalt (pre ++ post) ↔
      ¬ Straddles c masterKey info pre.flatten post.flatten := by
  obtain ⟨ps, hfirst, hlate⟩ := hin.exhaust encSalt
  obtain ⟨d, ds, rfl⟩ := List.exists_cons_of_ne_nil hpost
  -- cut: the chunks before, then the failure of the next call
  have hcut : (init c masterKey info encSalt).decryptSegments c (pre ++ d :: ds) =
      (ps, some (.valueError "AEAD decrypt (length) failed — bad key/tag")) := by
    rw [decryptSegments_flatten encSalt _ hpre h, decryptSegments_eq, Decoder.feedAll_cons hfirst,
      Decoder.feedAll_cons_error
        (Decoder.exhaust_fail (pass_after_endsInside hnb hnl hin d))]
    simp [Decoder.Outcome.prepend, raised]
  have hstr : Straddles c masterKey info pre.flatten (d :: ds).flatten ↔
      front (wireOpener c masterKey info (pre.flatten.take info.saltLen)) n
        (r ++ (d :: ds).flatten) ≠ .badPayload := by
    refine ⟨?_, fun hne => ⟨n, r, hin, hne⟩⟩
    rintro ⟨n', r', ⟨-, ⟨ps', hr'⟩, -⟩, hne⟩
    obtain ⟨ps₀, hr⟩ := hin.2.1
    obtain ⟨-, rfl, rfl⟩ := hr.det hr'
    exact hne
  rw [SameAsOnePiece, hcut, List.flatten_append, decryptSegments_singleton, hlate, hstr]
  generalize (d :: ds).flatten = b
  have hp : (decoder c).pass (settled c masterKey info encSalt pre.flatten n (r ++ b)) =
      roundOf _ _ := pass_settled _
  rcases front_incomplete_append (d := b) hin.2.2 with hf | hf | ⟨l, p, hf⟩
  · rw [hf] at hp
    simp [Decoder.exhaust_wait hp, Decoder.Outcome.prepend, raised, endsInValueError, hf,
      Exc.isValueError]
  · rw [hf] at hp
    simp [Decoder.exhaust_fail hp, Decoder.Outcome.prepend, raised, endsInValueError, hf,
      Exc.isValueError]
  · rw [hf] at hp
    simp [Decoder.exhaust_emit hp, Decoder.Outcome.prepend, hf]

/-- Among the boundaries of a segmentation that end inside a payload block there is a first. -/
theorem exists_first_endsInside {segs : List Bytes}
    (h : ∃ pre post, segs = pre ++ post ∧ post ≠ [] ∧
      ∃ n r, EndsInside c masterKey info pre.flatten n r) :
    ∃ pre post, segs = pre ++ post ∧ post ≠ [] ∧
      (∃ n r, EndsInside c masterKey info pre.flatten n r) ∧
      ∀ p q, segs = p ++ q → q ≠ [] → (∃ n r, EndsInside c masterKey info p.flatten n r) →
        pre.length ≤ p.length := by
  classical
  have hk : ∃ k, ∃ pre post, segs = pre ++ post ∧ post ≠ [] ∧ pre.length = k ∧
      ∃ n r, EndsInside c masterKey info pre.flatten n r := by
    obtain ⟨pre, post, he, hne, hin⟩ := h
    exact ⟨_, pre, post, he, hne, rfl, hin⟩
  obtain ⟨pre, post, he, hne, hlen, hin⟩ := Nat.find_spec hk
  refine ⟨pre, post, he, hne, hin, fun p q he' hne' hin' => ?_⟩
  rw [hlen]
  exact Nat.find_min' hk ⟨p, q, he', hne', rfl, hin'⟩

/-- Without a boundary inside a payload block the cut does not matter, whatever the AEAD does. -/
theorem sameAsOnePiece_of_not_endsInside (hsalt : 0 < info.saltLen) {segs : List Bytes}
    (h : ∀ pre post, segs = pre ++ post → post ≠ [] →
      ∀ n r, ¬ EndsInside c masterKey info pre.flatten n r) :
    SameAsOnePiece c masterKey info encSalt segs := by
  rcases eq_or_ne segs [] with rfl | hne
  · rw [SameAsOnePiece, List.flatten_nil, decryptSegments_empty hsalt]
    exact ⟨rfl, rfl⟩
  · have := decryptSegments_flatten encSalt [] hne h
    rw [List.append_nil] at this
    simp [SameAsOnePiece, this]

/-- **Which segmentations are harmless.**  Over any AEAD, cuts outside of payload blocks are.  Over
one whose ciphertexts are bound to their nonce the others are not: the decoder raises `ValueError`
at the next segment, which feeding the wire in one piece does only when the chunk is bad. -/
theorem segmentation_iff (c : Crypto) (masterKey encSalt : Bytes) (name : String)
    (info : CipherInfo) (hname : ciphers name = some info) (segs : List Bytes) :
    ((∀ pre post, segs = pre ++ post → post ≠ [] →
        ∀ n r, ¬ EndsInside c masterKey info pre.flatten n r) →
      SameAsOnePiece c masterKey info encSalt segs) ∧
    (c.aead.NonceBound →
      (SameAsOnePiece c masterKey info encSalt segs ↔
        CutsBetweenChunks c masterKey info segs)) := by
  obtain ⟨hsalt, hnonce⟩ := ciphers_sizes hname
  have hpos : 0 < info.saltLen := hsalt ▸ Nat.zero_lt_succ 31
  refine ⟨sameAsOnePiece_of_not_endsInside hpos, fun hnb => ?_⟩
  by_cases hany : ∃ pre post, segs = pre ++ post ∧ post ≠ [] ∧
      ∃ n r, EndsInside c masterKey info pre.flatten n r
  · obtain ⟨pre, post, rfl, hpost, ⟨n, r, hin⟩, hfirst⟩ := exists_first_endsInside hany
    have hpre : pre ≠ [] := by
      rintro rfl
      have := hin.1
      simp [hsalt] at this
    have hbefore : ∀ p q, pre = p ++ q → q ≠ [] →
        ∀ n r, ¬ EndsInside c masterKey info p.flatten n r := by
      rintro p q rfl hq n' r' hin'
      have := hfirst p (q ++ post) (by simp) (by simp [hq]) ⟨n', r', hin'⟩
      have := List.length_pos_of_ne_nil hq
      simp only [List.length_append] at *
      omega
    rw [sameAsOnePiece_of_endsInside hnb hnonce hpre hpost hbefore hin]
    refine ⟨fun hns p q he hq hs => ?_, fun hcut => hcut pre post rfl hpost⟩
    -- every later cut of this kind would already show at the first
    obtain ⟨n', r', hin', -⟩ := id hs
    have hle := hfirst p q he hq ⟨n', r', hin'⟩
    obtain ⟨mid, rfl⟩ : ∃ mid, p = pre ++ mid :=
      (List.prefix_of_prefix_length_le (List.prefix_append pre post)
        (he ▸ List.prefix_append p q) hle).imp fun _ h => h.symm
    rw [List.append_assoc, List.append_cancel_left_eq] at he
    rw [he, List.flatten_append] at hns
    rw [List.flatten_append] at hs
    exact hns (hs.of_append hin)
  · push Not at hany
    have hall : ∀ pre post, segs = pre ++ post → post ≠ [] →
        ∀ n r, ¬ EndsInside c masterKey info pre.flatten n r := hany
    refine iff_of_true (sameAsOnePiece_of_not_endsInside hpos hall) fun pre post he hpost hs => ?_
    obtain ⟨n, r, hin, -⟩ := hs
    exact hall pre post he hpost n r hin

/-- A chunk of one byte behind a salt of zeros, cut behind its length block. -/
def cutChunk : List Bytes :=
  [List.replicate 32 0 ++ [0, 1] ++ Aead.transparentTag (Bytes.ofNatLE 12 0),
    [0xAA] ++ Aead.transparentTag (Bytes.ofNatLE 12 1)]

/-- In one piece the chunk is decrypted. -/
theorem cutChunk_one_piece : (init Crypto.transparent [] ⟨32, 32, 12, .AESGCM⟩ []).decryptSegments
    Crypto.transparent [cutChunk.flatten] = ([[0xAA]], none) := by
  decide +kernel

/-- Cut between its two blocks it is refused. -/
theorem cutChunk_refused : (init Crypto.transparent [] ⟨32, 32, 12, .AESGCM⟩ []).decryptSegments
    Crypto.transparent cutChunk =
      ([], some (.valueError "AEAD decrypt (length) failed — bad key/tag")) := by
  decide +kernel

/-- Segmentation does matter. -/
theorem segmentation_not_harmless : ¬ ∀ (c : Crypto) (masterKey encSalt : Bytes) (name : String)
    (info : CipherInfo), ciphers name = some info → ∀ segs : List Bytes,
      SameAsOnePiece c masterKey info encSalt segs := by
  intro h
  have := (h Crypto.transparent [] [] "aes-256-gcm" ⟨32, 32, 12, .AESGCM⟩ rfl cutChunk).1
  rw [cutChunk_one_piece, cutChunk_refused] at this
  cases this

/-- The equivalence at that chunk: its cut is not harmless. -/
theorem segmentation_iff_cutChunk :
    ciphers "aes-256-gcm" = some ⟨32, 32, 12, .AESGCM⟩ ∧ Crypto.transparent.aead.NonceBound ∧
    (SameAsOnePiece Crypto.transparent [] ⟨32, 32, 12, .AESGCM⟩ [] cutChunk ↔
      CutsBetweenChunks Crypto.transparent [] ⟨32, 32, 12, .AESGCM⟩ cutChunk) :=
  ⟨rfl, Crypto.transparent_nonceBound,
    (segmentation_iff Crypto.transparent [] [] "aes-256-gcm" _ rfl cutChunk).2
      Crypto.transparent_nonceBound⟩

end Shadowsocks

end RvgGateway
