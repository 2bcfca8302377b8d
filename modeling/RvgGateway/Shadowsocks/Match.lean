import RvgGateway.Shadowsocks.Segmentation
import RvgGateway.Share.CoreLink

/-!
# Which link a connection belongs to

A Shadowsocks client does not name its user.  `_match` of `protocol/shadowsocks/tcp_server.py` tries
the key of every link on what the client has sent so far.  By its docstring only the first chunk
decides, and errors further on do not matter.  It runs the whole decoder, though, and takes an error
anywhere for the wrong key.

* `matchLink` : `_match`.
* `FirstChunk` : what the first chunk of a handshake is under the key of a link.
* `tryLink_eq` : how one link fares, read off the chunks.
* `matched_iff` : **the link whose key opens the first chunk is found exactly when the rest reads
  under its key as well**, and no link before it raises.
* `tail_refused` : a good first chunk, and a bad one behind it.
-/

namespace RvgGateway

namespace Shadowsocks

open AEADStream
open Share (CoreLink)

variable (c : Crypto)

/-! ### `derive_key` -/

/-- The `while` loop of `derive_key`. -/
def deriveKeyLoop (password : Bytes) (keyLen : ℕ) (d dPrev : Bytes) : Bytes :=
  if d.length < keyLen then
    let dPrev := c.md5 (dPrev ++ password)
    deriveKeyLoop password keyLen (d ++ dPrev) dPrev
  else d
termination_by keyLen - d.length
decreasing_by simp only [List.length_append, c.length_md5]; omega

/-- `derive_key`. -/
def deriveKey (password : String) (keyLen : ℕ) : Bytes :=
  (deriveKeyLoop c (Str.encode password) keyLen [] []).take keyLen

/-! ### `_match` -/

/-- What `_match` returns. -/
structure Match where
  uid : String
  stream : AEADStream
  chunks : List Bytes
  deriving DecidableEq, Repr

/-- The links that `_match` tries, at the time `now`. -/
def candidates (now : ℤ) (links : Dict String CoreLink) : List (String × CoreLink) :=
  links.entries.filter fun e =>
    ["shadowsocks", "shadowsocks-tcp"].contains e.2.protocol &&
      isLinkAllowed now (some e.2.toLink)

/-- `CIPHERS.get(d.get("ss_cipher", DEFAULT_CIPHER))`. -/
def cipherOf (d : CoreLink) : Option CipherInfo := ciphers (d.ssCipher.getD defaultCipher)

/-- The names that `_create_link_core` takes are those of the ciphers. -/
theorem mem_cipherNames_iff (name : String) :
    name ∈ Share.cipherNames ↔ (ciphers name).isSome = true := by
  rw [Share.cipherNames, List.mem_cons, List.mem_singleton]
  unfold ciphers
  split
  · simp
  · simp
  · next hchacha haes => exact iff_of_false (not_or.2 ⟨hchacha, haes⟩) Bool.false_ne_true

/-- What `_match` makes of a decoder that was run to its end. -/
def taken (uid : String) : Decoder.Outcome AEADStream Bytes Exc → Except Exc (Option Match)
  | ⟨_, .error exc⟩ => if exc.isValueError then .ok none else .error exc
  | ⟨[], .ok _⟩ => .ok none
  | ⟨p :: ps, .ok stream⟩ => if p = [] then .ok none else .ok (some ⟨uid, stream, p :: ps⟩)

/-- The turn of the loop in `_match`; `draw` gives the salt that each new stream draws. -/
def tryLink (draw : String → Bytes) (raw : Bytes) (e : String × CoreLink) :
    Except Exc (Option Match) :=
  match cipherOf e.2 with
  | none => .ok none
  | some info =>
    let stream := AEADStream.init c (deriveKey c e.2.ssPassword info.keyLen) info (draw e.1)
    taken e.1 ((stream.feed raw).tryDecryptChunks c)

/-- The loop of `_match`. -/
def matchLoop (draw : String → Bytes) (raw : Bytes) :
    List (String × CoreLink) → Except Exc (Option Match)
  | [] => .ok none
  | e :: es =>
    match tryLink c draw raw e with
    | .error exc => .error exc
    | .ok (some m) => .ok (some m)
    | .ok none => matchLoop draw raw es

/-- `_match`. -/
def matchLink (now : ℤ) (draw : String → Bytes) (links : Dict String CoreLink) (raw : Bytes) :
    Except Exc (Option Match) :=
  matchLoop c draw raw (candidates now links)

/-! ### The first chunk -/

/-- The block opener under the key of a link, behind the salt in `raw`. -/
def linkOpener (d : CoreLink) (info : CipherInfo) (raw : Bytes) : ℕ → Bytes → Option Bytes :=
  wireOpener c (deriveKey c d.ssPassword info.keyLen) info (raw.take info.saltLen)

/-- Under the key of the link `raw` starts with the salt and a complete chunk that carries `p`. -/
def FirstChunk (d : CoreLink) (raw p : Bytes) : Prop :=
  ∃ info l, cipherOf d = some info ∧ info.saltLen ≤ raw.length ∧
    front (linkOpener c d info raw) 0 (raw.drop info.saltLen) = .chunk l p

/-- Under the key of the link the chunks of `raw` end in front of `f`. -/
def EndsAt (d : CoreLink) (raw : Bytes) (f : Front) : Prop :=
  ∃ info ps n r, cipherOf d = some info ∧ info.saltLen ≤ raw.length ∧
    Reads (linkOpener c d info raw) 0 (raw.drop info.saltLen) ps n r ∧
      front (linkOpener c d info raw) n r = f

/-- The link `uid` is the only one under whose key `raw` starts with a chunk that is not empty. -/
structure OnlyMatch (now : ℤ) (links : Dict String CoreLink) (raw : Bytes) (uid : String)
    (d : CoreLink) (p : Bytes) : Prop where
  candidate : (uid, d) ∈ candidates now links
  opens : FirstChunk c d raw p
  nonempty : p ≠ []
  only : ∀ e ∈ candidates now links, ∀ q, FirstChunk c e.2 raw q → q ≠ [] → e.1 = uid

/-- The rest of `raw` reads under the key of the link: behind the complete chunks there is at most
the beginning of one more. -/
def RestReads (d : CoreLink) (raw : Bytes) : Prop :=
  EndsAt c d raw .short ∨ EndsAt c d raw .incomplete

variable {c}

/-! ### How one link fares -/

theorem Reads.not_chunk {op : ℕ → Bytes → Option Bytes} {n m : ℕ} {w r : Bytes} {ps : List Bytes}
    (h : Reads op n w ps m r) (l : ℕ) (p : Bytes) : front op m r ≠ .chunk l p := by
  induction h with
  | stop hs => exact hs l p
  | chunk _ _ ih => exact ih

/-- A length block that opens to something that is not two bytes long. -/
theorem front_notLength {op : ℕ → Bytes → Option Bytes} {n : ℕ} {w : Bytes}
    (h : front op n w = .notLength) :
    ∃ lengthBytes, 2 + Aead.tagLen ≤ w.length ∧
      op n (w.take (2 + Aead.tagLen)) = some lengthBytes ∧ Bytes.unpackH lengthBytes = none := by
  simp only [front] at h
  split_ifs at h with hshort
  split at h
  · cases h
  rename_i lengthBytes hop
  split at h
  · rename_i hlength
    exact ⟨lengthBytes, Nat.not_lt.1 hshort, hop, hlength⟩
  · split_ifs at h
    split at h <;> cases h

/-- The first payload is the one of the chunk at the front. -/
theorem Reads.front_eq {op : ℕ → Bytes → Option Bytes} {n m : ℕ} {w r p : Bytes} {ps : List Bytes}
    (h : Reads op n w (p :: ps) m r) : ∃ l, front op n w = .chunk l p := by
  cases h with
  | chunk hf _ => exact ⟨_, hf⟩

theorem Reads.of_chunk {op : ℕ → Bytes → Option Bytes} {n m l : ℕ} {w r p : Bytes}
    {ps : List Bytes} (h : Reads op n w ps m r) (hf : front op n w = .chunk l p) :
    ∃ ps', ps = p :: ps' := by
  cases h with
  | stop hs => exact absurd hf (hs l p)
  | @chunk _ _ _ _ ps' _ _ hf' _ =>
    rw [hf] at hf'
    cases hf'
    exact ⟨ps', rfl⟩

section Link

variable {draw : String → Bytes} {raw : Bytes} {uid : String} {d : CoreLink} {info : CipherInfo}
  {ps : List Bytes} {n : ℕ} {r p : Bytes}

/-- The decoder yields the complete chunks and then meets what is behind them. -/
theorem tryLink_reads (hinfo : cipherOf d = some info) (hsalt : info.saltLen ≤ raw.length)
    (hr : Reads (linkOpener c d info raw) 0 (raw.drop info.saltLen) ps n r) :
    tryLink c draw raw (uid, d) = taken uid (((decoder c).exhaust
      (settled c (deriveKey c d.ssPassword info.keyLen) info (draw uid) raw n r)).prepend ps) := by
  have hs := hr.settles (c := c)
    (t := keyed c (deriveKey c d.ssPassword info.keyLen) info (draw uid) raw) rfl rfl rfl rfl
  simp only [tryLink, hinfo]
  rw [tryDecryptChunks_eq, exhaust_init hsalt, hs.exhaust]
  rfl

/-- A round on what is behind them. -/
theorem pass_rest (salt : Bytes) (f : Front)
    (hf : front (linkOpener c d info raw) n r = f) :
    (decoder c).pass (settled c (deriveKey c d.ssPassword info.keyLen) info salt raw n r) =
      roundOf (settled c (deriveKey c d.ssPassword info.keyLen) info salt raw n r) f := by
  rw [decoder_pass, pass_settled, ← hf]
  rfl

/-- The link is taken for the payloads where the decoder waits for more. -/
theorem tryLink_waits (draw : String → Bytes) (uid : String) (hinfo : cipherOf d = some info)
    (hsalt : info.saltLen ≤ raw.length)
    (hr : Reads (linkOpener c d info raw) 0 (raw.drop info.saltLen) ps n r)
    (hf : front (linkOpener c d info raw) n r = .short ∨
      front (linkOpener c d info raw) n r = .incomplete) :
    ∃ stream, tryLink c draw raw (uid, d) = taken uid ⟨ps, .ok stream⟩ := by
  obtain ⟨stream, hpass⟩ : ∃ stream, (decoder c).pass (settled c
      (deriveKey c d.ssPassword info.keyLen) info (draw uid) raw n r) = .wait stream := by
    rcases hf with hf | hf
    · exact ⟨_, pass_rest (draw uid) _ hf⟩
    · exact ⟨_, pass_rest (draw uid) _ hf⟩
  refine ⟨stream, ?_⟩
  rw [tryLink_reads hinfo hsalt hr, Decoder.exhaust_wait hpass]
  simp [Decoder.Outcome.prepend]

/-- It is passed over where a block does not open or a length is too large … -/
theorem tryLink_refused (hinfo : cipherOf d = some info) (hsalt : info.saltLen ≤ raw.length)
    (hr : Reads (linkOpener c d info raw) 0 (raw.drop info.saltLen) ps n r)
    (hf : front (linkOpener c d info raw) n r = .badLength ∨
      front (linkOpener c d info raw) n r = .tooLong ∨
      front (linkOpener c d info raw) n r = .badPayload) :
    tryLink c draw raw (uid, d) = .ok none := by
  rw [tryLink_reads hinfo hsalt hr]
  rcases hf with hf | hf | hf <;>
  · have hpass := pass_rest (c := c) (draw uid) _ hf
    rw [Decoder.exhaust_fail hpass]
    rfl

/-- … and an exception leaves `_match` where the plaintext of a length block is no length. -/
theorem tryLink_raises (h : EndsAt c d raw .notLength) :
    tryLink c draw raw (uid, d) = .error .structError := by
  obtain ⟨info, ps, n, r, hinfo, hsalt, hr, hf⟩ := h
  have hpass := pass_rest (c := c) (draw uid) _ hf
  rw [tryLink_reads hinfo hsalt hr, Decoder.exhaust_fail hpass]
  rfl

/-- Without a cipher or a complete salt there is nothing to take. -/
theorem tryLink_nothing (h : ∀ info, cipherOf d = some info → ¬ info.saltLen ≤ raw.length) :
    tryLink c draw raw (uid, d) = .ok none := by
  cases hinfo : cipherOf d with
  | none => simp [tryLink, hinfo]
  | some info =>
    have hshort : raw.length < info.saltLen := Nat.not_le.1 (h info hinfo)
    have hwait : ((init c (deriveKey c d.ssPassword info.keyLen) info (draw uid)).feed
        raw).tryDecryptChunks c =
          ⟨[], .ok ((init c (deriveKey c d.ssPassword info.keyLen) info (draw uid)).feed raw)⟩ := by
      simp [tryDecryptChunks, ensureDecKey, init, feed, hshort]
    simp only [tryLink, hinfo, hwait, taken]

/-- A link is passed over, it raises, or it is taken for the payloads of its chunks. -/
theorem tryLink_cases (draw : String → Bytes) (uid : String) (d : CoreLink) (raw : Bytes) :
    tryLink c draw raw (uid, d) = .ok none ∨ EndsAt c d raw .notLength ∨
      ∃ ps stream, tryLink c draw raw (uid, d) = taken uid ⟨ps, .ok stream⟩ ∧ RestReads c d raw ∧
        ∀ q qs, ps = q :: qs → FirstChunk c d raw q := by
  by_cases hready : ∃ info, cipherOf d = some info ∧ info.saltLen ≤ raw.length
  · obtain ⟨info, hinfo, hsalt⟩ := hready
    obtain ⟨ps, n, r, hr⟩ := exists_reads (linkOpener c d info raw) 0 (raw.drop info.saltLen)
    have hends : ∀ f, front (linkOpener c d info raw) n r = f → EndsAt c d raw f :=
      fun f hf => ⟨info, ps, n, r, hinfo, hsalt, hr, hf⟩
    have hfirst : ∀ q qs, ps = q :: qs → FirstChunk c d raw q := by
      rintro q qs rfl
      obtain ⟨l, hl⟩ := hr.front_eq
      exact ⟨info, l, hinfo, hsalt, hl⟩
    cases hf : front (linkOpener c d info raw) n r with
    | short =>
      obtain ⟨stream, hs⟩ := tryLink_waits draw uid hinfo hsalt hr (.inl hf)
      exact .inr (.inr ⟨ps, stream, hs, .inl (hends _ hf), hfirst⟩)
    | incomplete =>
      obtain ⟨stream, hs⟩ := tryLink_waits draw uid hinfo hsalt hr (.inr hf)
      exact .inr (.inr ⟨ps, stream, hs, .inr (hends _ hf), hfirst⟩)
    | badLength => exact .inl (tryLink_refused hinfo hsalt hr (.inl hf))
    | tooLong => exact .inl (tryLink_refused hinfo hsalt hr (.inr (.inl hf)))
    | badPayload => exact .inl (tryLink_refused hinfo hsalt hr (.inr (.inr hf)))
    | notLength => exact .inr (.inl (hends _ hf))
    | chunk l q => exact absurd hf (hr.not_chunk l q)
  · exact .inl (tryLink_nothing fun info hinfo hsalt => hready ⟨info, hinfo, hsalt⟩)

/-- When a link is taken, the rest reads under its key. -/
theorem tryLink_eq_some {m : Match} (h : tryLink c draw raw (uid, d) = .ok (some m)) :
    m.uid = uid ∧ RestReads c d raw := by
  rcases tryLink_cases (c := c) draw uid d raw with hnone | hraise | ⟨ps, stream, htaken, hrest, -⟩
  · cases h.symm.trans hnone
  · cases h.symm.trans (tryLink_raises hraise)
  · refine ⟨?_, hrest⟩
    have hm := htaken.symm.trans h
    cases ps with
    | nil => cases hm
    | cons q qs =>
      by_cases hq : q = []
      · cases hm.symm.trans (if_pos hq)
      · cases hm.symm.trans (if_neg hq)
        rfl

/-- A link whose key opens the first chunk is taken for it when the rest reads. -/
theorem tryLink_of_firstChunk (draw : String → Bytes) (uid : String)
    (hfirst : FirstChunk c d raw p) (hp : p ≠ [])
    (hrest : RestReads c d raw) :
    ∃ stream ps, tryLink c draw raw (uid, d) = .ok (some ⟨uid, stream, p :: ps⟩) := by
  obtain ⟨info, l, hinfo, hsalt, hl⟩ := hfirst
  have htake : ∀ f, f = .short ∨ f = .incomplete → EndsAt c d raw f →
      ∃ stream ps, tryLink c draw raw (uid, d) = .ok (some ⟨uid, stream, p :: ps⟩) := by
    rintro f hf ⟨info', ps, n, r, hinfo', -, hr, hend⟩
    rw [hinfo] at hinfo'
    cases hinfo'
    obtain ⟨ps, rfl⟩ := hr.of_chunk hl
    obtain ⟨stream, hs⟩ := tryLink_waits draw uid hinfo hsalt hr
      (hf.imp (fun hs => hend.trans hs) (fun hi => hend.trans hi))
    exact ⟨stream, ps, hs.trans (if_neg hp)⟩
  rcases hrest with hend | hend
  · exact htake _ (.inl rfl) hend
  · exact htake _ (.inr rfl) hend

/-- A link whose key opens no chunk that carries something is passed over, unless it raises. -/
theorem tryLink_passes (hfirst : ∀ q, FirstChunk c d raw q → q = [])
    (hraise : ¬ EndsAt c d raw .notLength) : tryLink c draw raw (uid, d) = .ok none := by
  obtain hnone | hends | ⟨ps, stream, htaken, -, hps⟩ := tryLink_cases (c := c) draw uid d raw
  · exact hnone
  · exact absurd hends hraise
  · rw [htaken]
    cases ps with
    | nil => rfl
    | cons q qs => exact if_pos (hfirst q (hps q qs rfl))

end Link

/-! ### The search -/

/-- The search ends at the first link that is taken. -/
theorem matchLoop_eq_some_iff {draw : String → Bytes} {raw : Bytes}
    {es : List (String × CoreLink)} {m : Match} :
    matchLoop c draw raw es = .ok (some m) ↔
      ∃ pre e post, es = pre ++ e :: post ∧ (∀ x ∈ pre, tryLink c draw raw x = .ok none) ∧
        tryLink c draw raw e = .ok (some m) := by
  constructor
  · intro h
    induction es with
    | nil => cases h
    | cons e es ih =>
      simp only [matchLoop] at h
      cases he : tryLink c draw raw e with
      | error exc =>
        rw [he] at h
        cases h
      | ok found =>
        cases found with
        | some m' =>
          rw [he] at h
          cases h
          exact ⟨[], e, es, rfl, fun _ hx => (by cases hx), he⟩
        | none =>
          rw [he] at h
          obtain ⟨pre, e', post, hes, hpre, he'⟩ := ih h
          refine ⟨e :: pre, e', post, by rw [hes, List.cons_append], fun x hx => ?_, he'⟩
          rcases List.mem_cons.1 hx with rfl | hx
          · exact he
          · exact hpre x hx
  · rintro ⟨pre, e, post, rfl, hpre, he⟩
    induction pre with
    | nil => simp only [List.nil_append, matchLoop, he]
    | cons x pre ih =>
      have hx := hpre x List.mem_cons_self
      simp only [List.cons_append, matchLoop, hx]
      exact ih fun y hy => hpre y (List.mem_cons_of_mem _ hy)

theorem nodup_candidates (now : ℤ) (links : Dict String CoreLink) :
    ((candidates now links).map Prod.fst).Nodup :=
  links.nodup.sublist (List.filter_sublist.map _)

/-- The links that are tried before `uid`. -/
def triedBefore (now : ℤ) (links : Dict String CoreLink) (uid : String) :
    List (String × CoreLink) :=
  (candidates now links).takeWhile fun e => e.1 ≠ uid

theorem triedBefore_eq {now : ℤ} {links : Dict String CoreLink} {uid : String} {d : CoreLink}
    {pre post : List (String × CoreLink)} (h : candidates now links = pre ++ (uid, d) :: post) :
    triedBefore now links uid = pre ∧ ∀ x ∈ pre, x.1 ≠ uid := by
  have hnodup := nodup_candidates now links
  rw [h, List.map_append, List.map_cons, List.nodup_append] at hnodup
  have hne : ∀ x ∈ pre, x.1 ≠ uid := fun x hx =>
    hnodup.2.2 x.1 (List.mem_map_of_mem hx) uid List.mem_cons_self
  refine ⟨?_, hne⟩
  rw [triedBefore, h, List.takeWhile_append_of_pos fun x hx => decide_eq_true (hne x hx),
    List.takeWhile_cons_of_neg (by simp), List.append_nil]

/-- No link that is tried before `uid` meets a length block whose plaintext is no length; an AEAD
whose ciphertexts are longer than their plaintexts by the tag knows no such block. -/
def NoneRaises (c : Crypto) (now : ℤ) (links : Dict String CoreLink) (raw : Bytes)
    (uid : String) : Prop :=
  ∀ x ∈ triedBefore now links uid, ¬ EndsAt c x.2 raw .notLength

/-- The link is found, with the payload of its first chunk. -/
def Found (c : Crypto) (now : ℤ) (draw : String → Bytes) (links : Dict String CoreLink)
    (raw : Bytes) (uid : String) (p : Bytes) : Prop :=
  ∃ stream ps, matchLink c now draw links raw = .ok (some ⟨uid, stream, p :: ps⟩)

/-- **The only link whose key opens the first chunk is found exactly when the rest reads as well**:
whatever the handshake and the links are, `_match` returns the link with the payload of the first
chunk if and only if all that follows the chunk reads under the same key, up to the beginning of a
chunk, and no link before it raises. -/
theorem matched_iff (now : ℤ) (draw : String → Bytes) {links : Dict String CoreLink} {raw : Bytes}
    {uid : String} {d : CoreLink} {p : Bytes} (h : OnlyMatch c now links raw uid d p) :
    Found c now draw links raw uid p ↔
      RestReads c d raw ∧ NoneRaises c now links raw uid := by
  constructor
  · rintro ⟨stream, ps, hmatch⟩
    obtain ⟨pre, e, post, hsplit, hpre, he⟩ := matchLoop_eq_some_iff.1 hmatch
    obtain ⟨huid, hrest⟩ := tryLink_eq_some he
    have hmem : e ∈ candidates now links := by simp [hsplit]
    -- a link has one entry
    have hed : e = (uid, d) :=
      List.inj_on_of_nodup_map (nodup_candidates now links) hmem h.candidate huid.symm
    subst hed
    refine ⟨hrest, fun x hx hraise => ?_⟩
    rw [(triedBefore_eq hsplit).1] at hx
    cases (hpre x hx).symm.trans (tryLink_raises hraise)
  · rintro ⟨hrest, hraises⟩
    obtain ⟨pre, post, hsplit⟩ := List.append_of_mem h.candidate
    obtain ⟨stream, ps, htry⟩ :=
      tryLink_of_firstChunk draw uid h.opens h.nonempty hrest
    refine ⟨stream, ps, matchLoop_eq_some_iff.2 ⟨pre, (uid, d), post, hsplit, ?_, htry⟩⟩
    intro x hx
    have hbefore := triedBefore_eq hsplit
    refine tryLink_passes (fun q hq => ?_) (hraises x (hbefore.1.symm ▸ hx))
    by_contra hne
    have hmem : x ∈ candidates now links := by simp [hsplit, hx]
    exact hbefore.2 x hx (h.only x hmem q hq hne)

/-- No link raises with an AEAD that strips a tag of sixteen bytes: a length block has eighteen. -/
theorem noneRaises_of_stripsTag (hstrip : c.aead.StripsTag) (now : ℤ)
    (links : Dict String CoreLink) (raw : Bytes) (uid : String) :
    NoneRaises c now links raw uid := by
  rintro ⟨uid', d⟩ - ⟨info, ps, n, r, -, -, -, hf⟩
  obtain ⟨lengthBytes, hlen, hopen, hbad⟩ := front_notLength hf
  have htwo : lengthBytes.length = 2 := by
    obtain ⟨nonce, -, hopen⟩ := Option.bind_eq_some_iff.1 hopen
    have hstripped := hstrip _ _ _ _ _ hopen
    rw [List.length_take] at hstripped
    omega
  obtain ⟨x, y, rfl⟩ := List.length_eq_two.1 htwo
  cases hbad

example (links : Dict String CoreLink) (raw : Bytes) (uid : String) :
    NoneRaises Crypto.transparent 0 links raw uid :=
  noneRaises_of_stripsTag Aead.transparent_stripsTag 0 links raw uid

/-! ### A tail that is refused -/

/-- A link of Shadowsocks over TCP. -/
def tcpLink : CoreLink where
  protocol := "shadowsocks-tcp"
  core := none
  listenPort := 8388
  active := true
  expiresAt := .never
  limitBytes := 0
  usedBytes := 0
  publicPort := 0
  alpn := ""
  fingerprint := ""
  flow := ""
  sniffing := false
  security := ""
  sni := ""
  tlsCert := ""
  tlsKey := ""
  realityPriv := ""
  realityPub := ""
  realitySid := ""
  realityDest := ""
  ssCipher := some "aes-256-gcm"
  ssPassword := "pw"
  mtprotoPort := 0
  mtprotoSecret := ""
  mtprotoDomain := ""

/-- A salt, a chunk of one byte, and what follows. -/
def oneByteThen (tail : Bytes) : Bytes := cutChunk.flatten ++ tail

/-- Under the key of the link the chunk opens, whatever follows. -/
theorem onlyMatch_tcpLink (tail : Bytes) :
    OnlyMatch Crypto.transparent 0 ((∅ : Dict String CoreLink).set "u" tcpLink) (oneByteThen tail)
      "u" tcpLink [0xAA] where
  candidate := List.mem_singleton.2 rfl
  opens := by
    have hsalt : 32 ≤ cutChunk.flatten.length := by decide
    have hfront : front (linkOpener Crypto.transparent tcpLink ⟨32, 32, 12, .AESGCM⟩
        cutChunk.flatten) 0 (cutChunk.flatten.drop 32) = .chunk 1 [0xAA] := by decide +kernel
    refine ⟨⟨32, 32, 12, .AESGCM⟩, 1, rfl, ?_, ?_⟩
    · rw [oneByteThen, List.length_append]
      exact Nat.le_add_right_of_le hsalt
    · have hopener : linkOpener Crypto.transparent tcpLink ⟨32, 32, 12, .AESGCM⟩
          (oneByteThen tail) = linkOpener Crypto.transparent tcpLink ⟨32, 32, 12, .AESGCM⟩
            cutChunk.flatten := by
        simp only [linkOpener, oneByteThen, List.take_append_of_le_length hsalt]
      rw [hopener, oneByteThen]
      change front _ 0 (List.drop 32 _) = _
      rw [List.drop_append_of_le_length hsalt, front_append (by simp [hfront]) (by simp [hfront]),
        hfront]
  nonempty := by decide
  only e he q _ _ := by
    cases List.mem_singleton.1 he
    rfl

/-- What the two classes put in front of a nonce. -/
def mark : AeadCls → Bytes
  | .AESGCM => []
  | .ChaCha20Poly1305 => [1]

/-- The transparent AEAD with other tags for each class. -/
def markedCrypto : Crypto where
  __ := Crypto.transparent
  aead :=
    { encrypt := fun k n => Crypto.transparent.aead.encrypt k (mark k.cls ++ n)
      decrypt := fun k n => Crypto.transparent.aead.decrypt k (mark k.cls ++ n) }

/-- A link of the other cipher, which is tried first, and `tcpLink`. -/
def twoLinks : Dict String CoreLink :=
  ((∅ : Dict String CoreLink).set "v"
    { tcpLink with ssCipher := none, listenPort := 8389, ssPassword := "other" }).set "u" tcpLink

/-- A second chunk, and the beginning of a third. -/
def chunkAndMore : Bytes :=
  [0, 1] ++ Aead.transparentTag (Bytes.ofNatLE 12 2) ++ [0xBB] ++
    Aead.transparentTag (Bytes.ofNatLE 12 3) ++ [0, 1, 0]

/-- The second of two links is found, whose first chunk is not the last. -/
theorem matched_iff_twoLinks :
    Found markedCrypto 0 (fun _ => []) twoLinks (oneByteThen chunkAndMore) "u" [0xAA] := by
  have hrefused : front (linkOpener markedCrypto { tcpLink with
      ssCipher := none, listenPort := 8389, ssPassword := "other" } ⟨32, 32, 12, .ChaCha20Poly1305⟩
        (oneByteThen chunkAndMore)) 0 ((oneByteThen chunkAndMore).drop 32) = .badLength := by
    decide +kernel
  set op := linkOpener markedCrypto tcpLink ⟨32, 32, 12, .AESGCM⟩ (oneByteThen chunkAndMore) with hop
  have hfirst : front op 0 ((oneByteThen chunkAndMore).drop 32) = .chunk 1 [0xAA] := by
    decide +kernel
  have hsecond : front op 2 (((oneByteThen chunkAndMore).drop 32).drop (chunkSize 1)) =
      .chunk 1 [0xBB] := by
    decide +kernel
  have hshort : front op 4 ((((oneByteThen chunkAndMore).drop 32).drop (chunkSize 1)).drop
      (chunkSize 1)) = .short := by
    decide +kernel
  have honly : OnlyMatch markedCrypto 0 twoLinks (oneByteThen chunkAndMore) "u" tcpLink [0xAA] :=
    { candidate := List.mem_cons_of_mem _ List.mem_cons_self
      opens := ⟨_, 1, rfl, by decide, hfirst⟩
      nonempty := by decide
      only := by
        rintro e he q ⟨info, l, hinfo, -, hchunk⟩ -
        rcases List.mem_cons.1 he with rfl | he
        · cases hinfo
          cases hrefused.symm.trans hchunk
        · rw [List.mem_singleton.1 he] }
  refine (matched_iff 0 (fun _ => []) honly).2 ⟨.inl ⟨_, _, _, _, rfl, by decide,
    .chunk hfirst (.chunk hsecond (.stop fun l p h => ?_)), hshort⟩, ?_⟩
  · cases hshort.symm.trans h
  · rintro x hx ⟨info, ps, n, r, hinfo, -, hreads, hend⟩
    cases List.mem_singleton.1 hx
    cases hinfo
    cases hreads with
    | stop => cases hrefused.symm.trans hend
    | chunk hchunk => cases hrefused.symm.trans hchunk

/-- **Eighteen zero bytes behind a good chunk**, which are a length block that does not open, and the
link is not found. -/
theorem tail_refused : ¬ ∀ (c : Crypto) (now : ℤ) (draw : String → Bytes)
    (links : Dict String CoreLink) (raw : Bytes) (uid : String) (d : CoreLink) (p : Bytes),
    OnlyMatch c now links raw uid d p → Found c now draw links raw uid p := by
  intro hall
  obtain ⟨stream, ps, hfound⟩ := hall Crypto.transparent 0 (fun _ => []) _ _ _ _ _
    (onlyMatch_tcpLink (List.replicate 18 0))
  have hnone : (matchLink Crypto.transparent 0 (fun _ => [])
      ((∅ : Dict String CoreLink).set "u" tcpLink)
        (oneByteThen (List.replicate 18 0))).toOption.join = none := by decide +kernel
  rw [hfound] at hnone
  cases hnone

end Shadowsocks

end RvgGateway
