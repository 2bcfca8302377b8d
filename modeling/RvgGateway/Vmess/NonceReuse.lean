import Mathlib.Data.List.Nodup
import Mathlib.Data.List.Range
import RvgGateway.Lib.Machine
import RvgGateway.Vmess.BodyRoundTrip

/-!
# The nonces of a response body

`BodyWriter` numbers its chunks with a counter of sixteen bits inside the IV.  A run of writes is
followed here with the calls of `encrypt` it makes.

* `BodyWriter.sealCalls` : the calls of `encrypt` that `_seal` makes.
* `sealChunk_congr` : they are all the calls, since the chunk depends on no other value of `encrypt`.
* `nodup_chunkPairs_iff` : the first `n` chunks use different pairs exactly when `n ≤ 65536`.
* `nonces_distinct_iff` : **a run uses no pair twice exactly when it seals at most 65536 chunks.**
-/

namespace RvgGateway

namespace Vmess

/-- The AEAD objects of a writer. -/
inductive AeadObj where
  /-- `_aead`. -/
  | aead
  /-- `_len_aead`. -/
  | lenAead
  deriving DecidableEq, Repr

/-- A call of `encrypt`. -/
structure EncryptCall where
  /-- The object it is a method of. -/
  obj : AeadObj
  /-- The class and the key of that object. -/
  key : AeadKey
  nonce : Bytes
  deriving DecidableEq, Repr

/-- What must not repeat. -/
def EncryptCall.pair (e : EncryptCall) : AeadObj × Bytes := (e.obj, e.nonce)

variable (c : Crypto)

namespace BodyWriter

/-- The call that seals the size field. -/
def lenCalls (w : BodyWriter) : List EncryptCall :=
  if w.authlen then
    match w.lenAead with
    | none => []
    | some k => [⟨.lenAead, k, w.lenNonce.next.1⟩]
  else []

/-- The calls of `_seal`, in order; an exception comes before all of them. -/
def sealCalls (w : BodyWriter) (payload : Bytes) : List EncryptCall :=
  match w.paddingSize c with
  | .error _ => []
  | .ok (paddingSize, w₁) =>
    match w₁.sizeField c payload paddingSize with
    | .error _ => []
    | .ok (_, w₂) => w₁.lenCalls ++ [⟨.aead, w₂.aead, w₂.payloadNonce.next.1⟩]

/-- The calls of `_seal` on each of the pieces. -/
def sealsCalls (token : ℕ → UInt8) (w : BodyWriter) : List Bytes → List EncryptCall
  | [] => []
  | p :: ps => w.sealCalls c p ++
    match w.sealChunk c token p with
    | .error _ => []
    | .ok (_, w) => sealsCalls token w ps

/-- A chunk depends on `encrypt` only through the calls that are listed. -/
theorem sealChunk_congr (token : ℕ → UInt8) (w : BodyWriter) (payload : Bytes) (A : Aead AeadKey)
    (h : ∀ e ∈ w.sealCalls c payload, ∀ m aad,
      A.encrypt e.key e.nonce m aad = c.aead.encrypt e.key e.nonce m aad) :
    w.sealChunk { c with aead := A } token payload = w.sealChunk c token payload := by
  have hpadding : w.paddingSize { c with aead := A } = w.paddingSize c := rfl
  unfold sealCalls at h
  unfold sealChunk
  rw [hpadding]
  cases hp : w.paddingSize c with
  | error e => rfl
  | ok res =>
    obtain ⟨n, w₁⟩ := res
    rw [hp] at h
    dsimp only at h
    have hsize : w₁.sizeField { c with aead := A } payload n = w₁.sizeField c payload n := by
      unfold sizeField lenCalls at *
      cases ha : w₁.authlen with
      | false => rfl
      | true =>
        cases hk : w₁.lenAead with
        | none => rfl
        | some k =>
          cases hl : Bytes.packH payload.length with
          | none => rfl
          | some len =>
            simp only [ha, hk, hl, if_true] at h ⊢
            rw [h ⟨.lenAead, k, w₁.lenNonce.next.1⟩ (by simp)]
    simp only [bind, Except.bind, hsize]
    cases hs : w₁.sizeField c payload n with
    | error e => rfl
    | ok res =>
      obtain ⟨size, w₂⟩ := res
      rw [hs] at h
      dsimp only at h
      have henc := h ⟨.aead, w₂.aead, w₂.payloadNonce.next.1⟩ (by simp) payload []
      simp only at henc ⊢
      rw [henc]

end BodyWriter

/-! ### The counter -/

/-- The nonce of chunk `k`. -/
def nonceAt (iv : Bytes) (k : ℕ) : Bytes :=
  (Bytes.ofNatBE 2 (k &&& 0xFFFF) ++ iv.drop 2).take gcmNonceSize

/-- The counter has produced the nonces of the chunks before `k`. -/
structure ChunkNonce.At (iv : Bytes) (k : ℕ) (s : ChunkNonce) : Prop where
  count : s.count = k
  tail : s.c.drop 2 = iv.drop 2
  size : s.size = gcmNonceSize

theorem ChunkNonce.at_init (iv : Bytes) : ChunkNonce.At iv 0 (.init iv) := ⟨rfl, rfl, rfl⟩

theorem ChunkNonce.At.next_fst {iv : Bytes} {k : ℕ} {s : ChunkNonce} (h : ChunkNonce.At iv k s) :
    s.next.1 = nonceAt iv k := by
  rw [ChunkNonce.next, nonceAt, h.count, h.tail, h.size]

theorem ChunkNonce.At.next_snd {iv : Bytes} {k : ℕ} {s : ChunkNonce} (h : ChunkNonce.At iv k s) :
    ChunkNonce.At iv (k + 1) s.next.2 where
  count := congrArg (· + 1) h.count
  tail := by
    have hfront : (Bytes.ofNatBE 2 (s.count &&& 0xFFFF)).length = 2 := Bytes.length_ofNatBE 2 _
    exact (List.drop_left' hfront).trans h.tail
  size := h.size

/-- The counter is read back from the nonce, as far as sixteen bits go. -/
theorem nonceAt_inj {iv : Bytes} {j k : ℕ} : nonceAt iv j = nonceAt iv k ↔ j % 65536 = k % 65536 := by
  have hmask : ∀ i : ℕ, i &&& 0xFFFF = i % 65536 := fun i => Nat.and_two_pow_sub_one_eq_mod i 16
  have hfront : ∀ i, (nonceAt iv i).take 2 = Bytes.ofNatBE 2 (i % 65536) := by
    intro i
    rw [nonceAt, hmask, List.take_take]
    exact List.take_left' (Bytes.length_ofNatBE 2 _)
  constructor
  · intro h
    have hnat := congrArg (fun b => Bytes.toNatBE (b.take 2)) h
    simp only [hfront, Bytes.toNatBE_ofNatBE] at hnat
    omega
  · intro h
    rw [nonceAt, nonceAt, hmask, hmask, h]

/-- The pairs of chunk `k`. -/
def chunkPairs (authlen : Bool) (iv : Bytes) (k : ℕ) : List (AeadObj × Bytes) :=
  (if authlen then [(.lenAead, nonceAt iv k)] else []) ++ [(.aead, nonceAt iv k)]

theorem nonce_of_mem_chunkPairs {authlen : Bool} {iv : Bytes} {k : ℕ} {p : AeadObj × Bytes}
    (h : p ∈ chunkPairs authlen iv k) : p.2 = nonceAt iv k := by
  unfold chunkPairs at h
  split at h <;> simp at h
  · rcases h with rfl | rfl <;> rfl
  · rw [h]

/-- **The counter wraps after 65536 chunks**, and not earlier. -/
theorem nodup_chunkPairs_iff (authlen : Bool) (iv : Bytes) (n : ℕ) :
    ((List.range n).flatMap (chunkPairs authlen iv)).Nodup ↔ n ≤ 65536 := by
  rw [List.nodup_flatMap]
  constructor
  · rintro ⟨-, hdisj⟩
    by_contra hn
    -- chunk 65536 has the nonce of chunk 0
    have hlt : 65536 < (List.range n).length := by
      rw [List.length_range]
      omega
    have hpair := List.pairwise_iff_getElem.1 hdisj 0 65536 (by omega) hlt (by decide)
    rw [List.getElem_range, List.getElem_range] at hpair
    have hmem : ∀ k, (AeadObj.aead, nonceAt iv k) ∈ chunkPairs authlen iv k := fun k => by
      simp [chunkPairs]
    have hsame : nonceAt iv 65536 = nonceAt iv 0 := nonceAt_inj.2 (by decide)
    exact hpair (hmem 0) (hsame ▸ hmem 65536)
  · intro hn
    constructor
    · intro k _
      cases authlen <;> simp [chunkPairs]
    · refine List.Pairwise.imp_of_mem (fun {j k} hj hk hlt => ?_) List.pairwise_lt_range
      rw [List.mem_range] at hj hk
      intro p hpj hpk
      have hnonce := (nonce_of_mem_chunkPairs hpj).symm.trans (nonce_of_mem_chunkPairs hpk)
      have hmod := nonceAt_inj.1 hnonce
      omega

/-! ### Runs of a writer -/

/-- A call on a writer. -/
inductive WriterOp where
  /-- `write_chunk(payload)`. -/
  | writeChunk (payload : Bytes)
  /-- `write_eof()`. -/
  | writeEof
  deriving DecidableEq, Repr

namespace WriterOp

/-- The pieces that the call seals. -/
def payloads : WriterOp → List Bytes
  | .writeChunk payload => pieces payload
  | .writeEof => [[]]

/-- The number of chunks of the call: one for every `MAX_CHUNK` bytes begun, at least one. -/
def chunkCount : WriterOp → ℕ
  | .writeChunk payload => max 1 ((payload.length + maxChunk - 1) / maxChunk)
  | .writeEof => 1

/-- The call itself. -/
def perform (token : ℕ → UInt8) (w : BodyWriter) : WriterOp → Except Exc (Bytes × BodyWriter)
  | .writeChunk payload => w.writeChunk c token payload
  | .writeEof => w.writeEof c token

end WriterOp

/-- A writer with the calls of `encrypt` it has made. -/
structure WriterRun where
  writer : BodyWriter
  calls : List EncryptCall
  deriving DecidableEq, Repr

/-- Calls on one writer, one after the other; a call that raises has no step. -/
def writerMachine (token : ℕ → UInt8) : Machine WriterRun WriterOp where
  step s op :=
    match op.perform c token s.writer with
    | .error _ => none
    | .ok (_, w) => some ⟨w, s.calls ++ s.writer.sealsCalls c token op.payloads⟩

variable {c} (token : ℕ → UInt8)

theorem perform_eq (w : BodyWriter) (op : WriterOp) :
    op.perform c token w = w.sealChunks c token op.payloads := by
  cases op with
  | writeChunk payload => exact BodyWriter.writeChunk_eq token w payload
  | writeEof =>
    change w.sealChunk c token [] = w.sealChunks c token [[]]
    simp only [BodyWriter.sealChunks, bind, Except.bind, pure, Except.pure]
    cases w.sealChunk c token [] <;> simp

theorem length_slices (payload : Bytes) :
    (BodyWriter.slices payload).length = (payload.length + maxChunk - 1) / maxChunk := by
  induction hn : payload.length using Nat.strongRecOn generalizing payload with
  | _ n ih =>
    rw [BodyWriter.slices]
    by_cases hp : payload = []
    · subst hp hn
      decide
    · have hpos := List.length_pos_of_ne_nil hp
      rw [if_neg hp, List.length_cons, ih _ (by simp [maxChunk]; omega) _ rfl, List.length_drop]
      simp only [maxChunk]
      omega

theorem length_payloads (op : WriterOp) : op.payloads.length = op.chunkCount := by
  cases op with
  | writeEof => rfl
  | writeChunk payload =>
    change (pieces payload).length = max 1 ((payload.length + maxChunk - 1) / maxChunk)
    unfold pieces
    split_ifs with h
    · simp only [List.length_singleton, maxChunk] at h ⊢
      omega
    · rw [length_slices]
      simp only [maxChunk] at h ⊢
      omega

theorem length_le_of_mem_payloads {op : WriterOp} {p : Bytes} (hp : p ∈ op.payloads) :
    p.length ≤ maxChunk := by
  cases op with
  | writeEof =>
    rw [List.mem_singleton.1 hp]
    exact Nat.zero_le _
  | writeChunk payload =>
    change p ∈ pieces payload at hp
    unfold pieces at hp
    split_ifs at hp with h
    · rwa [List.mem_singleton.1 hp]
    · exact ((slices_spec payload).2 p hp).2

/-- The writer has sealed `n` chunks. -/
structure BodyWriter.Sealed (iv : Bytes) (sized : Bool) (n : ℕ) (w : BodyWriter) : Prop where
  ready : w.Ready
  authlen : w.authlen = sized
  payloadNonce : ChunkNonce.At iv n w.payloadNonce
  lenNonce : sized = true → ChunkNonce.At iv n w.lenNonce

variable {iv : Bytes} {sized : Bool} {n : ℕ} {w : BodyWriter}

/-- **One chunk** is sealed with the next nonce, by each AEAD object that the writer has. -/
theorem BodyWriter.Sealed.sealChunk (h : w.Sealed iv sized n) {payload : Bytes}
    (hlen : payload.length ≤ maxChunk) :
    (w.sealCalls c payload).map EncryptCall.pair = chunkPairs sized iv n ∧
      ∃ out w', w.sealChunk c token payload = .ok (out, w') ∧ w'.Sealed iv sized (n + 1) := by
  cases ha : w.authlen with
  | true =>
    obtain ⟨k, hk⟩ := Option.isSome_iff_exists.1 (h.ready.lenAead ha)
    have hpack := Bytes.packH_eq_some (n := payload.length) (by simp only [maxChunk] at hlen; omega)
    have hpad := h.ready.padding ha
    have hauth : sized = true := h.authlen.symm.trans ha
    constructor
    · simp [sealCalls, paddingSize, sizeField, lenCalls, hpad, ha, hk, hpack, EncryptCall.pair,
        chunkPairs, hauth, h.payloadNonce.next_fst, (h.lenNonce hauth).next_fst]
    · refine ⟨_, { w with lenNonce := w.lenNonce.next.2, payloadNonce := w.payloadNonce.next.2 },
        by simp [BodyWriter.sealChunk, paddingSize, sizeField, tokenBytes, hpad, ha, hk, hpack, bind,
          Except.bind, pure, Except.pure]; rfl, ?_⟩
      exact ⟨⟨h.ready.lenAead, h.ready.padding, h.ready.shake⟩, h.authlen, h.payloadNonce.next_snd,
        fun hauth => (h.lenNonce hauth).next_snd⟩
  | false =>
    obtain ⟨pad, m, s₁, s₂, hpad, hm, hpadding, hsize, hsome, -⟩ :=
      shake_in_step (c := c) h.ready payload ha
    have hlt : (payload.length + tag + pad) ^^^ m < 65536 := by
      refine Nat.xor_lt_two_pow (n := 16) ?_ hm
      simp only [maxChunk, tag] at *
      omega
    have hauth : sized = false := h.authlen.symm.trans ha
    have hfield := hsize _ (Bytes.packH_eq_some hlt)
    constructor
    · have hcalls : w.sealCalls c payload =
          [⟨.aead, w.aead, w.payloadNonce.next.1⟩] := by
        simp only [sealCalls, hpadding, hfield]
        simp [lenCalls, ha]
      simp [hcalls, EncryptCall.pair, chunkPairs, hauth, h.payloadNonce.next_fst]
    · refine ⟨_, { w with shake := s₂, payloadNonce := w.payloadNonce.next.2,
                          drawn := w.drawn + pad },
        by simp [BodyWriter.sealChunk, hpadding, hfield, tokenBytes, bind, Except.bind, pure,
          Except.pure]; rfl, ?_⟩
      exact ⟨⟨h.ready.lenAead, h.ready.padding, hsome⟩, h.authlen, h.payloadNonce.next_snd,
        fun htrue => absurd (hauth.symm.trans htrue) (by decide)⟩

/-- The pairs of the chunks from `n` on. -/
def pairsFrom (sized : Bool) (iv : Bytes) (n k : ℕ) : List (AeadObj × Bytes) :=
  ((List.range k).map (n + ·)).flatMap (chunkPairs sized iv)

theorem pairsFrom_succ (sized : Bool) (iv : Bytes) (n k : ℕ) :
    pairsFrom sized iv n (k + 1) = chunkPairs sized iv n ++ pairsFrom sized iv (n + 1) k := by
  unfold pairsFrom
  rw [List.range_succ_eq_map, List.map_cons, List.flatMap_cons, List.map_map, Nat.add_zero]
  congr 2
  refine List.map_congr_left fun i _ => ?_
  simp only [Function.comp_apply]
  omega

/-- Pieces are sealed with the nonces that follow. -/
theorem BodyWriter.Sealed.sealChunks (ps : List Bytes) (hps : ∀ p ∈ ps, p.length ≤ maxChunk)
    (h : w.Sealed iv sized n) :
    (w.sealsCalls c token ps).map EncryptCall.pair = pairsFrom sized iv n ps.length ∧
      ∃ out w', w.sealChunks c token ps = .ok (out, w') ∧ w'.Sealed iv sized (n + ps.length) := by
  induction ps generalizing w n with
  | nil => exact ⟨rfl, [], w, rfl, h⟩
  | cons p ps ih =>
    obtain ⟨hp, hps⟩ := List.forall_mem_cons.1 hps
    obtain ⟨hcalls, out, w₁, hseal, h₁⟩ := h.sealChunk (c := c) token hp
    obtain ⟨hrest, rest, w₂, hseals, h₂⟩ := ih hps h₁
    constructor
    · rw [sealsCalls, hseal, List.map_append, hcalls, hrest, List.length_cons, pairsFrom_succ]
    · refine ⟨out ++ rest, w₂, ?_, ?_⟩
      · simp [BodyWriter.sealChunks, hseal, hseals, bind, Except.bind, pure, Except.pure]
      · rw [List.length_cons, show n + (ps.length + 1) = n + 1 + ps.length by omega]
        exact h₂

/-- The pairs used so far are those of the first `n` chunks. -/
structure WriterRun.Tallied (iv : Bytes) (sized : Bool) (n : ℕ) (s : WriterRun) : Prop where
  writer : s.writer.Sealed iv sized n
  calls : s.calls.map EncryptCall.pair = (List.range n).flatMap (chunkPairs sized iv)

/-- **A run** never raises, and counts its chunks. -/
theorem run_tallied (ops : List WriterOp) {s : WriterRun} (h : s.Tallied iv sized n) :
    ∃ s', (writerMachine c token).run s ops = some s' ∧
      s'.Tallied iv sized (n + (ops.map WriterOp.chunkCount).sum) := by
  induction ops generalizing s n with
  | nil => exact ⟨s, rfl, h⟩
  | cons op ops ih =>
    obtain ⟨hcalls, out, w', hseals, hw'⟩ := h.writer.sealChunks (c := c) token
      op.payloads fun p hp => length_le_of_mem_payloads hp
    have hstep : (writerMachine c token).step s op =
        some ⟨w', s.calls ++ s.writer.sealsCalls c token op.payloads⟩ := by
      simp only [writerMachine, perform_eq, hseals]
    rw [length_payloads] at hcalls hw'
    have hnext : WriterRun.Tallied iv sized (n + op.chunkCount)
        ⟨w', s.calls ++ s.writer.sealsCalls c token op.payloads⟩ := by
      refine ⟨hw', ?_⟩
      rw [List.map_append, h.calls, hcalls, List.range_add, List.flatMap_append]
      rfl
    obtain ⟨s', hrun, hs'⟩ := ih hnext
    refine ⟨s', Machine.run_cons.2 ⟨_, hstep, hrun⟩, ?_⟩
    rw [List.map_cons, List.sum_cons, ← Nat.add_assoc]
    exact hs'

/-- A new writer has sealed nothing. -/
theorem init_tallied (bodyKey bodyIv : Bytes) (security option : ℕ)
    (hsec : security = secAes128Gcm ∨ security = secChacha20Poly1305)
    (hopt : hasOption option optGlobalPadding = true →
      hasOption option optChunkMasking = true ∨ hasOption option optAuthLength = true) :
    ∃ w, BodyWriter.init c bodyKey bodyIv security option = .ok w ∧
      WriterRun.Tallied bodyIv w.authlen 0 ⟨w, []⟩ := by
  obtain ⟨w, hw, hready, -⟩ := init_synced (c := c) bodyKey bodyIv option hsec
  have hnonces : w.payloadNonce = .init bodyIv ∧ w.lenNonce = .init bodyIv := by
    simp only [BodyWriter.init, bind_eq_ok] at hw
    obtain ⟨aead, -, hw⟩ := hw
    split at hw <;> obtain ⟨lenAead, -, hw⟩ := bind_eq_ok.1 hw <;> cases hw <;> exact ⟨rfl, rfl⟩
  refine ⟨w, hw, ⟨hready hopt, rfl, ?_, fun _ => ?_⟩, rfl⟩
  · rw [hnonces.1]
    exact ChunkNonce.at_init bodyIv
  · rw [hnonces.2]
    exact ChunkNonce.at_init bodyIv

/-- **A writer uses no AEAD object twice with one nonce exactly as long as it has sealed at most
65536 chunks**, whatever is written. -/
theorem nonces_distinct_iff (c : Crypto) (token : ℕ → UInt8) (bodyKey bodyIv : Bytes)
    (security option : ℕ) (hsec : security = secAes128Gcm ∨ security = secChacha20Poly1305)
    (hopt : hasOption option optGlobalPadding = true →
      hasOption option optChunkMasking = true ∨ hasOption option optAuthLength = true)
    (ops : List WriterOp) :
    ∃ w s, BodyWriter.init c bodyKey bodyIv security option = .ok w ∧
      (writerMachine c token).run ⟨w, []⟩ ops = some s ∧
      ((s.calls.map EncryptCall.pair).Nodup ↔ (ops.map WriterOp.chunkCount).sum ≤ 65536) := by
  obtain ⟨w, hw, hstart⟩ := init_tallied (c := c) bodyKey bodyIv security option hsec hopt
  obtain ⟨s, hrun, hs⟩ := run_tallied (c := c) token ops hstart
  refine ⟨w, s, hw, hrun, ?_⟩
  rw [hs.calls, nodup_chunkPairs_iff, Nat.zero_add]

/-- Two payloads and the end, with sealed sizes. -/
theorem nonces_distinct_iff_authLength : ∃ w s,
    BodyWriter.init Crypto.transparent sampleKey sampleIv 3 0x10 = .ok w ∧
      (writerMachine Crypto.transparent fun _ => 0).run ⟨w, []⟩
        [.writeChunk [1, 2], .writeChunk [3], .writeEof] = some s ∧
      (s.calls.map EncryptCall.pair).Nodup := by
  obtain ⟨w, s, hw, hrun, hiff⟩ := nonces_distinct_iff Crypto.transparent (fun _ => 0) sampleKey
    sampleIv 3 0x10 (.inl rfl) (fun h => absurd h (by decide))
    [.writeChunk [1, 2], .writeChunk [3], .writeEof]
  exact ⟨w, s, hw, hrun, hiff.2 (by decide)⟩

/-- Chunk 65537 of a response is sealed with the nonce of the first one. -/
theorem nonce_reused : ∃ w s, BodyWriter.init Crypto.transparent sampleKey sampleIv 3 0x05 = .ok w ∧
    (writerMachine Crypto.transparent fun _ => 0).run ⟨w, []⟩
      (List.replicate 65537 (.writeChunk [0])) = some s ∧
    ¬ (s.calls.map EncryptCall.pair).Nodup := by
  obtain ⟨n, hn⟩ : ∃ n, n = 65537 := ⟨_, rfl⟩
  rw [← hn]
  obtain ⟨w, hw, hstart⟩ := init_tallied (c := Crypto.transparent) sampleKey sampleIv 3 0x05
    (.inl rfl) (fun h => absurd h (by decide))
  obtain ⟨s, hrun, hs⟩ := run_tallied (c := Crypto.transparent) (fun _ => 0)
    (List.replicate n (.writeChunk [0])) hstart
  refine ⟨w, s, hw, hrun, ?_⟩
  have hcount : WriterOp.chunkCount (.writeChunk [0]) = 1 := by decide
  rw [hs.calls, nodup_chunkPairs_iff, List.map_replicate, hcount, List.sum_replicate_nat]
  omega

end Vmess

end RvgGateway
