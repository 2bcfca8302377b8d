import Mathlib.Data.List.TakeWhile
import RvgGateway.Vmess.BodyRoundTrip
import RvgGateway.Vmess.Session

/-!
# Answering a VMess request

`response_body_writer` of `protocol/vmess/vmess.py`, for the requests that `decode_request` accepts.
The option byte of the request is used again for the response, so an option byte that is let
through has to be one that the writer can serve.

* `Answered` : the writer takes every payload and the end, and the client's reader returns them.
* `accepted_checked` : what `decode_request` has checked.
* `sealChunks_unmasked` : padding without masking has no source for its length; `_seal` raises.
* `answered_iff` : **a body can be answered exactly when padding comes with masking and no data
  follows the chunk that ends the body.**
-/

namespace RvgGateway

namespace Vmess

variable (c : Crypto)

/-- `_response_keys`. -/
def responseKeys (request : VMessRequest) : Bytes × Bytes :=
  ((c.sha256 request.bodyKey).take 16, (c.sha256 request.bodyIv).take 16)

/-- `response_body_writer`. -/
def responseBodyWriter (request : VMessRequest) : Except Exc BodyWriter :=
  BodyWriter.init c (responseKeys c request).1 (responseKeys c request).2 request.security
    request.option

/-- A `BodyReader` with the parameters of the response, on the side of the client. -/
def responseBodyReader (request : VMessRequest) (fill : List Bytes) : Except Exc BodyReader :=
  BodyReader.init c (responseKeys c request).1 (responseKeys c request).2 request.security
    request.option fill

/-- `write_chunk` on each payload and `write_eof` do not raise, and however `fill` cuts the wire,
the client reads the bytes written, in pieces, and then `b""` for ever. -/
def Answered (token : ℕ → UInt8) (request : VMessRequest) (ps : List Bytes) : Prop :=
  ∃ w wire w', responseBodyWriter c request = .ok w ∧ w.writeBody c token ps = .ok (wire, w') ∧
    ∀ fill : List Bytes, (∀ p ∈ fill, p ≠ []) → fill.flatten = wire →
      ∃ r, responseBodyReader c request fill = .ok r ∧
        ∃ pieces : List Bytes, (∀ q ∈ pieces, q ≠ []) ∧ pieces.flatten = ps.flatten ∧
          ∀ k, r.reads c (pieces.length + k) = pieces.map .ok ++ List.replicate k (.ok [])

variable {c} (token : ℕ → UInt8)

/-! ### What is accepted -/

theorem checked_of_openRequest {uuid : String} {authId wire : Bytes} {fill : List Bytes}
    {res : VMessRequest × BodyReader} (h : openRequest c uuid authId wire fill = .ok res) :
    checkCommand res.1 = .ok () := by
  unfold openRequest at h
  split at h
  · cases h
  · simp only [bind_eq_ok] at h
    obtain ⟨-, -, r, -, u, hcheck, reader, -, h⟩ := h
    cases h
    exact hcheck

/-- The checks of `decode_request` on the security and the option byte. -/
theorem checkCommand_eq_ok {r : VMessRequest} (h : checkCommand r = .ok ()) :
    (r.security = secAes128Gcm ∨ r.security = secChacha20Poly1305) ∧
      (hasOption r.option optGlobalPadding = true → hasOption r.option optAuthLength = false) := by
  unfold checkCommand at h
  split_ifs at h with hcmd hsec hopt
  constructor
  · by_contra hne
    exact hsec (not_or.1 hne)
  · intro hpad
    by_contra hauth
    exact hopt ⟨hpad, by simpa using hauth⟩

/-- Whatever the state of the validator, an accepted request has passed the checks. -/
theorem accepted_checked {v : AuthIDValidator c} {call : Call} {r : VMessRequest}
    {reader : BodyReader} (h : (decodeRequest v call).1 = .ok (r, reader)) :
    checkCommand r = .ok () := by
  cases he : call.expected with
  | some uuid => exact checked_of_openRequest ((decodeRequest_expected he).1 h).2.2
  | none =>
    obtain ⟨-, uuid, -, -, hopen⟩ := (decodeRequest_match he).1 h
    exact checked_of_openRequest hopen

/-! ### What the writer refuses -/

/-- Padding without masking: `None` has no `next_padding_len`. -/
theorem sealChunks_unmasked {w : BodyWriter} (hpad : w.padding = true) (hshake : w.shake = none)
    {qs : List Bytes} (hqs : qs ≠ []) : w.sealChunks c token qs = .error .attributeError := by
  cases qs with
  | nil => exact absurd rfl hqs
  | cons q qs =>
    simp [BodyWriter.sealChunks, BodyWriter.sealChunk, BodyWriter.paddingSize, hpad, hshake, bind,
      Except.bind]

/-- The flags of a new writer. -/
theorem init_padding {bodyKey bodyIv : Bytes} {security option : ℕ} {w : BodyWriter}
    (h : BodyWriter.init c bodyKey bodyIv security option = .ok w) :
    w.padding = (hasOption option optGlobalPadding && !hasOption option optAuthLength) ∧
      (hasOption option optChunkMasking = false → w.shake = none) := by
  simp only [BodyWriter.init, bind_eq_ok] at h
  obtain ⟨aead, -, h⟩ := h
  split at h <;> obtain ⟨lenAead, -, h⟩ := bind_eq_ok.1 h <;> cases h <;>
    exact ⟨rfl, fun hmask => by simp [hmask]⟩

/-! ### Where the body ends -/

/-- The pieces before the first empty one hold the payloads before the first empty one. -/
theorem flatten_takeWhile_pieces (ps : List Bytes) :
    ((ps.flatMap pieces).takeWhile (· ≠ [])).flatten = (ps.takeWhile (· ≠ [])).flatten := by
  induction ps with
  | nil => rfl
  | cons p ps ih =>
    rw [List.flatMap_cons]
    by_cases hp : p = []
    · subst hp
      rfl
    · obtain ⟨hflat, hall⟩ := pieces_spec hp
      rw [List.takeWhile_append_of_pos fun q hq => by simpa using (hall q hq).1,
        List.flatten_append, hflat, ih, List.takeWhile_cons_of_pos (by simpa using hp),
        List.flatten_cons]

/-- The first empty piece, and what the reader never gets to. -/
theorem split_at_empty (qs : List Bytes) :
    ∃ rest, qs ++ [[]] = (qs.takeWhile (· ≠ []) ++ [[]]) ++ rest ∧
      ∀ q ∈ rest, q ∈ qs ∨ q = [] := by
  induction qs with
  | nil => exact ⟨[], rfl, by simp⟩
  | cons q qs ih =>
    by_cases hq : q = []
    · subst hq
      refine ⟨qs ++ [[]], rfl, fun q hq => ?_⟩
      rcases List.mem_append.1 hq with h | h
      · exact .inl (List.mem_cons_of_mem _ h)
      · exact .inr (List.mem_singleton.1 h)
    · obtain ⟨rest, hsplit, hrest⟩ := ih
      refine ⟨rest, ?_, fun q hq => (hrest q hq).imp (List.mem_cons_of_mem _) id⟩
      rw [List.takeWhile_cons_of_pos (by simpa using hq), List.cons_append, hsplit]
      rfl

/-- Nothing is lost before the first empty payload exactly when nothing follows it. -/
theorem flatten_takeWhile_iff (ps : List Bytes) :
    (ps.takeWhile (· ≠ [])).flatten = ps.flatten ↔ ps.Pairwise fun p q => p = [] → q = [] := by
  induction ps with
  | nil => simp
  | cons p ps ih =>
    rw [List.pairwise_cons]
    by_cases hp : p = []
    · subst hp
      constructor
      · intro h
        have hall : ∀ q ∈ ps, q = [] := List.flatten_eq_nil_iff.1 (by simpa using h.symm)
        exact ⟨fun q hq _ => hall q hq,
          List.pairwise_of_forall_mem_list fun a _ b hb _ => hall b hb⟩
      · rintro ⟨h, -⟩
        simpa [eq_comm, List.flatten_eq_nil_iff] using fun q hq => h q hq rfl
    · rw [List.takeWhile_cons_of_pos (by simpa using hp), List.flatten_cons, List.flatten_cons,
        List.append_cancel_left_eq, ih]
      exact ⟨fun h => ⟨fun q _ hnil => absurd hnil hp, h⟩, fun h => h.2⟩

/-- The results of the reads determine the bytes. -/
theorem flatten_of_reads {r : BodyReader} {ps qs : List Bytes}
    (hp : ∀ k, r.reads c (ps.length + k) = ps.map .ok ++ List.replicate k (.ok []))
    (hq : ∀ k, r.reads c (qs.length + k) = qs.map .ok ++ List.replicate k (.ok [])) :
    ps.flatten = qs.flatten := by
  have h := hp qs.length
  rw [Nat.add_comm, hq ps.length] at h
  have hbytes := congrArg
    (fun l : List (Except Exc Bytes) => (l.map fun x => x.toOption.getD []).flatten) h
  simpa [Function.comp_def, Except.toOption] using hbytes.symm

/-! ### The answer -/

/-- A writer that is ready writes every body, and a reader in step with it returns what comes before
the first empty payload. -/
theorem writeBody_reads (hc : c.aead.Correct) {w : BodyWriter} (hw : w.Ready) (ps : List Bytes) :
    ∃ wire w', w.writeBody c token ps = .ok (wire, w') ∧
      ∀ r, Synced w r → r.Filled → r.ahead = wire →
        ∃ qs : List Bytes, (∀ q ∈ qs, q ≠ []) ∧ qs.flatten = (ps.takeWhile (· ≠ [])).flatten ∧
          ∀ k, r.reads c (qs.length + k) = qs.map .ok ++ List.replicate k (.ok []) := by
  set all := ps.flatMap pieces with hall
  set qs := all.takeWhile (· ≠ []) with hqs
  have hlen : ∀ q ∈ all, q.length ≤ maxChunk := by
    intro q hq
    obtain ⟨p, -, hq⟩ := List.mem_flatMap.1 hq
    by_cases hp : p = []
    · subst hp
      rw [List.mem_singleton.1 (show q ∈ [[]] from hq)]
      exact Nat.zero_le _
    · exact ((pieces_spec hp).2 q hq).2
  have hdata : ∀ q ∈ qs, q ≠ [] ∧ q.length ≤ maxChunk := fun q hq =>
    ⟨by simpa using List.mem_takeWhile_imp hq, hlen q ((List.takeWhile_sublist _).subset hq)⟩
  obtain ⟨rest, hsplit, hmem⟩ := split_at_empty all
  have hrest : ∀ q ∈ rest, q.length ≤ maxChunk := by
    intro q hq
    rcases hmem q hq with h | rfl
    · exact hlen q h
    · exact Nat.zero_le _
  obtain ⟨wire, w₁, hwire, hw₁, hreads⟩ := reads_sealChunks token hc qs hdata hw
  obtain ⟨tail, w₂, htail, -⟩ := sealChunks_ready token hc rest hrest hw₁
  refine ⟨wire ++ tail, w₂, ?_, fun r hs hf ha => ⟨qs, fun q hq => (hdata q hq).1, ?_, ?_⟩⟩
  · rw [BodyWriter.writeBody_eq, hsplit, BodyWriter.sealChunks_append, hwire]
    simp [htail, bind, Except.bind, pure, Except.pure]
  · exact flatten_takeWhile_pieces ps
  · exact hreads r tail hs hf ha

/-- **Every accepted request can be answered, exactly when** padding comes with masking, and no data
is written behind the empty chunk that ends the body. -/
theorem answered_iff (c : Crypto) (hc : c.aead.Correct) (token : ℕ → UInt8)
    (v : AuthIDValidator c) (call : Call) (r : VMessRequest) (reader : BodyReader)
    (h : (decodeRequest v call).1 = .ok (r, reader)) (ps : List Bytes) :
    Answered c token r ps ↔
      (hasOption r.option optGlobalPadding = true → hasOption r.option optChunkMasking = true) ∧
        ps.Pairwise fun p q => p = [] → q = [] := by
  obtain ⟨hsec, hauth⟩ := checkCommand_eq_ok (accepted_checked h)
  by_cases hopt : hasOption r.option optGlobalPadding = true →
      hasOption r.option optChunkMasking = true
  · obtain ⟨w, hw, hready, hreader⟩ := init_synced (c := c) (responseKeys c r).1
      (responseKeys c r).2 r.option hsec
    obtain ⟨wire, w', hwire, hreads⟩ := writeBody_reads token hc
      (hready fun hpad => .inl (hopt hpad)) ps
    have hread : ∀ fill : List Bytes, (∀ p ∈ fill, p ≠ []) → fill.flatten = wire →
        ∃ rd, responseBodyReader c r fill = .ok rd ∧ ∃ qs : List Bytes, (∀ q ∈ qs, q ≠ []) ∧
          qs.flatten = (ps.takeWhile (· ≠ [])).flatten ∧
          ∀ k, rd.reads c (qs.length + k) = qs.map .ok ++ List.replicate k (.ok []) := by
      intro fill hfill hcut
      obtain ⟨rd, hrd, hs, hbuf, hrfill⟩ := hreader fill
      exact ⟨rd, hrd, hreads rd hs (by rw [BodyReader.Filled, hrfill]; exact hfill)
        (by rw [BodyReader.ahead, hbuf, hrfill, List.nil_append, hcut])⟩
    rw [← flatten_takeWhile_iff ps]
    constructor
    · rintro ⟨w₀, wire₀, w₀', hw₀, hwire₀, hall⟩
      refine ⟨hopt, ?_⟩
      cases hw.symm.trans hw₀
      cases hwire.symm.trans hwire₀
      -- one fragmentation is enough: the wire in one piece, or in none if it is empty
      obtain ⟨fill, hfill, hcut⟩ : ∃ fill : List Bytes, (∀ p ∈ fill, p ≠ []) ∧
          fill.flatten = wire := by
        by_cases hnil : wire = []
        · exact ⟨[], by simp, hnil.symm⟩
        · exact ⟨[wire], by simpa using hnil, by simp⟩
      obtain ⟨rd, hrd, qs, -, hqs, hq⟩ := hread fill hfill hcut
      obtain ⟨rd', hrd', ps', -, hps', hp⟩ := hall fill hfill hcut
      cases hrd.symm.trans hrd'
      rw [← hqs, ← hps']
      exact flatten_of_reads hq hp
    · rintro ⟨-, heq⟩
      refine ⟨w, wire, w', hw, hwire, fun fill hfill hcut => ?_⟩
      obtain ⟨rd, hrd, qs, hne, hqs, hq⟩ := hread fill hfill hcut
      exact ⟨rd, hrd, qs, hne, hqs.trans heq, hq⟩
  · constructor
    · rintro ⟨w, wire, w', hw, hwire, -⟩
      obtain ⟨hpad, hmask⟩ := Classical.not_imp.1 hopt
      obtain ⟨hpadding, hshake⟩ := init_padding hw
      rw [hpad, hauth hpad] at hpadding
      rw [BodyWriter.writeBody_eq, sealChunks_unmasked token hpadding
        (hshake (by simpa using hmask)) (by simp)] at hwire
      cases hwire
    · rintro ⟨h, -⟩
      exact absurd h hopt

/-- The request of the sample client: two payloads and the end. -/
theorem answered_iff_sample : ∃ r reader,
    (decodeRequest (SessionState.init Crypto.transparent).validator (sampleCall 0)).1 =
        .ok (r, reader) ∧ Crypto.transparent.aead.Correct ∧
      (Answered Crypto.transparent (fun _ => 0) r [[1, 2], [3]] ↔
        (hasOption r.option optGlobalPadding = true → hasOption r.option optChunkMasking = true) ∧
          ([[1, 2], [3]] : List Bytes).Pairwise fun p q => p = [] → q = []) := by
  obtain ⟨⟨r, reader⟩, h⟩ := sampleCall_accepted (SessionState.init Crypto.transparent) 0
  exact ⟨r, reader, h, Crypto.transparent_correct, answered_iff Crypto.transparent
    Crypto.transparent_correct (fun _ => 0) _ (sampleCall 0) r reader h [[1, 2], [3]]⟩

/-- The sample header with option byte `0x09`: the chunk stream and padding, no masking. -/
def paddedHeader : Bytes :=
  let b := [1] ++ List.replicate 32 0 ++ [0, 9, 3, 0, 1, 0, 80, 1, 127, 0, 0, 1]
  b ++ Bytes.ofNatBE 4 (fnv1a32 b)

/-- The request of a client of the user `00` with that header. -/
def paddedWire : Bytes :=
  let c := Crypto.transparent
  let ck := c.md5 ([0] ++ cmdKeyTail)
  let nonce := List.replicate 8 0
  let iv := fun salt => (kdf c ck [Bytes.ascii salt, sampleAuthId, nonce]).take gcmNonceSize
  sampleAuthId ++
    c.aead.encrypt ⟨.AESGCM, []⟩ (iv "VMess Header AEAD Nonce_Length")
      (Bytes.ofNatBE 2 paddedHeader.length) sampleAuthId ++ nonce ++
    c.aead.encrypt ⟨.AESGCM, []⟩ (iv "VMess Header AEAD Nonce") paddedHeader sampleAuthId

/-- The call for it. -/
def paddedCall : Call := ⟨paddedWire, [], some "00", 0⟩

theorem paddedCall_accepted : ∃ r reader,
    (decodeRequest (AuthIDValidator.init Crypto.transparent) paddedCall).1 = .ok (r, reader) ∧
      r.option = 9 := by
  have hopen : (openRequest Crypto.transparent "00" sampleAuthId (paddedWire.drop 16) []).toOption.map
      (fun res => res.1.option) = some 9 := by decide +kernel
  have hid : paddedCall.authId = sampleAuthId :=
    show paddedWire.take 16 = sampleAuthId by decide +kernel
  have hlen : 16 ≤ paddedWire.length := by decide +kernel
  have hdec : decodeAuthId Crypto.transparent (Crypto.transparent.md5 ([0] ++ cmdKeyTail))
      sampleAuthId = some 0 := by decide +kernel
  cases hres : openRequest Crypto.transparent "00" sampleAuthId (paddedWire.drop 16) [] with
  | error e =>
    rw [hres] at hopen
    cases hopen
  | ok res =>
    rw [hres] at hopen
    have he : paddedCall.expected = some "00" := rfl
    refine ⟨res.1, res.2, (decodeRequest_expected he).2 ⟨hlen, ⟨_, 0, rfl, ?_⟩, ?_⟩,
      Option.some.inj hopen⟩
    · rw [hid]
      exact hdec
    · rw [hid]
      exact hres

/-- It is accepted, and the first chunk of the response raises. -/
theorem padded_request_unanswered : ¬ ∀ (c : Crypto), c.aead.Correct → ∀ (token : ℕ → UInt8)
    (v : AuthIDValidator c) (call : Call) (r : VMessRequest) (reader : BodyReader),
    (decodeRequest v call).1 = .ok (r, reader) → ∀ ps, Answered c token r ps := by
  intro h
  obtain ⟨r, reader, hres, hoption⟩ := paddedCall_accepted
  obtain ⟨w, wire, w', hw, hwire, -⟩ := h Crypto.transparent Crypto.transparent_correct
    (fun _ => 0) _ paddedCall r reader hres []
  obtain ⟨hpadding, hshake⟩ := init_padding hw
  rw [BodyWriter.writeBody_eq, sealChunks_unmasked (fun _ => 0) (by rw [hpadding, hoption]; decide)
    (hshake (by rw [hoption]; decide)) (by simp)] at hwire
  cases hwire

end Vmess

end RvgGateway
