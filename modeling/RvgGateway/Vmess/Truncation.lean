import RvgGateway.Vmess.NonceReuse
import RvgGateway.Vmess.Response

/-!
# Where a truncated body is noticed

The wire of a `BodyWriter` is cut, and a `BodyReader` is run to the end of what is left.  The reader
needs the size field of a chunk first and its block after that; `_need` answers with `False` when
the transport ends, and only for the block do its callers take that for an error.

* `Place` : where a cut falls, in terms of the chunks of the wire.
* `BodyReader.drain` : `read` until it returns `b""` or raises.
* `drain_cut` : the reader ends as the place of the cut says (`Place.ending`).
* `truncation_detected_iff` : **a truncation is noticed exactly when the cut is not inside a size
  field.**
-/

namespace RvgGateway

namespace Vmess

/-! ### The wire and its chunks -/

section Wire

variable (c : Crypto) (token : ℕ → UInt8)

namespace BodyWriter

/-- The outputs of calls on a writer, joined. -/
def writes (w : BodyWriter) : List WriterOp → Except Exc (Bytes × BodyWriter)
  | [] => .ok ([], w)
  | op :: ops => do
    let (out, w) ← op.perform c token w
    let (rest, w) ← writes w ops
    return (out ++ rest, w)

/-- The chunks that the writer makes of these payloads: each payload with the length of its chunk on
the wire. -/
def layout (w : BodyWriter) : List Bytes → List (Bytes × ℕ)
  | [] => []
  | p :: ps =>
    match w.sealChunk c token p with
    | .error _ => []
    | .ok (out, w) => (p, out.length) :: layout w ps

theorem writes_eq (w : BodyWriter) (ops : List WriterOp) :
    w.writes c token ops = w.sealChunks c token (ops.flatMap WriterOp.payloads) := by
  induction ops generalizing w with
  | nil => rfl
  | cons op ops ih =>
    rw [writes, List.flatMap_cons, sealChunks_append, perform_eq]
    simp only [ih]

end BodyWriter

end Wire

/-- Where a cut falls. -/
inductive Place where
  /-- Before the first byte of a chunk, or behind the last chunk. -/
  | boundary
  /-- Inside the size field of a chunk that carries data, or of one that does not. -/
  | sizeField (data : Bool)
  /-- Behind the size field of a chunk that carries data, before the last byte of the chunk. -/
  | block
  /-- Behind the size field of a chunk without data: the end of the body has been received. -/
  | ended
  deriving DecidableEq, Repr

/-- The place of the byte `cut` in a row of chunks. -/
def place (fieldLen : ℕ) : List (Bytes × ℕ) → ℕ → Place
  | [], _ => .boundary
  | (payload, length) :: chunks, cut =>
    if cut = 0 then .boundary
    else if cut < fieldLen then .sizeField (payload ≠ [])
    else if payload = [] then .ended
    else if cut < length then .block
    else place fieldLen chunks (cut - length)

namespace Place

/-- Strictly inside a chunk that carries data. -/
def insideData : Place → Prop
  | .sizeField data => data = true
  | .block => True
  | _ => False

/-- Inside a size field. -/
def inSizeField : Place → Prop
  | .sizeField _ => True
  | _ => False

instance : DecidablePred insideData
  | .sizeField data => inferInstanceAs (Decidable (data = true))
  | .block => .isTrue trivial
  | .boundary | .ended => .isFalse id

instance : DecidablePred inSizeField
  | .sizeField _ => .isTrue trivial
  | .boundary | .block | .ended => .isFalse id

/-- How a reader ends that is given the wire up to there. -/
def ending : Place → Except Exc Unit
  | .block => .error (.vmessError "truncated chunk payload")
  | _ => .ok ()

end Place

/-- What is promised of a reader that is given the wire up to a place: it raises inside a data chunk,
and it reports the end only at the boundary of a chunk or behind the end of the body. -/
structure Detected (p : Place) (ending : Except Exc Unit) : Prop where
  raises : p.insideData → ∃ msg, ending = .error (.vmessError msg)
  clean : ending = .ok () → p = .boundary ∨ p = .ended

variable {c : Crypto}

namespace BodyReader

/-- `read` until it returns `b""` or raises: the pieces, and how it ended. -/
def drain (c : Crypto) : ℕ → BodyReader → Option (List Bytes × Except Exc Unit)
  | 0, _ => none
  | n + 1, r =>
    match r.read c with
    | (.ok [], _) => some ([], .ok ())
    | (.ok (b :: p), r) => (drain c n r).map fun res => ((b :: p) :: res.1, res.2)
    | (.error e, _) => some ([], .error e)

theorem drain_end {r r' : BodyReader} (h : r.read c = (.ok [], r')) (n : ℕ) :
    r.drain c (n + 1) = some ([], .ok ()) := by
  simp only [drain, h]

theorem drain_error {r r' : BodyReader} {e : Exc} (h : r.read c = (.error e, r')) (n : ℕ) :
    r.drain c (n + 1) = some ([], .error e) := by
  simp only [drain, h]

theorem drain_piece {r r' : BodyReader} {p : Bytes} (hp : p ≠ []) (h : r.read c = (.ok p, r'))
    (n : ℕ) : r.drain c (n + 1) = (r'.drain c n).map fun res => (p :: res.1, res.2) := by
  cases p with
  | nil => exact absurd rfl hp
  | cons b p => simp only [drain, h]

/-! ### Too few bytes -/

theorem needLoop_short {n : ℕ} (fill : List Bytes) (hf : ∀ p ∈ fill, p ≠ []) (buf : Bytes)
    (h : (buf ++ fill.flatten).length < n) :
    needLoop n buf fill = (false, buf ++ fill.flatten, []) := by
  induction fill generalizing buf with
  | nil =>
    rw [List.flatten_nil, List.append_nil] at h ⊢
    rw [needLoop, decide_eq_false (by omega)]
  | cons chunk fill ih =>
    obtain ⟨hchunk, hfill⟩ := List.forall_mem_cons.1 hf
    have hbuf : ¬ n ≤ buf.length := by
      rw [List.length_append] at h
      omega
    rw [List.flatten_cons, ← List.append_assoc] at h ⊢
    rw [needLoop, if_neg hbuf, if_neg hchunk, ih hfill (buf ++ chunk) h]

/-- `_need` returns `False` when the transport ends before the bytes are there, and does not say
whether some of them are. -/
theorem need_short {r : BodyReader} (hf : r.Filled) {n : ℕ} (h : r.ahead.length < n) :
    r.need n = (false, { r with buf := r.ahead, fill := [] }) := by
  simp only [need, needLoop_short r.fill hf r.buf h]
  rfl

/-- In a size field that is the end of the body. -/
theorem read_short {r : BodyReader} (hdone : r.done = false) (hf : r.Filled)
    (h : r.ahead.length < if r.authlen then 2 + tag else 2) : ∃ r', r.read c = (.ok [], r') := by
  cases ha : r.authlen with
  | true =>
    rw [if_pos ha] at h
    have hread : r.read c = r.readAuthlen c := by
      simp [read, hdone, ha]
    exact ⟨_, by rw [hread, readAuthlen, need_short hf h]; rfl⟩
  | false =>
    rw [if_neg (by simp [ha])] at h
    have hread : r.read c = r.readMasked c := by
      simp [read, hdone, ha]
    exact ⟨_, by rw [hread, readMasked, need_short hf h]; rfl⟩

/-- In a block it is an error. -/
theorem readPayload_short {r : BodyReader} (hf : r.Filled) (size : ℕ) (h : r.ahead.length < size)
    (enc : ℕ) : ∃ r', r.readPayload c size enc =
      (.error (.vmessError "truncated chunk payload"), r') :=
  ⟨_, by rw [readPayload, need_short hf h]⟩

end BodyReader

/-! ### A cut wire -/

theorem fieldLen_pos (w : BodyWriter) : 0 < w.fieldLen := by
  rw [BodyWriter.fieldLen]
  split_ifs <;> decide

/-- A reader behind the size field does not read a block that is cut. -/
theorem ReadsField.cut {w' : BodyWriter} {r r' : BodyReader} {payload enc pad rest : Bytes}
    (h : ReadsField c w' r r' payload enc pad rest) (hne : payload ≠ [])
    (hcut : rest.length < (enc ++ pad).length) (n : ℕ) :
    r.drain c (n + 1) = some ([], .error (.vmessError "truncated chunk payload")) := by
  obtain ⟨r₂, hpay⟩ := BodyReader.readPayload_short (c := c) h.filled (enc ++ pad).length (by
    rw [h.ahead]
    exact hcut) enc.length
  exact BodyReader.drain_error ((h.block hne).trans hpay) n

/-- **A reader at the end of a cut wire** ends as the place of the cut says. -/
theorem drain_cut (hc : c.aead.Correct) (token : ℕ → UInt8) (qs : List Bytes)
    (hqs : ∀ q ∈ qs, q.length ≤ maxChunk) {w : BodyWriter} (hw : w.Ready) :
    ∃ wire w', w.sealChunks c token qs = .ok (wire, w') ∧
      ∀ cut r, Synced w r → r.Filled → r.ahead = wire.take cut →
        ∃ pieces, r.drain c (qs.length + 1) =
          some (pieces, (place w.fieldLen (w.layout c token qs) cut).ending) := by
  induction qs generalizing w with
  | nil =>
    refine ⟨[], w, rfl, fun cut r hs hf ha => ⟨[], ?_⟩⟩
    obtain ⟨r', hread⟩ := BodyReader.read_short (c := c) hs.done hf (by
      rw [ha, List.take_nil, hs.authlen]
      exact fieldLen_pos w)
    exact BodyReader.drain_end hread 0
  | cons q qs ih =>
    obtain ⟨hlen, hqs⟩ := List.forall_mem_cons.1 hqs
    obtain ⟨size, enc, pad, w₁, hseal, hw₁, hauth, hsize, -, hfield⟩ :=
      sealChunk_field token hc hw hlen
    obtain ⟨wire, w', hrest, hdrain⟩ := ih hqs hw₁
    have hfieldLen : w₁.fieldLen = w.fieldLen := by
      rw [BodyWriter.fieldLen, BodyWriter.fieldLen, hauth]
    refine ⟨size ++ (enc ++ pad) ++ wire, w', by
      simp [BodyWriter.sealChunks, hseal, hrest, bind, Except.bind, pure, Except.pure],
      fun cut r hs hf ha => ?_⟩
    have hpos := fieldLen_pos w
    simp only [BodyWriter.layout, hseal, place]
    by_cases hcut : cut < w.fieldLen
    -- the size field is not complete
    · obtain ⟨r', hread⟩ := BodyReader.read_short (c := c) hs.done hf (by
        rw [ha, hs.authlen]
        exact lt_of_le_of_lt (List.length_take_le _ _) hcut)
      refine ⟨[], ?_⟩
      rw [BodyReader.drain_end hread]
      split_ifs <;> rfl
    · rw [if_neg (by omega), if_neg hcut]
      rw [List.append_assoc, List.take_append, List.take_of_length_le (by omega)] at ha
      obtain ⟨r', hr'⟩ := hfield r _ hs hf ha
      by_cases hq : q = []
      · rw [if_pos hq]
        exact ⟨[], BodyReader.drain_end (hr'.ended hq) _⟩
      · rw [if_neg hq]
        by_cases hblock : cut < (size ++ (enc ++ pad)).length
        -- the block is not complete
        · rw [if_pos hblock]
          refine ⟨[], hr'.cut hq (lt_of_le_of_lt (List.length_take_le _ _) ?_) _⟩
          rw [List.length_append] at hblock
          omega
        · rw [if_neg hblock]
          rw [List.length_append] at hblock
          rw [List.take_append, List.take_of_length_le (by omega)] at hr'
          obtain ⟨r₂, hread, hsynced, hfilled, hahead⟩ := hr'.whole hq
          obtain ⟨pieces, hpieces⟩ := hdrain (cut - (size ++ (enc ++ pad)).length) r₂ hsynced
            hfilled (by rw [hahead, Nat.sub_sub, ← List.length_append])
          refine ⟨q :: pieces, ?_⟩
          rw [List.length_cons, BodyReader.drain_piece hq hread, hpieces, hfieldLen]
          rfl

/-- Of the places, only the size fields break the promise. -/
theorem detected_ending_iff (p : Place) : Detected p p.ending ↔ ¬ p.inSizeField := by
  cases p with
  | boundary => exact ⟨fun _ h => h, fun _ => ⟨fun h => h.elim, fun _ => .inl rfl⟩⟩
  | sizeField data =>
    constructor
    · intro h
      rcases h.clean rfl with h | h <;> cases h
    · exact fun h => absurd trivial h
  | block => exact ⟨fun _ h => h, fun _ => ⟨fun _ => ⟨_, rfl⟩, fun h => by cases h⟩⟩
  | ended => exact ⟨fun _ h => h, fun _ => ⟨fun h => h.elim, fun _ => .inr rfl⟩⟩

/-! ### Streams -/

theorem security_of_init {bodyKey bodyIv : Bytes} {security option : ℕ} {w : BodyWriter}
    (h : BodyWriter.init c bodyKey bodyIv security option = .ok w) :
    security = secAes128Gcm ∨ security = secChacha20Poly1305 := by
  simp only [BodyWriter.init, bind_eq_ok] at h
  obtain ⟨aead, haead, -⟩ := h
  unfold makeBodyAead at haead
  split_ifs at haead with haes hchacha
  · exact .inl haes
  · exact .inr hchacha

theorem payloads_ne_nil (op : WriterOp) : op.payloads ≠ [] := by
  rw [← List.length_pos_iff, length_payloads]
  cases op with
  | writeChunk payload => exact lt_of_lt_of_le Nat.one_pos (Nat.le_max_left _ _)
  | writeEof => exact Nat.one_pos

/-- A writer that cannot seal has produced nothing. -/
theorem BodyWriter.supported_of_seals {bodyKey bodyIv : Bytes} {security option : ℕ}
    {w w' : BodyWriter} (hw : BodyWriter.init c bodyKey bodyIv security option = .ok w)
    (token : ℕ → UInt8) {ops : List WriterOp} (hops : ops ≠ []) {wire : Bytes}
    (hwire : w.sealChunks c token (ops.flatMap WriterOp.payloads) = .ok (wire, w')) :
    hasOption option optGlobalPadding = true →
      hasOption option optChunkMasking = true ∨ hasOption option optAuthLength = true := by
  intro hpad
  by_contra hopt
  rw [not_or, Bool.not_eq_true, Bool.not_eq_true] at hopt
  obtain ⟨hpadding, hshake⟩ := init_padding hw
  have hqs : ops.flatMap WriterOp.payloads ≠ [] := by
    obtain ⟨op, hop⟩ := List.exists_mem_of_ne_nil ops hops
    obtain ⟨q, hq⟩ := List.exists_mem_of_ne_nil _ (payloads_ne_nil op)
    exact List.ne_nil_of_mem (List.mem_flatMap_of_mem hop hq)
  rw [sealChunks_unmasked token (by rw [hpadding, hpad, hopt.2]; rfl)
    (hshake hopt.1) hqs] at hwire
  cases hwire

/-- **A truncated body is noticed, exactly when the cut is not inside a size field**: for every
stream that a writer has produced, every cut of it, and every way in which the rest arrives. -/
theorem truncation_detected_iff (c : Crypto) (hc : c.aead.Correct) (token : ℕ → UInt8)
    (bodyKey bodyIv : Bytes) (security option : ℕ) (w : BodyWriter)
    (hw : BodyWriter.init c bodyKey bodyIv security option = .ok w) (ops : List WriterOp)
    (wire : Bytes) (w' : BodyWriter) (hwire : w.writes c token ops = .ok (wire, w')) (cut : ℕ)
    (fill : List Bytes) (hfill : ∀ p ∈ fill, p ≠ []) (hcut : fill.flatten = wire.take cut) :
    ∃ r pieces ending, BodyReader.init c bodyKey bodyIv security option fill = .ok r ∧
      r.drain c ((ops.flatMap WriterOp.payloads).length + 1) = some (pieces, ending) ∧
      (Detected (place w.fieldLen (w.layout c token (ops.flatMap WriterOp.payloads)) cut) ending ↔
        ¬ (place w.fieldLen (w.layout c token (ops.flatMap WriterOp.payloads)) cut).inSizeField) := by
  obtain ⟨w₀, hw₀, hready, hreader⟩ := init_synced (c := c) bodyKey bodyIv option
    (security_of_init hw)
  cases hw.symm.trans hw₀
  obtain ⟨r, hr, hs, hbuf, hrfill⟩ := hreader fill
  have hfilled : r.Filled := by
    rw [BodyReader.Filled, hrfill]
    exact hfill
  have hahead : r.ahead = wire.take cut := by
    rw [BodyReader.ahead, hbuf, hrfill, List.nil_append, hcut]
  rw [BodyWriter.writes_eq] at hwire
  by_cases hops : ops = []
  -- nothing was written, and nothing arrives
  · subst hops
    cases hwire
    obtain ⟨r', hread⟩ := BodyReader.read_short (c := c) hs.done hfilled (by
      rw [hahead, List.take_nil, hs.authlen]
      exact fieldLen_pos w)
    exact ⟨r, [], .ok (), hr, BodyReader.drain_end hread 0, detected_ending_iff .boundary⟩
  · have hqs : ∀ q ∈ ops.flatMap WriterOp.payloads, q.length ≤ maxChunk := by
      intro q hq
      obtain ⟨op, -, hq⟩ := List.mem_flatMap.1 hq
      exact length_le_of_mem_payloads hq
    obtain ⟨wire₀, w₁, hwire₀, hdrain⟩ := drain_cut hc token _ hqs
      (hready (BodyWriter.supported_of_seals hw token hops hwire))
    cases hwire.symm.trans hwire₀
    obtain ⟨pieces, hpieces⟩ := hdrain cut r hs hfilled hahead
    exact ⟨r, pieces, _, hr, hpieces, detected_ending_iff _⟩

/-- Two chunks with masked sizes, cut inside the second payload: the reader raises. -/
theorem truncation_detected_iff_block : ∃ w wire w',
    BodyWriter.init Crypto.transparent sampleKey sampleIv 3 0x05 = .ok w ∧
    w.writes Crypto.transparent (fun _ => 0) [.writeChunk [1, 2], .writeChunk [3]] =
      .ok (wire, w') ∧
    ∃ r pieces ending,
      BodyReader.init Crypto.transparent sampleKey sampleIv 3 0x05 [wire.take 25] = .ok r ∧
      r.drain Crypto.transparent 3 = some (pieces, ending) ∧
      Detected (place w.fieldLen
        (w.layout Crypto.transparent (fun _ => 0) [[1, 2], [3]]) 25) ending := by
  obtain ⟨w, hw⟩ : ∃ w, BodyWriter.init Crypto.transparent sampleKey sampleIv 3 0x05 = .ok w :=
    ⟨_, rfl⟩
  obtain ⟨⟨wire, w'⟩, hwire⟩ : ∃ res, w.writes Crypto.transparent (fun _ => 0)
      [.writeChunk [1, 2], .writeChunk [3]] = .ok res := by
    cases hw
    exact ⟨_, rfl⟩
  obtain ⟨r, pieces, ending, hr, hdrain, hiff⟩ := truncation_detected_iff Crypto.transparent
    Crypto.transparent_correct (fun _ => 0) sampleKey sampleIv 3 0x05 w hw
    [.writeChunk [1, 2], .writeChunk [3]] wire w' hwire 25 [wire.take 25]
    (by cases hw; cases hwire; decide +kernel) (by simp)
  refine ⟨w, wire, w', hw, hwire, r, pieces, ending, hr, hdrain, hiff.2 ?_⟩
  cases hw
  decide +kernel

/-- One byte of the size field arrives, and the reader reports the end. -/
theorem cut_size_field_ends_cleanly : ¬ ∀ (c : Crypto), c.aead.Correct →
    ∀ (token : ℕ → UInt8) (bodyKey bodyIv : Bytes) (security option : ℕ) (w : BodyWriter),
      BodyWriter.init c bodyKey bodyIv security option = .ok w →
    ∀ (ops : List WriterOp) (wire : Bytes) (w' : BodyWriter),
      w.writes c token ops = .ok (wire, w') →
    ∀ (cut : ℕ) (fill : List Bytes), (∀ p ∈ fill, p ≠ []) → fill.flatten = wire.take cut →
    ∀ (r : BodyReader) (n : ℕ) (pieces : List Bytes) (ending : Except Exc Unit),
      BodyReader.init c bodyKey bodyIv security option fill = .ok r →
      r.drain c n = some (pieces, ending) →
        Detected (place w.fieldLen (w.layout c token (ops.flatMap WriterOp.payloads)) cut)
          ending := by
  intro h
  obtain ⟨raises, -⟩ := h Crypto.transparent Crypto.transparent_correct (fun _ => 0) sampleKey sampleIv
    3 0x01 _ rfl [.writeChunk [1, 2]] _ _ rfl 1 [[0]] (by decide) (by decide +kernel) _ 1 [] (.ok ()) rfl
    (by decide +kernel)
  obtain ⟨msg, hmsg⟩ := raises (by decide +kernel)
  cases hmsg

end Vmess

end RvgGateway
