import RvgGateway.Vmess.Body

/-!
# What a body writer writes, a body reader reads

A writer and a reader with the same parameters stay `Synced`: same keys, same nonce counters, same
position in the SHAKE stream.  `sealChunk_read` is the step: a sealed chunk at the front of what is
still `ahead` of the reader is read as its payload and leaves both synced, however `fill` cuts the
wire; an empty chunk ends the body.  `reads_sealChunks` is the run, and `body_round_trip` the result
for whole bodies.
-/

namespace RvgGateway

namespace Vmess

variable {c : Crypto} (token : ℕ → UInt8)

/-! ### Bytes ahead of the reader -/

namespace BodyReader

/-- What the reader has not consumed yet. -/
def ahead (r : BodyReader) : Bytes := r.buf ++ r.fill.flatten

/-- `_fill` returns non-empty pieces. -/
def Filled (r : BodyReader) : Prop := ∀ p ∈ r.fill, p ≠ []

theorem needLoop_ahead {a rest : Bytes} (fill : List Bytes) (hf : ∀ p ∈ fill, p ≠ []) (buf : Bytes)
    (h : buf ++ fill.flatten = a ++ rest) :
    ∃ b fill', needLoop a.length buf fill = (true, a ++ b, fill') ∧ b ++ fill'.flatten = rest ∧
      ∀ p ∈ fill', p ≠ [] := by
  induction fill generalizing buf with
  | nil =>
    rw [List.flatten_nil, List.append_nil] at h
    subst h
    exact ⟨rest, [], by simp [needLoop], by simp, by simp⟩
  | cons chunk fill ih =>
    obtain ⟨hchunk, hfill⟩ := List.forall_mem_cons.1 hf
    by_cases hle : a.length ≤ buf.length
    · obtain ⟨b, rfl⟩ : ∃ b, buf = a ++ b :=
        (List.prefix_of_prefix_length_le (List.prefix_append a rest)
          (h ▸ List.prefix_append buf _) hle).imp fun _ h => h.symm
      rw [List.append_assoc, List.append_cancel_left_eq] at h
      exact ⟨b, chunk :: fill, by simp [needLoop], h, hf⟩
    · rw [needLoop, if_neg hle, if_neg hchunk]
      exact ih hfill (buf ++ chunk) (by rw [List.append_assoc, ← List.flatten_cons, h])

/-- `_need` gathers the front of what is ahead. -/
theorem need_ahead {r : BodyReader} (hf : r.Filled) {a rest : Bytes} (h : r.ahead = a ++ rest) :
    ∃ b fill, r.need a.length = (true, { r with buf := a ++ b, fill }) ∧
      b ++ fill.flatten = rest ∧ ∀ p ∈ fill, p ≠ [] := by
  obtain ⟨b, fill, he, hb, hfill⟩ := needLoop_ahead r.fill hf r.buf h
  exact ⟨b, fill, by simp only [need, he], hb, hfill⟩

/-- Reading the payload block of a chunk, with the padding behind it. -/
theorem readPayload_ahead {r : BodyReader} (hf : r.Filled) (enc pad rest payload : Bytes)
    (h : r.ahead = (enc ++ pad) ++ rest)
    (hd : c.aead.decrypt r.aead r.payloadNonce.next.1 enc [] = some payload) :
    ∃ b fill, r.readPayload c (enc ++ pad).length enc.length =
        (.ok payload, { r with payloadNonce := r.payloadNonce.next.2, buf := b, fill }) ∧
      b ++ fill.flatten = rest ∧ ∀ p ∈ fill, p ≠ [] := by
  obtain ⟨b, fill, he, hb, hfill⟩ := need_ahead hf h
  refine ⟨b, fill, ?_, hb, hfill⟩
  have htake : (enc ++ pad ++ b).take enc.length = enc := by
    rw [List.append_assoc, List.take_left]
  simp only [readPayload, he, htake, hd, List.drop_left]

theorem reads_of_done {r : BodyReader} (h : r.done = true) (k : ℕ) :
    r.reads c k = List.replicate k (.ok []) := by
  induction k with
  | zero => rfl
  | succ k ih =>
    have hread : r.read c = (.ok [], r) := by simp [read, h]
    rw [reads, hread, ih, List.replicate_succ]

end BodyReader

/-! ### Writer and reader in step -/

/-- The writer can seal: the parts that its flags call for exist. -/
structure BodyWriter.Ready (w : BodyWriter) : Prop where
  lenAead : w.authlen = true → w.lenAead.isSome = true
  padding : w.authlen = true → w.padding = false
  shake : w.padding = true → w.shake.isSome = true

/-- The reader is where the writer is, and has not seen the end. -/
structure Synced (w : BodyWriter) (r : BodyReader) : Prop where
  aead : r.aead = w.aead
  authlen : r.authlen = w.authlen
  padding : r.padding = w.padding
  lenAead : r.lenAead = w.lenAead
  lenNonce : r.lenNonce = w.lenNonce
  shake : w.authlen = false → r.shake = w.shake
  payloadNonce : r.payloadNonce = w.payloadNonce
  done : r.done = false

/-- What a reader makes of a sealed chunk with this payload at the front of what is ahead. -/
def ReadsChunk (c : Crypto) (w' : BodyWriter) (r : BodyReader) (payload rest : Bytes) : Prop :=
  if payload = [] then ∃ r', r.read c = (.ok [], r') ∧ r'.done = true
  else ∃ r', r.read c = (.ok payload, r') ∧ Synced w' r' ∧ r'.Filled ∧ r'.ahead = rest

/-- The length of a size field. -/
def BodyWriter.fieldLen (w : BodyWriter) : ℕ := if w.authlen then 2 + tag else 2

/-- What a reader makes of the size field of a chunk whose block is `enc ++ pad`: an empty chunk
ends the body there, and for any other the reader `r'` reads the block. -/
structure ReadsField (c : Crypto) (w' : BodyWriter) (r r' : BodyReader)
    (payload enc pad rest : Bytes) : Prop where
  filled : r'.Filled
  ahead : r'.ahead = rest
  ended : payload = [] → r.read c = r'.finish
  block : payload ≠ [] → r.read c = r'.readPayload c (enc ++ pad).length enc.length
  opens : c.aead.decrypt r'.aead r'.payloadNonce.next.1 enc [] = some payload
  synced : ∀ buf fill, Synced w' { r' with payloadNonce := r'.payloadNonce.next.2, buf, fill }

/-- A reader behind the size field reads a block that is whole. -/
theorem ReadsField.whole {w' : BodyWriter} {r r' : BodyReader} {payload enc pad rest : Bytes}
    (h : ReadsField c w' r r' payload enc pad ((enc ++ pad) ++ rest)) (hne : payload ≠ []) :
    ∃ r₂, r.read c = (.ok payload, r₂) ∧ Synced w' r₂ ∧ r₂.Filled ∧ r₂.ahead = rest := by
  obtain ⟨b, fill, hpay, hb, hfill⟩ := BodyReader.readPayload_ahead h.filled enc pad rest payload
    h.ahead h.opens
  exact ⟨_, (h.block hne).trans hpay, h.synced b fill, hfill, hb⟩

theorem BodyWriter.with_shake {w : BodyWriter} {s : Option ShakeStream} (h : w.shake = s) :
    { w with shake := s } = w := by
  subst h; rfl

theorem BodyReader.with_shake {r : BodyReader} {s : Option ShakeStream} (h : r.shake = s) :
    { r with shake := s } = r := by
  subst h; rfl

section Step

variable (hc : c.aead.Correct) {w : BodyWriter} (hw : w.Ready) {payload : Bytes}
  (hlen : payload.length ≤ maxChunk)
include hc hw hlen

/-- A chunk with a sealed size field. -/
theorem sealChunk_field_authlen (ha : w.authlen = true) :
    ∃ size enc pad w', w.sealChunk c token payload = .ok (size ++ (enc ++ pad), w') ∧ w'.Ready ∧
      w'.authlen = w.authlen ∧ size.length = w.fieldLen ∧ enc.length = payload.length + tag ∧
      ∀ r rest, Synced w r → r.Filled → r.ahead = size ++ rest →
        ∃ r', ReadsField c w' r r' payload enc pad rest := by
  obtain ⟨k, hk⟩ := Option.isSome_iff_exists.1 (hw.lenAead ha)
  have hpack := Bytes.packH_eq_some (n := payload.length) (by simp only [maxChunk] at hlen; omega)
  set len := [UInt8.ofNat (payload.length / 256), UInt8.ofNat payload.length]
  set encSize := c.aead.encrypt k w.lenNonce.next.1 len []
  set enc := c.aead.encrypt w.aead w.payloadNonce.next.1 payload []
  have hsize : encSize.length = 2 + tag := hc.length_encrypt _ _ _ _
  have henc : enc.length = payload.length + tag := hc.length_encrypt _ _ _ _
  -- a sealed size leaves no room for padding
  have hpad := hw.padding ha
  refine ⟨encSize, enc, [], { w with lenNonce := w.lenNonce.next.2,
                                     payloadNonce := w.payloadNonce.next.2 }, ?_, ?_, rfl, ?_,
    henc, ?_⟩
  · simp [BodyWriter.sealChunk, BodyWriter.paddingSize, BodyWriter.sizeField,
      BodyWriter.tokenBytes, hpad, ha, hk, hpack, bind, Except.bind, pure, Except.pure]
    rfl
  · exact ⟨hw.lenAead, hw.padding, hw.shake⟩
  · rw [BodyWriter.fieldLen, if_pos ha, hsize]
  · intro r rest hs hf hahead
    obtain ⟨b, fill, hneed, hb, hfill⟩ := BodyReader.need_ahead hf hahead
    have hdec : c.aead.decrypt k r.lenNonce.next.1 encSize [] = some len := by
      rw [hs.lenNonce]; exact hc.decrypt_encrypt _ _ _ _
    have hread : r.read c = r.readAuthlen c := by
      simp [BodyReader.read, hs.done, hs.authlen, ha]
    have hunpack := Bytes.unpackH_packH hpack
    refine ⟨{ r with lenAead := some k, lenNonce := r.lenNonce.next.2, buf := b, fill }, hfill, hb,
      fun hnil => ?_, fun hnil => ?_, ?_, fun _ _ => ?_⟩
    -- the payload block of the empty chunk is not read
    · rw [hread, BodyReader.readAuthlen, ← hsize, hneed]
      simp only [List.take_left, List.drop_left, hs.lenAead, hk, hdec, hunpack]
      rw [if_pos (by simp [hnil])]
    · have hpos := List.length_pos_of_ne_nil hnil
      rw [List.append_nil, henc, hread, BodyReader.readAuthlen, ← hsize, hneed]
      simp only [List.take_left, List.drop_left, hs.lenAead, hk, hdec, hunpack]
      rw [if_neg (by omega), if_neg (by omega)]
    · rw [show r.aead = w.aead from hs.aead, show r.payloadNonce = w.payloadNonce from
        hs.payloadNonce]
      exact hc.decrypt_encrypt _ _ _ _
    · refine ⟨hs.aead, hs.authlen, hs.padding, hk.symm, ?_, fun h => ?_, ?_, hs.done⟩
      · exact congrArg (fun n => n.next.2) hs.lenNonce
      · exact absurd (ha.symm.trans h) (by decide)
      · exact congrArg (fun n => n.next.2) hs.payloadNonce

omit hc hlen in
/-- Without sealed sizes both sides take the same padding length and mask from the SHAKE stream. -/
theorem shake_in_step (payload : Bytes) (ha : w.authlen = false) :
    ∃ n m s₁ s₂, n < 64 ∧ m < 65536 ∧ w.paddingSize c = .ok (n, { w with shake := s₁ }) ∧
      (∀ size, Bytes.packH ((payload.length + tag + n) ^^^ m) = some size →
        { w with shake := s₁ }.sizeField c payload n = .ok (size, { w with shake := s₂ })) ∧
      (w.padding = true → s₂.isSome = true) ∧
      ∀ r : BodyReader, r.padding = w.padding → r.shake = w.shake →
        r.paddingLen c = (n, { r with shake := s₁ }) ∧
        ∀ r' : BodyReader, r'.shake = s₁ → r'.nextMask c = (m, { r' with shake := s₂ }) := by
  cases hsh : w.shake with
  | none =>
    have hpad : w.padding = false := by
      by_contra h
      have := hw.shake (by simpa using h)
      simp [hsh] at this
    refine ⟨0, 0, none, none, by decide, by decide, ?_, fun size hsize => ?_, by simp [hpad], ?_⟩
    · rw [BodyWriter.with_shake hsh]
      simp [BodyWriter.paddingSize, hpad]
    · rw [Nat.xor_zero, Nat.add_zero] at hsize
      simp [BodyWriter.sizeField, ha, hsize]
    · intro r hp hr
      refine ⟨?_, fun r' hr' => ?_⟩
      · rw [BodyReader.with_shake hr]
        simp [BodyReader.paddingLen, hp, hpad]
      · rw [BodyReader.with_shake hr']
        simp [BodyReader.nextMask, hr']
  | some s =>
    -- the padding length is drawn first, the mask behind it
    set t := if w.padding then (s.nextPaddingLen c).2 else s with ht
    refine ⟨if w.padding then (s.nextPaddingLen c).1 else 0, (t.mask c).1, some t,
      some (t.mask c).2, ?_, Bytes.toNatBE_pair_lt _ _, ?_, fun size hsize => ?_, fun _ => rfl, ?_⟩
    · split_ifs
      · exact Nat.mod_lt _ (by decide)
      · decide
    · by_cases hp : w.padding = true
      · simp only [BodyWriter.paddingSize, hp, if_true, hsh, ht]
      · rw [BodyWriter.with_shake (by simp [ht, hp, hsh])]
        simp only [BodyWriter.paddingSize, hp, if_false, Bool.false_eq_true]
    · simp [BodyWriter.sizeField, ha, hsize]
    · intro r hp hr
      refine ⟨?_, fun r' hr' => by simp [BodyReader.nextMask, hr']⟩
      by_cases hpw : w.padding = true
      · simp only [BodyReader.paddingLen, hp, hpw, if_true, hr, ht]
      · rw [BodyReader.with_shake (by simp [ht, hpw, hr])]
        simp only [BodyReader.paddingLen, hp, hpw, if_false, Bool.false_eq_true]

/-- A chunk with a plain or masked size field. -/
theorem sealChunk_field_masked (ha : w.authlen = false) :
    ∃ size enc pad w', w.sealChunk c token payload = .ok (size ++ (enc ++ pad), w') ∧ w'.Ready ∧
      w'.authlen = w.authlen ∧ size.length = w.fieldLen ∧ enc.length = payload.length + tag ∧
      ∀ r rest, Synced w r → r.Filled → r.ahead = size ++ rest →
        ∃ r', ReadsField c w' r r' payload enc pad rest := by
  obtain ⟨n, m, s₁, s₂, hn, hm, hpadding, hsize, hsome, hreader⟩ :=
    shake_in_step (c := c) hw payload ha
  have hlt : (payload.length + tag + n) ^^^ m < 65536 := by
    refine Nat.xor_lt_two_pow (n := 16) ?_ hm
    simp only [maxChunk, tag] at *
    omega
  have hpack := Bytes.packH_eq_some hlt
  set size := [UInt8.ofNat (((payload.length + tag + n) ^^^ m) / 256),
    UInt8.ofNat ((payload.length + tag + n) ^^^ m)]
  set enc := c.aead.encrypt w.aead w.payloadNonce.next.1 payload []
  set pad := (List.range n).map fun i => token (w.drawn + i)
  have henc : enc.length = payload.length + tag := hc.length_encrypt _ _ _ _
  have hpad : pad.length = n := by simp [pad]
  refine ⟨size, enc, pad, { w with shake := s₂, payloadNonce := w.payloadNonce.next.2,
                                   drawn := w.drawn + n }, ?_, ?_, rfl, ?_, henc, ?_⟩
  · simp [BodyWriter.sealChunk, hpadding, hsize size hpack, BodyWriter.tokenBytes, bind,
      Except.bind, pure, Except.pure, enc, pad]
  · exact ⟨hw.lenAead, hw.padding, hsome⟩
  · simp [BodyWriter.fieldLen, ha, size]
  · intro r rest hs hf hahead
    obtain ⟨b, fill, hneed, hb, hfill⟩ := BodyReader.need_ahead hf hahead
    rw [show size.length = 2 from rfl] at hneed
    have htake : (size ++ b).take 2 = size := List.take_left' rfl
    have hdrop : (size ++ b).drop 2 = b := List.drop_left' rfl
    obtain ⟨hpl, hmask⟩ := hreader { r with buf := size ++ b, fill } hs.padding (hs.shake ha)
    have hmask' := hmask { r with buf := b, fill, shake := s₁ } rfl
    have hread : r.read c = r.readMasked c := by
      simp [BodyReader.read, hs.done, hs.authlen, ha]
    -- the reader takes the mask off with the same draw
    have hplain : Bytes.toNatBE size ^^^ m = payload.length + tag + n := by
      rw [Bytes.toNatBE_packH hpack, Nat.xor_assoc, Nat.xor_self, Nat.xor_zero]
    refine ⟨{ r with shake := s₂, buf := b, fill }, hfill, hb, fun hnil => ?_, fun hnil => ?_, ?_,
      fun _ _ => ?_⟩
    · rw [hread, BodyReader.readMasked, hneed]
      simp only [hpl, htake, hdrop, hmask', hplain]
      rw [if_pos (by simp [hnil])]
    · have hpos := List.length_pos_of_ne_nil hnil
      rw [List.length_append, henc, hpad, hread, BodyReader.readMasked, hneed]
      simp only [hpl, htake, hdrop, hmask', hplain, Nat.add_sub_cancel]
      rw [if_neg (by omega), if_neg (by simp only [maxChunk] at *; omega)]
    · rw [show r.aead = w.aead from hs.aead, show r.payloadNonce = w.payloadNonce from
        hs.payloadNonce]
      exact hc.decrypt_encrypt _ _ _ _
    · refine ⟨hs.aead, hs.authlen, hs.padding, hs.lenAead, hs.lenNonce, fun _ => rfl, ?_, hs.done⟩
      exact congrArg (fun n => n.next.2) hs.payloadNonce

/-- **The size field.**  A chunk can be sealed; a reader that is in step takes its size field for
what it is. -/
theorem sealChunk_field :
    ∃ size enc pad w', w.sealChunk c token payload = .ok (size ++ (enc ++ pad), w') ∧ w'.Ready ∧
      w'.authlen = w.authlen ∧ size.length = w.fieldLen ∧ enc.length = payload.length + tag ∧
      ∀ r rest, Synced w r → r.Filled → r.ahead = size ++ rest →
        ∃ r', ReadsField c w' r r' payload enc pad rest := by
  cases ha : w.authlen
  · rw [← ha]
    exact sealChunk_field_masked token hc hw hlen ha
  · rw [← ha]
    exact sealChunk_field_authlen token hc hw hlen ha

/-- **The step.**  A chunk can be sealed, and a reader that is in step reads it. -/
theorem sealChunk_read :
    ∃ out w', w.sealChunk c token payload = .ok (out, w') ∧ w'.Ready ∧
      ∀ r rest, Synced w r → r.Filled → r.ahead = out ++ rest → ReadsChunk c w' r payload rest := by
  obtain ⟨size, enc, pad, w', hseal, hw', -, -, -, hfield⟩ := sealChunk_field token hc hw hlen
  refine ⟨size ++ (enc ++ pad), w', hseal, hw', fun r rest hs hf hahead => ?_⟩
  rw [List.append_assoc] at hahead
  obtain ⟨r', hr'⟩ := hfield r _ hs hf hahead
  by_cases hnil : payload = []
  · rw [ReadsChunk, if_pos hnil, hr'.ended hnil]
    exact ⟨_, rfl, rfl⟩
  · rw [ReadsChunk, if_neg hnil]
    exact hr'.whole hnil

end Step

/-! ### Whole bodies -/

/-- Pieces of at most `MAX_CHUNK` bytes can be sealed one after the other. -/
theorem sealChunks_ready (hc : c.aead.Correct) (qs : List Bytes)
    (hqs : ∀ q ∈ qs, q.length ≤ maxChunk) {w : BodyWriter} (hw : w.Ready) :
    ∃ wire w', w.sealChunks c token qs = .ok (wire, w') ∧ w'.Ready := by
  induction qs generalizing w with
  | nil => exact ⟨[], w, rfl, hw⟩
  | cons q qs ih =>
    obtain ⟨hlen, hqs⟩ := List.forall_mem_cons.1 hqs
    obtain ⟨out, w₁, hseal, hw₁, -⟩ := sealChunk_read token hc hw hlen
    obtain ⟨wire, w', hrest, hw'⟩ := ih hqs hw₁
    exact ⟨out ++ wire, w', by
      simp [BodyWriter.sealChunks, hseal, hrest, bind, Except.bind, pure, Except.pure], hw'⟩

/-- A run of data chunks and the empty chunk behind them. -/
theorem reads_sealChunks (hc : c.aead.Correct) (qs : List Bytes)
    (hqs : ∀ q ∈ qs, q ≠ [] ∧ q.length ≤ maxChunk) {w : BodyWriter} (hw : w.Ready) :
    ∃ wire w', w.sealChunks c token (qs ++ [[]]) = .ok (wire, w') ∧ w'.Ready ∧
      ∀ r rest, Synced w r → r.Filled → r.ahead = wire ++ rest →
        ∀ k, r.reads c (qs.length + k) = qs.map .ok ++ List.replicate k (.ok []) := by
  induction qs generalizing w with
  | nil =>
    obtain ⟨out, w', hseal, hw', hread⟩ := sealChunk_read token hc hw
      (show ([] : Bytes).length ≤ maxChunk from Nat.zero_le _)
    refine ⟨out, w', by simp [BodyWriter.sealChunks, hseal, bind, Except.bind, pure, Except.pure],
      hw', fun r rest hs hf ha k => ?_⟩
    obtain ⟨r', hr', hdone⟩ := hread r rest hs hf ha
    cases k with
    | zero => rfl
    | succ k =>
      rw [List.length_nil, Nat.zero_add, BodyReader.reads, hr', BodyReader.reads_of_done hdone]
      rfl
  | cons q qs ih =>
    obtain ⟨⟨hq, hlen⟩, hqs⟩ := List.forall_mem_cons.1 hqs
    obtain ⟨out, w₁, hseal, hw₁, hread⟩ := sealChunk_read token hc hw hlen
    obtain ⟨wire, w', hrest, hw', hreads⟩ := ih hqs hw₁
    refine ⟨out ++ wire, w', by
      rw [List.cons_append, BodyWriter.sealChunks, hseal]
      simp [hrest, bind, Except.bind, pure, Except.pure], hw', fun r rest hs hf ha k => ?_⟩
    rw [List.append_assoc] at ha
    have := hread r (wire ++ rest) hs hf ha
    rw [ReadsChunk, if_neg hq] at this
    obtain ⟨r', hr', hs', hf', ha'⟩ := this
    rw [List.length_cons, show qs.length + 1 + k = (qs.length + k) + 1 by omega,
      BodyReader.reads, hr', hreads r' rest hs' hf' ha']
    rfl

/-! ### Payloads and pieces -/

/-- The pieces a payload is sealed in. -/
def pieces (payload : Bytes) : List Bytes :=
  if payload.length ≤ maxChunk then [payload] else BodyWriter.slices payload

theorem slices_spec (payload : Bytes) :
    (BodyWriter.slices payload).flatten = payload ∧
      ∀ q ∈ BodyWriter.slices payload, q ≠ [] ∧ q.length ≤ maxChunk := by
  induction hn : payload.length using Nat.strongRecOn generalizing payload with
  | _ n ih =>
    rw [BodyWriter.slices]
    by_cases hp : payload = []
    · simp [hp]
    · have hpos := List.length_pos_of_ne_nil hp
      have hmax : 0 < maxChunk := by decide
      obtain ⟨hflat, hall⟩ := ih (payload.drop maxChunk).length
        (by rw [List.length_drop]; omega) _ rfl
      rw [if_neg hp, List.flatten_cons, hflat, List.take_append_drop]
      refine ⟨rfl, List.forall_mem_cons.2 ⟨⟨?_, List.length_take_le _ _⟩, hall⟩⟩
      rw [← List.length_pos_iff, List.length_take]
      omega

theorem pieces_spec {payload : Bytes} (hp : payload ≠ []) :
    (pieces payload).flatten = payload ∧
      ∀ q ∈ pieces payload, q ≠ [] ∧ q.length ≤ maxChunk := by
  rw [pieces]
  split_ifs with h
  · simp [hp, h]
  · exact slices_spec payload

namespace BodyWriter

theorem sealChunks_append (w : BodyWriter) (as bs : List Bytes) :
    w.sealChunks c token (as ++ bs) = (do
      let (out, w) ← w.sealChunks c token as
      let (rest, w) ← w.sealChunks c token bs
      return (out ++ rest, w)) := by
  induction as generalizing w with
  | nil =>
    simp only [List.nil_append, sealChunks, bind, Except.bind, pure, Except.pure]
    cases w.sealChunks c token bs <;> rfl
  | cons a as ih =>
    simp only [List.cons_append, sealChunks, ih, bind, Except.bind, pure, Except.pure]
    cases w.sealChunk c token a with
    | error e => rfl
    | ok res =>
      simp only
      cases res.2.sealChunks c token as with
      | error e => rfl
      | ok res' =>
        simp only
        cases res'.2.sealChunks c token bs with
        | error e => rfl
        | ok res'' => simp

theorem writeChunk_eq (w : BodyWriter) (payload : Bytes) :
    w.writeChunk c token payload = w.sealChunks c token (pieces payload) := by
  rw [writeChunk, pieces]
  split_ifs
  · simp only [sealChunks, bind, Except.bind, pure, Except.pure]
    cases w.sealChunk c token payload <;> simp
  · rfl

/-- A body is written as the pieces of its payloads and an empty chunk. -/
theorem writeBody_eq (w : BodyWriter) (ps : List Bytes) :
    w.writeBody c token ps = w.sealChunks c token (ps.flatMap pieces ++ [[]]) := by
  induction ps generalizing w with
  | nil =>
    simp only [writeBody, writeEof, List.flatMap_nil, List.nil_append, sealChunks, bind,
      Except.bind, pure, Except.pure]
    cases w.sealChunk c token [] <;> simp
  | cons p ps ih =>
    rw [writeBody, List.flatMap_cons, List.append_assoc, sealChunks_append, writeChunk_eq]
    simp only [ih]

end BodyWriter

/-! ### The round trip -/

/-- Both ends accept security 3 and 4, and start in step; the writer is ready unless the option byte
pads what is neither masked nor sealed. -/
theorem init_synced (bodyKey bodyIv : Bytes) {security : ℕ} (option : ℕ)
    (hsec : security = secAes128Gcm ∨ security = secChacha20Poly1305) :
    ∃ w, BodyWriter.init c bodyKey bodyIv security option = .ok w ∧
      ((hasOption option optGlobalPadding = true →
        hasOption option optChunkMasking = true ∨ hasOption option optAuthLength = true) →
          w.Ready) ∧
      ∀ fill, ∃ r, BodyReader.init c bodyKey bodyIv security option fill = .ok r ∧ Synced w r ∧
        r.buf = [] ∧ r.fill = fill := by
  obtain ⟨k, hk⟩ : ∃ k : Bytes → AeadKey, ∀ key, makeBodyAead c key security = .ok (k key) := by
    rcases hsec with rfl | rfl
    · exact ⟨_, fun _ => rfl⟩
    · exact ⟨_, fun _ => rfl⟩
  cases ha : hasOption option optAuthLength
  · refine ⟨_, by simp [BodyWriter.init, hk, ha, bind, Except.bind, pure, Except.pure]; rfl,
      fun hopt => ⟨by simp, by simp, fun hp => ?_⟩, fun fill => ⟨_, by
        simp [BodyReader.init, hk, ha, bind, Except.bind, pure, Except.pure]; rfl,
        ⟨rfl, rfl, rfl, rfl, rfl, fun _ => rfl, rfl, rfl⟩, rfl, rfl⟩⟩
    have := hopt (by simpa using hp)
    simp at this
    simp [this]
  · exact ⟨_, by
      simp [BodyWriter.init, hk, ha, bind, Except.bind, pure, Except.pure, Functor.map, Except.map]
      rfl, fun _ => ⟨by simp, by simp, by simp⟩, fun fill => ⟨_, by
        simp [BodyReader.init, hk, ha, bind, Except.bind, pure, Except.pure, Functor.map,
          Except.map]
        rfl, ⟨rfl, rfl, rfl, rfl, rfl, fun h => absurd h (by simp), rfl, rfl⟩, rfl, rfl⟩⟩

/-- **The body round trip.**  For every option byte that pads only what is masked or sealed, a
writer does not raise, and a reader returns the payloads in pieces and then `b""` for ever, however
`fill` cuts the wire. -/
theorem body_round_trip (c : Crypto) (hc : c.aead.Correct) (token : ℕ → UInt8)
    (bodyKey bodyIv : Bytes) (security option : ℕ)
    (hsec : security = secAes128Gcm ∨ security = secChacha20Poly1305)
    (hopt : hasOption option optGlobalPadding = true →
      hasOption option optChunkMasking = true ∨ hasOption option optAuthLength = true)
    (ps : List Bytes) (hps : ∀ p ∈ ps, p ≠ []) :
    ∃ (w : BodyWriter) (wire : Bytes) (w' : BodyWriter) (pieces : List Bytes),
      BodyWriter.init c bodyKey bodyIv security option = .ok w ∧
      w.writeBody c token ps = .ok (wire, w') ∧
      (∀ q ∈ pieces, q ≠ []) ∧ pieces.flatten = ps.flatten ∧
      ∀ fill : List Bytes, (∀ p ∈ fill, p ≠ []) → fill.flatten = wire →
        ∃ r, BodyReader.init c bodyKey bodyIv security option fill = .ok r ∧
          ∀ k, r.reads c (pieces.length + k) = pieces.map .ok ++ List.replicate k (.ok []) := by
  obtain ⟨w, hw, hready, hreader⟩ := init_synced (c := c) bodyKey bodyIv option hsec
  have hqs : ∀ q ∈ ps.flatMap pieces, q ≠ [] ∧ q.length ≤ maxChunk := by
    intro q hq
    obtain ⟨p, hp, hq⟩ := List.mem_flatMap.1 hq
    exact (pieces_spec (hps p hp)).2 q hq
  have hflat : (ps.flatMap pieces).flatten = ps.flatten := by
    clear hqs
    induction ps with
    | nil => rfl
    | cons p ps ih =>
      obtain ⟨hp, hps⟩ := List.forall_mem_cons.1 hps
      rw [List.flatMap_cons, List.flatten_append, (pieces_spec hp).1, ih hps, List.flatten_cons]
  obtain ⟨wire, w', hwire, -, hreads⟩ :=
    reads_sealChunks token hc (ps.flatMap pieces) hqs (hready hopt)
  refine ⟨w, wire, w', ps.flatMap pieces, hw, by rw [BodyWriter.writeBody_eq, hwire],
    fun q hq => (hqs q hq).1, hflat, fun fill hfill hcut => ?_⟩
  obtain ⟨r, hr, hs, hbuf, hrfill⟩ := hreader fill
  exact ⟨r, hr, hreads r [] hs (by rw [BodyReader.Filled, hrfill]; exact hfill)
    (by rw [BodyReader.ahead, hbuf, hrfill, List.nil_append, hcut, List.append_nil])⟩

/-- The key of the bodies below. -/
def sampleKey : Bytes := List.replicate 16 6

/-- Their IV. -/
def sampleIv : Bytes := List.replicate 16 5

/-- Two payloads, masked and padded. -/
theorem body_round_trip_masked : Crypto.transparent.aead.Correct ∧
    ∃ (w : BodyWriter) (wire : Bytes) (w' : BodyWriter) (pieces : List Bytes),
      BodyWriter.init Crypto.transparent sampleKey sampleIv 3 0x0D = .ok w ∧
      w.writeBody Crypto.transparent (fun _ => 0) [[1, 2], [3]] = .ok (wire, w') ∧
      (∀ q ∈ pieces, q ≠ []) ∧ pieces.flatten = ([[1, 2], [3]] : List Bytes).flatten ∧
      ∀ fill : List Bytes, (∀ p ∈ fill, p ≠ []) → fill.flatten = wire →
        ∃ r, BodyReader.init Crypto.transparent sampleKey sampleIv 3 0x0D fill = .ok r ∧
          ∀ k, r.reads Crypto.transparent (pieces.length + k) =
            pieces.map .ok ++ List.replicate k (.ok []) :=
  ⟨Crypto.transparent_correct, body_round_trip Crypto.transparent Crypto.transparent_correct
    (fun _ => 0) sampleKey sampleIv 3 0x0D (.inl rfl) (fun _ => .inl (by decide)) [[1, 2], [3]]
    (by decide)⟩

end Vmess

end RvgGateway
