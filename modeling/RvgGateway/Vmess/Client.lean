import RvgGateway.Vmess.CommandHeader
import RvgGateway.Vmess.Response
import RvgGateway.Vmess.WsStream

/-!
# A VMess client and the server

The other end of the protocol: `create_auth_id` of `protocol/vmess/vmess.py`, the sealing of the
request header and the opening of the response header by the client of
`tests/test_vmess_codec.py`, and `response_header_bytes`.  On the side of the server,
`decode_request` reads a WebSocket connection through the adapter of
`protocol/vmess/websocket.py`, with an `expected_uuid`, as `handle_vmess_stream` calls it.

* `readExact_pending` : the adapter returns the next bytes of the connection, however they are cut
  into messages.
* `decodeAuthId_create`, `openHeader_seal` : the two parts of a request are opened by the server.
* `decodeRequestOn_eq` : `decode_request` on the adapter is `decode_request` on the bytes of the
  connection.
* `request_roundTrip` : **the server accepts what a client sends, and reads the client's payloads,
  however the connection is cut into messages.**
* `response_roundTrip` : **the client accepts the server's response, and reads the server's
  payloads.**
-/

namespace RvgGateway

namespace Vmess

variable (c : Crypto)

/-! ### Requests -/

/-- `struct.pack(">q", t)`: refused when the time does not fit in eight bytes. -/
def packQ (t : ℤ) : Option Bytes :=
  if -2 ^ 63 ≤ t ∧ t < 2 ^ 63 then some (Bytes.ofNatBE 8 (t % 2 ^ 64).toNat) else none

/-- `create_auth_id`; `rand` are the random bytes, and `aes` encrypts a block. -/
def createAuthId (aes : Bytes → Bytes → Bytes) (cmdKey : Bytes) (t : ℤ) (rand : Bytes) :
    Option Bytes :=
  (packQ t).map fun time =>
    let pt := time ++ rand
    aes (kdf16 c cmdKey [Bytes.ascii "AES Auth ID Encryption"])
      (pt ++ Bytes.ofNatBE 4 (crc32 pt).toNat)

/-- The sealed header of `build_request`: the length, the nonce and the header. -/
def sealHeader (cmdKey authId nonce hdr : Bytes) : Option Bytes :=
  (Bytes.packH hdr.length).map fun len =>
    let lenKey := kdf16 c cmdKey [Bytes.ascii "VMess Header AEAD Key_Length", authId, nonce]
    let lenIv := (kdf c cmdKey [Bytes.ascii "VMess Header AEAD Nonce_Length", authId, nonce]).take
      gcmNonceSize
    let payloadKey := kdf16 c cmdKey [Bytes.ascii "VMess Header AEAD Key", authId, nonce]
    let payloadIv := (kdf c cmdKey [Bytes.ascii "VMess Header AEAD Nonce", authId, nonce]).take
      gcmNonceSize
    c.aead.encrypt ⟨.AESGCM, lenKey⟩ lenIv len authId ++ nonce ++
      c.aead.encrypt ⟨.AESGCM, payloadKey⟩ payloadIv hdr authId

/-- A request as a client builds it: its user, the time on its clock, what it draws at random, and
the command header. -/
structure ClientRequest where
  uuid : String
  time : ℤ
  rand : Bytes
  nonce : Bytes
  header : CommandHeader
  uuid_ne : uuid ≠ ""
  rand_length : rand.length = 4
  nonce_length : nonce.length = 8

/-- `build_request`. -/
def buildRequest (aes : Bytes → Bytes → Bytes) (req : ClientRequest) : Option Bytes := do
  let ck ← cmdKeyFor c req.uuid
  let authId ← createAuthId c aes ck req.time req.rand
  let sealed ← sealHeader c ck authId req.nonce req.header.encode
  return authId ++ sealed

/-! ### Responses -/

/-- `response_header_bytes`. -/
def responseHeaderBytes (request : VMessRequest) : Option Bytes :=
  let (respKey, respIv) := responseKeys c request
  let pt : Bytes := [UInt8.ofNat request.responseToken, 0x00, 0x00, 0x00]
  (Bytes.packH pt.length).map fun len =>
    c.aead.encrypt ⟨.AESGCM, kdf16 c respKey [Bytes.ascii "AEAD Resp Header Len Key"]⟩
        ((kdf c respIv [Bytes.ascii "AEAD Resp Header Len IV"]).take gcmNonceSize) len [] ++
      c.aead.encrypt ⟨.AESGCM, kdf16 c respKey [Bytes.ascii "AEAD Resp Header Key"]⟩
        ((kdf c respIv [Bytes.ascii "AEAD Resp Header IV"]).take gcmNonceSize) pt []

/-- `decode_response` of a client that sent `request`: the token of the response header and what is
behind it. -/
def decodeResponse (request : VMessRequest) (wire : Bytes) : Option (UInt8 × Bytes) := do
  let encLen := wire.take 18
  let rest := wire.drop 18
  let (respKey, respIv) := responseKeys c request
  let len ← c.aead.decrypt ⟨.AESGCM, kdf16 c respKey [Bytes.ascii "AEAD Resp Header Len Key"]⟩
    ((kdf c respIv [Bytes.ascii "AEAD Resp Header Len IV"]).take gcmNonceSize) encLen []
  let ln ← Bytes.unpackH len
  let payload := rest.take (ln + tag)
  let rest := rest.drop (ln + tag)
  let pt ← c.aead.decrypt ⟨.AESGCM, kdf16 c respKey [Bytes.ascii "AEAD Resp Header Key"]⟩
    ((kdf c respIv [Bytes.ascii "AEAD Resp Header IV"]).take gcmNonceSize) payload []
  let token ← pt.head?
  return (token, rest)

/-! ### Reading from the adapter -/

namespace WsStream

/-- No message on its way is empty. -/
def Filled (s : WsStream) : Prop := ∀ m ∈ s.messages, m.data ≠ []

/-- While bytes are missing that are on their way, another message arrives. -/
theorem more_of_pending {s : WsStream} (hf : s.Filled) (h : s.buf.length < s.pending.length) :
    ∃ s', s.more = (.ok true, s') ∧ s'.pending = s.pending ∧ s'.Filled := by
  obtain ⟨buf, messages, closed⟩ := s
  cases messages with
  | nil => simp [pending] at h
  | cons m messages =>
    have hm : m.data ≠ [] := hf m List.mem_cons_self
    refine ⟨⟨buf ++ m.data, messages, closed⟩, by simp [more, hm], by simp [pending], ?_⟩
    exact fun m' hm' => hf m' (List.mem_cons_of_mem _ hm')

/-- Bytes that are there are returned, and what follows them stays. -/
theorem readExact_pending {n : ℕ} {a rest : Bytes} {s : WsStream} (hf : s.Filled)
    (hp : s.pending = a ++ rest) (hn : a.length = n) :
    ∃ s', s.readExact n = (.ok a, s') ∧ s'.pending = rest ∧ s'.Filled := by
  have hmissing : ∀ s : WsStream, s.pending = a ++ rest → ¬ n ≤ s.buf.length →
      s.buf.length < s.pending.length := by
    intro s hp hle
    rw [hp, List.length_append]
    omega
  induction s using readExact.induct n with
  | case1 s hle =>
    have htake : s.buf.take n = a := by
      have h := congrArg (List.take n) hp
      rwa [pending, List.take_append_of_le_length hle, List.take_append_of_le_length hn.ge,
        List.take_of_length_le hn.le] at h
    have hdrop : s.buf.drop n ++ (s.messages.map WsMessage.data).flatten = rest := by
      have h := congrArg (List.drop n) hp
      rwa [pending, List.drop_append_of_le_length hle, List.drop_append_of_le_length hn.ge,
        List.drop_of_length_le hn.le, List.nil_append] at h
    refine ⟨{ s with buf := s.buf.drop n }, ?_, hdrop, hf⟩
    rw [readExact, if_pos hle, htake]
  | case2 s hle e s' hmore =>
    obtain ⟨t, ht, -⟩ := more_of_pending hf (hmissing s hp hle)
    cases hmore.symm.trans ht
  | case3 s hle s' hmore =>
    obtain ⟨t, ht, -⟩ := more_of_pending hf (hmissing s hp hle)
    cases hmore.symm.trans ht
  | case4 s hle s' hmore ih =>
    obtain ⟨t, ht, hpending, hfilled⟩ := more_of_pending hf (hmissing s hp hle)
    cases hmore.symm.trans ht
    rw [readExact, if_neg hle, hmore]
    exact ih hfilled (hpending.trans hp)

/-- Bytes that do not come raise. -/
theorem readExact_short {n : ℕ} {s : WsStream} (h : s.pending.length < n) :
    ∃ e s', s.readExact n = (.error e, s') := by
  induction s using readExact.induct n with
  | case1 s hle =>
    rw [pending, List.length_append] at h
    omega
  | case2 s hle e s' hmore => exact ⟨e, s', by rw [readExact, if_neg hle, hmore]⟩
  | case3 s hle s' hmore =>
    exact ⟨.transportClosed, s', by rw [readExact, if_neg hle, hmore]⟩
  | case4 s hle s' hmore ih =>
    have hspec := (more_spec s).1
    rw [hmore] at hspec
    rw [readExact, if_neg hle, hmore]
    exact ih (hspec ▸ h)

/-- What `fill` returns until the disconnect is what is pending. -/
theorem flatten_fills (s : WsStream) : s.fills.flatten = s.pending := by
  rw [fills, List.flatten_append, pending]
  by_cases hb : s.buf = []
  · rw [if_pos hb, hb]
    rfl
  · rw [if_neg hb]
    simp

theorem fills_ne_nil {s : WsStream} (hf : s.Filled) : ∀ p ∈ s.fills, p ≠ [] := by
  intro p hp
  rcases List.mem_append.1 hp with hp | hp
  · split_ifs at hp with hb
    · cases hp
    · rw [List.mem_singleton.1 hp]
      exact hb
  · obtain ⟨m, hm, rfl⟩ := List.mem_map.1 hp
    exact hf m hm

end WsStream

/-- A decoder that reads from an adapter. -/
abbrev Decode := ExceptT Exc (StateM WsStream)

/-- What a decoder returns, and the adapter behind it. -/
def Decode.runOn {α : Type} (x : Decode α) (s : WsStream) : Except Exc α × WsStream :=
  StateT.run (ExceptT.run x) s

/-- `read_exact` of the adapter; its exceptions mean that the transport ended. -/
def readOn (n : ℕ) : Decode Bytes :=
  ExceptT.mk fun s =>
    match s.readExact n with
    | (.ok b, s) => (.ok b, s)
    | (.error _, s) => (.error .transportClosed, s)

/-- An exception of a part of the decoder that does not read. -/
def ofResult {α : Type} (x : Except Exc α) : Decode α := ExceptT.mk fun s => (x, s)

/-- The body of the `try` in `open_aead_header`. -/
def openHeaderBodyOn (cmdKey authId : Bytes) : Decode Bytes := do
  let encLen ← readOn 18
  let nonce ← readOn 8
  let lenKey := kdf16 c cmdKey [Bytes.ascii "VMess Header AEAD Key_Length", authId, nonce]
  let lenIv := (kdf c cmdKey [Bytes.ascii "VMess Header AEAD Nonce_Length", authId, nonce]).take
    gcmNonceSize
  match c.aead.decrypt ⟨.AESGCM, lenKey⟩ lenIv encLen authId with
  | none => ofResult (.error .invalidTag)
  | some len =>
    match Bytes.unpackH len with
    | none => ofResult (.error .structError)
    | some ptLen =>
      let encPayload ← readOn (ptLen + tag)
      let payloadKey := kdf16 c cmdKey [Bytes.ascii "VMess Header AEAD Key", authId, nonce]
      let payloadIv := (kdf c cmdKey [Bytes.ascii "VMess Header AEAD Nonce", authId, nonce]).take
        gcmNonceSize
      match c.aead.decrypt ⟨.AESGCM, payloadKey⟩ payloadIv encPayload authId with
      | none => ofResult (.error .invalidTag)
      | some payload => ofResult (.ok payload)

/-- `open_aead_header`: every exception becomes a `VMessAuthError`. -/
def openHeaderOn (cmdKey authId : Bytes) : Decode Bytes :=
  ExceptT.mk fun s =>
    match (openHeaderBodyOn c cmdKey authId).runOn s with
    | (.ok payload, s) => (.ok payload, s)
    | (.error _, s) => (.error (.vmessAuthError "AEAD header open failed"), s)

/-- `decode_request` with an `expected_uuid` that is not empty. -/
def decodeRequestOn (uuid : String) : Decode (VMessRequest × BodyReader) := do
  let authId ← readOn 16
  match cmdKeyFor c uuid with
  | none => ofResult (.error .valueError)
  | some ck =>
    match decodeAuthId c ck authId with
    | none => ofResult (.error (.vmessAuthError "unknown user or expired auth id"))
    | some _ =>
      let payload ← openHeaderOn c ck authId
      let r ← ofResult (parseCommandHeader payload)
      let r := { r with uuid }
      ofResult (checkCommand r)
      let stream ← getThe WsStream
      let reader ← ofResult (BodyReader.init c r.bodyKey r.bodyIv r.security r.option stream.fills)
      return (r, reader)

variable {c}

/-! ### One step of a decoder -/

section Steps

variable {α β : Type} {s s' : WsStream}

@[simp] theorem runOn_ofResult (x : Except Exc α) : (ofResult x).runOn s = (x, s) := rfl

@[simp] theorem runOn_pure (a : α) : (pure a : Decode α).runOn s = (.ok a, s) := rfl

@[simp] theorem runOn_get : (getThe WsStream : Decode WsStream).runOn s = (.ok s, s) := rfl

/-- What returns is followed by the rest of the decoder. -/
theorem runOn_bind {x : Decode α} {f : α → Decode β} {a : α} (h : x.runOn s = (.ok a, s')) :
    (x >>= f).runOn s = (f a).runOn s' := by
  unfold Decode.runOn at h ⊢
  rw [ExceptT.run_bind, StateT.run_bind, h]
  rfl

/-- What raises is not followed by the rest of the decoder. -/
theorem runOn_bind_error {x : Decode α} {f : α → Decode β} {e : Exc}
    (h : x.runOn s = (.error e, s')) : (x >>= f).runOn s = (.error e, s') := by
  unfold Decode.runOn at h ⊢
  rw [ExceptT.run_bind, StateT.run_bind, h]
  rfl

/-- Bytes that are there are read. -/
theorem runOn_readOn {n : ℕ} {a rest : Bytes} (hf : s.Filled) (hp : s.pending = a ++ rest)
    (hn : a.length = n) :
    ∃ s', (readOn n).runOn s = (.ok a, s') ∧ s'.pending = rest ∧ s'.Filled := by
  obtain ⟨s', hread, hpending, hfilled⟩ := WsStream.readExact_pending hf hp hn
  refine ⟨s', ?_, hpending, hfilled⟩
  change (match s.readExact n with
    | (Except.ok b, s) => (Except.ok b, s)
    | (Except.error _, s) => (Except.error Exc.transportClosed, s)) = _
  rw [hread]

theorem runOn_readOn_short {n : ℕ} (h : s.pending.length < n) :
    ∃ s', (readOn n).runOn s = (.error .transportClosed, s') := by
  obtain ⟨e, s', hread⟩ := WsStream.readExact_short h
  refine ⟨s', ?_⟩
  unfold Decode.runOn readOn
  simp only [ExceptT.run, ExceptT.mk, StateT.run, hread]

/-- What comes out of `open_aead_header` behind its `try`. -/
theorem runOn_openHeaderOn {cmdKey authId : Bytes} :
    (openHeaderOn c cmdKey authId).runOn s =
      match (openHeaderBodyOn c cmdKey authId).runOn s with
      | (.ok payload, s) => (.ok payload, s)
      | (.error _, s) => (.error (.vmessAuthError "AEAD header open failed"), s) := rfl

end Steps

/-! ### The adapter and the bytes that it reads -/

section Agreement

variable {α β : Type}

/-- The decoder reads from the adapter what `f` reads from the pending bytes. -/
def Decode.ReadsAs (x : Decode α) (f : Bytes → Except Exc (α × Bytes)) : Prop :=
  ∀ s : WsStream, s.Filled →
    match f s.pending with
    | .ok (a, rest) => ∃ s', x.runOn s = (.ok a, s') ∧ s'.pending = rest ∧ s'.Filled
    | .error e => ∃ s', x.runOn s = (.error e, s')

theorem readsAs_readOn (n : ℕ) : (readOn n).ReadsAs (readExact n) := by
  intro s hf
  by_cases hn : n ≤ s.pending.length
  · rw [readExact, if_pos hn]
    exact runOn_readOn hf (List.take_append_drop n s.pending).symm (List.length_take_of_le hn)
  · rw [readExact, if_neg hn]
    exact runOn_readOn_short (not_le.1 hn)

theorem readsAs_ofResult (x : Except Exc α) :
    (ofResult x).ReadsAs fun wire => x.map fun a => (a, wire) := by
  intro s hf
  cases x with
  | ok a => exact ⟨s, rfl, rfl, hf⟩
  | error e => exact ⟨s, rfl⟩

theorem Decode.ReadsAs.bind {x : Decode α} {f : Bytes → Except Exc (α × Bytes)} {y : α → Decode β}
    {g : α × Bytes → Except Exc (β × Bytes)} (hx : x.ReadsAs f)
    (hy : ∀ a, (y a).ReadsAs fun wire => g (a, wire)) :
    (x >>= y).ReadsAs fun wire => f wire >>= g := by
  intro s hf
  have h := hx s hf
  dsimp only
  cases hres : f s.pending with
  | error e =>
    rw [hres] at h
    obtain ⟨s', herror⟩ := h
    exact ⟨s', runOn_bind_error herror⟩
  | ok res =>
    rw [hres] at h
    obtain ⟨s', hrun, hpending, hfilled⟩ := h
    have hrest := hy res.1 s' hfilled
    rw [hpending] at hrest
    rw [runOn_bind hrun]
    exact hrest

/-- `open_aead_header` on an adapter. -/
theorem openHeaderBodyOn_readsAs (cmdKey authId : Bytes) :
    (openHeaderBodyOn c cmdKey authId).ReadsAs (openAeadHeaderBody c cmdKey authId) := by
  unfold openHeaderBodyOn openAeadHeaderBody
  refine (readsAs_readOn 18).bind fun encLen => (readsAs_readOn 8).bind fun nonce => ?_
  dsimp only
  cases c.aead.decrypt _ _ encLen authId with
  | none => exact readsAs_ofResult (.error .invalidTag)
  | some len =>
    dsimp only
    cases Bytes.unpackH len with
    | none => exact readsAs_ofResult (.error .structError)
    | some ptLen =>
      refine (readsAs_readOn (ptLen + tag)).bind fun encPayload => ?_
      dsimp only
      cases c.aead.decrypt _ _ encPayload authId with
      | none => exact readsAs_ofResult (.error .invalidTag)
      | some payload => exact readsAs_ofResult (.ok payload)

theorem openHeaderOn_readsAs (cmdKey authId : Bytes) :
    (openHeaderOn c cmdKey authId).ReadsAs (openAeadHeader c cmdKey authId) := by
  intro s hf
  have hbody := openHeaderBodyOn_readsAs (c := c) cmdKey authId s hf
  rw [openAeadHeader, runOn_openHeaderOn]
  cases hres : openAeadHeaderBody c cmdKey authId s.pending with
  | error e =>
    rw [hres] at hbody
    obtain ⟨s', hrun⟩ := hbody
    exact ⟨s', by rw [hrun]⟩
  | ok res =>
    rw [hres] at hbody
    obtain ⟨s', hrun, hpending, hfilled⟩ := hbody
    exact ⟨s', by rw [hrun], hpending, hfilled⟩

/-- **`decode_request` on an adapter** does what it does on the pending bytes; the body is read from
what the adapter has left. -/
theorem decodeRequestOn_eq {uuid : String} (huuid : uuid ≠ "") (v : AuthIDValidator c) (now : ℤ)
    {s : WsStream} (hf : s.Filled) :
    ∃ s', (decodeRequestOn c uuid).runOn s =
      ((decodeRequest v ⟨s.pending, s'.fills, some uuid, now⟩).1, s') := by
  have hexpected : ∀ fill, Call.expected ⟨s.pending, fill, some uuid, now⟩ = some uuid := fun fill =>
    by rw [Call.expected, Option.filter_some, if_pos (by simpa using huuid)]
  have hid := readsAs_readOn 16 s hf
  unfold decodeRequestOn
  cases hread : readExact 16 s.pending with
  | error e =>
    rw [hread] at hid
    obtain ⟨s', hrun⟩ := hid
    exact ⟨s', by simp only [runOn_bind_error hrun, decodeRequest, hread]⟩
  | ok res =>
    obtain ⟨authId, rest⟩ := res
    rw [hread] at hid
    obtain ⟨s₁, hrun, rfl, hf₁⟩ := hid
    simp only [runOn_bind hrun, decodeRequest, hread, hexpected]
    cases hck : cmdKeyFor c uuid with
    | none => exact ⟨s₁, rfl⟩
    | some ck =>
      dsimp only
      cases decodeAuthId c ck authId with
      | none => exact ⟨s₁, rfl⟩
      | some t =>
        simp only [openRequest, hck]
        have hopen := openHeaderOn_readsAs (c := c) ck authId s₁ hf₁
        cases hheader : openAeadHeader c ck authId s₁.pending with
        | error e =>
          rw [hheader] at hopen
          obtain ⟨s', hrun⟩ := hopen
          exact ⟨s', runOn_bind_error hrun⟩
        | ok res =>
          rw [hheader] at hopen
          obtain ⟨s₂, hrun, -⟩ := hopen
          refine ⟨s₂, (runOn_bind hrun).trans ?_⟩
          -- the rest reads nothing
          change _ = (parseCommandHeader res.1 >>= fun r => checkCommand { r with uuid } >>= fun _ =>
            BodyReader.init c r.bodyKey r.bodyIv r.security r.option s₂.fills >>= fun reader =>
              Except.ok ({ r with uuid }, reader), s₂)
          cases parseCommandHeader res.1 with
          | error e => rfl
          | ok r =>
            change _ = (checkCommand { r with uuid } >>= fun _ =>
              BodyReader.init c r.bodyKey r.bodyIv r.security r.option s₂.fills >>= fun reader =>
                Except.ok ({ r with uuid }, reader), s₂)
            rw [runOn_bind (runOn_ofResult (.ok r))]
            cases checkCommand { r with uuid } with
            | error e => rfl
            | ok _ =>
              rw [runOn_bind (runOn_ofResult (.ok ())), runOn_bind runOn_get]
              cases BodyReader.init c r.bodyKey r.bodyIv r.security r.option s₂.fills with
              | error e => rfl
              | ok reader => rfl

end Agreement

/-! ### The two parts of a request -/

theorem length_sumAux (links : List Pads) (b : BaseHMAC) :
    (Chain.sumAux c links b).1.length = 32 := by
  induction links generalizing b with
  | nil => exact c.length_sha256 _
  | cons l links ih => exact ih _

@[simp] theorem length_kdf (key : Bytes) (salts : List Bytes) : (kdf c key salts).length = 32 :=
  length_sumAux _ _

@[simp] theorem length_kdf16 (key : Bytes) (salts : List Bytes) :
    (kdf16 c key salts).length = 16 := by
  simp [kdf16]

variable (c) in
/-- The block cipher of the client: what it encrypts under a key of sixteen bytes is one block, and
`_aes_ecb_decrypt_block` of the server inverts it. -/
structure BlockCipher (aes : Bytes → Bytes → Bytes) : Prop where
  length_eq : ∀ k b, k.length = 16 → b.length = 16 → (aes k b).length = 16
  decrypt_encrypt : ∀ k b, k.length = 16 → b.length = 16 → c.aesDecryptBlock k (aes k b) = some b

/-- Eight bytes hold a time that fits. -/
theorem unpackQ_packQ {t : ℤ} {b : Bytes} (h : packQ t = some b) :
    b.length = 8 ∧ unpackQ b = t := by
  unfold packQ at h
  split_ifs at h with ht
  cases h
  refine ⟨Bytes.length_ofNatBE _ _, ?_⟩
  have hn : (t % 2 ^ 64).toNat < 256 ^ 8 := by omega
  rw [unpackQ, Bytes.toNatBE_ofNatBE, Nat.mod_eq_of_lt hn]
  split_ifs with hsign <;> omega

theorem crc32_lt (b : Bytes) : (crc32 b).toNat < 256 ^ 4 := (crc32 b).toNat_lt

/-- **The AuthID**: the server reads the client's time from it. -/
theorem decodeAuthId_create {aes : Bytes → Bytes → Bytes} (haes : BlockCipher c aes)
    {cmdKey rand authId : Bytes} {t : ℤ} (hrand : rand.length = 4)
    (h : createAuthId c aes cmdKey t rand = some authId) :
    authId.length = 16 ∧ decodeAuthId c cmdKey authId = some t := by
  unfold createAuthId at h
  obtain ⟨time, htime, rfl⟩ := Option.map_eq_some_iff.1 h
  obtain ⟨hlen, hunpack⟩ := unpackQ_packQ htime
  set pt := time ++ rand with hpt
  set sum := Bytes.ofNatBE 4 (crc32 pt).toNat with hsum
  have hpt_len : pt.length = 12 := by rw [hpt, List.length_append]; omega
  have hsum_len : sum.length = 4 := Bytes.length_ofNatBE _ _
  have hblock : (pt ++ sum).length = 16 := by rw [List.length_append]; omega
  have htake : (pt ++ sum).take 12 = pt := List.take_left' hpt_len
  have hslice : Bytes.slice (pt ++ sum) 12 16 = sum := by
    rw [Bytes.slice, List.drop_left' hpt_len]
    exact List.take_of_length_le hsum_len.le
  have htime' : (pt ++ sum).take 8 = time := by
    rw [hpt, List.append_assoc, List.take_left' hlen]
  refine ⟨haes.length_eq _ _ (length_kdf16 _ _) hblock, ?_⟩
  rw [decodeAuthId, haes.decrypt_encrypt _ _ (length_kdf16 _ _) hblock]
  simp only [hblock, ne_eq, not_true_eq_false, if_false, hslice, htake, htime', hunpack]
  rw [if_neg (not_not.2 _)]
  rw [hsum, Bytes.toNatBE_ofNatBE, Nat.mod_eq_of_lt (crc32_lt _)]

/-- **The sealed header**: the server reads it and stops behind it. -/
theorem openHeader_seal (hc : c.aead.Correct) {cmdKey authId nonce hdr sealed rest : Bytes}
    (hnonce : nonce.length = 8) (h : sealHeader c cmdKey authId nonce hdr = some sealed)
    {s : WsStream} (hf : s.Filled) (hp : s.pending = sealed ++ rest) :
    ∃ s', (openHeaderOn c cmdKey authId).runOn s = (.ok hdr, s') ∧ s'.pending = rest ∧
      s'.Filled := by
  unfold sealHeader at h
  obtain ⟨len, hlen, rfl⟩ := Option.map_eq_some_iff.1 h
  have hunpack := Bytes.unpackH_packH hlen
  have hlen2 : len.length = 2 := by
    unfold Bytes.packH at hlen
    split_ifs at hlen
    cases hlen
    rfl
  simp only [List.append_assoc] at hp
  obtain ⟨s₁, h₁, hp₁, hf₁⟩ := runOn_readOn (n := 18) hf hp
    (by rw [hc.length_encrypt, hlen2]; rfl)
  obtain ⟨s₂, h₂, hp₂, hf₂⟩ := runOn_readOn (n := 8) hf₁ hp₁ hnonce
  obtain ⟨s₃, h₃, hp₃, hf₃⟩ := runOn_readOn (n := hdr.length + tag) hf₂ hp₂
    (hc.length_encrypt _ _ _ _)
  refine ⟨s₃, ?_, hp₃, hf₃⟩
  have hbody : (openHeaderBodyOn c cmdKey authId).runOn s = (.ok hdr, s₃) := by
    unfold openHeaderBodyOn
    rw [runOn_bind h₁, runOn_bind h₂]
    simp only [hc.decrypt_encrypt, hunpack]
    rw [runOn_bind h₃]
    simp only [hc.decrypt_encrypt, runOn_ofResult]
  rw [runOn_openHeaderOn, hbody]

/-! ### The round trips -/

/-- A header that is there is parsed to what it asks for. -/
theorem parseCommandHeader_encode (h : CommandHeader) :
    parseCommandHeader h.encode = .ok h.request := by
  have hraising : Raising.parseCommandHeader h.encode = .ok h.request :=
    Raising.parseCommandHeader_encode (List.append_nil h.encode).symm
  have heq := Raising.parseCommandHeader_eq h.encode
  rw [hraising] at heq
  exact (Option.some.inj heq).symm

/-- The request at the front of a connection is accepted, and the body is read from behind it. -/
theorem decodeRequestOn_build (hc : c.aead.Correct) {aes : Bytes → Bytes → Bytes}
    (haes : BlockCipher c aes) {req : ClientRequest} {wire rest : Bytes}
    (hwire : buildRequest c aes req = some wire)
    (hcheck : checkCommand req.header.request = .ok ())
    {reader : List Bytes → BodyReader}
    (hreader : ∀ fill, BodyReader.init c req.header.key req.header.iv req.header.security
      req.header.option.toNat fill = .ok (reader fill))
    {s : WsStream} (hf : s.Filled) (hp : s.pending = wire ++ rest) :
    ∃ s', (decodeRequestOn c req.uuid).runOn s =
        (.ok ({ req.header.request with uuid := req.uuid }, reader s'.fills), s') ∧
      s'.pending = rest ∧ s'.Filled := by
  simp only [buildRequest, Option.bind_eq_bind, Option.bind_eq_some_iff] at hwire
  obtain ⟨ck, hck, authId, hauth, sealed, hsealed, hwire⟩ := hwire
  cases hwire
  obtain ⟨hlen, hdecode⟩ := decodeAuthId_create haes req.rand_length hauth
  rw [List.append_assoc] at hp
  obtain ⟨s₁, h₁, hp₁, hf₁⟩ := runOn_readOn (n := 16) hf hp hlen
  obtain ⟨s₂, h₂, hp₂, hf₂⟩ := openHeader_seal hc req.nonce_length hsealed hf₁ hp₁
  refine ⟨s₂, ?_, hp₂, hf₂⟩
  unfold decodeRequestOn
  rw [runOn_bind h₁]
  simp only [hck, hdecode]
  rw [runOn_bind h₂, parseCommandHeader_encode,
    runOn_bind (runOn_ofResult (.ok req.header.request))]
  have hcheck' : checkCommand { req.header.request with uuid := req.uuid } = .ok () := hcheck
  rw [runOn_bind (a := ()) (by rw [hcheck']; exact runOn_ofResult _), runOn_bind runOn_get]
  exact runOn_bind ((runOn_ofResult _).trans (congrArg (·, s₂) (hreader s₂.fills)))

/-- **The request round trip.**  A server that serves the command accepts the request of a client
with the same user, takes from it what the client put in, and reads the payloads that the client
wrote behind it, in pieces and then the end, however the connection is cut into messages. -/
theorem request_roundTrip (c : Crypto) (hc : c.aead.Correct) (aes : Bytes → Bytes → Bytes)
    (haes : BlockCipher c aes) (req : ClientRequest) (wire : Bytes)
    (hwire : buildRequest c aes req = some wire)
    (hcheck : checkCommand req.header.request = .ok ())
    (hopt : hasOption req.header.option.toNat optGlobalPadding = true →
      hasOption req.header.option.toNat optChunkMasking = true)
    (token : ℕ → UInt8) (ps : List Bytes) (hps : ∀ p ∈ ps, p ≠ []) :
    ∃ w body w', BodyWriter.init c req.header.key req.header.iv req.header.security
        req.header.option.toNat = .ok w ∧ w.writeBody c token ps = .ok (body, w') ∧
      ∀ messages : List WsMessage, (∀ m ∈ messages, m.data ≠ []) →
        (messages.map WsMessage.data).flatten = wire ++ body →
        ∃ reader s', (decodeRequestOn c req.uuid).runOn (WsStream.start messages) =
            (.ok ({ req.header.request with uuid := req.uuid }, reader), s') ∧
          ∃ pieces : List Bytes, (∀ q ∈ pieces, q ≠ []) ∧ pieces.flatten = ps.flatten ∧
            ∀ k, reader.reads c (pieces.length + k) =
              pieces.map .ok ++ List.replicate k (.ok []) := by
  obtain ⟨w, hw, hready, hreader⟩ := init_synced (c := c) req.header.key req.header.iv
    req.header.option.toNat (checkCommand_eq_ok hcheck).1
  obtain ⟨body, w', hbody, hreads⟩ := writeBody_reads token hc
    (hready fun hpad => .inl (hopt hpad)) ps
  refine ⟨w, body, w', hw, hbody, fun messages hne hcut => ?_⟩
  choose reader hinit hsync hbuf hfill using hreader
  obtain ⟨s', hrun, hpending, hfilled⟩ := decodeRequestOn_build hc haes hwire hcheck hinit
    (s := WsStream.start messages) hne hcut
  obtain ⟨pieces, hpieces, hflat, hall⟩ := hreads (reader s'.fills) (hsync _)
    (by rw [BodyReader.Filled, hfill]; exact WsStream.fills_ne_nil hfilled)
    (by rw [BodyReader.ahead, hbuf, hfill, List.nil_append, WsStream.flatten_fills, hpending])
  refine ⟨reader s'.fills, s', hrun, pieces, hpieces, ?_, hall⟩
  rw [hflat, List.takeWhile_eq_self_iff.2 fun p hp => by simpa using hps p hp]

/-- A request of the user `00` that asks for masking and padding, under the transparent
primitives. -/
def sampleClient : ClientRequest where
  uuid := "00"
  time := 1000
  rand := [1, 2, 3, 4]
  nonce := List.replicate 8 9
  header := {
    version := 1, iv := List.replicate 16 5, key := List.replicate 16 6, token := 42, option := 0x0D
    padding := List.replicate 7 0, security := 3, reserved := 0, command := 1, port := [1, 187]
    address := .ipv4 [10, 0, 0, 9] rfl
    iv_length := rfl, key_length := rfl, padding_length := by decide, security_lt := by decide
    port_length := rfl }
  uuid_ne := by decide
  rand_length := rfl
  nonce_length := rfl

theorem transparent_blockCipher : BlockCipher Crypto.transparent fun _ b => b :=
  ⟨fun _ _ _ hb => hb, fun _ _ _ hb => if_pos hb⟩

/-- The request of the sample client and two payloads. -/
theorem request_roundTrip_sample : ∃ wire,
    buildRequest Crypto.transparent (fun _ b => b) sampleClient = some wire ∧
    ∃ w body w', BodyWriter.init Crypto.transparent sampleClient.header.key sampleClient.header.iv
        sampleClient.header.security sampleClient.header.option.toNat = .ok w ∧
      w.writeBody Crypto.transparent (fun _ => 0) [[1, 2], [3]] = .ok (body, w') ∧
      ∀ messages : List WsMessage, (∀ m ∈ messages, m.data ≠ []) →
        (messages.map WsMessage.data).flatten = wire ++ body →
        ∃ reader s', (decodeRequestOn Crypto.transparent sampleClient.uuid).runOn
            (WsStream.start messages) =
              (.ok ({ sampleClient.header.request with uuid := sampleClient.uuid }, reader), s') ∧
          ∃ pieces : List Bytes, (∀ q ∈ pieces, q ≠ []) ∧
            pieces.flatten = ([[1, 2], [3]] : List Bytes).flatten ∧
            ∀ k, reader.reads Crypto.transparent (pieces.length + k) =
              pieces.map .ok ++ List.replicate k (.ok []) := by
  obtain ⟨wire, hwire⟩ : ∃ wire,
      buildRequest Crypto.transparent (fun _ b => b) sampleClient = some wire :=
    Option.isSome_iff_exists.1 (by decide +kernel)
  exact ⟨wire, hwire, request_roundTrip Crypto.transparent Crypto.transparent_correct _
    transparent_blockCipher sampleClient wire hwire rfl (by decide) (fun _ => 0) [[1, 2], [3]]
    (by decide)⟩

/-- The client opens the response header and stops behind it. -/
theorem decodeResponse_header (hc : c.aead.Correct) {request answered : VMessRequest}
    (hkeys : responseKeys c request = responseKeys c answered) {token : UInt8}
    (htoken : answered.responseToken = token.toNat) (rest : Bytes) :
    ∃ hdr, responseHeaderBytes c answered = some hdr ∧
      decodeResponse c request (hdr ++ rest) = some (token, rest) := by
  unfold responseHeaderBytes decodeResponse
  rw [hkeys, htoken]
  generalize responseKeys c answered = keys
  obtain ⟨respKey, respIv⟩ := keys
  refine ⟨_, rfl, ?_⟩
  simp only [List.append_assoc]
  rw [List.take_left' (by rw [hc.length_encrypt]; rfl),
    List.drop_left' (by rw [hc.length_encrypt]; rfl)]
  simp only [hc.decrypt_encrypt, Option.bind_eq_bind, Option.bind_some, List.length_cons,
    List.length_nil, Nat.reduceAdd]
  rw [show Bytes.unpackH [UInt8.ofNat (4 / 256), UInt8.ofNat 4] = some 4 from rfl]
  simp only [Option.bind_some]
  rw [List.take_left' (by rw [hc.length_encrypt]; rfl),
    List.drop_left' (by rw [hc.length_encrypt]; rfl)]
  simp [hc.decrypt_encrypt]

/-- **The response round trip.**  For every request that is served and pads only what it masks, the
client gets back its token, and reads the payloads that the server wrote, in pieces and then the
end, however `fill` cuts them. -/
theorem response_roundTrip (c : Crypto) (hc : c.aead.Correct) (header : CommandHeader)
    (uuid : String) (hcheck : checkCommand header.request = .ok ())
    (hopt : hasOption header.option.toNat optGlobalPadding = true →
      hasOption header.option.toNat optChunkMasking = true)
    (token : ℕ → UInt8) (ps : List Bytes) (hps : ∀ p ∈ ps, p ≠ []) :
    ∃ hdr w body w', responseHeaderBytes c { header.request with uuid } = some hdr ∧
      responseBodyWriter c { header.request with uuid } = .ok w ∧
      w.writeBody c token ps = .ok (body, w') ∧
      decodeResponse c header.request (hdr ++ body) = some (header.token, body) ∧
      ∀ fill : List Bytes, (∀ p ∈ fill, p ≠ []) → fill.flatten = body →
        ∃ reader, responseBodyReader c header.request fill = .ok reader ∧
          ∃ pieces : List Bytes, (∀ q ∈ pieces, q ≠ []) ∧ pieces.flatten = ps.flatten ∧
            ∀ k, reader.reads c (pieces.length + k) =
              pieces.map .ok ++ List.replicate k (.ok []) := by
  obtain ⟨w, hw, hready, hreader⟩ := init_synced (c := c) (responseKeys c header.request).1
    (responseKeys c header.request).2 header.option.toNat (checkCommand_eq_ok hcheck).1
  obtain ⟨body, w', hbody, hreads⟩ := writeBody_reads token hc
    (hready fun hpad => .inl (hopt hpad)) ps
  have hkeys : responseKeys c header.request = responseKeys c { header.request with uuid } := rfl
  obtain ⟨hdr, hhdr, hdecode⟩ := decodeResponse_header hc hkeys rfl body
  refine ⟨hdr, w, body, w', hhdr, hw, hbody, hdecode, fun fill hfill hcut => ?_⟩
  obtain ⟨reader, hinit, hsync, hbuf, hrfill⟩ := hreader fill
  obtain ⟨pieces, hpieces, hflat, hall⟩ := hreads reader hsync
    (by rw [BodyReader.Filled, hrfill]; exact hfill)
    (by rw [BodyReader.ahead, hbuf, hrfill, List.nil_append, hcut])
  refine ⟨reader, hinit, pieces, hpieces, ?_, hall⟩
  rw [hflat, List.takeWhile_eq_self_iff.2 fun p hp => by simpa using hps p hp]

/-- The response to the sample client. -/
theorem response_roundTrip_sample : Crypto.transparent.aead.Correct ∧
    ∃ hdr w body w', responseHeaderBytes Crypto.transparent
        { sampleClient.header.request with uuid := "00" } = some hdr ∧
      responseBodyWriter Crypto.transparent { sampleClient.header.request with uuid := "00" } =
        .ok w ∧
      w.writeBody Crypto.transparent (fun _ => 0) [[1, 2], [3]] = .ok (body, w') ∧
      decodeResponse Crypto.transparent sampleClient.header.request (hdr ++ body) =
        some (42, body) ∧
      ∀ fill : List Bytes, (∀ p ∈ fill, p ≠ []) → fill.flatten = body →
        ∃ reader, responseBodyReader Crypto.transparent sampleClient.header.request fill =
            .ok reader ∧
          ∃ pieces : List Bytes, (∀ q ∈ pieces, q ≠ []) ∧
            pieces.flatten = ([[1, 2], [3]] : List Bytes).flatten ∧
            ∀ k, reader.reads Crypto.transparent (pieces.length + k) =
              pieces.map .ok ++ List.replicate k (.ok []) :=
  ⟨Crypto.transparent_correct, response_roundTrip Crypto.transparent
    Crypto.transparent_correct sampleClient.header "00" rfl (by decide) (fun _ => 0) [[1, 2], [3]]
    (by decide)⟩

end Vmess

end RvgGateway
