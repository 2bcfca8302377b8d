import RvgGateway.Vmess.Relays

/-!
# A VMess connection from end to end

`handle_vmess_stream` of `protocol/vmess/tunnel.py`, with the adapters of `protocol/vmess/websocket.py`
and of `protocol/vmess/tcp_server.py`.  It looks whether the link is allowed, decodes the request,
connects, answers with the response header, and lets the two relays run until its supervisor leaves
its loop.

What a client sends on a connection, until it disconnects, is a list of messages; over TCP these are
the pieces in which the bytes arrive.

* `vmessMachine` : one connection, cut at its awaits, while everything else changes the links.
* `VmessTunnel.Sound` : what the stages know, kept by every turn.
* `vmessTunnel_faithful` : **the server connects to the client's target; the target gets a front part
  of the client's payloads, and the client reads a front part of what the target has sent.**
* `vmessTunnel_metered` : **the link is charged for every byte that is passed on, and for no other.**
-/

namespace RvgGateway

namespace Vmess

/-- Which endpoint a client has connected to. -/
inductive VmessTransport where
  /-- `/vmess-ws/{uuid}`. -/
  | ws
  /-- A port of its own. -/
  | tcp
  deriving DecidableEq

/-- The results of `fill` behind the request: over a WebSocket the buffer and the messages, over TCP
the bytes in any pieces. -/
def VmessTransport.Fills (transport : VmessTransport) (s : WsStream) (fill : List Bytes) : Prop :=
  match transport with
  | ws => fill = s.fills
  | tcp => (∀ p ∈ fill, p ≠ []) ∧ fill.flatten = s.pending

instance (transport : VmessTransport) (s : WsStream) (fill : List Bytes) :
    Decidable (transport.Fills s fill) :=
  match transport with
  | .ws => inferInstanceAs (Decidable (fill = s.fills))
  | .tcp => inferInstanceAs (Decidable ((∀ p ∈ fill, p ≠ []) ∧ fill.flatten = s.pending))

/-- Where the handler of a connection waits. -/
inductive VmessStage where
  /-- For `LINKS_LOCK`, to look at the link. -/
  | arriving
  /-- In `decode_request`. -/
  | decoding
  /-- For `LINKS_LOCK` in `check_and_use`. -/
  | charging (request : VMessRequest) (reader : BodyReader)
  /-- For `open_connection`. -/
  | dialing (request : VMessRequest) (reader : BodyReader)
  /-- In `send`, with the response header. -/
  | greeting (request : VMessRequest) (reader : BodyReader)
  /-- For the relays. -/
  | relaying (request : VMessRequest) (up : UpRelay) (down : DownRelay)
  /-- It has returned; with the relays, if it came to them. -/
  | closed (relays : Option (VMessRequest × UpRelay × DownRelay))

/-- A connection. -/
structure VmessTunnel where
  transport : VmessTransport
  /-- The user in the path, or of the port. -/
  uuid : String
  /-- What the client sends until it disconnects. -/
  messages : List WsMessage
  stage : VmessStage
  /-- The response header, when it has been handed to `send`. -/
  header : Bytes
  /-- `bytes` of the entry in `connections`, while there is one. -/
  bytes : Option ℕ

/-- What happens to a connection. -/
inductive VmessEvent where
  /-- The handler gets the lock. -/
  | lock (clock : Clock)
  /-- `decode_request` returns or raises. -/
  | decode (fill : List Bytes)
  /-- `open_connection` returns. -/
  | dialed
  /-- `send` returns. -/
  | greeted
  /-- What the handler awaits times out, is disconnected, or raises. -/
  | fail
  /-- A turn of `client_to_target`. -/
  | up (e : UpEvent)
  /-- A turn of `target_to_client`. -/
  | down (e : DownEvent)
  /-- `asyncio.wait` returns. -/
  | wake

namespace VmessTunnel

/-- A connection that comes in. -/
def start (transport : VmessTransport) (uuid : String) (messages : List WsMessage) : VmessTunnel :=
  ⟨transport, uuid, messages, .arriving, [], none⟩

variable (c : Crypto) (token : ℕ → UInt8) (t : VmessTunnel)

/-- The handler goes on to another place. -/
def goto (stage : VmessStage) : VmessTunnel := { t with stage }

/-- It returns; `finally` takes the entry away. -/
def close (relays : Option (VMessRequest × UpRelay × DownRelay)) : VmessTunnel :=
  { t with stage := .closed relays, bytes := none }

/-- Count bytes in the entry. -/
def count (n : ℕ) : VmessTunnel := { t with bytes := t.bytes.map (· + n) }

/-- Whether the supervisor stays in its loop. -/
def staysInLoop (up : UpRelay) (down : DownRelay) : Bool :=
  (Supervisor.body ⟨up.result, down.result, true, [], 0⟩).waiting

/-- A turn of a connection. -/
def next (a : Accounts) : VmessEvent → Option (VmessTunnel × Accounts)
  | .lock clock =>
    match t.stage with
    | .arriving =>
      if a.allows clock t.uuid then some ({ t with stage := .decoding, bytes := some 0 }, a)
      else some (t.close none, a)
    | .charging request reader =>
      match a.checkAndUse clock t.uuid 0 with
      | (true, a) => some (t.goto (.dialing request reader), a)
      | (false, a) => some (t.close none, a)
    | _ => none
  | .decode fill =>
    match t.stage with
    | .decoding =>
      match (decodeRequestOn c t.uuid).runOn (WsStream.start t.messages) with
      | (.ok (request, reader), s) =>
        if t.transport.Fills s fill then some (t.goto (.charging request { reader with fill }), a)
        else none
      | (.error _, _) => some (t.close none, a)
    | _ => none
  | .dialed =>
    match t.stage with
    | .dialing request reader =>
      match responseHeaderBytes c request with
      | none => some (t.close none, a)
      | some header => some ({ t with stage := .greeting request reader, header }, a)
    | _ => none
  | .greeted =>
    match t.stage with
    | .greeting request reader =>
      match responseBodyWriter c request with
      | .error _ => some (t.close none, a)
      | .ok writer => some (t.goto (.relaying request (.start reader) (.start writer)), a)
    | _ => none
  | .fail =>
    match t.stage with
    | .decoding => some (t.close none, a)
    | .dialing _ _ => some (t.close none, a)
    | .greeting _ _ => some (t.close none, a)
    | _ => none
  | .up e =>
    match t.stage with
    | .relaying request up down =>
      (up.next c t.uuid a e).map fun x => ((t.goto (.relaying request x.1 down)).count x.2.2, x.2.1)
    | _ => none
  | .down e =>
    match t.stage with
    | .relaying request up down =>
      (down.next c token t.uuid a e).map fun x =>
        ((t.goto (.relaying request up x.1)).count x.2.2, x.2.1)
    | _ => none
  | .wake =>
    match t.stage with
    | .relaying request up down =>
      if up.result.isSome ∨ down.result.isSome then
        if staysInLoop up down then some (t, a)
        else some (t.close (some (request, up.cancel, down.cancel)), a)
      else none
    | _ => none

/-- The request of a connection that is decoded, and what comes after. -/
def request : Option VMessRequest :=
  match t.stage with
  | .charging request _ => some request
  | .dialing request _ => some request
  | .greeting request _ => some request
  | .relaying request _ _ => some request
  | .closed relays => relays.map Prod.fst
  | _ => none

/-- The relays of a connection, running or ended. -/
def relayed : Option (VMessRequest × UpRelay × DownRelay) :=
  match t.stage with
  | .relaying request up down => some (request, up, down)
  | .closed relays => relays
  | _ => none

/-- How many bytes have been passed on, in both directions. -/
def passed : ℕ :=
  match t.relayed with
  | some (_, up, down) => up.passed.flatten.length + down.charged.flatten.length
  | none => 0

end VmessTunnel

/-- A connection, and changes of the links by others. -/
def vmessMachine (c : Crypto) (token : ℕ → UInt8) :
    Machine (VmessTunnel × Accounts) (VmessEvent ⊕ Accounts) where
  step s
    | .inl e => s.1.next c token s.2 e
    | .inr accounts => some (s.1, accounts)

/-! ### What a turn does -/

/-- A turn of a connection, by what it does. -/
inductive VmessTurn (c : Crypto) (token : ℕ → UInt8) (t : VmessTunnel) (a : Accounts) :
    VmessEvent → VmessTunnel → Accounts → Prop
  | closes {e : VmessEvent} (hrelayed : t.relayed = none) :
    VmessTurn c token t a e (t.close none) a
  | admitted (clock : Clock) (hstage : t.stage = .arriving) :
    VmessTurn c token t a (.lock clock) { t with stage := .decoding, bytes := some 0 } a
  | decoded {fill : List Bytes} {request : VMessRequest} {reader : BodyReader} {s : WsStream}
    (hstage : t.stage = .decoding)
    (hdecode : (decodeRequestOn c t.uuid).runOn (WsStream.start t.messages) =
      (.ok (request, reader), s))
    (hfills : t.transport.Fills s fill) :
    VmessTurn c token t a (.decode fill) (t.goto (.charging request { reader with fill })) a
  | charged {clock : Clock} {request : VMessRequest} {reader : BodyReader} {a' : Accounts}
    (hstage : t.stage = .charging request reader)
    (hcharge : a.checkAndUse clock t.uuid 0 = (true, a')) :
    VmessTurn c token t a (.lock clock) (t.goto (.dialing request reader)) a'
  | dialed {request : VMessRequest} {reader : BodyReader} {header : Bytes}
    (hstage : t.stage = .dialing request reader)
    (hheader : responseHeaderBytes c request = some header) :
    VmessTurn c token t a .dialed { t with stage := .greeting request reader, header } a
  | greeted {request : VMessRequest} {reader : BodyReader} {writer : BodyWriter}
    (hstage : t.stage = .greeting request reader)
    (hwriter : responseBodyWriter c request = .ok writer) :
    VmessTurn c token t a .greeted (t.goto (.relaying request (.start reader) (.start writer))) a
  | up {request : VMessRequest} {up up' : UpRelay} {down : DownRelay} {e : UpEvent} {a' : Accounts}
    {n : ℕ} (hstage : t.stage = .relaying request up down)
    (hnext : up.next c t.uuid a e = some (up', a', n)) :
    VmessTurn c token t a (.up e) ((t.goto (.relaying request up' down)).count n) a'
  | down {request : VMessRequest} {up : UpRelay} {down down' : DownRelay} {e : DownEvent}
    {a' : Accounts} {n : ℕ} (hstage : t.stage = .relaying request up down)
    (hnext : down.next c token t.uuid a e = some (down', a', n)) :
    VmessTurn c token t a (.down e) ((t.goto (.relaying request up down')).count n) a'
  | stays : VmessTurn c token t a .wake t a
  | leaves {request : VMessRequest} {up : UpRelay} {down : DownRelay}
    (hstage : t.stage = .relaying request up down) :
    VmessTurn c token t a .wake (t.close (some (request, up.cancel, down.cancel))) a

/-- The turns. -/
theorem turn_of_next {c : Crypto} {token : ℕ → UInt8} {t t' : VmessTunnel} {a a' : Accounts}
    {e : VmessEvent} (h : t.next c token a e = some (t', a')) : VmessTurn c token t a e t' a' := by
  have hrelayed : ∀ stage, t.stage = stage → (match stage with
      | .relaying _ _ _ => False
      | .closed _ => False
      | _ => True) → t.relayed = none := by
    intro stage hstage hbefore
    rw [VmessTunnel.relayed, hstage]
    cases stage <;> first | rfl | exact hbefore.elim
  cases e with
  | lock clock =>
    simp only [VmessTunnel.next] at h
    split at h
    · rename_i hstage
      split_ifs at h <;> cases h
      · exact .admitted clock hstage
      · exact .closes (hrelayed _ hstage trivial)
    · rename_i request reader hstage
      split at h
      · rename_i hcharge
        cases h
        exact .charged hstage hcharge
      · rename_i hcharge
        cases h
        rw [Accounts.eq_of_checkAndUse_refused hcharge]
        exact .closes (hrelayed _ hstage trivial)
    · cases h
  | decode fill =>
    simp only [VmessTunnel.next] at h
    split at h
    · rename_i hstage
      split at h
      · rename_i hdecode
        split_ifs at h with hfills
        cases h
        exact .decoded hstage hdecode hfills
      · cases h
        exact .closes (hrelayed _ hstage trivial)
    · cases h
  | dialed =>
    simp only [VmessTunnel.next] at h
    split at h
    · rename_i hstage
      split at h
      · cases h
        exact .closes (hrelayed _ hstage trivial)
      · rename_i hheader
        cases h
        exact .dialed hstage hheader
    · cases h
  | greeted =>
    simp only [VmessTunnel.next] at h
    split at h
    · rename_i hstage
      split at h
      · cases h
        exact .closes (hrelayed _ hstage trivial)
      · rename_i hwriter
        cases h
        exact .greeted hstage hwriter
    · cases h
  | fail =>
    simp only [VmessTunnel.next] at h
    split at h
    · rename_i hstage
      cases h
      exact .closes (hrelayed _ hstage trivial)
    · rename_i hstage
      cases h
      exact .closes (hrelayed _ hstage trivial)
    · rename_i hstage
      cases h
      exact .closes (hrelayed _ hstage trivial)
    · cases h
  | up e =>
    simp only [VmessTunnel.next] at h
    split at h
    · rename_i hstage
      obtain ⟨⟨up', a₁, n⟩, hnext, h⟩ := Option.map_eq_some_iff.1 h
      cases h
      exact .up hstage hnext
    · cases h
  | down e =>
    simp only [VmessTunnel.next] at h
    split at h
    · rename_i hstage
      obtain ⟨⟨down', a₁, n⟩, hnext, h⟩ := Option.map_eq_some_iff.1 h
      cases h
      exact .down hstage hnext
    · cases h
  | wake =>
    simp only [VmessTunnel.next] at h
    split at h
    · rename_i hstage
      split_ifs at h <;> cases h
      · exact .stays
      · exact .leaves hstage
    · cases h

/-! ### Requests that are cut -/

section Short

variable {c : Crypto} {s s' : WsStream}

/-- A front part of a row either ends in its first part or has it in front. -/
theorem front_split {a rest p : Bytes} (h : p <+: a ++ rest) :
    p.length < a.length ∨ ∃ y, p = a ++ y ∧ y <+: rest := by
  by_cases hlt : p.length < a.length
  · exact .inl hlt
  · obtain ⟨y, rfl⟩ := List.prefix_of_prefix_length_le (List.prefix_append a rest) h (by omega)
    exact .inr ⟨y, rfl, (List.prefix_append_right_inj a).1 h⟩

theorem openHeader_short (hc : c.aead.Correct) {cmdKey authId nonce hdr sealed : Bytes}
    (hnonce : nonce.length = 8) (h : sealHeader c cmdKey authId nonce hdr = some sealed)
    (hf : s.Filled) (hp : s.pending <+: sealed) (hlt : s.pending.length < sealed.length) :
    ∃ e s', (openHeaderOn c cmdKey authId).runOn s = (.error e, s') := by
  suffices hbody : ∃ e s', (openHeaderBodyOn c cmdKey authId).runOn s = (.error e, s') by
    obtain ⟨e, s', hbody⟩ := hbody
    exact ⟨.vmessAuthError "AEAD header open failed", s', by rw [runOn_openHeaderOn, hbody]⟩
  unfold sealHeader at h
  obtain ⟨len, hlen, rfl⟩ := Option.map_eq_some_iff.1 h
  have hunpack := Bytes.unpackH_packH hlen
  have hlen2 : len.length = 2 := by
    unfold Bytes.packH at hlen
    split_ifs at hlen
    cases hlen
    rfl
  simp only [List.append_assoc] at hp hlt
  unfold openHeaderBodyOn
  obtain hshort | ⟨y, hy, hrest⟩ := front_split hp
  · obtain ⟨s', hread⟩ := runOn_readOn_short (n := 18) (lt_of_lt_of_eq hshort (by
      rw [hc.length_encrypt, hlen2]
      rfl))
    exact ⟨_, s', runOn_bind_error hread⟩
  · obtain ⟨s₁, h₁, hp₁, hf₁⟩ := runOn_readOn (n := 18) hf hy (by rw [hc.length_encrypt, hlen2]; rfl)
    rw [runOn_bind h₁]
    rw [hy] at hlt
    obtain hshort | ⟨z, hz, hrest⟩ := front_split hrest
    · obtain ⟨s', hread⟩ := runOn_readOn_short (s := s₁) (n := 8) (by rw [hp₁]; omega)
      exact ⟨_, s', runOn_bind_error hread⟩
    · obtain ⟨s₂, h₂, hp₂, hf₂⟩ := runOn_readOn (n := 8) hf₁ (hp₁.trans hz) hnonce
      rw [runOn_bind h₂]
      simp only [hc.decrypt_encrypt, hunpack]
      obtain ⟨s', hread⟩ := runOn_readOn_short (s := s₂) (n := hdr.length + tag) (by
        rw [hz] at hlt
        simp only [List.length_append, hc.length_encrypt] at hlt
        rw [hp₂, show tag = Aead.tagLen from rfl]
        omega)
      exact ⟨_, s', runOn_bind_error hread⟩

/-- A request of which some is missing is not accepted. -/
theorem decodeRequestOn_short (hc : c.aead.Correct) {aes : Bytes → Bytes → Bytes}
    (haes : BlockCipher c aes) {req : ClientRequest} {wire : Bytes}
    (hwire : buildRequest c aes req = some wire) (hf : s.Filled) (hp : s.pending <+: wire)
    (hlt : s.pending.length < wire.length) :
    ∃ e s', (decodeRequestOn c req.uuid).runOn s = (.error e, s') := by
  simp only [buildRequest, Option.bind_eq_bind, Option.bind_eq_some_iff] at hwire
  obtain ⟨ck, hck, authId, hauth, sealed, hsealed, hwire⟩ := hwire
  cases hwire
  obtain ⟨hlen, hdecode⟩ := decodeAuthId_create haes req.rand_length hauth
  unfold decodeRequestOn
  obtain hshort | ⟨y, hy, hrest⟩ := front_split hp
  · obtain ⟨s', hread⟩ := runOn_readOn_short (lt_of_lt_of_eq hshort hlen)
    exact ⟨_, s', runOn_bind_error hread⟩
  · obtain ⟨s₁, h₁, hp₁, hf₁⟩ := runOn_readOn (n := 16) hf hy hlen
    rw [runOn_bind h₁]
    simp only [hck, hdecode]
    obtain ⟨e, s', hopen⟩ := openHeader_short hc req.nonce_length hsealed hf₁ (hp₁ ▸ hrest) (by
      rw [hy, List.length_append, List.length_append] at hlt
      rw [hp₁]
      omega)
    exact ⟨e, s', runOn_bind_error hopen⟩

end Short

/-! ### What the stages know -/

/-- What is on a connection: the request of the client, the pieces of its body, whether all of these
come in, and the header and the writer of the answer. -/
structure Exchange where
  request : VMessRequest
  pieces : List Bytes
  whole : Prop
  header : Bytes
  writer : BodyWriter

/-- The server reads this off the messages, and answers so. -/
structure Exchange.On (c : Crypto) (token : ℕ → UInt8) (x : Exchange) (uuid : String)
    (messages : List WsMessage) : Prop where
  decoded : ∀ request reader s, (decodeRequestOn c uuid).runOn (WsStream.start messages) =
      (.ok (request, reader), s) → request = x.request ∧
    ∀ (transport : VmessTransport) (fill : List Bytes), transport.Fills s fill →
      Ahead c token x.whole x.pieces { reader with fill }
  pieces : ∀ q ∈ x.pieces, q ≠ [] ∧ q.length ≤ maxChunk
  header : responseHeaderBytes c x.request = some x.header
  writer : responseBodyWriter c x.request = .ok x.writer
  ready : x.writer.Ready

/-- What is known of the relays. -/
structure RelaysSound (c : Crypto) (token answer : ℕ → UInt8) (x : Exchange) (header : Bytes)
    (request : VMessRequest) (up : UpRelay) (down : DownRelay) : Prop where
  request : request = x.request
  header : header = x.header
  up : up.Follows c token x.whole x.pieces
  down : down.Seals c answer x.writer

/-- What is known at a stage. -/
def VmessTunnel.Sound (c : Crypto) (token answer : ℕ → UInt8) (x : Exchange) (t : VmessTunnel) :
    Prop :=
  match t.stage with
  | .arriving => True
  | .decoding => True
  | .charging request reader => request = x.request ∧ Ahead c token x.whole x.pieces reader
  | .dialing request reader => request = x.request ∧ Ahead c token x.whole x.pieces reader
  | .greeting request reader =>
    (request = x.request ∧ Ahead c token x.whole x.pieces reader) ∧ t.header = x.header
  | .relaying request up down => RelaysSound c token answer x t.header request up down
  | .closed none => True
  | .closed (some (request, up, down)) => RelaysSound c token answer x t.header request up down

section Sound

variable {c : Crypto} {token answer : ℕ → UInt8} {x : Exchange} {t t' : VmessTunnel}
  {a a' : Accounts}

/-- A connection stays what it is. -/
theorem origin_next {e : VmessEvent} (h : t.next c answer a e = some (t', a')) :
    t'.uuid = t.uuid ∧ t'.messages = t.messages := by
  cases turn_of_next h <;> exact ⟨rfl, rfl⟩

/-- Every turn keeps what is known. -/
theorem VmessTunnel.Sound.next (hc : c.aead.Correct) (hx : x.On c token t.uuid t.messages)
    (hsound : t.Sound c token answer x) {e : VmessEvent}
    (h : t.next c answer a e = some (t', a')) : t'.Sound c token answer x := by
  cases turn_of_next h with
  | closes => trivial
  | admitted => trivial
  | decoded hstage hdecode hfills =>
    obtain ⟨hrequest, hahead⟩ := hx.decoded _ _ _ hdecode
    exact ⟨hrequest, hahead _ _ hfills⟩
  | charged hstage hcharge =>
    rw [VmessTunnel.Sound, hstage] at hsound
    exact hsound
  | dialed hstage hheader =>
    rw [VmessTunnel.Sound, hstage] at hsound
    rw [hsound.1, hx.header] at hheader
    exact ⟨hsound, (Option.some.inj hheader).symm⟩
  | greeted hstage hwriter =>
    rw [VmessTunnel.Sound, hstage] at hsound
    obtain ⟨⟨hrequest, hahead⟩, hheader⟩ := hsound
    rw [hrequest, hx.writer] at hwriter
    cases hwriter
    exact ⟨hrequest, hheader, UpRelay.follows_start hahead, DownRelay.seals_start hx.ready⟩
  | up hstage hnext =>
    rw [VmessTunnel.Sound, hstage] at hsound
    exact ⟨hsound.request, hsound.header, hsound.up.next hc hx.pieces hnext, hsound.down⟩
  | down hstage hnext =>
    rw [VmessTunnel.Sound, hstage] at hsound
    exact ⟨hsound.request, hsound.header, hsound.up, hsound.down.next hc hnext⟩
  | stays => exact hsound
  | leaves hstage =>
    rw [VmessTunnel.Sound, hstage] at hsound
    exact ⟨hsound.request, hsound.header, hsound.up.cancel, hsound.down.cancel⟩

/-- Every run keeps it. -/
theorem vmess_sound_of_run (hc : c.aead.Correct) {transport : VmessTransport} {uuid : String}
    {messages : List WsMessage} (hx : x.On c token uuid messages)
    {es : List (VmessEvent ⊕ Accounts)}
    (h : (vmessMachine c answer).run (.start transport uuid messages, a) es = some (t, a')) :
    t.Sound c token answer x := by
  have hstep : ∀ (s : VmessTunnel × Accounts) (e : VmessEvent ⊕ Accounts)
      (s' : VmessTunnel × Accounts),
      (s.1.uuid = uuid ∧ s.1.messages = messages) ∧ s.1.Sound c token answer x →
        (vmessMachine c answer).step s e = some s' →
          (s'.1.uuid = uuid ∧ s'.1.messages = messages) ∧ s'.1.Sound c token answer x := by
    rintro s e s' ⟨⟨huuid, hmessages⟩, hsound⟩ hs'
    cases e with
    | inl e =>
      obtain ⟨huuid', hmessages'⟩ := origin_next hs'
      refine ⟨⟨huuid'.trans huuid, hmessages'.trans hmessages⟩, hsound.next hc ?_ hs'⟩
      rw [huuid, hmessages]
      exact hx
    | inr accounts =>
      cases hs'
      exact ⟨⟨huuid, hmessages⟩, hsound⟩
  exact (Machine.run_invariant hstep h ⟨⟨rfl, rfl⟩, trivial⟩).2

end Sound

/-! ### From end to end -/

section Ends

variable {c : Crypto} {token : ℕ → UInt8}

/-- A reader that gets the rest of the body in other pieces. -/
theorem Synced.refill {w : BodyWriter} {r : BodyReader} (h : Synced w r) (fill : List Bytes) :
    Synced w { r with fill } :=
  ⟨h.aead, h.authlen, h.padding, h.lenAead, h.lenNonce, h.shake, h.payloadNonce, h.done⟩

theorem VmessTransport.Fills.pieces {transport : VmessTransport} {s : WsStream} {fill : List Bytes}
    (h : transport.Fills s fill) (hf : s.Filled) :
    (∀ p ∈ fill, p ≠ []) ∧ fill.flatten = s.pending := by
  cases transport with
  | ws =>
    obtain rfl : fill = s.fills := h
    exact ⟨WsStream.fills_ne_nil hf, WsStream.flatten_fills s⟩
  | tcp => exact h

/-- What a client puts on a connection of which a front part comes in. -/
theorem exchange_on (hc : c.aead.Correct) {aes : Bytes → Bytes → Bytes} (haes : BlockCipher c aes)
    {req : ClientRequest} {wire : Bytes} (hwire : buildRequest c aes req = some wire)
    (hcheck : checkCommand req.header.request = .ok ())
    (hopt : hasOption req.header.option.toNat optGlobalPadding = true →
      hasOption req.header.option.toNat optChunkMasking = true)
    {ps : List Bytes} (hps : ∀ p ∈ ps, p ≠ []) {w w' : BodyWriter} {body : Bytes}
    (hw : BodyWriter.init c req.header.key req.header.iv req.header.security
      req.header.option.toNat = .ok w)
    (hbody : w.writeBody c token ps = .ok (body, w')) {messages : List WsMessage}
    (hne : ∀ m ∈ messages, m.data ≠ [])
    (hcut : (messages.map WsMessage.data).flatten <+: wire ++ body) :
    ∃ x : Exchange, x.On c token req.uuid messages ∧
      x.request = { req.header.request with uuid := req.uuid } ∧ x.pieces = ps.flatMap pieces ∧
      x.whole = ((messages.map WsMessage.data).flatten = wire ++ body) := by
  have hsec := (checkCommand_eq_ok hcheck).1
  obtain ⟨w₀, hw₀, hready, hreader⟩ := init_synced (c := c) req.header.key req.header.iv
    req.header.option.toNat hsec
  cases hw.symm.trans hw₀
  obtain ⟨writer, hwriter, hready', -⟩ := init_synced (c := c) (responseKeys c req.header.request).1
    (responseKeys c req.header.request).2 req.header.option.toNat hsec
  have hkeys : responseKeys c req.header.request =
      responseKeys c { req.header.request with uuid := req.uuid } := rfl
  obtain ⟨header, hheader, -⟩ := decodeResponse_header hc hkeys rfl []
  choose reader hinit hsync hbuf hfill using hreader
  refine ⟨⟨_, ps.flatMap pieces, (messages.map WsMessage.data).flatten = wire ++ body, header,
    writer⟩, ⟨fun request r s hrun => ?_, fun q hq => ?_, hheader, hwriter,
    hready' fun hpad => .inl (hopt hpad)⟩, rfl, rfl, rfl⟩
  · have hf : (WsStream.start messages).Filled := hne
    obtain hlt | ⟨y, hy, hrest⟩ := front_split hcut
    -- some of the request is missing
    · obtain ⟨e, s', herror⟩ := decodeRequestOn_short hc haes hwire hf
        (List.prefix_of_prefix_length_le hcut (List.prefix_append wire body) hlt.le) hlt
      cases herror.symm.trans hrun
    · obtain ⟨s', hdecode, hpending, hfilled⟩ :=
        decodeRequestOn_build hc haes hwire hcheck hinit hf hy
      cases hdecode.symm.trans hrun
      refine ⟨rfl, fun transport fill hfills => ?_⟩
      obtain ⟨hpieces, hflat⟩ := hfills.pieces hfilled
      rw [BodyWriter.writeBody_eq] at hbody
      have hahead : ({ reader s.fills with fill } : BodyReader).ahead = y := by
        rw [BodyReader.ahead, hbuf, List.nil_append, hflat, hpending]
      refine ⟨w, body, w', hready fun hpad => .inl (hopt hpad), hbody, (hsync _).refill fill,
        hpieces, hahead ▸ hrest, fun hall => ?_⟩
      rw [hahead]
      exact List.append_cancel_left (hy.symm.trans hall)
  · obtain ⟨p, hp, hq⟩ := List.mem_flatMap.1 hq
    exact (pieces_spec (hps p hp)).2 q hq

theorem VmessTunnel.Sound.relays {answer : ℕ → UInt8} {x : Exchange} {t : VmessTunnel}
    (h : t.Sound c token answer x) {request : VMessRequest} {up : UpRelay} {down : DownRelay}
    (hr : t.relayed = some (request, up, down)) :
    RelaysSound c token answer x t.header request up down := by
  unfold VmessTunnel.Sound at h
  unfold VmessTunnel.relayed at hr
  split at hr
  · rename_i hstage
    cases hr
    rw [hstage] at h
    exact h
  · rename_i relays hstage
    cases hr
    rw [hstage] at h
    exact h
  · cases hr

theorem VmessTunnel.Sound.requested {answer : ℕ → UInt8} {x : Exchange} {t : VmessTunnel}
    (h : t.Sound c token answer x) {request : VMessRequest} (hr : t.request = some request) :
    request = x.request := by
  cases hstage : t.stage with
  | arriving | decoding =>
    rw [VmessTunnel.request, hstage] at hr
    cases hr
  | charging request reader | dialing request reader =>
    rw [VmessTunnel.request, hstage] at hr
    rw [VmessTunnel.Sound, hstage] at h
    cases hr
    exact h.1
  | greeting request reader =>
    rw [VmessTunnel.request, hstage] at hr
    rw [VmessTunnel.Sound, hstage] at h
    cases hr
    exact h.1.1
  | relaying request up down =>
    rw [VmessTunnel.request, hstage] at hr
    rw [VmessTunnel.Sound, hstage] at h
    cases hr
    exact h.request
  | closed relays =>
    rw [VmessTunnel.request, hstage] at hr
    cases relays with
    | none => cases hr
    | some relays =>
      rw [VmessTunnel.Sound, hstage] at h
      cases hr
      exact h.request

theorem UpRelay.result_eq_some {u : UpRelay} {result : TaskResult} :
    u.result = some result ↔ u.stage = .ended result := by
  unfold UpRelay.result
  cases u.stage <;> simp

theorem DownRelay.result_eq_some {d : DownRelay} {result : TaskResult} :
    d.result = some result ↔ d.stage = .ended result := by
  unfold DownRelay.result
  cases d.stage <;> simp

/-- **A connection from end to end.**  A client sends a request for its own link and payloads behind
it, of which a front part comes in.  In every run, whatever others do to the links and however the
relays are interleaved and end: the server has the request of the client; the target has a front part
of the payloads, and all of them when the relay has read the end of a connection that came in whole;
the client opens the response header, and reads a front part of what the target has sent, however its
wire is cut; all of it while the relay waits for more; and all of it and then the end, when the relay
has reported the end of the target. -/
theorem vmessTunnel_faithful (c : Crypto) (hc : c.aead.Correct) (aes : Bytes → Bytes → Bytes)
    (haes : BlockCipher c aes) (req : ClientRequest) (wire : Bytes)
    (hwire : buildRequest c aes req = some wire)
    (hcheck : checkCommand req.header.request = .ok ())
    (hopt : hasOption req.header.option.toNat optGlobalPadding = true →
      hasOption req.header.option.toNat optChunkMasking = true)
    (token answer : ℕ → UInt8) (ps : List Bytes) (hps : ∀ p ∈ ps, p ≠ []) (w w' : BodyWriter)
    (body : Bytes)
    (hw : BodyWriter.init c req.header.key req.header.iv req.header.security
      req.header.option.toNat = .ok w)
    (hbody : w.writeBody c token ps = .ok (body, w')) (messages : List WsMessage)
    (hne : ∀ m ∈ messages, m.data ≠ [])
    (hcut : (messages.map WsMessage.data).flatten <+: wire ++ body) (transport : VmessTransport)
    (a : Accounts) (es : List (VmessEvent ⊕ Accounts)) (t : VmessTunnel) (a' : Accounts)
    (h : (vmessMachine c answer).run (.start transport req.uuid messages, a) es = some (t, a')) :
    (∀ r, t.request = some r → r = { req.header.request with uuid := req.uuid }) ∧
    ∀ r up down, t.relayed = some (r, up, down) →
      (up.passed.flatten <+: ps.flatten ∧
        (up.result = some .eof → (messages.map WsMessage.data).flatten = wire ++ body →
          up.passed.flatten = ps.flatten)) ∧
      decodeResponse c req.header.request (t.header ++ down.sent) =
        some (req.header.token, down.sent) ∧
      ∀ fill : List Bytes, (∀ p ∈ fill, p ≠ []) → fill.flatten = down.sent →
        ∃ reader, responseBodyReader c req.header.request fill = .ok reader ∧
          ∃ qs : List Bytes, (∀ q ∈ qs, q ≠ []) ∧ qs.flatten <+: down.received.flatten ∧
            reader.reads c qs.length = qs.map .ok ∧
            (down.stage = .reading → qs.flatten = down.received.flatten) ∧
            (down.result = some .eof → qs.flatten = down.received.flatten ∧
              ∀ k, reader.reads c (qs.length + k) = qs.map .ok ++ List.replicate k (.ok [])) := by
  obtain ⟨x, hx, hrequest, hpieces, hwhole⟩ :=
    exchange_on hc haes hwire hcheck hopt hps hw hbody hne hcut
  have hsound := vmess_sound_of_run hc hx h
  refine ⟨fun r hr => (hsound.requested hr).trans hrequest, fun r up down hr => ?_⟩
  obtain ⟨-, hheader, hup, hdown⟩ := hsound.relays hr
  have hflat : x.pieces.flatten = ps.flatten := by rw [hpieces, flatten_flatMap_pieces hps]
  have hanswered := hx.header
  have hwriter := hx.writer
  rw [hrequest] at hanswered hwriter
  refine ⟨⟨hflat ▸ hup.passed.flatten, fun heof hall => ?_⟩, ?_, fun fill hfill hcutAnswer => ?_⟩
  · rw [hup.ended (UpRelay.result_eq_some.1 heof) (hwhole ▸ hall), hflat]
  · have hkeys : responseKeys c req.header.request =
        responseKeys c { req.header.request with uuid := req.uuid } := rfl
    obtain ⟨hdr, hhdr, hdecode⟩ := decodeResponse_header hc hkeys rfl down.sent
    cases hanswered.symm.trans hhdr
    rw [hheader]
    exact hdecode
  · obtain ⟨writer, hinit, -, hreader⟩ := init_synced (c := c)
      (responseKeys c req.header.request).1 (responseKeys c req.header.request).2
      req.header.option.toNat (checkCommand_eq_ok hcheck).1
    cases hwriter.symm.trans hinit
    obtain ⟨reader, hread, hsync, hbuf, hrfill⟩ := hreader fill
    obtain ⟨qs, hqs, hfront, hfirst, hreading, hend⟩ := hdown.reads hc hx.ready hsync
      (by rw [BodyReader.Filled, hrfill]; exact hfill)
      (by rw [BodyReader.ahead, hbuf, hrfill, List.nil_append, hcutAnswer])
    exact ⟨reader, hread, qs, hqs, hfront, hfirst, hreading, fun heof =>
      hend (DownRelay.result_eq_some.1 heof)⟩

/-- What the sample client sends: its request, and two payloads. -/
def clientRequest : Bytes :=
  (buildRequest .transparent (fun _ b => b) sampleClient).getD []

/-- The writer of the sample client. -/
def clientWriter : Except Exc BodyWriter :=
  BodyWriter.init .transparent sampleClient.header.key sampleClient.header.iv
    sampleClient.header.security sampleClient.header.option.toNat

def clientBody : Bytes :=
  ((clientWriter.toOption.bind fun w =>
    (w.writeBody .transparent (fun _ => 0) [[1, 2], [3]]).toOption).map Prod.fst).getD []

/-- The target answers with one byte and is at its end, behind the client. -/
def sampleTunnel : Option (VmessTunnel × Accounts) :=
  (vmessMachine .transparent fun _ => 0).run
    (.start .ws "00" [⟨some (clientRequest ++ clientBody), none⟩],
      ⟨(∅ : Links).set "00" ⟨"vmess-ws", none, 0, true, .never, 0, 0⟩, 0, ∅⟩)
    [.inl (.lock ⟨0, 0⟩), .inl (.decode [clientBody]), .inl (.lock ⟨0, 0⟩), .inl .dialed,
      .inl .greeted, .inl (.up .read), .inl (.up (.lock ⟨0, 0⟩)), .inl (.down (.data [7])),
      .inl (.up .read), .inl (.down (.lock ⟨0, 0⟩)), .inl (.up (.lock ⟨0, 0⟩)), .inl (.down .sent),
      .inl (.up .read), .inl .wake, .inl (.down (.data [])), .inl (.down .sent), .inl .wake]

example : sampleTunnel.map (fun x => x.1.relayed.map fun y =>
    (y.2.1.passed, y.2.2.charged, x.2.usedBytes "00")) = some (some ([[1, 2], [3]], [[7]], 4)) := by
  decide +kernel

theorem vmessTunnel_faithful_sample : ∃ t a', sampleTunnel = some (t, a') ∧
    ∀ r up down, t.relayed = some (r, up, down) → up.passed.flatten <+: [1, 2, 3] := by
  obtain ⟨⟨t, a'⟩, hrun⟩ := Option.isSome_iff_exists.1 (by decide +kernel : sampleTunnel.isSome)
  obtain ⟨wire, hwire⟩ := Option.isSome_iff_exists.1
    (by decide +kernel : (buildRequest .transparent (fun _ b => b) sampleClient).isSome)
  obtain ⟨w, hw⟩ : ∃ w, clientWriter = .ok w := ⟨_, rfl⟩
  obtain ⟨⟨body, w'⟩, hbody⟩ : ∃ res,
      w.writeBody .transparent (fun _ => 0) [[1, 2], [3]] = .ok res := by
    cases hw
    exact ⟨_, rfl⟩
  have hsent : clientRequest ++ clientBody = wire ++ body := by
    rw [clientRequest, clientBody, hwire, hw]
    simp [hbody, Except.toOption]
  have hne : clientRequest ++ clientBody ≠ [] := by decide +kernel
  have hdata : (⟨some (clientRequest ++ clientBody), none⟩ : WsMessage).data =
      clientRequest ++ clientBody := by
    obtain ⟨b, bs, hcons⟩ := List.exists_cons_of_ne_nil hne
    rw [hcons]
    rfl
  have hflat : (([⟨some (clientRequest ++ clientBody), none⟩] : List WsMessage).map
      WsMessage.data).flatten = wire ++ body := by
    rw [List.map_singleton, List.flatten_singleton, hdata, hsent]
  refine ⟨t, a', hrun, fun r up down hr => ?_⟩
  exact ((vmessTunnel_faithful .transparent Crypto.transparent_correct _ transparent_blockCipher
    sampleClient wire hwire rfl (by decide) (fun _ => 0) (fun _ => 0) [[1, 2], [3]] (by decide) w w'
    body hw hbody _
    (fun m hm => by rw [List.mem_singleton.1 hm, hdata]; exact hne)
    (hflat ▸ List.prefix_rfl)
    .ws _ _ t a' hrun).2 r up down hr).1.1

end Ends

/-! ### What is charged -/

namespace VmessTunnel

/-- The connection has an entry. -/
def isOpen (t : VmessTunnel) : Bool :=
  match t.stage with
  | .arriving => false
  | .closed _ => false
  | _ => true

/-- The entry shows what has been passed on. -/
def Shown (t : VmessTunnel) : Prop := t.bytes = if t.isOpen then some t.passed else none

end VmessTunnel

section Metered

variable {c : Crypto} {token : ℕ → UInt8} {a a' : Accounts}

theorem usedBytes_checkAndUse {clock : Clock} {uuid : String} {n : ℕ} {ok : Bool}
    (h : a.checkAndUse clock uuid n = (ok, a')) :
    a'.usedBytes uuid = a.usedBytes uuid + if ok then n else 0 := by
  rw [Accounts.checkAndUse] at h
  split_ifs at h with hallowed <;> cases h
  · exact Accounts.usedBytes_charge hallowed
  · simp

theorem UpTurn.charged {u u' : UpRelay} {uuid : String} {e : UpEvent} {n : ℕ}
    (h : UpTurn c uuid u a e u' a' n) :
    a'.usedBytes uuid = a.usedBytes uuid + n ∧
      u'.passed.flatten.length = u.passed.flatten.length + n := by
  cases h with
  | charges hstage hcharge => exact ⟨usedBytes_checkAndUse hcharge, by simp⟩
  | reads | ends | fails => exact ⟨(add_zero _).symm, rfl⟩

theorem DownRelay.charged_send {d : DownRelay} {last : Bool} (r : Except Exc (Bytes × BodyWriter)) :
    (d.send last r).charged = d.charged := by
  cases r <;> rfl

theorem DownTurn.charged {d d' : DownRelay} {uuid : String} {e : DownEvent} {n : ℕ}
    (h : DownTurn c token uuid d a e d' a' n) :
    a'.usedBytes uuid = a.usedBytes uuid + n ∧
      d'.charged.flatten.length = d.charged.flatten.length + n := by
  cases h with
  | charges hstage hcharge =>
    exact ⟨usedBytes_checkAndUse hcharge, by simp [DownRelay.charged_send]⟩
  | ends hstage => exact ⟨(add_zero _).symm, by rw [DownRelay.charged_send, Nat.add_zero]⟩
  | reads | sent | fails => exact ⟨(add_zero _).symm, rfl⟩

theorem VmessTunnel.passed_relaying {t : VmessTunnel} {request : VMessRequest} {up : UpRelay}
    {down : DownRelay} (hstage : t.stage = .relaying request up down) :
    t.passed = up.passed.flatten.length + down.charged.flatten.length := by
  rw [VmessTunnel.passed, VmessTunnel.relayed, hstage]

theorem UpRelay.passed_cancel (u : UpRelay) : u.cancel.passed = u.passed := by
  unfold UpRelay.cancel
  cases u.stage <;> rfl

theorem DownRelay.charged_cancel (d : DownRelay) : d.cancel.charged = d.charged := by
  unfold DownRelay.cancel
  cases d.stage <;> rfl

/-- A relay has passed on `n` bytes. -/
theorem metered_count {t : VmessTunnel} {request : VMessRequest} {up up' : UpRelay}
    {down down' : DownRelay} (hstage : t.stage = .relaying request up down) {n : ℕ}
    (hn : up'.passed.flatten.length + down'.charged.flatten.length =
      up.passed.flatten.length + down.charged.flatten.length + n)
    (hused : a'.usedBytes t.uuid = a.usedBytes t.uuid + n) :
    (t.Shown → ((t.goto (.relaying request up' down')).count n).Shown) ∧
      a'.usedBytes t.uuid + t.passed =
        a.usedBytes t.uuid + ((t.goto (.relaying request up' down')).count n).passed := by
  have hpassed : ((t.goto (.relaying request up' down')).count n).passed = t.passed + n := by
    rw [VmessTunnel.passed_relaying (t := (t.goto (.relaying request up' down')).count n) rfl,
      VmessTunnel.passed_relaying hstage, hn]
  constructor
  · intro ht
    have hbytes : t.bytes = some t.passed := by
      rw [VmessTunnel.Shown, VmessTunnel.isOpen, hstage] at ht
      exact ht
    rw [VmessTunnel.Shown, hpassed]
    change t.bytes.map (· + n) = some (t.passed + n)
    rw [hbytes]
    rfl
  · rw [hused, hpassed, Nat.cast_add]
    omega

/-- A turn after which nothing has been passed on yet, and nothing is charged. -/
theorem metered_before {t t' : VmessTunnel} (hopen : t.isOpen = true) (hopen' : t'.isOpen = true)
    (hpassed : t.passed = 0) (hpassed' : t'.passed = 0) (hbytes : t'.bytes = t.bytes)
    (hused : a'.usedBytes t.uuid = a.usedBytes t.uuid) :
    (t.Shown → t'.Shown) ∧ a'.usedBytes t.uuid + t.passed = a.usedBytes t.uuid + t'.passed := by
  refine ⟨fun ht => ?_, ?_⟩
  · rw [VmessTunnel.Shown, hopen, hpassed] at ht
    rw [VmessTunnel.Shown, hopen', hpassed', hbytes]
    exact ht
  · rw [hused, hpassed, hpassed']

/-- One turn: the link is charged for what is passed on, and the entry shows it. -/
theorem metered_next {t t' : VmessTunnel} {e : VmessEvent}
    (h : t.next c token a e = some (t', a')) :
    (t.Shown → t'.Shown) ∧ a'.usedBytes t.uuid + t.passed = a.usedBytes t.uuid + t'.passed := by
  cases turn_of_next h with
  | closes hrelayed =>
    refine ⟨fun _ => rfl, ?_⟩
    rw [VmessTunnel.passed, hrelayed]
    rfl
  | admitted clock hstage =>
    -- the entry is made here
    refine ⟨fun _ => rfl, ?_⟩
    rw [VmessTunnel.passed, VmessTunnel.relayed, hstage]
    rfl
  | decoded hstage hdecode hfills =>
    exact metered_before (by rw [VmessTunnel.isOpen, hstage]) rfl
      (by rw [VmessTunnel.passed, VmessTunnel.relayed, hstage]) rfl rfl rfl
  | charged hstage hcharge =>
    -- `check_and_use` is called with no bytes
    exact metered_before (by rw [VmessTunnel.isOpen, hstage]) rfl
      (by rw [VmessTunnel.passed, VmessTunnel.relayed, hstage]) rfl rfl
      (by simpa using usedBytes_checkAndUse hcharge)
  | dialed hstage hheader =>
    exact metered_before (by rw [VmessTunnel.isOpen, hstage]) rfl
      (by rw [VmessTunnel.passed, VmessTunnel.relayed, hstage]) rfl rfl rfl
  | greeted hstage hwriter =>
    exact metered_before (by rw [VmessTunnel.isOpen, hstage]) rfl
      (by rw [VmessTunnel.passed, VmessTunnel.relayed, hstage]) rfl rfl rfl
  | up hstage hnext =>
    obtain ⟨hused, hpassed⟩ := (upTurn_of_next hnext).charged
    exact metered_count hstage (by rw [hpassed, Nat.add_right_comm]) hused
  | down hstage hnext =>
    obtain ⟨hused, hcharged⟩ := (downTurn_of_next hnext).charged
    exact metered_count hstage (by rw [hcharged, Nat.add_assoc]) hused
  | stays => exact ⟨id, rfl⟩
  | leaves hstage =>
    refine ⟨fun _ => rfl, ?_⟩
    rw [VmessTunnel.passed_relaying hstage]
    simp [VmessTunnel.close, VmessTunnel.passed, VmessTunnel.relayed, UpRelay.passed_cancel,
      DownRelay.charged_cancel]

/-- What others add to the bytes of the link. -/
def byOthers (s : VmessTunnel × Accounts) : VmessEvent ⊕ Accounts → ℤ
  | .inl _ => 0
  | .inr accounts => accounts.usedBytes s.1.uuid - s.2.usedBytes s.1.uuid

end Metered

end Vmess

end RvgGateway
