import RvgGateway.Relay.Sealed
import RvgGateway.Relay.SocksAddress
import RvgGateway.Shadowsocks.Match

/-!
# A Shadowsocks connection from end to end

`_handle_conn` of `protocol/shadowsocks/tcp_server.py` and `shadowsocks_ws_tunnel` of
`protocol/shadowsocks/websocket.py`.  A Shadowsocks client names neither its user nor its target in the
clear.  The server collects what comes in until the key of some link opens it, reads the target off the
first payload, charges the link, connects, and then runs the two relays on the stream that was found.

* `SsEndpoint.find` : `_match` and `_find_matching_ss_link`.
* `ssMachine` : one connection, cut at its awaits, while everything else changes the links.
* `Look.Separate` : no link that is tried has a key that opens the client's first chunk, but its own.
* `ssTunnel_faithful` : **in whatever pieces the wire comes in, the server connects to the target that
  the client has sealed, on the account of the client's link; the target gets a front part of what the
  client has sealed behind the address, and the client opens a front part of what the target has sent.**
-/

namespace RvgGateway

namespace Relay

open Quota (GateClass)
open Shadowsocks
open Shadowsocks.AEADStream (init)
open Share (CoreLink)

/-! ### The link -/

/-- The Shadowsocks endpoints. -/
inductive SsEndpoint where
  /-- `/ss-ws`. -/
  | webSocket
  /-- A port of its own. -/
  | tcp
  deriving DecidableEq

/-- What is seen when the link is looked for: the time, the links, and the salts that new streams
draw. -/
structure Look where
  now : ℤ
  links : Dict String CoreLink
  draw : String → Bytes

namespace SsEndpoint

/-- The links that are tried. -/
def candidates (ep : SsEndpoint) (look : Look) : List (String × CoreLink) :=
  match ep with
  | webSocket =>
    look.links.entries.filter fun e =>
      e.2.protocol = "shadowsocks" && isLinkAllowed look.now (some e.2.toLink)
  | tcp => Shadowsocks.candidates look.now look.links

variable (c : Crypto)

/-- The loop of `_find_matching_ss_link`, which takes a first chunk that is empty as well. -/
def findLoop (draw : String → Bytes) (raw : Bytes) :
    List (String × CoreLink) → Except Exc (Option Match)
  | [] => .ok none
  | (uid, d) :: es =>
    match cipherOf d with
    | none => findLoop draw raw es
    | some info =>
      let stream := init c (deriveKey c d.ssPassword info.keyLen) info (draw uid)
      match (stream.feed raw).tryDecryptChunks c with
      | ⟨_, .error exc⟩ => if exc.isValueError then findLoop draw raw es else .error exc
      | ⟨chunks, .ok stream⟩ =>
        if chunks ≠ [] then .ok (some ⟨uid, stream, chunks⟩) else findLoop draw raw es

/-- `_find_matching_ss_link` and `_match`. -/
def find (ep : SsEndpoint) (look : Look) (raw : Bytes) : Except Exc (Option Match) :=
  match ep with
  | webSocket => findLoop c look.draw raw (webSocket.candidates look)
  | tcp => matchLink c look.now look.draw look.links raw

/-- The relay of the way up. -/
def up : SsEndpoint → Direction AEADStream Unit
  | webSocket => .ssUp c
  | tcp => .ssTcpUp c

end SsEndpoint

/-! ### The connection -/

/-- What is known of a connection when its first payload is read. -/
structure SsRequest where
  found : Match
  address : String
  port : ℕ
  hlen : ℕ

namespace SsRequest

variable (r : SsRequest)

/-- `initial_data`. -/
def initialData : Bytes := (r.found.chunks.headD []).drop r.hlen

/-- `extra_chunks`. -/
def extraChunks : List Bytes := r.found.chunks.tail

/-- What is written to the target before the relays start. -/
def head : Bytes := r.initialData ++ r.extraChunks.flatten

end SsRequest

/-- Where the handler of a connection waits. -/
inductive SsStage where
  /-- For more of the handshake. -/
  | collecting
  /-- For `LINKS_LOCK`, to look at the link that was found. -/
  | matched (m : Match)
  /-- For `LINKS_LOCK` in `check_and_use`. -/
  | charging (r : SsRequest)
  /-- For `open_connection`. -/
  | dialing (r : SsRequest)
  /-- For `drain` behind what came with the handshake. -/
  | draining (r : SsRequest)
  /-- For the relays. -/
  | relaying (r : SsRequest) (up : Relay AEADStream Unit) (down : Relay Unit AEADStream)
  /-- It has returned; with the relays, if it came to them. -/
  | closed (relays : Option (SsRequest × Relay AEADStream Unit × Relay Unit AEADStream))

/-- A connection. -/
structure SsTunnel where
  endpoint : SsEndpoint
  /-- `raw`. -/
  raw : Bytes
  stage : SsStage
  /-- What has been written to the target before the relays. -/
  head : Bytes

/-- What happens to a connection. -/
inductive SsEvent where
  /-- Something is read in the handshake, and the link looked for; the empty chunk is the end of a TCP
  connection, or an empty message. -/
  | receive (chunk : Bytes) (look : Look)
  /-- What the handler awaits times out, is disconnected, or raises. -/
  | fail
  /-- It gets the lock. -/
  | lock (clock : Clock)
  /-- `open_connection` returns. -/
  | dialed (monotonicUp monotonicDown : ℚ)
  /-- `drain` returns. -/
  | drained (monotonicUp monotonicDown : ℚ)
  /-- A turn of the relay from the client to the target. -/
  | up (e : RelayEvent)
  /-- A turn of the relay from the target to the client. -/
  | down (e : RelayEvent)
  /-- Both relays have ended. -/
  | finish

/-- `HANDSHAKE_MAX`. -/
def handshakeMax : ℕ := 64 * 1024

namespace SsTunnel

/-- A connection that was accepted. -/
def start (endpoint : SsEndpoint) : SsTunnel := ⟨endpoint, [], .collecting, []⟩

/-- The connection at another stage. -/
def goto (t : SsTunnel) (stage : SsStage) : SsTunnel := { t with stage }

variable (c : Crypto) (t : SsTunnel)

/-- A turn of the loop that collects the handshake. -/
def receive (chunk : Bytes) (look : Look) : SsTunnel :=
  if chunk = [] then
    match t.endpoint with
    | .webSocket => t
    | .tcp => t.goto (.closed none)
  else
    let t := { t with raw := t.raw ++ chunk }
    if t.endpoint = .webSocket ∧ handshakeMax < t.raw.length then t.goto (.closed none)
    else
      match t.endpoint.find c look t.raw with
      | .error _ => t.goto (.closed none)
      | .ok (some m) => t.goto (.matched m)
      | .ok none => if handshakeMax < t.raw.length then t.goto (.closed none) else t

/-- Whether the handler goes on with the link that was found; over a WebSocket it only reads its
label. -/
def goesOn (a : Accounts) (clock : Clock) (uid : String) : Bool :=
  match t.endpoint with
  | .webSocket => a.links.contains uid
  | .tcp => a.allows clock uid

/-- The relays start. -/
def relays (r : SsRequest) (monotonicUp monotonicDown : ℚ) : SsStage :=
  .relaying r (Relay.start .vless r.found.uid monotonicUp r.found.stream ())
    (Relay.start .vless r.found.uid monotonicDown () r.found.stream)

/-- A turn of the connection. -/
def next (a : Accounts) : SsEvent → Option (SsTunnel × Accounts)
  | .receive chunk look =>
    match t.stage with
    | .collecting => some (t.receive c chunk look, a)
    | _ => none
  | .fail =>
    match t.stage with
    | .relaying _ _ _ => none
    | .closed _ => none
    | _ => some (t.goto (.closed none), a)
  | .lock clock =>
    match t.stage with
    | .matched m =>
      if t.goesOn a clock m.uid then
        match parseSocks5Addr (m.chunks.headD []) with
        | .error _ => some (t.goto (.closed none), a)
        | .ok (address, port, hlen) => some (t.goto (.charging ⟨m, address, port, hlen⟩), a)
      else some (t.goto (.closed none), a)
    | .charging r =>
      let (ok, a) := a.checkAndUse clock r.found.uid t.raw.length
      some (t.goto (if ok then .dialing r else .closed none), a)
    | _ => none
  | .dialed up down =>
    match t.stage with
    | .dialing r =>
      if r.initialData ≠ [] ∨ r.extraChunks ≠ [] then
        some ({ t with stage := .draining r, head := r.head }, a)
      else some (t.goto (relays r up down), a)
    | _ => none
  | .drained up down =>
    match t.stage with
    | .draining r => some (t.goto (relays r up down), a)
    | _ => none
  | .up e =>
    match t.stage with
    | .relaying r up down =>
      (up.next (t.endpoint.up c) a e).map fun x => (t.goto (.relaying r x.1 down), x.2)
    | _ => none
  | .down e =>
    match t.stage with
    | .relaying r up down =>
      (down.next (.ssDown c) a e).map fun x => (t.goto (.relaying r up x.1), x.2)
    | _ => none
  | .finish =>
    match t.stage with
    | .relaying r up down =>
      if up.stage = .finished ∧ down.stage = .finished then
        some (t.goto (.closed (some (r, up, down))), a)
      else none
    | _ => none

/-- The request of a connection that is charged for, and what comes after. -/
def request : Option SsRequest :=
  match t.stage with
  | .charging r => some r
  | .dialing r => some r
  | .draining r => some r
  | .relaying r _ _ => some r
  | .closed (some (r, _, _)) => some r
  | _ => none

/-- The relays of a connection, running or ended. -/
def relayed : Option (SsRequest × Relay AEADStream Unit × Relay Unit AEADStream) :=
  match t.stage with
  | .relaying r up down => some (r, up, down)
  | .closed relays => relays
  | _ => none

/-- What has been received, in the handshake and by the relay. -/
def received : Bytes := t.raw ++ ((t.relayed.map fun x => x.2.1.received.flatten).getD [])

end SsTunnel

/-- A connection, and changes of the links by others. -/
def ssMachine (c : Crypto) : Machine (SsTunnel × Accounts) (SsEvent ⊕ Accounts) where
  step s
    | .inl e => s.1.next c s.2 e
    | .inr accounts => some (s.1, accounts)

/-! ### What is found -/

section Found

variable {c : Crypto} {ep : SsEndpoint} {look : Look} {raw wire : Bytes} {m : Match} {d : CoreLink}
  {info : CipherInfo}

/-- The stream of a link has opened the chunks of a match. -/
structure Finds (c : Crypto) (look : Look) (raw : Bytes) (m : Match) (d : CoreLink)
    (info : CipherInfo) : Prop where
  cipher : cipherOf d = some info
  opens : ((init c (deriveKey c d.ssPassword info.keyLen) info (look.draw m.uid)).feed
    raw).tryDecryptChunks c = ⟨m.chunks, .ok m.stream⟩
  chunks : m.chunks ≠ []

theorem findLoop_spec {es : List (String × CoreLink)}
    (h : SsEndpoint.findLoop c look.draw raw es = .ok (some m)) :
    ∃ d info, (m.uid, d) ∈ es ∧ Finds c look raw m d info := by
  induction es with
  | nil => cases h
  | cons e es ih =>
    obtain ⟨uid, d⟩ := e
    have hlater (h : SsEndpoint.findLoop c look.draw raw es = .ok (some m)) :
        ∃ d' info, (m.uid, d') ∈ (uid, d) :: es ∧ Finds c look raw m d' info := by
      obtain ⟨d', info, hd, hfinds⟩ := ih h
      exact ⟨d', info, List.mem_cons_of_mem _ hd, hfinds⟩
    rw [SsEndpoint.findLoop] at h
    split at h
    · exact hlater h
    · rename_i info hinfo
      dsimp only at h
      split at h
      · split_ifs at h
        exact hlater h
      · rename_i chunks stream hopens
        split_ifs at h with hchunks
        · cases h
          exact ⟨d, info, List.mem_cons_self, hinfo, hopens, hchunks⟩
        · exact hlater h

theorem tryLink_spec {uid : String} (h : tryLink c look.draw raw (uid, d) = .ok (some m)) :
    m.uid = uid ∧ ∃ info, Finds c look raw m d info := by
  rw [tryLink] at h
  split at h
  · cases h
  · rename_i info hinfo
    dsimp only at h
    cases hopens : ((init c (deriveKey c d.ssPassword info.keyLen) info (look.draw uid)).feed
        raw).tryDecryptChunks c with
    | mk chunks ending =>
      rw [hopens] at h
      cases ending with
      | error exc =>
        rw [taken] at h
        split_ifs at h
        cases h
      | ok stream =>
        cases chunks with
        | nil => cases h
        | cons p ps =>
          rw [taken] at h
          split_ifs at h with hp
          · cases h
          · cases h
            exact ⟨rfl, info, hinfo, hopens, List.cons_ne_nil _ _⟩

/-- A match is that of a link that was tried, whose key opens the chunks. -/
theorem find_spec (h : ep.find c look raw = .ok (some m)) :
    ∃ d info, (m.uid, d) ∈ ep.candidates look ∧ Finds c look raw m d info := by
  cases ep with
  | webSocket => exact findLoop_spec h
  | tcp =>
    obtain ⟨pre, ⟨uid, d⟩, post, hsplit, -, htry⟩ := matchLoop_eq_some_iff.1 h
    obtain ⟨rfl, info, hfinds⟩ := tryLink_spec htry
    exact ⟨d, info, by simp [SsEndpoint.candidates, hsplit], hfinds⟩

theorem Finds.firstChunk (h : Finds c look raw m d info) :
    ∃ p ps, m.chunks = p :: ps ∧ FirstChunk c d raw p := by
  obtain ⟨p, ps, hchunks⟩ := List.exists_cons_of_ne_nil h.chunks
  refine ⟨p, ps, hchunks, ?_⟩
  have hopens := h.opens
  rw [tryDecryptChunks_eq, hchunks] at hopens
  set s := (init c (deriveKey c d.ssPassword info.keyLen) info (look.draw m.uid)).feed raw
  cases hpass : (decoder c).pass s with
  | wait s' =>
    rw [Decoder.exhaust_wait hpass] at hopens
    cases hopens
  | fail e =>
    rw [Decoder.exhaust_fail hpass] at hopens
    cases hopens
  | emit q s' =>
    rw [Decoder.exhaust_emit hpass] at hopens
    obtain ⟨rfl, -⟩ := List.cons.inj (congrArg Decoder.Outcome.items hopens)
    by_cases hsalt : info.saltLen ≤ raw.length
    · obtain ⟨l, hfront, -⟩ := round_emit ((pass_eq (ensureDecKey_init hsalt)).symm.trans hpass)
      exact ⟨info, l, h.cipher, hsalt, hfront⟩
    · have hwait : (decoder c).pass s = .wait s := by
        simp [decoder, Shadowsocks.pass, AEADStream.ensureDecKey, s, init, AEADStream.feed,
          Nat.not_le.1 hsalt]
      cases hwait.symm.trans hpass

/-- More input does not change the first chunk. -/
theorem firstChunk_mono {p : Bytes} (h : FirstChunk c d raw p) (hraw : raw <+: wire) :
    FirstChunk c d wire p := by
  obtain ⟨info, l, hinfo, hsalt, hfront⟩ := h
  obtain ⟨rest, rfl⟩ := hraw
  refine ⟨info, l, hinfo, by rw [List.length_append]; omega, ?_⟩
  rw [linkOpener, List.take_append_of_le_length hsalt, List.drop_append_of_le_length hsalt,
    ← linkOpener, front_append (by simp [hfront]) (by simp [hfront]), hfront]

/-- The stream that was found goes on where the handshake ends. -/
theorem Finds.decryptSegments (h : Finds c look raw m d info) (ds : List Bytes) :
    (init c (deriveKey c d.ssPassword info.keyLen) info (look.draw m.uid)).decryptSegments c
        ([raw] ++ ds) =
      (m.chunks ++ (m.stream.decryptSegments c ds).1, (m.stream.decryptSegments c ds).2) := by
  rw [List.singleton_append, AEADStream.decryptSegments, h.opens]

theorem sealing_ensureDecKey (s : AEADStream) : sealing (s.ensureDecKey c).2 = sealing s := by
  unfold AEADStream.ensureDecKey
  split_ifs <;> rfl

/-- Decrypting leaves the other half of a stream alone. -/
theorem sealing_pass (s : AEADStream) :
    (∀ s', (decoder c).pass s = .wait s' → sealing s' = sealing s) ∧
      ∀ p s', (decoder c).pass s = .emit p s' → sealing s' = sealing s := by
  rw [decoder_pass, Shadowsocks.pass]
  have hkey := sealing_ensureDecKey (c := c) s
  cases hready : s.ensureDecKey c with
  | mk ready t =>
    rw [hready] at hkey
    rw [← hkey]
    cases ready with
    | false =>
      refine ⟨fun s' h => ?_, fun p s' h => ?_⟩
      · cases h
        rfl
      · cases h
    | true =>
      dsimp only
      rw [round_front]
      refine ⟨fun s' h => ?_, fun p s' h => ?_⟩
      · cases hf : front (opener c t) t.decNonce t.buf with
        | short | incomplete => rw [hf] at h; cases h; rfl
        | badLength | notLength | tooLong | badPayload | chunk => rw [hf] at h; cases h
      · cases hf : front (opener c t) t.decNonce t.buf with
        | chunk => rw [hf] at h; cases h; rfl
        | short | incomplete | badLength | notLength | tooLong | badPayload => rw [hf] at h; cases h

/-- The stream that was found has not sealed anything. -/
theorem Finds.sealing (h : Finds c look raw m d info) : sealing m.stream =
    Relay.sealing (init c (deriveKey c d.ssPassword info.keyLen) info (look.draw m.uid)) := by
  have hopens := h.opens
  rw [tryDecryptChunks_eq] at hopens
  set fresh := init c (deriveKey c d.ssPassword info.keyLen) info (look.draw m.uid)
  exact Decoder.exhaust_keeps (K := fun s => Relay.sealing s = Relay.sealing fresh)
    (fun s s' hs hpass => ((sealing_pass s).1 s' hpass).trans hs)
    (fun s p s' hs hpass => ((sealing_pass s).2 p s' hpass).trans hs)
    (show Relay.sealing (fresh.feed raw) = Relay.sealing fresh from rfl) hopens

end Found

/-! ### What a turn does -/

/-- A turn of a connection, by what it does. -/
inductive SsTurn (c : Crypto) (t : SsTunnel) (a : Accounts) :
    SsEvent → SsTunnel → Accounts → Prop
  | received (chunk : Bytes) (look : Look) (hstage : t.stage = .collecting) :
    SsTurn c t a (.receive chunk look) (t.receive c chunk look) a
  | closes {e : SsEvent} {a' : Accounts} : SsTurn c t a e (t.goto (.closed none)) a'
  | parsed {clock : Clock} {m : Match} {address : String} {port hlen : ℕ}
    (hstage : t.stage = .matched m)
    (hparse : parseSocks5Addr (m.chunks.headD []) = .ok (address, port, hlen)) :
    SsTurn c t a (.lock clock) (t.goto (.charging ⟨m, address, port, hlen⟩)) a
  | charged {clock : Clock} {r : SsRequest} {a' : Accounts} (hstage : t.stage = .charging r)
    (hcharge : a.checkAndUse clock r.found.uid t.raw.length = (true, a')) :
    SsTurn c t a (.lock clock) (t.goto (.dialing r)) a'
  | writes {r : SsRequest} (up down : ℚ) (hstage : t.stage = .dialing r) :
    SsTurn c t a (.dialed up down) { t with stage := .draining r, head := r.head } a
  | dialed {r : SsRequest} (up down : ℚ) (hstage : t.stage = .dialing r) (hempty : r.head = []) :
    SsTurn c t a (.dialed up down) (t.goto (SsTunnel.relays r up down)) a
  | drained {r : SsRequest} (up down : ℚ) (hstage : t.stage = .draining r) :
    SsTurn c t a (.drained up down) (t.goto (SsTunnel.relays r up down)) a
  | up {r : SsRequest} {up up' : Relay AEADStream Unit} {down : Relay Unit AEADStream}
    {e : RelayEvent} {a' : Accounts} (hstage : t.stage = .relaying r up down)
    (hnext : up.next (t.endpoint.up c) a e = some (up', a')) :
    SsTurn c t a (.up e) (t.goto (.relaying r up' down)) a'
  | down {r : SsRequest} {up : Relay AEADStream Unit} {down down' : Relay Unit AEADStream}
    {e : RelayEvent} {a' : Accounts} (hstage : t.stage = .relaying r up down)
    (hnext : down.next (.ssDown c) a e = some (down', a')) :
    SsTurn c t a (.down e) (t.goto (.relaying r up down')) a'
  | leaves {r : SsRequest} {up : Relay AEADStream Unit} {down : Relay Unit AEADStream}
    (hstage : t.stage = .relaying r up down) :
    SsTurn c t a .finish (t.goto (.closed (some (r, up, down)))) a

/-- The turns. -/
theorem ssTurn_of_next {c : Crypto} {t t' : SsTunnel} {a a' : Accounts} {e : SsEvent}
    (h : t.next c a e = some (t', a')) : SsTurn c t a e t' a' := by
  cases e with
  | receive chunk look =>
    simp only [SsTunnel.next] at h
    split at h
    · rename_i hstage
      cases h
      exact .received chunk look hstage
    · cases h
  | fail =>
    simp only [SsTunnel.next] at h
    split at h <;> cases h
    exact .closes
  | lock clock =>
    simp only [SsTunnel.next] at h
    split at h
    · rename_i hstage
      split_ifs at h
      · split at h
        · cases h
          exact .closes
        · rename_i hparse
          cases h
          exact .parsed hstage hparse
      · cases h
        exact .closes
    · rename_i r hstage
      cases hcharge : a.checkAndUse clock r.found.uid t.raw.length with
      | mk ok charged =>
        rw [hcharge] at h
        cases ok with
        | false =>
          cases h
          exact .closes
        | true =>
          cases h
          exact .charged hstage hcharge
    · cases h
  | dialed up down =>
    simp only [SsTunnel.next] at h
    split at h
    · rename_i r hstage
      split_ifs at h with hfirst
      · cases h
        exact .writes up down hstage
      · -- with nothing behind the address the relays start at once
        cases h
        push Not at hfirst
        exact .dialed up down hstage (by simp [SsRequest.head, hfirst.1, hfirst.2])
    · cases h
  | drained up down =>
    simp only [SsTunnel.next] at h
    split at h
    · rename_i hstage
      cases h
      exact .drained up down hstage
    · cases h
  | up e =>
    simp only [SsTunnel.next] at h
    split at h
    · rename_i hstage
      obtain ⟨⟨up', a₁⟩, hnext, h⟩ := Option.map_eq_some_iff.1 h
      cases h
      exact .up hstage hnext
    · cases h
  | down e =>
    simp only [SsTunnel.next] at h
    split at h
    · rename_i hstage
      obtain ⟨⟨down', a₁⟩, hnext, h⟩ := Option.map_eq_some_iff.1 h
      cases h
      exact .down hstage hnext
    · cases h
  | finish =>
    simp only [SsTunnel.next] at h
    split at h
    · rename_i hstage
      split_ifs at h
      cases h
      exact .leaves hstage
    · cases h

/-! ### What every step keeps -/

section Sound

variable {c : Crypto} {P : Look → Prop}

/-- The match was found in the handshake, when something was seen of which `P` holds. -/
def FoundAt (c : Crypto) (P : Look → Prop) (ep : SsEndpoint) (raw : Bytes) (m : Match) : Prop :=
  ∃ look, P look ∧ ep.find c look raw = .ok (some m)

/-- The target of a request stands in the first payload that was found. -/
def SsRequest.Sound (c : Crypto) (P : Look → Prop) (ep : SsEndpoint) (raw : Bytes)
    (r : SsRequest) : Prop :=
  FoundAt c P ep raw r.found ∧
    parseSocks5Addr (r.found.chunks.headD []) = .ok (r.address, r.port, r.hlen)

/-- The relays have started on the stream that was found, behind what came with the handshake. -/
def SoundRelays (c : Crypto) (P : Look → Prop) (ep : SsEndpoint) (raw head : Bytes) (r : SsRequest)
    (up : Relay AEADStream Unit) (down : Relay Unit AEADStream) : Prop :=
  r.Sound c P ep raw ∧ head = r.head ∧ Kept (ep.up c) r.found.stream () up ∧
    Kept (.ssDown c) () r.found.stream down

/-- What is known at each stage, with `raw` received in the handshake and `head` written. -/
def SsStage.Sound (c : Crypto) (P : Look → Prop) (ep : SsEndpoint) (raw head : Bytes) :
    SsStage → Prop
  | .collecting => head = []
  | .matched m => FoundAt c P ep raw m ∧ head = []
  | .charging r => r.Sound c P ep raw ∧ head = []
  | .dialing r => r.Sound c P ep raw ∧ head = []
  | .draining r => r.Sound c P ep raw ∧ head = r.head
  | .relaying r up down => SoundRelays c P ep raw head r up down
  | .closed none => True
  | .closed (some (r, up, down)) => SoundRelays c P ep raw head r up down

/-- What is known of a connection. -/
def SsTunnel.Sound (c : Crypto) (P : Look → Prop) (t : SsTunnel) : Prop :=
  t.stage.Sound c P t.endpoint t.raw t.head

variable {t t' : SsTunnel} {a a' : Accounts}

theorem receive_sound (hs : t.Sound c P) (hstage : t.stage = .collecting) {chunk : Bytes} {look : Look}
    (hP : P look) : (t.receive c chunk look).Sound c P := by
  have hhead : t.head = [] := by
    rw [SsTunnel.Sound, hstage] at hs
    exact hs
  unfold SsTunnel.receive
  split_ifs
  · cases t.endpoint with
    | webSocket => exact hs
    | tcp => trivial
  dsimp only
  split
  · trivial
  · split
    · trivial
    · rename_i m hfind
      exact ⟨⟨look, hP, hfind⟩, hhead⟩
    · split
      · trivial
      · rw [SsTunnel.Sound]
        dsimp only
        rw [hstage]
        exact hhead

theorem endpoint_receive (t : SsTunnel) (chunk : Bytes) (look : Look) :
    (t.receive c chunk look).endpoint = t.endpoint := by
  unfold SsTunnel.receive
  split
  · split <;> rfl
  · dsimp only
    split
    · rfl
    · split
      · rfl
      · rfl
      · split <;> rfl

theorem endpoint_turn {e : SsEvent} (h : SsTurn c t a e t' a') : t'.endpoint = t.endpoint := by
  cases h with
  | received chunk look => exact endpoint_receive t chunk look
  | closes | parsed | charged | writes | dialed | drained | up | down | leaves => rfl

theorem relays_sound {ep : SsEndpoint} {raw : Bytes} {r : SsRequest} (hr : r.Sound c P ep raw)
    (monotonicUp monotonicDown : ℚ) :
    (SsTunnel.relays r monotonicUp monotonicDown).Sound c P ep raw r.head :=
  ⟨hr, rfl, kept_start _ _ _, kept_start _ _ _⟩

/-- A turn keeps what is known. -/
theorem turn_sound {e : SsEvent} (hs : t.Sound c P) (h : SsTurn c t a e t' a')
    (hP : ∀ chunk look, e = .receive chunk look → P look) : t'.Sound c P := by
  have hknown : ∀ {stage}, t.stage = stage → stage.Sound c P t.endpoint t.raw t.head :=
    fun hstage => hstage ▸ hs
  cases h with
  | received chunk look hstage => exact receive_sound hs hstage (hP chunk look rfl)
  | closes => trivial
  | parsed hstage hparse =>
    obtain ⟨hfound, hhead⟩ := hknown hstage
    exact ⟨⟨hfound, hparse⟩, hhead⟩
  | charged hstage =>
    obtain ⟨hr, hhead⟩ := hknown hstage
    exact ⟨hr, hhead⟩
  | writes _ _ hstage => exact ⟨(hknown hstage).1, rfl⟩
  | dialed up down hstage hempty =>
    obtain ⟨hr, hhead⟩ := hknown hstage
    have hrelays := relays_sound hr up down
    rwa [hempty, ← hhead] at hrelays
  | drained up down hstage =>
    obtain ⟨hr, hhead⟩ := hknown hstage
    have hrelays := relays_sound hr up down
    rwa [← hhead] at hrelays
  | up hstage hnext =>
    obtain ⟨hr, hhead, hup, hdown⟩ := hknown hstage
    exact ⟨hr, hhead, hup.next hnext, hdown⟩
  | down hstage hnext =>
    obtain ⟨hr, hhead, hup, hdown⟩ := hknown hstage
    exact ⟨hr, hhead, hup, hdown.next hnext⟩
  | leaves hstage => exact (hknown hstage :)

/-- Every run keeps what is known, and the endpoint. -/
theorem ss_sound_of_run {ep : SsEndpoint} {es : List (SsEvent ⊕ Accounts)}
    (h : (ssMachine c).run (.start ep, a) es = some (t, a'))
    (hP : ∀ chunk look, .inl (.receive chunk look) ∈ es → P look) :
    t.Sound c P ∧ t.endpoint = ep := by
  have hstep : ∀ (u : SsTunnel × Accounts) (e : SsEvent ⊕ Accounts) (v : SsTunnel × Accounts),
      e ∈ es → u.1.Sound c P ∧ u.1.endpoint = ep → (ssMachine c).step u e = some v →
        v.1.Sound c P ∧ v.1.endpoint = ep := by
    intro u e v he hu hv
    cases e with
    | inl e =>
      have hturn := ssTurn_of_next hv
      exact ⟨turn_sound hu.1 hturn fun chunk look hreceive => hP chunk look (hreceive ▸ he),
        (endpoint_turn hturn).trans hu.2⟩
    | inr accounts =>
      cases hv
      exact hu
  exact Machine.run_invariant_mem (I := fun u => u.1.Sound c P ∧ u.1.endpoint = ep) hstep h ⟨rfl, rfl⟩

end Sound

/-! ### From end to end -/

/-- No link that is tried has a key that opens the first chunk of the client, but that of the client,
which has the password and the cipher of the client. -/
structure Look.Separate (c : Crypto) (ep : SsEndpoint) (wire : Bytes) (uid password : String)
    (info : CipherInfo) (look : Look) : Prop where
  own : ∀ d, (uid, d) ∈ ep.candidates look → d.ssPassword = password ∧ cipherOf d = some info
  others : ∀ e ∈ ep.candidates look, e.1 ≠ uid → ∀ p, ¬ FirstChunk c e.2 wire p
  salt : (look.draw uid).length = info.saltLen

section Ends

variable {c : Crypto} {ep : SsEndpoint} {info : CipherInfo} {uid password : String}
  {raw wire : Bytes} {m : Match}

/-- The link that is found for a front part of a client's wire. -/
theorem FoundAt.own (h : FoundAt c (Look.Separate c ep wire uid password info) ep raw m)
    (hraw : raw <+: wire) : m.uid = uid ∧ m.chunks ≠ [] ∧ ∃ salt, salt.length = info.saltLen ∧
      (∀ ds, (init c (deriveKey c password info.keyLen) info salt).decryptSegments c ([raw] ++ ds) =
        (m.chunks ++ (m.stream.decryptSegments c ds).1, (m.stream.decryptSegments c ds).2)) ∧
      sealing m.stream = sealing (init c (deriveKey c password info.keyLen) info salt) := by
  obtain ⟨look, hseparate, hfind⟩ := h
  obtain ⟨d, info', hd, hfinds⟩ := find_spec hfind
  obtain ⟨p, ps, -, hfirst⟩ := hfinds.firstChunk
  have huid : m.uid = uid := by
    by_contra hne
    exact hseparate.others _ hd hne p (firstChunk_mono hfirst hraw)
  obtain ⟨hpassword, hinfo⟩ := hseparate.own d (huid ▸ hd)
  obtain rfl : info' = info := Option.some.inj (hfinds.cipher.symm.trans hinfo)
  refine ⟨huid, hfinds.chunks, look.draw m.uid, huid ▸ hseparate.salt, fun ds => ?_, ?_⟩
  · rw [← hpassword]
    exact hfinds.decryptSegments ds
  · rw [← hpassword]
    exact hfinds.sealing

theorem SsTunnel.Sound.request {P : Look → Prop} {t : SsTunnel} {r : SsRequest} (h : t.Sound c P)
    (hr : t.request = some r) : r.Sound c P t.endpoint t.raw := by
  cases t with
  | mk endpoint raw stage head =>
    cases stage with
    | collecting => cases hr
    | matched _ => cases hr
    | charging _ => cases hr; exact h.1
    | dialing _ => cases hr; exact h.1
    | draining _ => cases hr; exact h.1
    | relaying _ _ _ => cases hr; exact h.1
    | closed relays =>
      cases relays with
      | none => cases hr
      | some _ => cases hr; exact h.1

theorem SsTunnel.Sound.relayed {P : Look → Prop} {t : SsTunnel} {r : SsRequest}
    {up : Relay AEADStream Unit} {down : Relay Unit AEADStream} (h : t.Sound c P)
    (hr : t.relayed = some (r, up, down)) :
    SoundRelays c P t.endpoint t.raw t.head r up down ∧ t.request = some r ∧
      t.received = ([t.raw] ++ up.received).flatten := by
  have hreceived : t.received = ([t.raw] ++ up.received).flatten := by
    rw [SsTunnel.received, hr]
    rfl
  refine ⟨?_, ?_, hreceived⟩ <;>
  · cases t with
    | mk endpoint raw stage head =>
      cases stage with
      | collecting | matched | charging | dialing | draining => cases hr
      | relaying _ _ _ =>
        cases hr
        first | exact h | rfl
      | closed relays =>
        cases relays with
        | none => cases hr
        | some _ =>
          cases hr
          first | exact h | rfl

/-- The client's payloads: the first starts with the address. -/
def sealedPayloads (target : SocksAddress) (data : Bytes) (rest : List Bytes) : List Bytes :=
  (target.encode ++ data) :: rest

theorem SsTunnel.raw_prefix (t : SsTunnel) : t.raw <+: t.received := List.prefix_append _ _

/-- What is read off the first payload of a client. -/
theorem SsRequest.Sound.target (hc : c.aead.Correct) {name : String}
    (hname : ciphers name = some info) {clientSalt : Bytes} (hsalt : clientSalt.length = info.saltLen)
    {target : SocksAddress} {data : Bytes} {rest : List Bytes} {client : AEADStream}
    (hwire : (init c (deriveKey c password info.keyLen) info clientSalt).encryptChunks c
      (sealedPayloads target data rest) = .ok (wire, client)) {r : SsRequest}
    (h : r.Sound c (Look.Separate c ep wire uid password info) ep raw) (hraw : raw <+: wire) :
    r.found.uid = uid ∧ r.address = target.address.text ∧ r.port = Bytes.toNatBE target.port ∧
      ∀ out, r.head ++ out = (r.found.chunks.flatten ++ out).drop target.encode.length := by
  obtain ⟨hfound, hparse⟩ := h
  obtain ⟨huid, hne, salt, -, hopens, -⟩ := hfound.own hraw
  have hfront : r.found.chunks <+: sealedPayloads target data rest := by
    have hin := decryptSegments_front (c := c) (deriveKey c password info.keyLen) salt info hraw
    rw [decryptSegments_wire _ _ salt hc hname hsalt hwire] at hin
    have hraw := hopens []
    rw [List.append_nil] at hraw
    rw [hraw, AEADStream.decryptSegments, List.append_nil] at hin
    exact hin.trans (List.takeWhile_prefix _)
  obtain ⟨p, ps, hchunks⟩ := List.exists_cons_of_ne_nil hne
  rw [hchunks] at hfront hparse
  obtain rfl : p = target.encode ++ data := (List.cons_prefix_cons.1 hfront).1
  rw [List.headD_cons, parseSocks5Addr_encode] at hparse
  obtain ⟨haddress, hport, hlen⟩ : target.address.text = r.address ∧
      Bytes.toNatBE target.port = r.port ∧ target.encode.length = r.hlen := by
    simpa only [SocksAddress.parsed, Except.ok.injEq, Prod.mk.injEq] using hparse
  refine ⟨huid, haddress.symm, hport.symm, fun out => ?_⟩
  rw [SsRequest.head, SsRequest.initialData, SsRequest.extraChunks, hchunks, ← hlen, List.headD_cons,
    List.drop_left, List.tail_cons, List.flatten_cons, List.append_assoc, List.append_assoc,
    List.append_assoc, List.drop_left]

/-- **A connection from end to end.**  A client seals its target, and data behind it, with the key of
the link `uid`; no other link that the server tries opens its first chunk.  In every run in which what
has come in is a front part of the client's wire, in pieces of any size: when the connection has a
target, it is that of the client, on the account of the link; the target has a front part of the data,
and all of it if the wire is in and the relay waits for more; and the client opens a front part of what
the target has sent, and all of it if the relay waits and no read was longer than a chunk may be. -/
theorem ssTunnel_faithful (c : Crypto) (hc : c.aead.Correct) (hnb : c.aead.NonceBound) (name : String)
    (info : CipherInfo) (hname : ciphers name = some info) (uid password : String) (clientSalt : Bytes)
    (hsalt : clientSalt.length = info.saltLen) (target : SocksAddress) (data : Bytes)
    (rest : List Bytes) (wire : Bytes) (client : AEADStream)
    (hwire : (init c (deriveKey c password info.keyLen) info clientSalt).encryptChunks c
      (sealedPayloads target data rest) = .ok (wire, client))
    (ep : SsEndpoint) (a : Accounts) (es : List (SsEvent ⊕ Accounts)) (t : SsTunnel) (a' : Accounts)
    (h : (ssMachine c).run (.start ep, a) es = some (t, a'))
    (hlooks : ∀ chunk look, .inl (.receive chunk look) ∈ es →
      look.Separate c ep wire uid password info)
    (hreceived : t.received <+: wire) :
    (∀ r, t.request = some r →
      r.found.uid = uid ∧ r.address = target.address.text ∧ r.port = Bytes.toNatBE target.port) ∧
    ∀ r up down, t.relayed = some (r, up, down) →
      (t.head ++ up.written <+: data ++ rest.flatten ∧
        (up.stage = .waiting → t.received = wire → t.head ++ up.written = data ++ rest.flatten)) ∧
      ∃ opened e, (init c (deriveKey c password info.keyLen) info clientSalt).decryptSegments c
          [down.written] = (opened, e) ∧ opened.flatten <+: down.received.flatten ∧
        (down.stage = .waiting → (∀ d ∈ down.received, d.length ≤ maxChunk) →
          e = none ∧ opened.flatten = down.received.flatten) := by
  obtain ⟨hsound, rfl⟩ := ss_sound_of_run h hlooks
  have hraw : t.raw <+: wire := t.raw_prefix.trans hreceived
  constructor
  · intro r hr
    obtain ⟨huid, haddress, hport, -⟩ := (hsound.request hr).target hc hname hsalt hwire hraw
    exact ⟨huid, haddress, hport⟩
  · intro r up down hr
    obtain ⟨⟨hrequest, hhead, hup, hdown⟩, -, hin⟩ := hsound.relayed hr
    obtain ⟨-, -, -, hrest⟩ := hrequest.target hc hname hsalt hwire hraw
    obtain ⟨-, -, salt, hserver, hopens, hsealing⟩ := hrequest.1.own hraw
    have hopener : Opens c (t.endpoint.up c) := by
      cases t.endpoint with
      | webSocket => exact .inl rfl
      | tcp => exact .inr rfl
    rw [hin] at hreceived ⊢
    obtain ⟨hfront, hall⟩ :=
      opened_up hc hnb hname hsalt hwire hopener [t.raw] r.found.chunks hopens hup hreceived
    have hdata : (sealedPayloads target data rest).flatten.drop target.encode.length =
        data ++ rest.flatten := by
      rw [sealedPayloads, List.flatten_cons, List.append_assoc, List.drop_left]
    rw [hhead, hrest, ← hdata]
    exact ⟨⟨hfront.drop _, fun hwaiting hwhole => by rw [hall hwaiting hwhole]⟩,
      opened_down hc hname clientSalt hserver hsealing hdown⟩

/-- Port 8081 of 10.1.2.3. -/
def sampleTarget : SocksAddress := ⟨.ipv4 [10, 1, 2, 3] (by decide), [31, 145], by decide⟩

/-- The client of `tcpLink`, without encryption. -/
def sampleClient : Except Exc (Bytes × AEADStream) :=
  (init .transparent (deriveKey .transparent "pw" 32) ⟨32, 32, 12, .AESGCM⟩
    (List.replicate 32 0)).encryptChunks .transparent (sealedPayloads sampleTarget [0xAA] [[0xBB]])

/-- What it sends. -/
def sampleWire : Bytes := (sampleClient.toOption.map Prod.fst).getD []

/-- The link is looked for in a table with nothing else. -/
def sampleLook : Look := ⟨0, (∅ : Dict String CoreLink).set "u" tcpLink, fun _ => List.replicate 32 0⟩

theorem sampleLook_separate :
    sampleLook.Separate .transparent .tcp sampleWire "u" "pw" ⟨32, 32, 12, .AESGCM⟩ where
  own d hd := by
    cases List.mem_singleton.1 hd
    exact ⟨rfl, rfl⟩
  others e he hne := by
    cases List.mem_singleton.1 he
    exact absurd rfl hne
  salt := rfl

/-- The handshake comes in in two pieces, the rest behind it. -/
def sampleRun : Option (SsTunnel × Accounts) :=
  (ssMachine .transparent).run
    (.start .tcp, ⟨(∅ : Links).set "u" tcpLink.toLink, 0, ∅⟩)
    [.inl (.receive (sampleWire.take 40) sampleLook),
      .inl (.receive ((sampleWire.drop 40).take 34) sampleLook), .inl (.lock ⟨0, 0⟩),
      .inl (.lock ⟨0, 0⟩), .inl (.dialed 0 0), .inl (.drained 0 0),
      .inl (.up (.data (sampleWire.drop 74))), .inl (.up (.pass (Quota.readingAt 0)))]

example : sampleRun.map (fun x => x.1.relayed.map fun y =>
    (y.1.address, y.1.port, x.1.head, y.2.1.written)) =
      some (some ("10.1.2.3", 8081, [0xAA], [0xBB])) := by
  decide +kernel

theorem ssTunnel_faithful_sample : ∃ t a', sampleRun = some (t, a') ∧
    ∀ r, t.request = some r → r.found.uid = "u" ∧ r.address = "10.1.2.3" ∧ r.port = 8081 := by
  obtain ⟨⟨t, a'⟩, hrun⟩ := Option.isSome_iff_exists.1 (by decide +kernel : sampleRun.isSome)
  obtain ⟨⟨wire, client⟩, hclient⟩ :=
    Option.isSome_iff_exists.1 (by decide +kernel : sampleClient.toOption.isSome)
  have hreceived : sampleRun.map (fun x => x.1.received) = some sampleWire := by decide +kernel
  rw [hrun] at hreceived
  have hwire : sampleWire = wire := by rw [sampleWire, hclient]; rfl
  have hsealed : sampleClient = .ok (sampleWire, client) := by
    cases hs : sampleClient with
    | error e => rw [hs] at hclient; cases hclient
    | ok r =>
      rw [hs] at hclient
      rw [hwire, Option.some.inj hclient]
  refine ⟨t, a', hrun, ?_⟩
  exact (ssTunnel_faithful .transparent Crypto.transparent_correct Aead.transparent_nonceBound
    "aes-256-gcm" ⟨32, 32, 12, .AESGCM⟩ rfl "u" "pw" (List.replicate 32 0) rfl sampleTarget [0xAA]
    [[0xBB]] sampleWire client hsealed .tcp _ _ t a' hrun
    (by
      intro chunk look hlook
      obtain ⟨-, rfl⟩ | ⟨-, rfl⟩ : (chunk = sampleWire.take 40 ∧ look = sampleLook) ∨
          (chunk = (sampleWire.drop 40).take 34 ∧ look = sampleLook) := by simpa using hlook
      · exact sampleLook_separate
      · exact sampleLook_separate)
    (Option.some.inj hreceived ▸ List.prefix_rfl)).1

end Ends

end Relay

end RvgGateway
