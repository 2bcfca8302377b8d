import RvgGateway.Relay.Grammar
import RvgGateway.Relay.Pump
import RvgGateway.Trojan.HashCache

/-!
# WebSocket tunnels

`websocket_tunnel` of `protocol/vless/websocket.py` and `trojan_ws_tunnel` of
`protocol/trojan/websocket.py` take a first message, find out from it where to connect to, charge it,
connect, and let two relays run.  The first relay to end has the other one cancelled.  While a tunnel
is served it has an entry in `connections`, which the panel shows.

VLESS names its user in the path, and the entry is there before the first message.  Trojan names him
by a hash, which `_hash_cache` maps back, and has its entry when that is done.

* `gatewayMachine` : any number of tunnels, cut at their awaits, and changes of the links by others.
* `tunnel_faithful` : **the target gets what follows the header, the client what the target sends.**
* `connections_exact` : **the entries are those of the tunnels that are served, with their bytes.**
* `dialed_authorized` : **no target is connected before its first message is charged to a link that is
  allowed, and to the link that the client has named.**
-/

namespace RvgGateway

namespace Relay

open Quota (GateClass)
open Trojan (HashCache)

/-! ### Tunnels -/

/-- Which endpoint a client has connected to. -/
inductive Endpoint where
  /-- `/ws/{uuid}`. -/
  | vless (uuid : String)
  /-- `/trojan-ws`. -/
  | trojan
  deriving DecidableEq

/-- `transport` of the entry. -/
def Endpoint.transport : Endpoint → String
  | vless _ => "vless-ws"
  | trojan => "trojan-ws"

/-- The gates of the relays. -/
def Endpoint.gateClass : Endpoint → GateClass
  | vless _ => .vless
  | trojan => .trojan

/-- Whether the answer starts with the response header of VLESS. -/
def Endpoint.vlessPrefix : Endpoint → Bool
  | vless _ => true
  | trojan => false

/-- An entry of `connections`. -/
structure Connection where
  uuid : String
  ip : String
  transport : String
  connectedAt : String
  bytes : ℕ
  deriving DecidableEq

/-- What is known of a tunnel when its first message is read. -/
structure Opened where
  uuid : String
  /-- The first message. -/
  first : Bytes
  parsed : Parsed

/-- Where the handler of a tunnel waits. -/
inductive TunnelStage where
  /-- For the first message. -/
  | handshake
  /-- For `LINKS_LOCK` in `_resolve_and_authorize`, with what the cache says. -/
  | resolving (uuid : Option String) (first : Bytes) (parsed : Parsed)
  /-- For `LINKS_LOCK`, to read the label of the link. -/
  | labelling (o : Opened)
  /-- For `LINKS_LOCK` in `check_and_use`. -/
  | charging (o : Opened)
  /-- For `open_connection`. -/
  | dialing (o : Opened)
  /-- For `drain` behind the rest of the first message. -/
  | draining (o : Opened)
  /-- For a relay to end, or, when the other one is cancelled, for that one. -/
  | relaying (o : Opened) (up : Relay Unit Unit) (down : Relay Unit Bool) (cancelled : Bool)
  /-- It has returned; with the relays, if it came to them. -/
  | closed (relays : Option (Opened × Relay Unit Unit × Relay Unit Bool))

/-- A tunnel. -/
structure Tunnel where
  endpoint : Endpoint
  ip : String
  connectedAt : String
  stage : TunnelStage
  /-- What has been written to the target before the relays. -/
  head : Bytes

/-- The gateway. -/
structure Gateway where
  accounts : Accounts
  /-- `_hash_cache`. -/
  hashCache : HashCache
  /-- `connections`. -/
  connections : Dict String Connection
  /-- The tunnels by their `conn_id`. -/
  tunnels : Dict String Tunnel

/-- What happens to a tunnel that has been accepted. -/
inductive TunnelEvent where
  /-- The first message comes in; it may be empty. -/
  | message (chunk : Bytes)
  /-- What the handler awaits times out, is disconnected, or raises. -/
  | fail
  /-- It gets the lock. -/
  | lock (clock : Clock)
  /-- `open_connection` returns. -/
  | dialed (monotonicUp monotonicDown : ℚ)
  /-- `drain` returns. -/
  | drained (monotonicUp monotonicDown : ℚ)
  /-- A turn of `relay_ws_to_tcp`. -/
  | up (e : RelayEvent)
  /-- A turn of `relay_tcp_to_ws`. -/
  | down (e : RelayEvent)
  /-- `asyncio.wait` returns, and the other relay is cancelled if it has not ended. -/
  | wake (inCheck : Bool)
  /-- Both relays have ended. -/
  | finish

/-- What happens to the gateway. -/
inductive GatewayEvent where
  /-- A client connects to an endpoint, and `conn_id` is drawn. -/
  | accept (id : String) (endpoint : Endpoint) (ip connectedAt : String) (clock : Clock)
  | tunnel (id : String) (e : TunnelEvent)
  /-- Requests and tasks change the links. -/
  | links (accounts : Accounts)

namespace Tunnel

/-- The tunnel at another place. -/
def moved (t : Tunnel) (stage : TunnelStage) : Tunnel := { t with stage }

/-- Its entry in `connections` when it is made. -/
def entry (t : Tunnel) (uuid : String) : Connection :=
  ⟨uuid, t.ip, t.endpoint.transport, t.connectedAt, 0⟩

/-- The relays start. -/
def relays (t : Tunnel) (o : Opened) (monotonicUp monotonicDown : ℚ) : TunnelStage :=
  .relaying o (.start t.endpoint.gateClass o.uuid monotonicUp () ())
    (.start t.endpoint.gateClass o.uuid monotonicDown () true) false

/-- Cancel a relay that has not ended. -/
def cancelPending {σ τ : Type} (inCheck : Bool) (r : Relay σ τ) : Relay σ τ :=
  if r.stage = .finished then r else r.cancel inCheck

end Tunnel

namespace Gateway

/-- The handler of the tunnel goes on to another place. -/
def goto (s : Gateway) (id : String) (t : Tunnel) (stage : TunnelStage) : Gateway :=
  { s with tunnels := s.tunnels.set id (t.moved stage) }

/-- It returns; `finally` takes the entry away. -/
def close (s : Gateway) (id : String) (t : Tunnel)
    (relays : Option (Opened × Relay Unit Unit × Relay Unit Bool)) : Gateway :=
  { s with
    connections := s.connections.erase id
    tunnels := s.tunnels.set id (t.moved (.closed relays)) }

/-- Count bytes in the entry. -/
def count (s : Gateway) (id : String) (n : ℕ) : Gateway :=
  { s with connections := s.connections.modify id fun c => { c with bytes := c.bytes + n } }

/-- The first message is there. -/
def first (sha224 : String → String) (s : Gateway) (id : String) (t : Tunnel) (chunk : Bytes) :
    Gateway :=
  if chunk = [] then s.close id t none
  else
    match t.endpoint with
    | .vless uuid =>
      match parseVlessHeader chunk with
      | none => s.close id t none
      | some parsed => s.goto id t (.charging ⟨uuid, chunk, parsed⟩)
    | .trojan =>
      match parseTrojanHeader chunk with
      | none => s.close id t none
      | some (pwHash, parsed) =>
        let (uuid, hashCache) := s.hashCache.findUuid sha224 s.accounts.links pwHash
        { s with hashCache }.goto id t (.resolving uuid chunk parsed)

/-- The handler gets the lock. -/
def locked (s : Gateway) (id : String) (t : Tunnel) (clock : Clock) : TunnelStage → Option Gateway
  | .resolving uuid first parsed =>
    match uuid with
    | none => some (s.close id t none)
    | some uuid =>
      if uuid ≠ "" ∧ s.accounts.allows clock uuid then
        some (s.goto id t (.labelling ⟨uuid, first, parsed⟩))
      else some (s.close id t none)
  | .labelling o =>
    -- without the link its label cannot be read, behind the making of the entry
    if s.accounts.links.contains o.uuid then
      some ({ s with connections := s.connections.set id (t.entry o.uuid) }.goto id t (.charging o))
    else some (s.close id t none)
  | .charging o =>
    let (ok, accounts) := s.accounts.checkAndUse clock o.uuid o.first.length
    let s := { s with accounts }
    if ok then some ((s.count id o.first.length).goto id t (.dialing o))
    else some (s.close id t none)
  | _ => none

/-- A turn of a tunnel. -/
def turn (sha224 : String → String) (s : Gateway) (id : String) (t : Tunnel) :
    TunnelEvent → Option Gateway
  | .message chunk =>
    match t.stage with
    | .handshake => some (s.first sha224 id t chunk)
    | _ => none
  | .fail =>
    match t.stage with
    | .relaying _ _ _ _ => none
    | .closed _ => none
    | _ => some (s.close id t none)
  | .lock clock => s.locked id t clock t.stage
  | .dialed up down =>
    match t.stage with
    | .dialing o =>
      if o.parsed.payload = [] then some (s.goto id t (t.relays o up down))
      else some (s.goto id { t with head := o.parsed.payload } (.draining o))
    | _ => none
  | .drained up down =>
    match t.stage with
    | .draining o => some (s.goto id t (t.relays o up down))
    | _ => none
  | .up e =>
    match t.stage with
    | .relaying o up down cancelled =>
      (up.next .up s.accounts e).map fun r =>
        ({ s with accounts := r.2 }.count id (r.1.passed.flatten.length - up.passed.flatten.length)).goto
          id t (.relaying o r.1 down cancelled)
    | _ => none
  | .down e =>
    match t.stage with
    | .relaying o up down cancelled =>
      (down.next (.down t.endpoint.vlessPrefix) s.accounts e).map fun r =>
        ({ s with accounts := r.2 }.count id
          (r.1.passed.flatten.length - down.passed.flatten.length)).goto
          id t (.relaying o up r.1 cancelled)
    | _ => none
  | .wake inCheck =>
    match t.stage with
    | .relaying o up down false =>
      if up.stage = .finished ∨ down.stage = .finished then
        some (s.goto id t
          (.relaying o (Tunnel.cancelPending inCheck up) (Tunnel.cancelPending inCheck down) true))
      else none
    | _ => none
  | .finish =>
    match t.stage with
    | .relaying o up down true =>
      if up.stage = .finished ∧ down.stage = .finished then some (s.close id t (some (o, up, down)))
      else none
    | _ => none

/-- A client connects. -/
def accept (s : Gateway) (id : String) (t : Tunnel) (clock : Clock) : Gateway :=
  match t.endpoint with
  | .vless uuid =>
    if s.accounts.allows clock uuid then
      { s with
        connections := s.connections.set id (t.entry uuid)
        tunnels := s.tunnels.set id t }
    else { s with tunnels := s.tunnels.set id (t.moved (.closed none)) }
  | .trojan => { s with tunnels := s.tunnels.set id t }

/-- The process after its start. -/
def init (accounts : Accounts) : Gateway := ⟨accounts, .init, ∅, ∅⟩

end Gateway

/-- The tunnels of a gateway, in any order of their turns. -/
def gatewayMachine (sha224 : String → String) : Machine Gateway GatewayEvent where
  step s
    | .accept id endpoint ip connectedAt clock =>
      if s.tunnels.contains id then none
      else some (s.accept id ⟨endpoint, ip, connectedAt, .handshake, []⟩ clock)
    | .tunnel id e =>
      match s.tunnels.get? id with
      | none => none
      | some t => s.turn sha224 id t e
    | .links accounts => some { s with accounts }

/-! ### What a turn does -/

/-- A turn of the tunnel `id`, by what it does. -/
inductive TunnelTurn (sha224 : String → String) (s : Gateway) (id : String) (t : Tunnel) :
    TunnelEvent → Gateway → Prop
  | closes {e : TunnelEvent}
    (hrelaying : ∀ o up down cancelled, t.stage ≠ .relaying o up down cancelled)
    (hclosed : ∀ relays, t.stage ≠ .closed relays) : TunnelTurn sha224 s id t e (s.close id t none)
  | vless {uuid : String} {chunk : Bytes} {parsed : Parsed} (hstage : t.stage = .handshake)
    (hendpoint : t.endpoint = .vless uuid) (hparsed : parseVlessHeader chunk = some parsed) :
    TunnelTurn sha224 s id t (.message chunk) (s.goto id t (.charging ⟨uuid, chunk, parsed⟩))
  | trojan {chunk : Bytes} {pwHash : String} {parsed : Parsed} (hstage : t.stage = .handshake)
    (hendpoint : t.endpoint = .trojan) (hparsed : parseTrojanHeader chunk = some (pwHash, parsed)) :
    TunnelTurn sha224 s id t (.message chunk)
      ({ s with hashCache := (s.hashCache.findUuid sha224 s.accounts.links pwHash).2 }.goto id t
        (.resolving (s.hashCache.findUuid sha224 s.accounts.links pwHash).1 chunk parsed))
  | resolved {uuid : String} {first : Bytes} {parsed : Parsed} (clock : Clock)
    (hstage : t.stage = .resolving (some uuid) first parsed) :
    TunnelTurn sha224 s id t (.lock clock) (s.goto id t (.labelling ⟨uuid, first, parsed⟩))
  | labelled {o : Opened} (clock : Clock) (hstage : t.stage = .labelling o) :
    TunnelTurn sha224 s id t (.lock clock)
      ({ s with connections := s.connections.set id (t.entry o.uuid) }.goto id t (.charging o))
  | charged {o : Opened} (clock : Clock) (hstage : t.stage = .charging o)
    (hallowed : s.accounts.allows clock o.uuid = true) :
    TunnelTurn sha224 s id t (.lock clock)
      (({ s with accounts := s.accounts.charge clock o.uuid o.first.length }.count id
        o.first.length).goto id t (.dialing o))
  | dialed {o : Opened} (up down : ℚ) (hstage : t.stage = .dialing o)
    (hpayload : o.parsed.payload = []) :
    TunnelTurn sha224 s id t (.dialed up down) (s.goto id t (t.relays o up down))
  | headed {o : Opened} (up down : ℚ) (hstage : t.stage = .dialing o) :
    TunnelTurn sha224 s id t (.dialed up down)
      (s.goto id { t with head := o.parsed.payload } (.draining o))
  | drained {o : Opened} (up down : ℚ) (hstage : t.stage = .draining o) :
    TunnelTurn sha224 s id t (.drained up down) (s.goto id t (t.relays o up down))
  | up {o : Opened} {up : Relay Unit Unit} {down : Relay Unit Bool} {cancelled : Bool}
    {e : RelayEvent} {r : Relay Unit Unit × Accounts}
    (hstage : t.stage = .relaying o up down cancelled)
    (hnext : up.next .up s.accounts e = some r) :
    TunnelTurn sha224 s id t (.up e)
      (({ s with accounts := r.2 }.count id
        (r.1.passed.flatten.length - up.passed.flatten.length)).goto id t
          (.relaying o r.1 down cancelled))
  | down {o : Opened} {up : Relay Unit Unit} {down : Relay Unit Bool} {cancelled : Bool}
    {e : RelayEvent} {r : Relay Unit Bool × Accounts}
    (hstage : t.stage = .relaying o up down cancelled)
    (hnext : down.next (.down t.endpoint.vlessPrefix) s.accounts e = some r) :
    TunnelTurn sha224 s id t (.down e)
      (({ s with accounts := r.2 }.count id
        (r.1.passed.flatten.length - down.passed.flatten.length)).goto id t
          (.relaying o up r.1 cancelled))
  | wakes {o : Opened} {up : Relay Unit Unit} {down : Relay Unit Bool} (inCheck : Bool)
    (hstage : t.stage = .relaying o up down false) :
    TunnelTurn sha224 s id t (.wake inCheck)
      (s.goto id t
        (.relaying o (Tunnel.cancelPending inCheck up) (Tunnel.cancelPending inCheck down) true))
  | finishes {o : Opened} {up : Relay Unit Unit} {down : Relay Unit Bool}
    (hstage : t.stage = .relaying o up down true) (hup : up.stage = .finished)
    (hdown : down.stage = .finished) :
    TunnelTurn sha224 s id t .finish (s.close id t (some (o, up, down)))

section Turns

variable {sha224 : String → String} {s s' : Gateway} {id : String} {t : Tunnel}

/-- A tunnel that is not served any more and has not come to its relays. -/
theorem TunnelTurn.closesAt {e : TunnelEvent} {stage : TunnelStage} (hstage : t.stage = stage)
    (hrelaying : ∀ o up down cancelled, stage ≠ .relaying o up down cancelled)
    (hclosed : ∀ relays, stage ≠ .closed relays) :
    TunnelTurn sha224 s id t e (s.close id t none) :=
  .closes (by rwa [hstage]) (by rwa [hstage])

theorem first_turn (hstage : t.stage = .handshake) (chunk : Bytes) :
    TunnelTurn sha224 s id t (.message chunk) (s.first sha224 id t chunk) := by
  have hcloses : TunnelTurn sha224 s id t (.message chunk) (s.close id t none) :=
    .closesAt hstage (by simp) (by simp)
  unfold Gateway.first
  split_ifs
  · exact hcloses
  · cases hendpoint : t.endpoint with
    | vless uuid =>
      cases hparsed : parseVlessHeader chunk with
      | none => exact hcloses
      | some parsed => exact .vless hstage hendpoint hparsed
    | trojan =>
      cases hparsed : parseTrojanHeader chunk with
      | none => exact hcloses
      | some r => exact .trojan hstage hendpoint hparsed

theorem locked_turn (clock : Clock) (h : s.locked id t clock t.stage = some s') :
    TunnelTurn sha224 s id t (.lock clock) s' := by
  cases hstage : t.stage with
  | resolving uuid first parsed =>
    have hcloses : TunnelTurn sha224 s id t (.lock clock) (s.close id t none) :=
      .closesAt hstage (by simp) (by simp)
    rw [hstage] at h
    simp only [Gateway.locked] at h
    split at h
    · cases h
      exact hcloses
    · split_ifs at h
      · cases h
        exact .resolved clock hstage
      · cases h
        exact hcloses
  | labelling o =>
    rw [hstage] at h
    simp only [Gateway.locked] at h
    split_ifs at h
    · cases h
      exact .labelled clock hstage
    · cases h
      exact .closesAt hstage (by simp) (by simp)
  | charging o =>
    rw [hstage] at h
    simp only [Gateway.locked, Accounts.checkAndUse_eq] at h
    cases hallowed : s.accounts.allows clock o.uuid with
    | true =>
      rw [hallowed] at h
      cases h
      exact .charged clock hstage hallowed
    | false =>
      rw [hallowed] at h
      cases h
      exact .closesAt hstage (by simp) (by simp)
  | handshake | dialing o | draining o | relaying o up down cancelled | closed relays =>
    rw [hstage] at h
    cases h

theorem turn_cases {e : TunnelEvent} (h : s.turn sha224 id t e = some s') :
    TunnelTurn sha224 s id t e s' := by
  cases e with
  | message chunk =>
    simp only [Gateway.turn] at h
    split at h
    · cases h
      exact first_turn ‹_› chunk
    · cases h
  | fail =>
    simp only [Gateway.turn] at h
    split at h
    · cases h
    · cases h
    · cases h
      rename_i hrelaying hclosed
      exact .closesAt rfl hrelaying hclosed
  | lock clock => exact locked_turn clock h
  | dialed up down =>
    simp only [Gateway.turn] at h
    split at h
    · split_ifs at h with hpayload
      · cases h
        exact .dialed up down ‹_› hpayload
      · cases h
        exact .headed up down ‹_›
    · cases h
  | drained up down =>
    simp only [Gateway.turn] at h
    split at h
    · cases h
      exact .drained up down ‹_›
    · cases h
  | up e =>
    simp only [Gateway.turn] at h
    split at h
    · obtain ⟨r, hnext, rfl⟩ := Option.map_eq_some_iff.1 h
      exact .up ‹_› hnext
    · cases h
  | down e =>
    simp only [Gateway.turn] at h
    split at h
    · obtain ⟨r, hnext, rfl⟩ := Option.map_eq_some_iff.1 h
      exact .down ‹_› hnext
    · cases h
  | wake inCheck =>
    simp only [Gateway.turn] at h
    split at h
    · split_ifs at h
      cases h
      exact .wakes inCheck ‹_›
    · cases h
  | finish =>
    simp only [Gateway.turn] at h
    split at h
    · split_ifs at h with hboth
      cases h
      exact .finishes ‹_› hboth.1 hboth.2
    · cases h

/-! ### Users -/

/-- The cache maps hashes to users who have them. -/
def CacheSound (sha224 : String → String) (c : HashCache) : Prop :=
  ∀ pwHash uuid, c.cache.get? pwHash = some uuid → sha224 uuid = pwHash

/-- What is known of the first message is what it says. -/
def Opened.Sound (sha224 : String → String) (o : Opened) : Endpoint → Prop
  | .vless uuid => o.uuid = uuid ∧ parseVlessHeader o.first = some o.parsed
  | .trojan => parseTrojanHeader o.first = some (sha224 o.uuid, o.parsed)

theorem cacheSound_findUuid {c : HashCache} (h : CacheSound sha224 c) (links : Links)
    (pwHash : String) :
    CacheSound sha224 (c.findUuid sha224 links pwHash).2 ∧
      ∀ uuid, (c.findUuid sha224 links pwHash).1 = some uuid → sha224 uuid = pwHash := by
  have hrebuild : CacheSound sha224 (HashCache.rebuild sha224 links) := by
    intro pwHash uuid hget
    rw [HashCache.rebuild, Dict.get?_collect] at hget
    obtain ⟨uid, -, huid⟩ := List.mem_filterMap.1 (List.mem_of_getLast? hget)
    cases Dict.entryAt_eq_some.1 huid
    rfl
  unfold HashCache.findUuid
  dsimp only
  split_ifs
  · exact ⟨hrebuild, hrebuild pwHash⟩
  · exact ⟨h, h pwHash⟩

/-! ### One tunnel -/

/-- What is true of a tunnel at each place. -/
def TunnelStage.Sound (sha224 : String → String) (endpoint : Endpoint) (head : Bytes) :
    TunnelStage → Prop
  | .handshake => head = []
  | .resolving uuid first parsed =>
    head = [] ∧ endpoint = .trojan ∧ ∃ pwHash, parseTrojanHeader first = some (pwHash, parsed) ∧
      ∀ u, uuid = some u → sha224 u = pwHash
  | .labelling o => head = [] ∧ endpoint = .trojan ∧ o.Sound sha224 endpoint
  | .charging o => head = [] ∧ o.Sound sha224 endpoint
  | .dialing o => head = [] ∧ o.Sound sha224 endpoint
  | .draining o => head = o.parsed.payload ∧ o.Sound sha224 endpoint
  | .relaying o up down _ =>
    head = o.parsed.payload ∧ o.Sound sha224 endpoint ∧ Kept .up () () up ∧
      Kept (.down endpoint.vlessPrefix) () true down
  | .closed none => True
  | .closed (some (o, up, down)) =>
    head = o.parsed.payload ∧ o.Sound sha224 endpoint ∧ Kept .up () () up ∧
      Kept (.down endpoint.vlessPrefix) () true down

/-- What is true of a tunnel. -/
def Tunnel.Sound (sha224 : String → String) (t : Tunnel) : Prop :=
  t.stage.Sound sha224 t.endpoint t.head

/-- The entry of a tunnel that is served. -/
def Tunnel.connection (t : Tunnel) : Option Connection :=
  match t.stage with
  | .handshake =>
    match t.endpoint with
    | .vless uuid => some (t.entry uuid)
    | .trojan => none
  | .resolving _ _ _ => none
  | .labelling _ => none
  | .charging o => some (t.entry o.uuid)
  | .dialing o => some { t.entry o.uuid with bytes := o.first.length }
  | .draining o => some { t.entry o.uuid with bytes := o.first.length }
  | .relaying o up down _ =>
    some { t.entry o.uuid with
      bytes := o.first.length + up.passed.flatten.length + down.passed.flatten.length }
  | .closed _ => none

/-- The entries are those of the tunnels that are served. -/
def Exact (s : Gateway) : Prop :=
  ∀ id, s.connections.get? id = (s.tunnels.get? id).bind Tunnel.connection

/-- What is true of the gateway. -/
structure Gateway.Sound (sha224 : String → String) (s : Gateway) : Prop where
  cache : CacheSound sha224 s.hashCache
  tunnels : ∀ id t, s.tunnels.get? id = some t → t.Sound sha224
  exact : Exact s

theorem Exact.turned (h : Exact s) {t' : Tunnel} (htunnels : s'.tunnels = s.tunnels.set id t')
    (hne : ∀ k ≠ id, s'.connections.get? k = s.connections.get? k)
    (hid : s'.connections.get? id = t'.connection) : Exact s' := by
  intro k
  rw [htunnels, Dict.get?_set]
  by_cases hk : id = k
  · rw [if_pos hk, ← hk, hid]
    rfl
  · rw [if_neg hk, hne k (Ne.symm hk), h k]

/-- The gateway is sound when one tunnel has moved and its entry with it. -/
theorem Gateway.Sound.turned (hs : s.Sound sha224) {t' : Tunnel}
    (hcache : CacheSound sha224 s'.hashCache) (htunnels : s'.tunnels = s.tunnels.set id t')
    (ht' : t'.Sound sha224) (hne : ∀ k ≠ id, s'.connections.get? k = s.connections.get? k)
    (hid : s'.connections.get? id = t'.connection) : s'.Sound sha224 where
  cache := hcache
  tunnels k u hu := by
    rw [htunnels, Dict.get?_set] at hu
    split_ifs at hu
    · exact Option.some.inj hu ▸ ht'
    · exact hs.tunnels k u hu
  exact := hs.exact.turned htunnels hne hid

/-- A tunnel returns. -/
theorem Gateway.Sound.close (hs : s.Sound sha224)
    {relays : Option (Opened × Relay Unit Unit × Relay Unit Bool)}
    (hrelays : (t.moved (.closed relays)).Sound sha224) : (s.close id t relays).Sound sha224 := by
  refine hs.turned hs.cache rfl hrelays (fun k hk => ?_) ?_
  · exact Dict.get?_erase_ne _ (Ne.symm hk)
  · exact Dict.get?_erase_self _ _

/-- A tunnel moves and keeps its entry. -/
theorem Gateway.Sound.goto (hs : s.Sound sha224) (ht : s.tunnels.get? id = some t)
    {hashCache : HashCache} (hcache : CacheSound sha224 hashCache) {u : Tunnel} {stage : TunnelStage}
    (hsound : (u.moved stage).Sound sha224) (hconnection : (u.moved stage).connection = t.connection) :
    ({ s with hashCache }.goto id u stage).Sound sha224 := by
  refine hs.turned hcache rfl hsound (fun _ _ => rfl) ?_
  rw [hconnection]
  have h := hs.exact id
  rwa [ht] at h

/-- A tunnel moves and counts bytes. -/
theorem Gateway.Sound.count (hs : s.Sound sha224) (ht : s.tunnels.get? id = some t)
    {accounts : Accounts} {n : ℕ} {stage : TunnelStage} (hsound : (t.moved stage).Sound sha224)
    (hconnection : (t.moved stage).connection =
      t.connection.map fun c => { c with bytes := c.bytes + n }) :
    (({ s with accounts }.count id n).goto id t stage).Sound sha224 := by
  refine hs.turned hs.cache rfl hsound (fun k hk => ?_) ?_
  · exact (Dict.get?_modify _ _ _ _).trans (if_neg hk)
  · have h := hs.exact id
    rw [ht] at h
    refine (Dict.get?_modify _ _ _ _).trans ?_
    rw [if_pos rfl, h, hconnection]
    rfl

theorem length_flatten_of_prefix {ps qs : List Bytes} (h : ps <+: qs) :
    ps.flatten.length ≤ qs.flatten.length := by
  obtain ⟨rest, rfl⟩ := h
  rw [List.flatten_append, List.length_append]
  exact Nat.le_add_right _ _

theorem kept_cancelPending {σ τ : Type} {dir : Direction σ τ} {a : σ} {b : τ} {r : Relay σ τ}
    (h : Kept dir a b r) (inCheck : Bool) : Kept dir a b (Tunnel.cancelPending inCheck r) := by
  unfold Tunnel.cancelPending
  split_ifs
  · exact h
  · exact h.cancel inCheck

theorem passed_cancelPending {σ τ : Type} (inCheck : Bool) (r : Relay σ τ) :
    (Tunnel.cancelPending inCheck r).passed = r.passed := by
  unfold Tunnel.cancelPending
  split_ifs <;> rfl

/-- The entry of a tunnel whose relays have passed `n` bytes more. -/
theorem connection_passed {o : Opened} {up up' : Relay Unit Unit} {down down' : Relay Unit Bool}
    {cancelled : Bool} {n : ℕ} (hstage : t.stage = .relaying o up down cancelled)
    (hn : up'.passed.flatten.length + down'.passed.flatten.length =
      up.passed.flatten.length + down.passed.flatten.length + n) :
    (t.moved (.relaying o up' down' cancelled)).connection =
      t.connection.map fun c => { c with bytes := c.bytes + n } := by
  rw [Tunnel.connection, Tunnel.connection, hstage]
  simp only [Tunnel.moved, Option.map_some, Option.some.injEq, Connection.mk.injEq]
  refine ⟨rfl, rfl, rfl, rfl, ?_⟩
  omega

/-- A turn keeps what is true of the gateway. -/
theorem TunnelTurn.sound {e : TunnelEvent} (hs : s.Sound sha224) (ht : s.tunnels.get? id = some t)
    (h : TunnelTurn sha224 s id t e s') : s'.Sound sha224 := by
  have hsound := hs.tunnels id t ht
  cases t with
  | mk endpoint ip connectedAt stage head =>
    cases h with
    | closes => exact hs.close trivial
    | vless hstage hendpoint hparsed =>
      obtain rfl : stage = _ := hstage
      obtain rfl : endpoint = _ := hendpoint
      exact hs.goto ht hs.cache ⟨hsound, rfl, hparsed⟩ rfl
    | trojan hstage hendpoint hparsed =>
      obtain rfl : stage = _ := hstage
      obtain rfl : endpoint = _ := hendpoint
      obtain ⟨hcache, huser⟩ := cacheSound_findUuid hs.cache s.accounts.links _
      exact hs.goto ht hcache ⟨hsound, rfl, _, hparsed, huser⟩ rfl
    | resolved clock hstage =>
      obtain rfl : stage = _ := hstage
      obtain ⟨hhead, rfl, pwHash, hparsed, huser⟩ := hsound
      cases huser _ rfl
      exact hs.goto ht hs.cache ⟨hhead, rfl, hparsed⟩ rfl
    | labelled clock hstage =>
      obtain rfl : stage = _ := hstage
      obtain ⟨hhead, -, hopened⟩ := hsound
      -- a Trojan tunnel gets its entry here
      refine hs.turned hs.cache rfl ⟨hhead, hopened⟩ (fun k hk => ?_) ?_
      · exact Dict.get?_set_ne _ _ (Ne.symm hk)
      · exact Dict.get?_set_self _ _ _
    | charged clock hstage hallowed =>
      obtain rfl : stage = _ := hstage
      refine hs.count ht hsound ?_
      simp only [Tunnel.connection, Tunnel.moved, Option.map_some]
      exact congrArg some (by simp [Tunnel.entry])
    | dialed up down hstage hpayload =>
      obtain rfl : stage = _ := hstage
      obtain ⟨hhead, hopened⟩ := hsound
      exact hs.goto ht hs.cache ⟨hhead.trans hpayload.symm, hopened, kept_start _ _ _,
        kept_start _ _ _⟩ rfl
    | headed up down hstage =>
      obtain rfl : stage = _ := hstage
      exact hs.goto ht hs.cache ⟨rfl, hsound.2⟩ rfl
    | drained up down hstage =>
      obtain rfl : stage = _ := hstage
      exact hs.goto ht hs.cache ⟨hsound.1, hsound.2, kept_start _ _ _, kept_start _ _ _⟩ rfl
    | up hstage hnext =>
      obtain rfl : stage = _ := hstage
      obtain ⟨hhead, hopened, hup, hdown⟩ := hsound
      have hlen := length_flatten_of_prefix (passed_next hnext)
      exact hs.count ht ⟨hhead, hopened, hup.next hnext, hdown⟩ (connection_passed rfl (by omega))
    | down hstage hnext =>
      obtain rfl : stage = _ := hstage
      obtain ⟨hhead, hopened, hup, hdown⟩ := hsound
      have hlen := length_flatten_of_prefix (passed_next hnext)
      exact hs.count ht ⟨hhead, hopened, hup, hdown.next hnext⟩ (connection_passed rfl (by omega))
    | wakes inCheck hstage =>
      obtain rfl : stage = _ := hstage
      obtain ⟨hhead, hopened, hup, hdown⟩ := hsound
      refine hs.goto ht hs.cache ⟨hhead, hopened, kept_cancelPending hup _,
        kept_cancelPending hdown _⟩ ?_
      simp only [Tunnel.connection, Tunnel.moved, passed_cancelPending]
      rfl
    | finishes hstage hup hdown =>
      obtain rfl : stage = _ := hstage
      exact hs.close hsound

theorem accept_sound (hs : s.Sound sha224) (hnew : s.tunnels.get? id = none)
    (hstage : t.stage = .handshake) (hhead : t.head = []) (clock : Clock) :
    (s.accept id t clock).Sound sha224 := by
  have hentry : s.connections.get? id = none := by rw [hs.exact id, hnew]; rfl
  have hsound : t.Sound sha224 := by
    rw [Tunnel.Sound, hstage]
    exact hhead
  unfold Gateway.accept
  cases hendpoint : t.endpoint with
  | vless uuid =>
    dsimp only
    split_ifs
    · refine hs.turned hs.cache rfl hsound (fun k hk => ?_) ?_
      · exact Dict.get?_set_ne _ _ (Ne.symm hk)
      · refine (Dict.get?_set_self _ _ _).trans ?_
        rw [Tunnel.connection, hstage, hendpoint]
    · have hclosed : (t.moved (.closed none)).Sound sha224 := trivial
      exact hs.turned hs.cache rfl hclosed (fun _ _ => rfl) hentry
  | trojan =>
    refine hs.turned hs.cache rfl hsound (fun _ _ => rfl) (hentry.trans ?_)
    rw [Tunnel.connection, hstage, hendpoint]

theorem gateway_step_sound {e : GatewayEvent} (hs : s.Sound sha224)
    (h : (gatewayMachine sha224).step s e = some s') : s'.Sound sha224 := by
  cases e with
  | accept id endpoint ip connectedAt clock =>
    simp only [gatewayMachine] at h
    split_ifs at h with hnew
    cases h
    exact accept_sound hs (by simpa [Dict.contains] using hnew) rfl rfl clock
  | tunnel id e =>
    simp only [gatewayMachine] at h
    split at h
    · cases h
    · exact (turn_cases h).sound hs ‹_›
  | links accounts =>
    cases h
    exact ⟨hs.cache, hs.tunnels, hs.exact⟩

theorem sound_init (accounts : Accounts) : (Gateway.init accounts).Sound sha224 where
  cache _ _ h := by cases h
  tunnels _ _ h := by cases h
  exact _ := rfl

/-- Every run of the gateway is sound. -/
theorem sound_of_run {accounts : Accounts} {es : List GatewayEvent}
    (h : (gatewayMachine sha224).run (.init accounts) es = some s) : s.Sound sha224 :=
  Machine.run_invariant (I := Gateway.Sound sha224) (fun _ _ _ hs hstep => gateway_step_sound hs hstep)
    h (sound_init accounts)

end Turns

/-! ### The entries -/

/-- **The panel shows what is there.**  In every run, whatever tunnels come and go and however they
end, `connections` has an entry under a `conn_id` exactly while a tunnel with a known user is served,
and its bytes are those of the first message, once it is charged, and of all that its relays have
passed on. -/
theorem connections_exact (sha224 : String → String) (accounts : Accounts) (es : List GatewayEvent)
    (s : Gateway) (h : (gatewayMachine sha224).run (.init accounts) es = some s) (id : String) :
    s.connections.get? id = (s.tunnels.get? id).bind Tunnel.connection :=
  (sound_of_run h).exact id

/-- One user without a limit. -/
def servedAccounts : Accounts :=
  ⟨(∅ : Links).set "u" ⟨"vless-ws", none, 0, true, .never, 0, 0⟩, 0, ∅⟩

/-- A client asks for 127.0.0.1 and sends three bytes; the target answers with one. -/
def servedRun : List GatewayEvent :=
  [.accept "c" (.vless "u") "10.0.0.7" "09:00" ⟨0, 9⟩,
    .tunnel "c" (.message (VlessHeader.localhost.encode ++ [1])),
    .tunnel "c" (.lock ⟨0, 9⟩),
    .tunnel "c" (.dialed 0 0),
    .tunnel "c" (.drained 0 0),
    .tunnel "c" (.up (.data [2, 3])),
    .tunnel "c" (.down (.data [4])),
    .tunnel "c" (.down (.pass (Quota.readingAt 0))),
    .tunnel "c" (.up (.pass (Quota.readingAt 0)))]

/-- The tunnel that is left of it. -/
def servedTunnel : Option (Gateway × Tunnel) :=
  ((gatewayMachine fun s => s).run (.init servedAccounts) servedRun).bind fun s =>
    (s.tunnels.get? "c").map fun t => (s, t)

theorem connections_exact_served : ∃ s, s.connections.get? "c" =
    ((s.tunnels.get? "c").bind Tunnel.connection) ∧
      (gatewayMachine fun s => s).run (.init servedAccounts) servedRun = some s := by
  obtain ⟨s, hs⟩ := Option.isSome_iff_exists.1
    (by decide +kernel : ((gatewayMachine fun s => s).run (.init servedAccounts) servedRun).isSome)
  exact ⟨s, connections_exact _ _ _ s hs "c", hs⟩

/-! ### The bytes -/

/-- The relays of a tunnel that has come to them. -/
def Tunnel.relayed (t : Tunnel) : Option (Opened × Relay Unit Unit × Relay Unit Bool) :=
  match t.stage with
  | .relaying o up down _ => some (o, up, down)
  | .closed relays => relays
  | _ => none

/-- A complete header for the endpoint. -/
def Endpoint.Header : Endpoint → Bytes → Prop
  | .vless _, header => ∃ h : VlessHeader, header = h.encode
  | .trojan, header => ∃ h : TrojanHeader, header = h.encode

section Bytes

variable {sha224 : String → String} {t : Tunnel} {o : Opened} {up : Relay Unit Unit}
  {down : Relay Unit Bool}

theorem Tunnel.Sound.relays (h : t.Sound sha224) (hrelays : t.relayed = some (o, up, down)) :
    t.head = o.parsed.payload ∧ o.Sound sha224 t.endpoint ∧ Kept .up () () up ∧
      Kept (.down t.endpoint.vlessPrefix) () true down := by
  unfold Tunnel.relayed at hrelays
  split at hrelays <;> rename_i hstage
  · cases hrelays
    rw [Tunnel.Sound, hstage] at h
    exact h
  · cases hrelays
    rw [Tunnel.Sound, hstage] at h
    exact h
  · cases hrelays

/-- What is behind a complete header is the payload. -/
theorem Opened.Sound.payload {endpoint : Endpoint} (h : o.Sound sha224 endpoint)
    {header payload : Bytes} (hheader : endpoint.Header header) (hfirst : o.first = header ++ payload) :
    o.parsed.payload = payload := by
  cases endpoint with
  | vless uuid =>
    obtain ⟨vless, rfl⟩ := hheader
    have hparsed := h.2
    rw [hfirst] at hparsed
    have hlen : 24 ≤ (vless.encode ++ payload).length := by
      by_contra hshort
      rw [parseVlessHeader, if_pos (Nat.not_le.1 hshort)] at hparsed
      cases hparsed
    rw [vless.parse_encode payload hlen] at hparsed
    rw [← Option.some.inj hparsed]
  | trojan =>
    obtain ⟨trojan, rfl⟩ := hheader
    have hparsed : parseTrojanHeader o.first = _ := h
    have hlen : trojanHeaderMin ≤ (trojan.encode ++ payload).length := by
      rw [List.length_append]
      exact trojan.min_le_encode.trans (Nat.le_add_right _ _)
    rw [hfirst, trojan.parse_encode payload hlen] at hparsed
    exact (congrArg (fun r => r.2.payload) (Option.some.inj hparsed)).symm

theorem writeAll_down_late (vlessPrefix : Bool) (ps : List Bytes) :
    (Direction.down vlessPrefix).writeAll false ps = some (ps.flatten, false) := by
  induction ps with
  | nil => rfl
  | cons p ps ih =>
    rw [Direction.writeAll]
    simp only [Direction.down, Bool.and_false, Bool.false_eq_true, if_false, Option.bind_some] at ih ⊢
    rw [ih]
    rfl

theorem writeAll_down (vlessPrefix : Bool) (ps : List Bytes) :
    ∃ first, (Direction.down vlessPrefix).writeAll true ps =
      some ((if vlessPrefix ∧ ps ≠ [] then [0x00, 0x00] else []) ++ ps.flatten, first) := by
  cases vlessPrefix with
  | true =>
    cases ps with
    | nil => exact ⟨true, rfl⟩
    | cons p ps =>
      refine ⟨false, ?_⟩
      have hlate := writeAll_down_late true ps
      rw [Direction.writeAll]
      simp only [Direction.down, Bool.and_self, if_true, Option.bind_some] at hlate ⊢
      rw [hlate]
      simp
  | false =>
    refine ⟨true, ?_⟩
    induction ps with
    | nil => rfl
    | cons p ps ih =>
      rw [Direction.writeAll]
      simp only [Direction.down, Bool.false_and, Bool.false_eq_true, if_false, Option.bind_some,
        false_and, List.nil_append] at ih ⊢
      rw [ih]
      rfl

/-- **A tunnel passes on what it is given.**  In every run, whatever the quota gates answer, whatever
others do to the links and whichever relay ends first: the target has what is behind the header of the
first message and the later messages, up to some byte, and to the last one read while the relay waits;
the client has, behind the two bytes of a VLESS answer, what the target has sent, in the same way. -/
theorem tunnel_faithful (sha224 : String → String) (accounts : Accounts) (es : List GatewayEvent)
    (s : Gateway) (h : (gatewayMachine sha224).run (.init accounts) es = some s) (id : String)
    (t : Tunnel) (ht : s.tunnels.get? id = some t) (o : Opened) (up : Relay Unit Unit)
    (down : Relay Unit Bool) (hrelays : t.relayed = some (o, up, down)) (header payload : Bytes)
    (hheader : t.endpoint.Header header) (hfirst : o.first = header ++ payload) :
    (∃ rest, payload ++ up.received.flatten = t.head ++ up.written ++ rest ∧
      (up.stage = .waiting → rest = [])) ∧
    ∃ sent rest, down.received.flatten = sent ++ rest ∧ (down.stage = .waiting → rest = []) ∧
      down.written = (if t.endpoint.vlessPrefix ∧ sent ≠ [] then [0x00, 0x00] else []) ++ sent := by
  obtain ⟨hhead, hopened, hup, hdown⟩ := ((sound_of_run h).tunnels id t ht).relays hrelays
  obtain ⟨⟨restUp, hreadUp, hwaitUp⟩, hwrittenUp⟩ := hup.faithful
  obtain ⟨⟨restDown, hreadDown, hwaitDown⟩, hwrittenDown⟩ := hdown.faithful
  refine ⟨⟨restUp.flatten, ?_, fun hwait => by rw [hwaitUp hwait]; rfl⟩,
    down.passed.flatten, restDown.flatten, ?_, fun hwait => by rw [hwaitDown hwait]; rfl, ?_⟩
  · have hwritten : up.written = up.passed.flatten := by
      rw [Direction.writeAll_plain rfl] at hwrittenUp
      exact (congrArg Prod.fst (Option.some.inj hwrittenUp)).symm
    rw [Direction.readAll_plain rfl] at hreadUp
    rw [hhead, hopened.payload hheader hfirst, hwritten, ← List.flatten_filter_ne_nil, hreadUp,
      List.flatten_append, List.append_assoc]
  · rw [Direction.readAll_plain rfl] at hreadDown
    rw [← List.flatten_filter_ne_nil, hreadDown, List.flatten_append]
  · obtain ⟨first, hall⟩ := writeAll_down t.endpoint.vlessPrefix down.passed
    have hsent : down.passed.flatten ≠ [] ↔ down.passed ≠ [] := by
      have hpieces : ∀ p ∈ down.passed, p ≠ [] := fun p hp =>
        Direction.readAll_ne (hreadDown ▸ List.mem_append_left _ hp)
      rw [ne_eq, List.flatten_eq_nil_iff, ne_eq, List.eq_nil_iff_forall_not_mem]
      exact not_congr ⟨fun hall p hp => hpieces p hp (hall p hp), fun hnone p hp => absurd hp (hnone p)⟩
    simp only [hsent]
    exact (congrArg Prod.fst (Option.some.inj (hall.symm.trans hwrittenDown))).symm

theorem tunnel_faithful_served : ∃ s t o up down rest, servedTunnel = some (s, t) ∧
    t.relayed = some (o, up, down) ∧ [1] ++ up.received.flatten = t.head ++ up.written ++ rest := by
  obtain ⟨⟨o, up, down⟩, hserved⟩ := Option.isSome_iff_exists.1
    (by decide +kernel : (servedTunnel.bind fun st => st.2.relayed).isSome)
  have hfirst : (servedTunnel.bind fun st => st.2.relayed.map fun r => (st.2.endpoint, r.1.first)) =
      some (.vless "u", VlessHeader.localhost.encode ++ [1]) := by decide +kernel
  obtain ⟨⟨s, t⟩, hst, hrelayed⟩ := Option.bind_eq_some_iff.1 hserved
  obtain ⟨s', hs, ht⟩ := Option.bind_eq_some_iff.1 hst
  obtain ⟨t', ht, h⟩ := Option.map_eq_some_iff.1 ht
  cases h
  rw [hst, Option.bind_some, hrelayed] at hfirst
  obtain ⟨hendpoint, hfirst⟩ := Prod.mk.inj (Option.some.inj hfirst)
  obtain ⟨⟨rest, hrest, -⟩, -⟩ := tunnel_faithful _ _ _ s hs "c" t ht o up down hrelayed
    VlessHeader.localhost.encode [1] (hendpoint ▸ ⟨_, rfl⟩) hfirst
  exact ⟨s, t, o, up, down, rest, hst, hrelayed, hrest⟩

end Bytes

/-! ### Who is connected -/

/-- The first message of a tunnel that connects to a target, or has connected. -/
def Tunnel.dialed (t : Tunnel) : Option Opened :=
  match t.stage with
  | .dialing o => some o
  | .draining o => some o
  | .relaying o _ _ _ => some o
  | .closed (some (o, _, _)) => some o
  | _ => none

/-- In the run the first message was charged to a link that was allowed. -/
def ChargedIn (sha224 : String → String) (s₀ : Gateway) (es : List GatewayEvent) (id : String)
    (o : Opened) : Prop :=
  ∃ before clock after s, es = before ++ .tunnel id (.lock clock) :: after ∧
    (gatewayMachine sha224).run s₀ before = some s ∧ s.accounts.allows clock o.uuid = true ∧
    ∃ s', (gatewayMachine sha224).step s (.tunnel id (.lock clock)) = some s' ∧
      s'.accounts = s.accounts.charge clock o.uuid o.first.length

section Dialed

variable {sha224 : String → String} {s₀ s s' : Gateway} {id : String} {o : Opened}

theorem ChargedIn.later {es : List GatewayEvent} (h : ChargedIn sha224 s₀ es id o)
    (e : GatewayEvent) : ChargedIn sha224 s₀ (es ++ [e]) id o := by
  obtain ⟨before, clock, after, s, rfl, hrest⟩ := h
  exact ⟨before, clock, after ++ [e], s, by rw [List.append_assoc]; rfl, hrest⟩

theorem get?_turned {t t' : Tunnel} (htunnels : s'.tunnels = s.tunnels.set id t)
    (ht' : s'.tunnels.get? id = some t') : t' = t := by
  rw [htunnels, Dict.get?_set_self] at ht'
  exact (Option.some.inj ht').symm

/-- A tunnel is dialed by a charge, or was dialed before. -/
theorem TunnelTurn.dialed_cases {t t' : Tunnel} {e : TunnelEvent} (h : TunnelTurn sha224 s id t e s')
    (ht' : s'.tunnels.get? id = some t') (hdialed : t'.dialed = some o) :
    t.dialed = some o ∨ ∃ clock, e = .lock clock ∧ s.accounts.allows clock o.uuid = true ∧
      s'.accounts = s.accounts.charge clock o.uuid o.first.length := by
  cases h with
  | closes | vless | trojan | resolved | labelled =>
    cases get?_turned rfl ht'
    cases hdialed
  | charged clock hstage hallowed =>
    cases get?_turned rfl ht'
    cases hdialed
    exact .inr ⟨clock, rfl, hallowed, rfl⟩
  | dialed _ _ hstage | headed _ _ hstage | drained _ _ hstage | up hstage | down hstage
  | wakes _ hstage | finishes hstage =>
    have ho := get?_turned rfl ht' ▸ hdialed
    rw [Tunnel.dialed, hstage]
    exact .inl ho

theorem TunnelTurn.others {t : Tunnel} {e : TunnelEvent} (h : TunnelTurn sha224 s id t e s')
    {k : String} (hk : k ≠ id) : s'.tunnels.get? k = s.tunnels.get? k := by
  obtain ⟨u, hu⟩ : ∃ u, s'.tunnels = s.tunnels.set id u := by
    cases h <;> exact ⟨_, rfl⟩
  rw [hu, Dict.get?_set_ne _ _ (Ne.symm hk)]

/-- A client that connects has no target yet. -/
theorem accept_dialed {t : Tunnel} (hstage : t.stage = .handshake) (clock : Clock) {k : String}
    {u : Tunnel} (hu : (s.accept id t clock).tunnels.get? k = some u) (hdialed : u.dialed = some o) :
    s.tunnels.get? k = some u := by
  obtain ⟨t', htunnels, ht'⟩ :
      ∃ t', (s.accept id t clock).tunnels = s.tunnels.set id t' ∧ t'.dialed = none := by
    have ht : t.dialed = none := by rw [Tunnel.dialed, hstage]
    unfold Gateway.accept
    cases t.endpoint with
    | vless uuid =>
      dsimp only
      split_ifs
      · exact ⟨t, rfl, ht⟩
      · exact ⟨_, rfl, rfl⟩
    | trojan => exact ⟨t, rfl, ht⟩
  rw [htunnels, Dict.get?_set] at hu
  split_ifs at hu with hk
  · cases hu
    cases ht'.symm.trans hdialed
  · exact hu

/-- A step keeps that the targets were connected behind a charge. -/
theorem dialed_step {es : List GatewayEvent} {e : GatewayEvent}
    (hs : (gatewayMachine sha224).run s₀ es = some s)
    (hcharged : ∀ k u o, s.tunnels.get? k = some u → u.dialed = some o → ChargedIn sha224 s₀ es k o)
    (hstep : (gatewayMachine sha224).step s e = some s') :
    ∀ k u o, s'.tunnels.get? k = some u → u.dialed = some o → ChargedIn sha224 s₀ (es ++ [e]) k o := by
  intro k u o hu hdialed
  cases e with
  | accept id endpoint ip connectedAt clock =>
    simp only [gatewayMachine] at hstep
    split_ifs at hstep
    cases hstep
    exact (hcharged k u o (accept_dialed rfl clock hu hdialed) hdialed).later _
  | tunnel id e =>
    have hturn := hstep
    simp only [gatewayMachine] at hturn
    split at hturn
    · cases hturn
    · rename_i t ht
      have hturn := turn_cases hturn
      by_cases hk : k = id
      · subst hk
        obtain hbefore | ⟨clock, rfl, hallowed, haccounts⟩ := hturn.dialed_cases hu hdialed
        · exact (hcharged k t o ht hbefore).later _
        · exact ⟨es, clock, [], s, rfl, hs, hallowed, s', hstep, haccounts⟩
      · rw [hturn.others hk] at hu
        exact (hcharged k u o hu hdialed).later _
  | links accounts =>
    cases hstep
    exact (hcharged k u o hu hdialed).later _

/-- **Who is connected.**  In every run, when a target is being connected to for a tunnel, or has been,
its first message was charged in full, at a time when the link was allowed; and the link is that of the
path, or one whose hash stands in the message. -/
theorem dialed_authorized (sha224 : String → String) (accounts : Accounts) (es : List GatewayEvent)
    (s : Gateway) (h : (gatewayMachine sha224).run (.init accounts) es = some s) (id : String)
    (t : Tunnel) (ht : s.tunnels.get? id = some t) (o : Opened) (hdialed : t.dialed = some o) :
    ChargedIn sha224 (.init accounts) es id o ∧ o.Sound sha224 t.endpoint := by
  refine ⟨?_, ?_⟩
  · have hcharged : ∀ k u o, s.tunnels.get? k = some u → u.dialed = some o →
        ChargedIn sha224 (.init accounts) es k o :=
      Machine.run_history
        (I := fun es s => ∀ k u o, s.tunnels.get? k = some u → u.dialed = some o →
          ChargedIn sha224 (.init accounts) es k o)
        (fun _ _ _ _ hrun hI hstep => dialed_step hrun hI hstep) h
        fun _ _ _ hget => by cases hget
    exact hcharged id t o ht hdialed
  · have hsound := (sound_of_run h).tunnels id t ht
    cases t with
    | mk endpoint ip connectedAt stage head =>
      cases stage with
      | handshake => cases hdialed
      | resolving _ _ _ => cases hdialed
      | labelling _ => cases hdialed
      | charging _ => cases hdialed
      | dialing _ =>
        cases hdialed
        exact hsound.2
      | draining _ =>
        cases hdialed
        exact hsound.2
      | relaying _ _ _ _ =>
        cases hdialed
        exact hsound.2.1
      | closed relays =>
        cases relays with
        | none => cases hdialed
        | some r =>
          cases hdialed
          exact hsound.2.1

theorem dialed_authorized_served : ∃ s t o, servedTunnel = some (s, t) ∧ t.dialed = some o ∧
    ChargedIn (fun s => s) (.init servedAccounts) servedRun "c" o := by
  obtain ⟨o, hserved⟩ := Option.isSome_iff_exists.1
    (by decide +kernel : (servedTunnel.bind fun st => st.2.dialed).isSome)
  obtain ⟨⟨s, t⟩, hst, hdialed⟩ := Option.bind_eq_some_iff.1 hserved
  obtain ⟨s', hs, ht⟩ := Option.bind_eq_some_iff.1 hst
  obtain ⟨t', ht, h⟩ := Option.map_eq_some_iff.1 ht
  cases h
  exact ⟨s, t, o, hst, hdialed, (dialed_authorized _ _ _ s hs "c" t ht o hdialed).1⟩

end Dialed

end Relay

end RvgGateway
