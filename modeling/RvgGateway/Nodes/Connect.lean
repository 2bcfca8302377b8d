import RvgGateway.Nodes.Access
import RvgGateway.State.Persistence

/-!
# The panels that this one is connected to

`NODES` holds the panels whose data are merged into the dashboard.  `connect_node` looks for the
host of a new one under the lock, releases the lock, shakes hands with the other panel over the
network, and takes the lock again to insert the entry.  It does not look for the host again.

* `connectMachine` : `connect_node`, cut at its awaits, `update_node` and `disconnect_node`, in any
  order.
* `nodesOut`, `nodeTotals` : `nodes_aggregate`.
* `Tracked` : what a request that is under way has missed, kept by every step.
* `oncePerPanel_iff` : **a panel is connected at most once exactly when no request inserts its entry
  after another one for the same host has inserted an entry that is still there.**
* `connected_twice` : two requests that overlap.
-/

namespace RvgGateway

namespace Nodes

open RvgGateway.State (Node Environment nodeShareParts normalizeNode)
open Ports (Reply)

/-! ### `connect_node` -/

/-- The answer of the other panel to the handshake. -/
inductive PeerAnswer where
  /-- `_node_request` raises. -/
  | raised (exc : String)
  /-- A status, and the body where it is JSON. -/
  | response (status : ℕ) (body : Option Json)

/-- Where a `connect_node` request waits. -/
inductive ConnectStage where
  /-- For the answer to the handshake. -/
  | shaking
  /-- For the lock, with the entry to insert. -/
  | ready (nodeId : String) (node : Node)

/-- A `connect_node` request that has passed its checks. -/
structure Connect where
  host : String
  key : String
  /-- The password that goes with the handshake. -/
  password : String
  /-- `label` in the body, stripped. -/
  label : String
  stage : ConnectStage
  /-- The entries that other requests for the same host have inserted since the checks. -/
  overtakenBy : List String

/-- `str(body.get(name) or "").strip()`. -/
def textField (env : Environment) (body : Json) (name : String) : String :=
  Str.strip (env.str (State.orElse (body.getD name .null) (.str "")))

/-- `connect_node` up to the handshake, on a panel with the host `ownHost`. -/
def connectNode (env : Environment) (ownHost : String) (body : Json) (nodes : Dict String Node) :
    Except Reply Connect :=
  if !body.isObj then .error .crashed
  else
    let key := textField env body "key"
    match parseNodeKey key with
    | .error detail => .error (.error 400 detail)
    | .ok (host, _) =>
      if host = ownHost then .error (.error 400 "این کلید مربوط به همین پنل است")
      else
        match nodes.values.find? fun n => n.host = host with
        | some n => .error (.error 409 s!"این پنل قبلاً به‌عنوان «{n.label}» متصل شده است")
        | none =>
          .ok
            { host, key
              password := textField env body "password"
              label := textField env body "label"
              stage := .shaking
              overtakenBy := [] }

/-- `(label or info.get("host") or host)[:60]`, `none` when it raises. -/
def peerLabel (c : Connect) (info : Json) : Option Json :=
  let label :=
    if c.label ≠ "" then .str c.label
    else State.orElse (info.getD "host" .null) (.str c.host)
  match label with
  | .str s => some (.str (Str.take 60 s))
  | .arr items => some (.arr (items.take 60))
  | _ => none

/-- The answer 401, whose body tells what is wrong. -/
def unauthorized (body : Option Json) : Reply :=
  let detail := (body.getD .null).getD "detail" .null
  if detail.isText "PASSWORD_REQUIRED" then .error 401 "این نود رمز دارد؛ رمز را وارد کنید"
  else if detail.isText "PASSWORD_INVALID" then .error 401 "رمز نود اشتباه است"
  else .error 401 "کلید توسط پنل مقابل پذیرفته نشد (ابطال‌شده یا نامعتبر)"

/-- `connect_node` between the handshake and the insertion: the entry. -/
def peerNode (env : Environment) (c : Connect) : PeerAnswer → Except Reply Node
  | .raised exc => .error (.error 502 s!"اتصال به {c.host} برقرار نشد: {Str.take 160 exc}")
  | .response status body =>
    if status = 401 then .error (unauthorized body)
    else if status ≠ 200 then .error (.error 502 s!"پاسخ نامعتبر از {c.host}: HTTP {status}")
    else
      match body with
      | none => .error .crashed
      | some info =>
        if !info.isObj then .error .crashed
        else
          match peerLabel c info with
          | none => .error .crashed
          | some label =>
            match normalizeNode env (.obj
                [("label", label), ("host", .str c.host), ("key", .str c.key),
                  ("peer_version", info.getD "version" .null), ("last_sync_at", .str env.now)]) with
            | some node => .ok node
            | none => .error .crashed

/-! ### `update_node` -/

/-- The loop over `NODE_SHARE_PARTS`. -/
def updateShare (given : Json) (share : List (String × Bool)) : List (String × Bool) :=
  nodeShareParts.foldl (fun share p =>
    match given.get? p with
    | some v => Dict.insertL p v.truthy share
    | none => share) share

/-- `update_node` on the entry; `none` when it raises, which is before it has changed anything. -/
def updateNode (env : Environment) (body : Json) (node : Node) : Option Node :=
  if !body.isObj then none
  else
    some
      { node with
        label :=
          match body.get? "label" with
          | some v => Str.take 60 (Share.textOr (Str.strip (env.str v)) node.host)
          | none => node.label
        enabled := ((body.get? "enabled").map Json.truthy).getD node.enabled
        mergeDashboard := ((body.get? "merge_dashboard").map Json.truthy).getD node.mergeDashboard
        share :=
          match body.get? "share" with
          | some (.obj pairs) => updateShare (.obj pairs) node.share
          | _ => node.share }

theorem updateNode_host {env : Environment} {body : Json} {n n' : Node}
    (h : updateNode env body n = some n') : n'.host = n.host := by
  unfold updateNode at h
  split at h
  · cases h
  · cases h
    rfl

/-! ### The requests in any order -/

/-- The panel with the requests that are under way. -/
structure Connections where
  /-- `NODES`. -/
  nodes : Dict String Node
  connects : Dict ℕ Connect
  replies : List Reply

/-- The turns of the event loop. -/
inductive ConnectEvent where
  /-- A `connect_node` request comes in and runs up to its handshake. -/
  | connect (id : ℕ) (env : Environment) (ownHost : String) (body : Json)
  /-- It goes on with the answer, and draws `nodeId`. -/
  | answered (id : ℕ) (env : Environment) (answer : PeerAnswer) (nodeId : String)
  /-- It gets the lock again. -/
  | insert (id : ℕ)
  | update (nodeId : String) (env : Environment) (body : Json)
  | disconnect (nodeId : String)

/-- Answer a request. -/
def Connections.reply (s : Connections) (r : Reply) : Connections :=
  { s with replies := s.replies ++ [r] }

/-- A request under way learns nothing of an entry for its host that another one inserts. -/
def Connect.overtake (host nodeId : String) (c : Connect) : Connect :=
  if c.host = host then { c with overtakenBy := nodeId :: c.overtakenBy } else c

/-- `NODES[node_id] = node`, at the end of the request `id`. -/
def Connections.insertNode (s : Connections) (id : ℕ) (nodeId : String) (node : Node) :
    Connections where
  nodes := s.nodes.set nodeId node
  connects := (s.connects.erase id).mapValues fun _ c => c.overtake node.host nodeId
  replies := s.replies ++ [.ok]

/-- One turn. -/
def connectStep (s : Connections) : ConnectEvent → Option Connections
  | .connect id env ownHost body =>
    if s.connects.contains id then none
    else
      match connectNode env ownHost body s.nodes with
      | .error r => some (s.reply r)
      | .ok c => some { s with connects := s.connects.set id c }
  | .answered id env answer nodeId =>
    match s.connects.get? id with
    | none => none
    | some c =>
      match c.stage with
      | .ready _ _ => none
      | .shaking =>
        match peerNode env c answer with
        | .error r => some ({ s with connects := s.connects.erase id }.reply r)
        | .ok node =>
          some { s with connects := s.connects.set id { c with stage := .ready nodeId node } }
  | .insert id =>
    match s.connects.get? id with
    | none => none
    | some c =>
      match c.stage with
      | .shaking => none
      | .ready nodeId node => some (s.insertNode id nodeId node)
  | .update nodeId env body =>
    match s.nodes.get? nodeId with
    | none => some (s.reply (.error 404 "node not found"))
    | some node =>
      match updateNode env body node with
      | none => some (s.reply .crashed)
      | some node => some ({ s with nodes := s.nodes.set nodeId node }.reply .ok)
  | .disconnect nodeId =>
    if s.nodes.contains nodeId then some ({ s with nodes := s.nodes.erase nodeId }.reply .ok)
    else some (s.reply (.error 404 "node not found"))

/-- The panel under requests in any order. -/
def connectMachine : Machine Connections ConnectEvent := ⟨connectStep⟩

/-! ### `nodes_aggregate` -/

/-- What `_fetch_node_snapshot` comes to. -/
inductive Fetched where
  | raised (exc : String)
  | data (online : Bool) (stats links subs : Json)

/-- An entry of `nodes`, with what the totals read of it. -/
structure NodeOut where
  nodeId : String
  host : String
  share : List (String × Bool)
  online : Bool
  stats : Json
  links : Json
  subs : Json

/-- An entry that tells nothing. -/
def offline (e : String × Node) : NodeOut :=
  ⟨e.1, e.2.host, e.2.share, false, .null, .null, .null⟩

/-- `base.update(res)`. -/
def nodeOut (fetch : String → Node → Fetched) (e : String × Node) : NodeOut :=
  match fetch e.1 e.2 with
  | .raised _ => offline e
  | .data online stats links subs => ⟨e.1, e.2.host, e.2.share, online, stats, links, subs⟩

/-- `nodes_out`: the enabled entries with what was fetched, then the disabled ones. -/
def nodesOut (fetch : String → Node → Fetched) (nodes : Dict String Node) : List NodeOut :=
  (nodes.entries.filter fun e => e.2.enabled).map (nodeOut fetch) ++
    (nodes.entries.filter fun e => !e.2.enabled).map offline

/-- The totals over the nodes. -/
structure Totals where
  nodesOnline : ℕ
  nodeUsedBytes : ℤ
  nodeConnections : ℤ
  nodeRequests : ℤ
  nodeLinks : ℕ
  nodeActiveLinks : ℕ
  nodeSubs : ℕ
  deriving DecidableEq

/-- `int(st.get(name) or 0)`; `none` when it raises. -/
def statOf (intOfStr : String → Option ℤ) (stats : Json) (name : String) : Option ℤ :=
  let st := State.orElse stats (.obj [])
  if !st.isObj then none
  else
    match (State.orElse (st.getD name .null) (.int 0)).toInt intOfStr with
    | .ok n => some n
    | _ => none

/-- `len(v or [])`. -/
def lengthOf (v : Json) : Option ℕ :=
  match State.orElse v (.arr []) with
  | .arr items => some items.length
  | .str s => some s.toList.length
  | .obj pairs => some (Json.obj pairs).dict.size
  | _ => none

/-- The links that are active and not expired; `none` when one is no object. -/
def activeOf (v : Json) : Option ℕ :=
  match State.orElse v (.arr []) with
  | .arr items =>
    if items.all Json.isObj then
      some (items.countP fun l =>
        (l.getD "active" .null).truthy && !(l.getD "expired" .null).truthy)
    else none
  | _ => none

/-- A part of the totals that the node shares. -/
def shared {α : Type} (n : NodeOut) (part : String) (zero : α) (read : Option α) : Option α :=
  if (n.share.lookup part).getD false then read else some zero

/-- A turn of the loop over the nodes; `none` when it raises. -/
def addNode (intOfStr : String → Option ℤ) (t : Totals) (n : NodeOut) : Option Totals :=
  if !n.online then some t
  else do
    let used ← shared n "usage" 0 (statOf intOfStr n.stats "total_bytes")
    let connections ← shared n "usage" 0 (statOf intOfStr n.stats "active_connections")
    let requests ← shared n "requests" 0 (statOf intOfStr n.stats "total_requests")
    let links ← shared n "links" 0 (lengthOf n.links)
    let active ← shared n "links" 0 (activeOf n.links)
    let subs ← shared n "subs" 0 (lengthOf n.subs)
    pure
      { nodesOnline := t.nodesOnline + 1
        nodeUsedBytes := t.nodeUsedBytes + used
        nodeConnections := t.nodeConnections + connections
        nodeRequests := t.nodeRequests + requests
        nodeLinks := t.nodeLinks + links
        nodeActiveLinks := t.nodeActiveLinks + active
        nodeSubs := t.nodeSubs + subs }

/-- The totals of `nodes_aggregate`. -/
def nodeTotals (intOfStr : String → Option ℤ) (out : List NodeOut) : Option Totals :=
  out.foldlM (addNode intOfStr) ⟨0, 0, 0, 0, 0, 0, 0⟩

/-- The entries that the totals count. -/
def counted (fetch : String → Node → Fetched) (nodes : Dict String Node) : List NodeOut :=
  (nodesOut fetch nodes).filter NodeOut.online

/-- Nothing else enters into the totals. -/
theorem nodeTotals_counted (intOfStr : String → Option ℤ) (fetch : String → Node → Fetched)
    (nodes : Dict String Node) :
    nodeTotals intOfStr (nodesOut fetch nodes) = nodeTotals intOfStr (counted fetch nodes) := by
  unfold nodeTotals counted
  generalize (⟨0, 0, 0, 0, 0, 0, 0⟩ : Totals) = t
  induction nodesOut fetch nodes generalizing t with
  | nil => rfl
  | cons n out ih =>
    by_cases hn : n.online = true
    · rw [List.filter_cons_of_pos hn, List.foldlM_cons, List.foldlM_cons]
      exact congrArg _ (funext ih)
    · have hskip : addNode intOfStr t n = some t := by simp [addNode, hn]
      rw [List.filter_cons_of_neg hn, List.foldlM_cons, hskip]
      exact ih t

/-! ### The property -/

/-- No two entries have the same host. -/
def HostsDistinct (nodes : Dict String Node) : Prop :=
  ∀ k k' n n', nodes.get? k = some n → nodes.get? k' = some n' → n.host = n'.host → k = k'

/-- A panel is connected once, and `nodes_aggregate` counts it once, whatever is fetched. -/
structure OncePerPanel (s : Connections) : Prop where
  distinct : HostsDistinct s.nodes
  counted_once : ∀ fetch, ((counted fetch s.nodes).map NodeOut.host).Nodup

theorem nodeOut_host (fetch : String → Node → Fetched) (e : String × Node) :
    (nodeOut fetch e).host = e.2.host := by
  unfold nodeOut
  cases fetch e.1 e.2 <;> rfl

/-- The entries that are reported have the hosts of `NODES`. -/
theorem nodesOut_hosts (fetch : String → Node → Fetched) (nodes : Dict String Node) :
    ((nodesOut fetch nodes).map NodeOut.host).Perm (nodes.entries.map fun e => e.2.host) := by
  have hhost : NodeOut.host ∘ nodeOut fetch = fun e => e.2.host := funext (nodeOut_host fetch)
  have hoff : NodeOut.host ∘ offline = fun e => e.2.host := rfl
  rw [nodesOut, List.map_append, List.map_map, List.map_map, hhost, hoff, ← List.map_append]
  exact (List.filter_append_perm (fun e => e.2.enabled) nodes.entries).map _

theorem oncePerPanel_iff_distinct {s : Connections} : OncePerPanel s ↔ HostsDistinct s.nodes := by
  refine ⟨OncePerPanel.distinct, fun hd => ⟨hd, fun fetch => ?_⟩⟩
  have hentries : (s.nodes.entries.map fun e => e.2.host).Nodup := by
    refine List.Nodup.map_on ?_ (List.Nodup.of_map _ s.nodes.nodup)
    rintro ⟨k, n⟩ hn ⟨k', n'⟩ hn' heq
    have hget := Dict.get?_eq_some.2 hn
    have hkey := hd k k' n n' hget (Dict.get?_eq_some.2 hn') heq
    subst hkey
    cases hget.symm.trans (Dict.get?_eq_some.2 hn')
    rfl
  have hall : ((nodesOut fetch s.nodes).map NodeOut.host).Nodup :=
    (nodesOut_hosts fetch s.nodes).nodup_iff.2 hentries
  exact hall.sublist (List.filter_sublist.map _)

/-! ### What a turn does -/

/-- The turns that change something, and that a turn can change nothing. -/
inductive ConnectTurn (s : Connections) : ConnectEvent → Connections → Prop
  | refused {e s'} (hevent : ∀ id, e ≠ .insert id) (hnodes : s'.nodes = s.nodes)
      (hconnects : s'.connects = s.connects) : ConnectTurn s e s'
  | checked {id env ownHost body c} (hc : connectNode env ownHost body s.nodes = .ok c) :
      ConnectTurn s (.connect id env ownHost body) { s with connects := s.connects.set id c }
  | failed {id env answer nodeId s'} (hnodes : s'.nodes = s.nodes)
      (hconnects : s'.connects = s.connects.erase id) :
      ConnectTurn s (.answered id env answer nodeId) s'
  | shaken {id env answer nodeId c node} (hc : s.connects.get? id = some c)
      (hnode : peerNode env c answer = .ok node) :
      ConnectTurn s (.answered id env answer nodeId)
        { s with connects := s.connects.set id { c with stage := .ready nodeId node } }
  | inserted {id c nodeId node} (hc : s.connects.get? id = some c)
      (hstage : c.stage = .ready nodeId node) :
      ConnectTurn s (.insert id) (s.insertNode id nodeId node)
  | updated {nodeId env body n n'} (hn : s.nodes.get? nodeId = some n)
      (hupdate : updateNode env body n = some n') :
      ConnectTurn s (.update nodeId env body)
        ({ s with nodes := s.nodes.set nodeId n' }.reply .ok)
  | disconnected {nodeId} :
      ConnectTurn s (.disconnect nodeId) ({ s with nodes := s.nodes.erase nodeId }.reply .ok)

theorem connectStep_turn {s s' : Connections} {e : ConnectEvent} (h : connectStep s e = some s') :
    ConnectTurn s e s' := by
  cases e with
  | connect id env ownHost body =>
    simp only [connectStep] at h
    split at h
    · cases h
    · cases hc : connectNode env ownHost body s.nodes with
      | error r =>
        rw [hc] at h
        cases h
        exact .refused (fun _ he => by cases he) rfl rfl
      | ok c =>
        rw [hc] at h
        cases h
        exact .checked hc
  | answered id env answer nodeId =>
    simp only [connectStep] at h
    cases hc : s.connects.get? id with
    | none =>
      rw [hc] at h
      cases h
    | some c =>
      rw [hc] at h
      cases hstage : c.stage with
      | ready _ _ =>
        simp only [hstage] at h
        cases h
      | shaking =>
        simp only [hstage] at h
        cases hnode : peerNode env c answer with
        | error r =>
          simp only [hnode] at h
          cases h
          exact .failed rfl rfl
        | ok node =>
          simp only [hnode] at h
          cases h
          exact .shaken hc hnode
  | insert id =>
    simp only [connectStep] at h
    cases hc : s.connects.get? id with
    | none =>
      rw [hc] at h
      cases h
    | some c =>
      rw [hc] at h
      cases hstage : c.stage with
      | shaking =>
        simp only [hstage] at h
        cases h
      | ready nodeId node =>
        simp only [hstage] at h
        cases h
        exact .inserted hc hstage
  | update nodeId env body =>
    simp only [connectStep] at h
    cases hn : s.nodes.get? nodeId with
    | none =>
      rw [hn] at h
      cases h
      exact .refused (fun _ he => by cases he) rfl rfl
    | some n =>
      simp only [hn] at h
      cases hupdate : updateNode env body n with
      | none =>
        rw [hupdate] at h
        cases h
        exact .refused (fun _ he => by cases he) rfl rfl
      | some n' =>
        rw [hupdate] at h
        cases h
        exact .updated hn hupdate
  | disconnect nodeId =>
    simp only [connectStep] at h
    split at h
    · cases h
      exact .disconnected
    · cases h
      exact .refused (fun _ he => by cases he) rfl rfl

/-! ### What a request under way has missed -/

/-- The request knows every entry for its host, as one that has overtaken it, and inserts an entry
for its host. -/
structure Connect.Tracked (nodes : Dict String Node) (c : Connect) : Prop where
  missed : ∀ k n, nodes.get? k = some n → n.host = c.host → k ∈ c.overtakenBy
  ready : ∀ nodeId node, c.stage = .ready nodeId node → node.host = c.host

/-- All requests under way are tracked. -/
def Tracked (s : Connections) : Prop := ∀ id c, s.connects.get? id = some c → c.Tracked s.nodes

/-- A request that has passed its checks starts with no entry for its host. -/
theorem connectNode_tracked {env : Environment} {ownHost : String} {body : Json}
    {nodes : Dict String Node} {c : Connect} (h : connectNode env ownHost body nodes = .ok c) :
    c.Tracked nodes := by
  simp only [connectNode] at h
  split at h
  · cases h
  cases hkey : parseNodeKey (textField env body "key") with
  | error detail =>
    simp only [hkey] at h
    cases h
  | ok parsed =>
    obtain ⟨host, secret⟩ := parsed
    simp only [hkey] at h
    split at h
    · cases h
    cases hfind : nodes.values.find? fun n => n.host = host with
    | some n =>
      simp only [hfind] at h
      cases h
    | none =>
      simp only [hfind] at h
      cases h
      refine ⟨fun k n hn hhost => ?_, fun _ _ hstage => (by cases hstage)⟩
      have hmem : n ∈ nodes.values := List.mem_map_of_mem (Dict.get?_eq_some.1 hn)
      exact absurd (decide_eq_true hhost) (List.find?_eq_none.1 hfind n hmem)

theorem normalizeNode_host {env : Environment} {label version : Json} {host key : String}
    {node : Node}
    (h : normalizeNode env (.obj
      [("label", label), ("host", .str host), ("key", .str key), ("peer_version", version),
        ("last_sync_at", .str env.now)]) = some node) : node.host = host := by
  have hhost : (Json.obj [("label", label), ("host", .str host), ("key", .str key),
      ("peer_version", version), ("last_sync_at", .str env.now)]).getD "host" .null = .str host := rfl
  simp only [normalizeNode, hhost] at h
  split at h
  · cases h
  split at h
  · cases h
  have hnode := congrArg Node.host (Option.some.inj h)
  rw [← hnode]
  by_cases hempty : host = ""
  · subst hempty
    rfl
  · simp [State.orElse, Json.truthy, Environment.str, hempty]

theorem peerNode_host {env : Environment} {c : Connect} {answer : PeerAnswer} {node : Node}
    (h : peerNode env c answer = .ok node) : node.host = c.host := by
  cases answer with
  | raised exc => cases h
  | response status body =>
    simp only [peerNode] at h
    split at h
    · cases h
    split at h
    · cases h
    cases body with
    | none => cases h
    | some info =>
      dsimp only at h
      split at h
      · cases h
      cases hlabel : peerLabel c info with
      | none =>
        rw [hlabel] at h
        cases h
      | some label =>
        simp only [hlabel] at h
        split at h
        · rename_i hnode
          cases h
          exact normalizeNode_host hnode
        · cases h

/-- Fewer entries, or the same with other labels. -/
theorem Connect.Tracked.of_nodes {nodes nodes' : Dict String Node} {c : Connect}
    (h : c.Tracked nodes)
    (hsub : ∀ k n', nodes'.get? k = some n' → ∃ n, nodes.get? k = some n ∧ n.host = n'.host) :
    c.Tracked nodes' := by
  refine ⟨fun k n' hn' hhost => ?_, h.ready⟩
  obtain ⟨n, hn, heq⟩ := hsub k n' hn'
  exact h.missed k n hn (heq.trans hhost)

/-- An entry that is inserted is one more that the others have missed. -/
theorem Connect.Tracked.overtake {nodes : Dict String Node} {c : Connect} (h : c.Tracked nodes)
    (nodeId : String) (node : Node) :
    (c.overtake node.host nodeId).Tracked (nodes.set nodeId node) := by
  have hhost : (c.overtake node.host nodeId).host = c.host := by
    unfold Connect.overtake
    split <;> rfl
  have hstage : (c.overtake node.host nodeId).stage = c.stage := by
    unfold Connect.overtake
    split <;> rfl
  refine ⟨fun k n hn heq => ?_, fun id n hready => ?_⟩
  · rw [hhost] at heq
    unfold Connect.overtake
    by_cases hk : nodeId = k
    · subst hk
      rw [Dict.get?_set_self] at hn
      cases hn
      rw [if_pos heq.symm]
      exact List.mem_cons_self
    · rw [Dict.get?_set_ne _ _ hk] at hn
      have hmissed := h.missed k n hn heq
      split
      · exact List.mem_cons_of_mem _ hmissed
      · exact hmissed
  · rw [hstage] at hready
    rw [hhost]
    exact h.ready id n hready

theorem updated_hosts {nodes : Dict String Node} {nodeId : String} {n n' : Node}
    (hn : nodes.get? nodeId = some n) (hhost : n'.host = n.host) {k : String} {m' : Node}
    (hm : (nodes.set nodeId n').get? k = some m') :
    ∃ m, nodes.get? k = some m ∧ m.host = m'.host := by
  by_cases hk : nodeId = k
  · subst hk
    rw [Dict.get?_set_self] at hm
    cases hm
    exact ⟨n, hn, hhost.symm⟩
  · rw [Dict.get?_set_ne _ _ hk] at hm
    exact ⟨m', hm, rfl⟩

theorem erased_hosts {nodes : Dict String Node} {nodeId k : String} {m' : Node}
    (hm : (nodes.erase nodeId).get? k = some m') :
    ∃ m, nodes.get? k = some m ∧ m.host = m'.host := by
  rw [Dict.get?_erase] at hm
  split at hm
  · cases hm
  · exact ⟨m', hm, rfl⟩

/-- Every turn keeps the requests tracked. -/
theorem tracked_step {s s' : Connections} {e : ConnectEvent} (h : Tracked s)
    (hstep : connectStep s e = some s') : Tracked s' := by
  intro id c hc
  cases connectStep_turn hstep with
  | refused _ hnodes hconnects =>
    rw [hconnects] at hc
    rw [hnodes]
    exact h id c hc
  | @checked id' _ _ _ c' hc' =>
    by_cases hid : id' = id
    · subst hid
      rw [Dict.get?_set_self] at hc
      cases hc
      exact connectNode_tracked hc'
    · rw [Dict.get?_set_ne _ _ hid] at hc
      exact h id c hc
  | failed hnodes hconnects =>
    rw [hconnects, Dict.get?_erase] at hc
    rw [hnodes]
    split at hc
    · cases hc
    · exact h id c hc
  | @shaken id' _ _ _ c' node hc' hnode =>
    by_cases hid : id' = id
    · subst hid
      rw [Dict.get?_set_self] at hc
      cases hc
      refine ⟨(h _ _ hc').missed, fun _ _ hstage => ?_⟩
      cases hstage
      exact peerNode_host hnode
    · rw [Dict.get?_set_ne _ _ hid] at hc
      exact h id c hc
  | @inserted id' c' nodeId node hc' hstage =>
    simp only [Connections.insertNode, Dict.get?_mapValues] at hc
    obtain ⟨d, hd, rfl⟩ := Option.map_eq_some_iff.1 hc
    rw [Dict.get?_erase] at hd
    split at hd
    · cases hd
    · exact (h id d hd).overtake nodeId node
  | updated hn hupdate =>
    exact (h id c hc).of_nodes fun k m' hm => updated_hosts hn (updateNode_host hupdate) hm
  | disconnected =>
    exact (h id c hc).of_nodes fun k m' hm => erased_hosts hm

/-! ### Connected once -/

/-- A request that inserts its entry has not been overtaken: no entry for its host that another
request has inserted since its checks is still there, unless its own takes the place. -/
def NotOvertaken (s : Connections) : ConnectEvent → Prop
  | .insert id => ∀ c nodeId node, s.connects.get? id = some c → c.stage = .ready nodeId node →
      ∀ k ∈ c.overtakenBy, ∀ n, s.nodes.get? k = some n → n.host = c.host → k = nodeId
  | _ => True

theorem HostsDistinct.of_nodes {nodes nodes' : Dict String Node} (h : HostsDistinct nodes)
    (hsub : ∀ k n', nodes'.get? k = some n' → ∃ n, nodes.get? k = some n ∧ n.host = n'.host) :
    HostsDistinct nodes' := by
  intro k k' n n' hn hn' heq
  obtain ⟨m, hm, hhost⟩ := hsub k n hn
  obtain ⟨m', hm', hhost'⟩ := hsub k' n' hn'
  exact h k k' m m' hm hm' (hhost.trans (heq.trans hhost'.symm))

/-- An entry can be inserted when no other one has its host. -/
theorem hostsDistinct_set_iff {nodes : Dict String Node} (h : HostsDistinct nodes)
    {nodeId : String} {node : Node} :
    HostsDistinct (nodes.set nodeId node) ↔
      ∀ k n, nodes.get? k = some n → n.host = node.host → k = nodeId := by
  constructor
  · intro hset k n hn hhost
    by_contra hk
    refine hk (hset k nodeId n node ?_ (Dict.get?_set_self _ _ _) hhost)
    rw [Dict.get?_set_ne _ _ (Ne.symm hk), hn]
  · intro hother k k' n n' hn hn' heq
    rw [Dict.get?_set] at hn hn'
    split at hn <;> split at hn'
    · rename_i hk hk'
      rw [← hk, ← hk']
    · rename_i hk _
      cases hn
      rw [← hk, hother k' n' hn' heq.symm]
    · rename_i _ hk'
      cases hn'
      rw [← hk', hother k n hn heq]
    · exact h k k' n n' hn hn' heq

/-- A turn keeps the hosts distinct exactly when it inserts nothing that was overtaken. -/
theorem hostsDistinct_step {s s' : Connections} {e : ConnectEvent} (ht : Tracked s)
    (hd : HostsDistinct s.nodes) (hstep : connectStep s e = some s') :
    HostsDistinct s'.nodes ↔ NotOvertaken s e := by
  cases connectStep_turn hstep with
  | refused hevent hnodes _ =>
    rw [hnodes]
    refine iff_of_true hd ?_
    cases e with
    | insert id => exact absurd rfl (hevent id)
    | _ => trivial
  | checked _ => exact iff_of_true hd trivial
  | failed hnodes _ =>
    rw [hnodes]
    exact iff_of_true hd trivial
  | shaken _ _ => exact iff_of_true hd trivial
  | updated hn hupdate =>
    exact iff_of_true (hd.of_nodes fun k m' hm => updated_hosts hn (updateNode_host hupdate) hm)
      trivial
  | disconnected => exact iff_of_true (hd.of_nodes fun k m' hm => erased_hosts hm) trivial
  | @inserted id c nodeId node hc hstage =>
    have hhost := (ht id c hc).ready nodeId node hstage
    refine (hostsDistinct_set_iff hd).trans ?_
    rw [hhost]
    constructor
    · intro hother c' nodeId' node' hc' hstage' k _ n hn hn'
      rw [hc] at hc'
      cases hc'
      rw [hstage] at hstage'
      cases hstage'
      exact hother k n hn hn'
    · intro hnot k n hn hn'
      exact hnot c nodeId node hc hstage k ((ht id c hc).missed k n hn hn') n hn hn'

/-- A panel with no request under way, whose entries have distinct hosts. -/
structure AtRest (s : Connections) : Prop where
  idle : s.connects = ∅
  distinct : HostsDistinct s.nodes

/-- **A panel is connected at most once exactly when no request is overtaken**: in every order of
requests and of their answers, every state on the way has the property if and only if no request
inserts its entry while one that another request has inserted for the same host since its checks is
still there. -/
theorem oncePerPanel_iff {s₀ s : Connections} {es : List ConnectEvent} (h₀ : AtRest s₀)
    (hrun : connectMachine.run s₀ es = some s) :
    (∀ fs t, fs <+: es → connectMachine.run s₀ fs = some t → OncePerPanel t) ↔
      connectMachine.Along NotOvertaken s₀ es := by
  have htracked : Tracked s₀ := fun id c hc => by
    rw [h₀.idle] at hc
    cases hc
  have hreached : ∀ fs t, connectMachine.run s₀ fs = some t → Tracked t := fun fs t ht =>
    Machine.run_invariant (I := Tracked) (fun _ _ _ h hstep => tracked_step h hstep) ht htracked
  have hiff := Machine.invariant_iff_along (A := connectMachine) (P := NotOvertaken)
    (I := fun t => Tracked t ∧ HostsDistinct t.nodes) (fun t e t' ⟨ht, hd⟩ hstep => by
      rw [← hostsDistinct_step ht hd hstep]
      exact and_iff_right (tracked_step ht hstep)) hrun ⟨htracked, h₀.distinct⟩
  rw [← hiff]
  refine forall₂_congr fun fs t => forall₂_congr fun _ ht => ?_
  rw [oncePerPanel_iff_distinct]
  exact (and_iff_right (hreached fs t ht)).symm

/-! ### Two requests at once -/

/-- The surroundings of an example. -/
def plainEnvironment : Environment where
  rvgHost := ""
  rvgTls := ""
  adminHash := ""
  defaultUid := ""
  now := "now"
  repr := fun _ => ""
  intOfStr := fun _ => none

/-- A request with a key for the panel `b.io`. -/
def keyBody : Json := .obj [("key", .str "rvg-Yi5pbw.s")]

/-- The other panel accepts. -/
def accepted : PeerAnswer := .response 200 (some (.obj [("host", .str "b.io"), ("version", .str "1")]))

/-- One request after the other: the second one is refused. -/
def oneByOne : List ConnectEvent :=
  [.connect 0 plainEnvironment "a.io" keyBody, .answered 0 plainEnvironment accepted "m", .insert 0,
    .connect 1 plainEnvironment "a.io" keyBody]

/-- Both requests look for the host before either has inserted its entry. -/
def atOnce : List ConnectEvent :=
  [.connect 0 plainEnvironment "a.io" keyBody, .connect 1 plainEnvironment "a.io" keyBody,
    .answered 0 plainEnvironment accepted "m", .answered 1 plainEnvironment accepted "n",
    .insert 0, .insert 1]

/-- The panel before its first request. -/
def unconnected : Connections := ⟨∅, ∅, []⟩

theorem unconnected_atRest : AtRest unconnected := ⟨rfl, fun _ _ _ _ h => (by cases h)⟩

/-- Requests one after the other. -/
theorem oncePerPanel_iff_oneByOne :
    ∃ s, connectMachine.run unconnected oneByOne = some s ∧
      ((∀ fs t, fs <+: oneByOne → connectMachine.run unconnected fs = some t → OncePerPanel t) ↔
        connectMachine.Along NotOvertaken unconnected oneByOne) := by
  have hsome : (connectMachine.run unconnected oneByOne).isSome = true := by decide +kernel
  obtain ⟨s, hs⟩ := Option.isSome_iff_exists.1 hsome
  exact ⟨s, hs, oncePerPanel_iff unconnected_atRest hs⟩

/-- What a panel with five bytes of traffic tells. -/
def fiveBytes : String → Node → Fetched := fun _ _ =>
  .data true (.obj [("total_bytes", .int 5)]) (.arr []) (.arr [])

/-- **Two requests that overlap connect one panel twice**, and its five bytes count as ten. -/
theorem connected_twice :
    AtRest unconnected ∧ ∃ s, connectMachine.run unconnected atOnce = some s ∧
      ¬ HostsDistinct s.nodes ∧
      (nodeTotals (fun _ => none) (nodesOut fiveBytes s.nodes)).map Totals.nodeUsedBytes =
        some 10 := by
  have hend : ((connectMachine.run unconnected atOnce).map fun s =>
      ((s.nodes.get? "m").map Node.host, (s.nodes.get? "n").map Node.host,
        (nodeTotals (fun _ => none) (nodesOut fiveBytes s.nodes)).map Totals.nodeUsedBytes)) =
      some (some "b.io", some "b.io", some 10) := by decide +kernel
  obtain ⟨s, hs, hfields⟩ := Option.map_eq_some_iff.1 hend
  obtain ⟨hm, hrest⟩ := Prod.mk.inj hfields
  obtain ⟨hn, htotal⟩ := Prod.mk.inj hrest
  obtain ⟨m, hm, hhost⟩ := Option.map_eq_some_iff.1 hm
  obtain ⟨n, hn, hhost'⟩ := Option.map_eq_some_iff.1 hn
  refine ⟨unconnected_atRest, s, hs, fun hd => ?_, htotal⟩
  exact absurd (hd "m" "n" m n hm hn (hhost.trans hhost'.symm)) (by decide)

end Nodes

end RvgGateway
