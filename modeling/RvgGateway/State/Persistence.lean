import RvgGateway.Lib.Encode
import RvgGateway.Lib.Json
import RvgGateway.Lib.Stages

/-!
# The state file

The panel keeps its state in memory and writes all of it to `DATA_FILE` with every `save_state`.
`load_state` reads the file once, when the process starts, into the tables of a fresh process; what
it raises is logged and forgotten.

* `Memory` : what the process holds and saves.
* `loadState` : `load_state`, in stages.
* `saveState` : `save_state`.
* `startup` : `load_state`, then `ensure_default_link`.
-/

namespace RvgGateway

namespace State

/-- What the process gets from its surroundings. -/
structure Environment where
  /-- `RVG_HOST`, stripped. -/
  rvgHost : String
  /-- `RVG_TLS`, stripped. -/
  rvgTls : String
  /-- The hash of `ADMIN_PASSWORD`. -/
  adminHash : String
  /-- The identifier of the default link, from the secret of the panel. -/
  defaultUid : String
  /-- `datetime.now().isoformat()`. -/
  now : String
  /-- `str` of a value that is not a string. -/
  repr : Json → String
  /-- `int` of a string, which may be rejected. -/
  intOfStr : String → Option ℤ

/-- `str(v)`. -/
def Environment.str (env : Environment) : Json → String
  | .str s => s
  | v => env.repr v

/-- `a or b`. -/
def orElse (a b : Json) : Json := if a.truthy then a else b

/-! ### Memory -/

/-- An entry of `NODES`. -/
structure Node where
  label : String
  host : String
  key : String
  enabled : Bool
  mergeDashboard : Bool
  /-- `share`, for the names of `NODE_SHARE_PARTS`. -/
  share : List (String × Bool)
  createdAt : Json
  lastSyncAt : Json
  lastError : Json
  peerVersion : Json

/-- The tables and settings that are saved. -/
structure Memory where
  /-- `LINKS`. -/
  links : Json.Table
  /-- `SUBS`. -/
  subs : Json.Table
  /-- `NODE_KEYS`. -/
  nodeKeys : Json.Table
  /-- `NODES`. -/
  nodes : Dict String Node
  /-- `AUTH["password_hash"]`. -/
  passwordHash : Json
  /-- `CONFIG["disable_logging"]`. -/
  disableLogging : Bool
  /-- `CONFIG["host"]`. -/
  host : String
  /-- `CONFIG["tls"]`. -/
  tls : Bool
  /-- `CONFIG["port_range"]`. -/
  portRange : ℤ × ℤ

/-- The memory of a process that has not loaded yet. -/
def fresh (env : Environment) : Memory where
  links := ∅
  subs := ∅
  nodeKeys := ∅
  nodes := ∅
  passwordHash := .str env.adminHash
  disableLogging := false
  host := env.rvgHost
  tls := ["1", "true", "yes"].contains (Str.lower env.rvgTls)
  portRange := (20000, 40000)

/-! ### `load_state` -/

/-- `NODE_SHARE_PARTS`. -/
def nodeShareParts : List String := ["usage", "links", "subs", "requests", "logs"]

/-- `_normalize_node`; `none` when it raises. -/
def normalizeNode (env : Environment) (n : Json) : Option Node :=
  let share := orElse (n.getD "share" .null) (.obj [])
  if !n.isObj then none
  else if !share.isObj then none
  else
    some
      { label := Str.take 60
          (env.str (orElse (n.getD "label" .null) (orElse (n.getD "host" .null) (.str "نود"))))
        host := env.str (orElse (n.getD "host" .null) (.str ""))
        key := env.str (orElse (n.getD "key" .null) (.str ""))
        enabled := (n.getD "enabled" (.bool true)).truthy
        mergeDashboard := (n.getD "merge_dashboard" (.bool true)).truthy
        share := nodeShareParts.map fun p => (p, (share.getD p (.bool (p ≠ "logs"))).truthy)
        createdAt := orElse (n.getD "created_at" .null) (.str env.now)
        lastSyncAt := n.getD "last_sync_at" .null
        lastError := n.getD "last_error" .null
        peerVersion := n.getD "peer_version" .null }

/-- The loop over the nodes, and whether it ran to the end. -/
def loadNodes (env : Environment) : List (String × Json) → Dict String Node → Dict String Node × Bool
  | [], nodes => (nodes, true)
  | e :: es, nodes =>
    match normalizeNode env e.2 with
    | some n => loadNodes env es (nodes.set e.1 n)
    | none => (nodes, false)

/-- What `port_range` in the settings makes of the range of ports. -/
inductive RangeField where
  | range (lo hi : ℤ)
  /-- Not a list of two numbers; it is left out. -/
  | ignored
  /-- A number out of range; `int` raises what is not caught here. -/
  | raises

/-- Read `port_range`. -/
def rangeField (env : Environment) : Json → RangeField
  | .arr [lo, hi] =>
    match lo.toInt env.intOfStr with
    | .rejected => .ignored
    | .overflow => .raises
    | .ok lo =>
      match hi.toInt env.intOfStr with
      | .rejected => .ignored
      | .overflow => .raises
      | .ok hi => .range lo hi
  | _ => .ignored

/-- The settings that an object gives, up to `port_range`. -/
def loadHostTls (env : Environment) (settings : Json) (m : Memory) : Memory where
  __ := m
  host :=
    if env.rvgHost = "" then
      Str.strip (env.str (orElse (settings.getD "host" .null) (.str m.host)))
    else m.host
  tls := if env.rvgTls = "" then (settings.getD "tls" (.bool m.tls)).truthy else m.tls

/-- The stages of `load_state`. -/
inductive Part where
  /-- The text, up to the first access. -/
  | read
  | links
  | subs
  | nodeKeys
  | nodes
  /-- `password_hash` and `disable_logging`. -/
  | password
  | settings
  deriving DecidableEq

/-- The content of `DATA_FILE`. -/
inductive DataFile where
  | absent
  /-- A text that is not JSON. -/
  | garbled
  | json (data : Json)

/-- What the file holds. -/
def DataFile.data : DataFile → Json
  | absent => .null
  | garbled => .null
  | json data => data

/-- A stage of `load_state` on the data of the file, which could be read or not, and whether it ran
to its end. -/
def loadPart (env : Environment) (readable : Bool) (data : Json) (part : Part) (m : Memory) :
    Memory × Bool :=
  match part with
  | .read => (m, readable && data.isObj)
  | .links =>
    let r := (data.getD "links" (.obj [])).update m.links
    ({ m with links := r.1 }, r.2)
  | .subs =>
    let r := (data.getD "subs" (.obj [])).update m.subs
    ({ m with subs := r.1 }, r.2)
  | .nodeKeys =>
    let r := (data.getD "node_keys" (.obj [])).update m.nodeKeys
    ({ m with nodeKeys := r.1 }, r.2)
  | .nodes =>
    let nodes := orElse (data.getD "nodes" .null) (.obj [])
    if nodes.isObj then
      let r := loadNodes env nodes.dict.entries m.nodes
      ({ m with nodes := r.1 }, r.2)
    else (m, false)
  | .password =>
    ({ m with
      passwordHash := data.getD "password_hash" m.passwordHash
      disableLogging := (data.getD "disable_logging" (.bool false)).truthy }, true)
  | .settings =>
    let settings := orElse (data.getD "server_settings" .null) (.obj [])
    if settings.isObj then
      let m' := loadHostTls env settings m
      match rangeField env (settings.getD "port_range" .null) with
      | .range lo hi => ({ m' with portRange := (lo, hi) }, true)
      | .ignored => (m', true)
      | .raises => (m', false)
    else (m, false)

/-- The stages in the order of the code. -/
def parts : List Part := [.read, .links, .subs, .nodeKeys, .nodes, .password, .settings]

/-- `load_state`, and whether it raised nothing. -/
def loadState (env : Environment) (readable : Bool) (file : DataFile) (m : Memory) : Memory × Bool :=
  match file with
  | .absent => (m, true)
  | file => runStages (loadPart env readable file.data) parts m

/-! ### `save_state` -/

/-- `server_settings` in the file. -/
structure ServerSettings where
  host : String
  tls : Bool
  portRange : ℤ × ℤ

/-- What `save_state` writes. -/
structure StateFile where
  links : Json.Table
  subs : Json.Table
  nodeKeys : Json.Table
  nodes : Dict String Node
  passwordHash : Json
  disableLogging : Bool
  serverSettings : ServerSettings

/-- `save_state`. -/
def saveState (m : Memory) : StateFile where
  links := m.links
  subs := m.subs
  nodeKeys := m.nodeKeys
  nodes := m.nodes
  passwordHash := m.passwordHash
  disableLogging := m.disableLogging
  serverSettings := ⟨m.host, m.tls, m.portRange⟩

/-! ### Startup -/

/-- `any(l.get("is_default") for l in links)`; `none` when it raises. -/
def anyDefault : List Json → Option Bool
  | [] => some false
  | l :: ls =>
    if !l.isObj then none
    else if (l.getD "is_default" .null).truthy then some true
    else anyDefault ls

/-- The default link. -/
def defaultLink (env : Environment) : Json :=
  .obj
    [("label", .str "لینک پیش‌فرض"), ("limit_bytes", .int 0), ("used_bytes", .int 0),
      ("created_at", .str env.now), ("active", .bool true), ("expires_at", .null),
      ("note", .str ""), ("is_default", .bool true), ("sub_id", .null),
      ("protocol", .str "vless-ws")]

/-- `ensure_default_link`, with whether it calls for a save; `none` when it raises, which ends the
process. -/
def ensureDefaultLink (env : Environment) (m : Memory) : Option (Memory × Bool) :=
  match anyDefault m.links.values with
  | none => none
  | some true => some (m, false)
  | some false =>
    if m.links.contains (.str env.defaultUid) then some (m, false)
    else some ({ m with links := m.links.set (.str env.defaultUid) (defaultLink env) }, true)

/-- The memory of the process when it starts to serve requests. -/
def startup (env : Environment) (readable : Bool) (file : DataFile) : Option Memory :=
  (ensureDefaultLink env (loadState env readable file (fresh env)).1).map Prod.fst

end State

end RvgGateway
