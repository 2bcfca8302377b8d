import RvgGateway.Nodes.Connect
import RvgGateway.State.Backup
import RvgGateway.State.HostDetection

/-!
# Restarts and backups

`save_state` writes the tables and settings as one object of JSON, and a process that starts reads
the object back through the loops and conversions of `load_state`.  `backup_export` writes the tables
for `backup_import` on this panel or another one.

* `StateFile.json`, `exportJson` : what `save_state` and `backup_export` write.
* `panelMachine` : the requests and tasks that change what is saved, with `save_state` cut at its
  await, and a restart at any time.
* `Stored` : the shape that all of them keep, which is what `_normalize_node` asks for.
* `restart_restores` : **a process that starts has the memory of the last copy that was written,
  whatever happened after the copy.**
* `import_export` : **an import restores the tables of the panel that was exported.**
-/

namespace RvgGateway

namespace State

/-! ### What is written -/

/-- An entry of `NODES` as an object. -/
def Node.json (n : Node) : Json :=
  .obj
    [("label", .str n.label), ("host", .str n.host), ("key", .str n.key),
      ("enabled", .bool n.enabled), ("merge_dashboard", .bool n.mergeDashboard),
      ("share", .obj (n.share.map fun p => (p.1, .bool p.2))), ("created_at", n.createdAt),
      ("last_sync_at", n.lastSyncAt), ("last_error", n.lastError),
      ("peer_version", n.peerVersion)]

/-- `NODES` as an object. -/
def nodesJson (nodes : Dict String Node) : Json := .obj (nodes.entries.map fun e => (e.1, e.2.json))

/-- The name under which `json.dumps` writes a key; `other` writes what is not a text. -/
def keyText (other : Json.Key → String) : Json.Key → String
  | .str s => s
  | key => other key

/-- A table as an object. -/
def tableJson (other : Json.Key → String) (t : Json.Table) : Json :=
  .obj (t.entries.map fun e => (keyText other e.1, e.2))

/-- `server_settings` as an object. -/
def ServerSettings.json (s : ServerSettings) : Json :=
  .obj
    [("host", .str s.host), ("tls", .bool s.tls),
      ("port_range", .arr [.int s.portRange.1, .int s.portRange.2])]

/-- What `save_state` puts into `DATA_FILE`. -/
def StateFile.json (other : Json.Key → String) (savedAt : String) (f : StateFile) : Json :=
  .obj
    [("links", tableJson other f.links), ("subs", tableJson other f.subs),
      ("node_keys", tableJson other f.nodeKeys), ("nodes", nodesJson f.nodes),
      ("password_hash", f.passwordHash), ("disable_logging", .bool f.disableLogging),
      ("server_settings", f.serverSettings.json), ("saved_at", .str savedAt)]

/-- What `backup_export` answers. -/
def exportJson (other : Json.Key → String) (exportedAt host : String) (m : Memory) : Json :=
  .obj
    [("kind", .str "rvg-backup"), ("version", .str "10.0"), ("exported_at", .str exportedAt),
      ("host", .str host), ("links", tableJson other m.links), ("subs", tableJson other m.subs),
      ("node_keys", tableJson other m.nodeKeys), ("nodes", nodesJson m.nodes),
      ("password_hash", m.passwordHash)]

/-! ### The panel -/

/-- The tables whose entries are objects that the panel does not look into here. -/
inductive TableName where
  | links
  | subs
  | nodeKeys
  deriving DecidableEq

/-- The table. -/
def Memory.table (m : Memory) : TableName → Json.Table
  | .links => m.links
  | .subs => m.subs
  | .nodeKeys => m.nodeKeys

/-- Replace the table. -/
def Memory.setTable (m : Memory) (t : Json.Table) : TableName → Memory
  | .links => { m with links := t }
  | .subs => { m with subs := t }
  | .nodeKeys => { m with nodeKeys := t }

/-- A process and the file. -/
structure Panel where
  /-- The surroundings of the process. -/
  env : Environment
  memory : Memory
  /-- The copy of a `save_state` that is writing. -/
  saving : Option StateFile
  /-- `DATA_FILE`. -/
  file : DataFile

/-- A panel that is about to start. -/
def Panel.off (env : Environment) (file : DataFile) : Panel := ⟨env, fresh env, none, file⟩

/-- What happens to the panel. -/
inductive PanelEvent where
  /-- An entry is put into a table, in place of the old one if there is one. -/
  | put (t : TableName) (name : String) (entry : Json)
  | remove (t : TableName) (name : String)
  /-- `connect_node` inserts its entry. -/
  | connected (nodeId : String) (env : Environment) (c : Nodes.Connect) (answer : Nodes.PeerAnswer)
  | updateNode (nodeId : String) (body : Json)
  | disconnect (nodeId : String)
  /-- `_fetch_node_snapshot` has an answer, with its version. -/
  | synced (nodeId nowIso : String) (version : Json)
  /-- `_fetch_node_snapshot` has failed. -/
  | failed (nodeId msg : String)
  /-- `change-password`. -/
  | password (hash : String)
  /-- `set_server_settings` with an object for a body. -/
  | serverSettings (body : Json)
  /-- The search of `_auto_detect_host` ends. -/
  | detected (isdigit : String → Bool) (socket : Option String) (answers : List (Option String))
  /-- `set_logging_setting`. -/
  | logging (disabled : Bool)
  /-- `backup_import`. -/
  | imported (call : Import)
  /-- A `save_state` gets the lock and copies the state. -/
  | copy
  /-- It replaces the file, or raises. -/
  | replace (ok : Bool) (savedAt : String)
  /-- The process ends, whatever it was doing, and another one starts. -/
  | restart (env : Environment)

namespace PanelEvent

/-- The event on the memory, for those that are requests and tasks. -/
def apply (env : Environment) (m : Memory) : PanelEvent → Memory
  | .put t name entry => m.setTable ((m.table t).set (.str name) entry) t
  | .remove t name => m.setTable ((m.table t).erase (.str name)) t
  | .connected nodeId env c answer =>
    match Nodes.peerNode env c answer with
    | .ok node => { m with nodes := m.nodes.set nodeId node }
    | .error _ => m
  | .updateNode nodeId body =>
    match (m.nodes.get? nodeId).bind (Nodes.updateNode env body) with
    | some node => { m with nodes := m.nodes.set nodeId node }
    | none => m
  | .disconnect nodeId => { m with nodes := m.nodes.erase nodeId }
  | .synced nodeId nowIso version =>
    { m with
      nodes := m.nodes.modify nodeId fun n =>
        { n with lastSyncAt := .str nowIso, lastError := .null, peerVersion := version } }
  | .failed nodeId msg =>
    { m with nodes := m.nodes.modify nodeId fun n => { n with lastError := .str msg } }
  | .password hash => { m with passwordHash := .str hash }
  | .serverSettings body => (setServerSettings env body m).1
  | .detected isdigit socket answers =>
    let ip := detectHost isdigit socket answers
    if ip ≠ "" ∧ Str.strip m.host = "" then { m with host := ip } else m
  | .logging disabled => { m with disableLogging := disabled }
  | .imported call => (call.run ⟨m, ∅⟩).1.memory
  | .copy => m
  | .replace _ _ => m
  | .restart _ => m

/-- A `save_state` or the process ends. -/
def EndsSave : PanelEvent → Prop
  | .replace _ _ => True
  | .restart _ => True
  | _ => False

/-- The file is replaced. -/
def Writes : PanelEvent → Prop
  | .replace ok _ => ok = true
  | _ => False

end PanelEvent

/-- The panel; a process whose start raises does not serve. -/
def panelMachine (other : Json.Key → String) : Machine Panel PanelEvent where
  step s
    | .copy =>
      match s.saving with
      | none => some { s with saving := some (saveState s.memory) }
      | some _ => none
    | .replace ok savedAt =>
      match s.saving with
      | none => none
      | some copy =>
        if ok then some { s with saving := none, file := .json (copy.json other savedAt) }
        else some { s with saving := none }
    | .restart env =>
      (startup env true s.file).map fun memory => { s with env, memory, saving := none }
    | e => some { s with memory := e.apply s.env s.memory }

/-! ### The shape of what is stored -/

/-- The keys of the table are texts. -/
def Texts (t : Json.Table) : Prop := ∀ k v, t.get? k = some v → ∃ s, k = .str s

/-- An entry has the parts in their order, and its label has been cut. -/
structure Node.Settled (n : Node) : Prop where
  share : n.share.map Prod.fst = nodeShareParts
  label : n.label.toList.length ≤ 60

/-- What the panel keeps true of its memory. -/
structure Stored (m : Memory) : Prop where
  texts : ∀ t, Texts (m.table t)
  nodes : ∀ id n, m.nodes.get? id = some n → n.Settled

/-- The tables of the file are objects, where they are there. -/
def DataFile.Tabular (file : DataFile) : Prop :=
  ∀ name ∈ ["links", "subs", "node_keys"], (file.data.getD name (.obj [])).isObj = true

/-- An entry after a restart: a missing label and a missing time are filled in. -/
def Node.restored (env : Environment) (n : Node) : Node where
  __ := n
  label :=
    if n.label = "" then Str.take 60 (if n.host = "" then "نود" else n.host) else n.label
  createdAt := orElse n.createdAt (.str env.now)

/-- The memory after a restart. -/
def Memory.restored (env : Environment) (m : Memory) : Memory where
  __ := m
  nodes := m.nodes.mapValues fun _ n => n.restored env
  host := if env.rvgHost = "" then Str.strip m.host else env.rvgHost
  tls := if env.rvgTls = "" then m.tls else (fresh env).tls

/-! ### Reading back -/

section ReadBack

variable {env : Environment} {other : Json.Key → String}

/-- The object with the names of a list that are distinct. -/
theorem dict_obj {pairs : List (String × Json)} (h : (pairs.map Prod.fst).Nodup) :
    (Json.obj pairs).dict.entries = pairs :=
  Dict.entries_foldl_set (d := ∅) h

/-- A table is read back as it was. -/
theorem update_tableJson {t : Json.Table} (h : Texts t) : (tableJson other t).update ∅ = (t, true) := by
  have htext : ∀ e ∈ t.entries, Json.Key.str (keyText other e.1) = e.1 := by
    intro e he
    obtain ⟨s, hs⟩ := h e.1 e.2 (Dict.get?_eq_some.2 he)
    rw [hs]
    rfl
  have hback : (t.entries.map fun e => (keyText other e.1, e.2)).map
      (fun e => (Json.Key.str e.1, e.2)) = t.entries := by
    rw [List.map_map]
    conv_rhs => rw [← List.map_id t.entries]
    exact List.map_congr_left fun e he => Prod.ext (htext e he) rfl
  have hnodup : ((t.entries.map fun e => (keyText other e.1, e.2)).map Prod.fst).Nodup := by
    refine List.Nodup.of_map Json.Key.str ?_
    have hkeys := t.nodup
    rw [← hback] at hkeys
    simpa [List.map_map, Function.comp_def] using hkeys
  change ((∅ : Json.Table).merge _, true) = _
  rw [Dict.empty_merge]
  refine Prod.ext (Dict.ext ?_) rfl
  change ((tableJson other t).dict.entries.map fun e => (Json.Key.str e.1, e.2)) = _
  rw [tableJson, dict_obj hnodup, hback]

theorem orElse_str (s s' : String) : orElse (.str s) (.str s') = .str (if s = "" then s' else s) := by
  by_cases hs : s = "" <;> simp [orElse, Json.truthy, hs]

theorem take_label {n : Node} (h : n.Settled) : Str.take 60 n.label = n.label := by
  rw [Str.take, List.take_of_length_le h.label, String.ofList_toList]

/-- The parts that an entry shares are read back. -/
theorem share_json {n : Node} (h : n.Settled) (d : String → Json) :
    (nodeShareParts.map fun p =>
      (p, ((Json.obj (n.share.map fun p => (p.1, .bool p.2))).getD p (d p)).truthy)) = n.share := by
  have hnames : (n.share.map fun p => (p.1, Json.bool p.2)).map Prod.fst = nodeShareParts := by
    rw [← h.share, List.map_map]
    rfl
  have hnodup : ((n.share.map fun p => (p.1, Json.bool p.2)).map Prod.fst).Nodup := by
    rw [hnames]
    decide
  rw [← h.share, List.map_map]
  refine (List.map_congr_left fun p hp => ?_).trans (List.map_id _)
  have hget : (Json.obj (n.share.map fun p => (p.1, .bool p.2))).get? p.1 = some (.bool p.2) := by
    rw [Json.get?, Dict.get?_eq_some, dict_obj hnodup]
    exact List.mem_map_of_mem hp
  refine Prod.ext rfl ?_
  simp only [Function.comp_apply, Json.getD, hget, Option.getD_some, Json.truthy, id]

/-- `_normalize_node` takes an entry as it is, but for what is missing. -/
theorem normalizeNode_json {n : Node} (h : n.Settled) :
    normalizeNode env n.json = some (n.restored env) := by
  have hshare : orElse (n.json.getD "share" .null) (.obj []) =
      .obj (n.share.map fun p => (p.1, .bool p.2)) := by
    change orElse (.obj _) _ = _
    have hne : n.share ≠ [] := fun hnil => by
      have hnames := h.share
      rw [hnil] at hnames
      cases hnames
    simp [orElse, Json.truthy, hne]
  have hlabel : env.str (orElse (n.json.getD "label" .null)
      (orElse (n.json.getD "host" .null) (.str "نود"))) =
        if n.label = "" then (if n.host = "" then "نود" else n.host) else n.label := by
    change env.str (orElse (.str n.label) (orElse (.str n.host) _)) = _
    rw [orElse_str, orElse_str]
    rfl
  have htext : ∀ s : String, env.str (orElse (.str s) (.str "")) = s := fun s => by
    rw [orElse_str]
    by_cases hs : s = "" <;> simp [Environment.str, hs]
  simp only [normalizeNode, hshare, hlabel, share_json h]
  rw [if_neg (by simp [Node.json, Json.isObj]), if_neg (by simp [Json.isObj])]
  refine congrArg some ?_
  have hcut : Str.take 60 (if n.label = "" then (if n.host = "" then "نود" else n.host) else
      n.label) = (n.restored env).label := by
    simp only [Node.restored]
    split_ifs
    · rfl
    · rfl
    · exact take_label h
  rw [hcut]
  change Node.mk _ (env.str (orElse (.str n.host) _)) (env.str (orElse (.str n.key) _)) _ _ _ _ _ _ _ = _
  rw [htext, htext]
  rfl

/-- `NODES` are read back, each entry as `_normalize_node` takes it. -/
theorem loadNodes_json {es : List (String × Node)} (h : ∀ e ∈ es, e.2.Settled)
    (nodes : Dict String Node) :
    loadNodes env (es.map fun e => (e.1, e.2.json)) nodes =
      ((es.map fun e => (e.1, e.2.restored env)).foldl (fun d e => d.set e.1 e.2) nodes, true) := by
  induction es generalizing nodes with
  | nil => rfl
  | cons e es ih =>
    rw [List.map_cons, loadNodes, normalizeNode_json (h e List.mem_cons_self)]
    exact ih (fun e he => h e (List.mem_cons_of_mem _ he)) _

theorem dict_nodesJson (nodes : Dict String Node) :
    (nodesJson nodes).dict.entries = nodes.entries.map fun e => (e.1, e.2.json) :=
  dict_obj (nodes.mapValues fun _ n => n.json).nodup

/-- The settings are read back, unless the surroundings override them. -/
theorem loadHostTls_json (s : ServerSettings) (m : Memory) :
    loadHostTls env s.json m =
      { m with
        host := if env.rvgHost = "" then Str.strip (if s.host = "" then m.host else s.host) else m.host
        tls := if env.rvgTls = "" then s.tls else m.tls } := by
  have hhost : env.str (orElse (s.json.getD "host" .null) (.str m.host)) =
      if s.host = "" then m.host else s.host := by
    change env.str (orElse (.str s.host) _) = _
    rw [orElse_str]
    rfl
  rw [loadHostTls, hhost]
  rfl

/-- A process that starts on a file has what was copied for it. -/
theorem loadState_json {m : Memory} (h : Stored m) (savedAt : String) :
    loadState env true (.json ((saveState m).json other savedAt)) (fresh env) =
      (m.restored env, true) := by
  set data := (saveState m).json other savedAt with hdata
  have hlinks : (data.getD "links" (.obj [])).update (fresh env).links = (m.links, true) :=
    update_tableJson (h.texts .links)
  have hsubs : (data.getD "subs" (.obj [])).update (fresh env).subs = (m.subs, true) :=
    update_tableJson (h.texts .subs)
  have hkeys : (data.getD "node_keys" (.obj [])).update (fresh env).nodeKeys = (m.nodeKeys, true) :=
    update_tableJson (h.texts .nodeKeys)
  have hnodes : orElse (data.getD "nodes" .null) (.obj []) = nodesJson m.nodes := by
    change orElse (nodesJson m.nodes) _ = _
    cases hes : m.nodes.entries <;> simp [nodesJson, orElse, Json.truthy, hes]
  have hloaded : loadNodes env (nodesJson m.nodes).dict.entries (fresh env).nodes =
      (m.nodes.mapValues fun _ n => n.restored env, true) := by
    rw [dict_nodesJson, loadNodes_json fun e he => h.nodes e.1 e.2 (Dict.get?_eq_some.2 he)]
    have hnodup := (m.nodes.mapValues fun _ n => n.restored env).nodup
    exact Prod.ext (Dict.ext (Dict.entries_foldl_set (d := ∅) hnodup)) rfl
  have hread : (true && data.isObj) = true := rfl
  have hhash : ∀ d, data.getD "password_hash" d = m.passwordHash := fun _ => rfl
  have hlog : (data.getD "disable_logging" (.bool false)).truthy = m.disableLogging := rfl
  have hsettings : orElse (data.getD "server_settings" .null) (.obj []) =
      (saveState m).serverSettings.json := rfl
  have hrange : rangeField env ((saveState m).serverSettings.json.getD "port_range" .null) =
      .range m.portRange.1 m.portRange.2 := rfl
  have hobj : (nodesJson m.nodes).isObj = true := rfl
  have hobj' : (saveState m).serverSettings.json.isObj = true := rfl
  change runStages (loadPart env true data) parts (fresh env) = _
  simp only [parts, runStages, loadPart, hread, hlinks, hsubs, hkeys, hnodes, hobj, hloaded, hhash,
    hlog, hsettings, hobj', loadHostTls_json, hrange, if_true]
  refine Prod.ext ?_ rfl
  simp only [Memory.restored, Memory.mk.injEq, true_and, and_true]
  refine ⟨?_, rfl⟩
  split_ifs with henv hhost
  · change Str.strip env.rvgHost = Str.strip m.host
    rw [henv, show m.host = "" from hhost]
  · rfl
  · rfl

end ReadBack

/-! ### The shape is kept -/

section Shape

variable {env : Environment} {m : Memory} {t : Json.Table}

theorem Texts.empty : Texts ∅ := fun _ _ h => by cases h

theorem Texts.set (h : Texts t) (name : String) (entry : Json) : Texts (t.set (.str name) entry) := by
  intro k v hk
  rw [Dict.get?_set] at hk
  split_ifs at hk with hname
  · exact ⟨name, hname.symm⟩
  · exact h k v hk

theorem Texts.erase (h : Texts t) (key : Json.Key) : Texts (t.erase key) := by
  intro k v hk
  rw [Dict.get?_erase] at hk
  split_ifs at hk
  exact h k v hk

theorem Texts.mapValues (h : Texts t) (f : Json.Key → Json → Json) : Texts (t.mapValues f) := by
  intro k v hk
  rw [Dict.get?_mapValues] at hk
  obtain ⟨v', hv', -⟩ := Option.map_eq_some_iff.1 hk
  exact h k v' hv'

theorem texts_refilled (v : Json) : Texts (refilled v) := by
  intro k w hk
  obtain ⟨s, hs, -⟩ := Dict.mapKeys_eq_some Json.Key.str_injective hk
  exact ⟨s, hs⟩

/-- An object updates a table under texts. -/
theorem Texts.update (h : Texts t) {v : Json} (hv : v.isObj = true) : Texts (v.update t).1 := by
  cases v with
  | obj pairs =>
    intro k w hk
    change (t.merge (refilled (.obj pairs))).get? k = some w at hk
    rw [Dict.get?_merge, Option.or_eq_some_iff] at hk
    rcases hk with hk | ⟨-, hk⟩
    · exact texts_refilled _ k w hk
    · exact h k w hk
  | _ => cases hv

theorem normalizeNode_settled {v : Json} {n : Node} (h : normalizeNode env v = some n) :
    n.Settled := by
  simp only [normalizeNode] at h
  split_ifs at h
  rw [← Option.some.inj h]
  refine ⟨?_, ?_⟩
  · rw [List.map_map]
    exact List.map_id _
  · rw [Str.take, String.toList_ofList]
    exact List.length_take_le _ _

theorem updateShare_names (given : Json) {share : List (String × Bool)}
    (h : share.map Prod.fst = nodeShareParts) :
    (Nodes.updateShare given share).map Prod.fst = nodeShareParts := by
  refine List.foldlRecOn
    (motive := fun share : List (String × Bool) => share.map Prod.fst = nodeShareParts)
    nodeShareParts _ h fun share hshare p hp => ?_
  cases given.get? p with
  | none => exact hshare
  | some v => rw [Dict.map_fst_insertL (hshare ▸ hp), hshare]

theorem Node.Settled.updateNode {body : Json} {n n' : Node} (h : n.Settled)
    (hn' : Nodes.updateNode env body n = some n') : n'.Settled := by
  simp only [Nodes.updateNode] at hn'
  split_ifs at hn'
  rw [← Option.some.inj hn']
  refine ⟨?_, ?_⟩
  · dsimp only
    split
    · exact updateShare_names _ h.share
    · exact h.share
  · dsimp only
    split
    · rw [Str.take, String.toList_ofList]
      exact List.length_take_le _ _
    · exact h.label

theorem peerNode_settled {c : Nodes.Connect} {answer : Nodes.PeerAnswer} {n : Node}
    (h : Nodes.peerNode env c answer = .ok n) : n.Settled := by
  cases answer with
  | raised exc => cases h
  | response status body =>
    simp only [Nodes.peerNode] at h
    split at h
    · cases h
    split at h
    · cases h
    cases body with
    | none => cases h
    | some info =>
      dsimp only at h
      split at h
      · cases h
      cases hlabel : Nodes.peerLabel c info with
      | none => simp [hlabel] at h
      | some label =>
        simp only [hlabel] at h
        split at h
        · cases h
          exact normalizeNode_settled ‹_›
        · cases h

/-! #### What a process reads -/

theorem stored_fresh (env : Environment) : Stored (fresh env) where
  texts t := by cases t <;> exact Texts.empty
  nodes _ _ h := by cases h

theorem loadNodes_settled {es : List (String × Json)} {nodes : Dict String Node}
    (h : ∀ id n, nodes.get? id = some n → n.Settled) :
    ∀ id n, (loadNodes env es nodes).1.get? id = some n → n.Settled := by
  induction es generalizing nodes with
  | nil => exact h
  | cons e es ih =>
    rw [loadNodes]
    cases hn : normalizeNode env e.2 with
    | none => exact h
    | some n =>
      refine ih fun id n' hn' => ?_
      rw [Dict.get?_set] at hn'
      split_ifs at hn'
      · exact Option.some.inj hn' ▸ normalizeNode_settled hn
      · exact h id n' hn'

/-- The same tables. -/
theorem Stored.of_eq {m' : Memory} (h : Stored m) (ht : ∀ t, m'.table t = m.table t)
    (hn : m'.nodes = m.nodes) : Stored m' where
  texts t := by rw [ht]; exact h.texts t
  nodes := by rw [hn]; exact h.nodes

theorem Stored.setTable (h : Stored m) (ht : Texts t) (name : TableName) :
    Stored (m.setTable t name) where
  texts name' := by
    have htexts := h.texts name'
    cases name <;> cases name' <;> first | exact ht | exact htexts
  nodes := by cases name <;> exact h.nodes

theorem loadPart_stored {data : Json} (hdata : (DataFile.json data).Tabular) (readable : Bool)
    (p : Part) (h : Stored m) : Stored (loadPart env readable data p m).1 := by
  cases p with
  | read => exact h
  | links => exact h.setTable ((h.texts .links).update (hdata "links" (by simp))) .links
  | subs => exact h.setTable ((h.texts .subs).update (hdata "subs" (by simp))) .subs
  | nodeKeys => exact h.setTable ((h.texts .nodeKeys).update (hdata "node_keys" (by simp))) .nodeKeys
  | nodes =>
    simp only [loadPart]
    split_ifs
    · exact ⟨fun t => by have := h.texts t; cases t <;> exact this, loadNodes_settled h.nodes⟩
    · exact h
  | password => exact h.of_eq (fun t => by cases t <;> rfl) rfl
  | settings =>
    simp only [loadPart]
    split_ifs
    · split
      all_goals exact h.of_eq (fun t => by cases t <;> rfl) rfl
    · exact h

/-- A start on such a file leaves the shape. -/
theorem startup_stored {file : DataFile} (hfile : file.Tabular) {readable : Bool}
    (h : startup env readable file = some m) : Stored m := by
  have hload : Stored (loadState env readable file (fresh env)).1 := by
    cases file with
    | absent => exact stored_fresh env
    | garbled =>
      exact runStages_keeps (fun p _ _ hs => loadPart_stored hfile readable p hs) (stored_fresh env)
    | json data =>
      exact runStages_keeps (fun p _ _ hs => loadPart_stored hfile readable p hs) (stored_fresh env)
  obtain ⟨r, hr, rfl⟩ := Option.map_eq_some_iff.1 h
  unfold ensureDefaultLink at hr
  split at hr
  · cases hr
  · cases hr
    exact hload
  · split_ifs at hr
    · cases hr
      exact hload
    · cases hr
      exact hload.setTable ((hload.texts .links).set _ _) .links

/-! #### What requests change -/

theorem importNodes_settled {es : List (String × Json)} {nodes : Dict String Node}
    (h : ∀ id n, nodes.get? id = some n → n.Settled) :
    ∀ id n, (importNodes env es nodes).1.get? id = some n → n.Settled := by
  induction es generalizing nodes with
  | nil => exact h
  | cons e es ih =>
    rw [importNodes]
    split_ifs
    · cases hn : normalizeNode env e.2 with
      | none => exact h
      | some n =>
        refine ih fun id n' hn' => ?_
        rw [Dict.get?_set] at hn'
        split_ifs at hn'
        · exact Option.some.inj hn' ▸ normalizeNode_settled hn
        · exact h id n' hn'
    · exact ih h

theorem texts_restart (started : String → Option (ℤ × String)) (h : Texts t) :
    Texts (restartMtprotoInstances started t) := by
  unfold restartMtprotoInstances
  split_ifs
  · exact h.mapValues _
  · exact h

theorem import_stored {c : Import} {s : Stores} (h : Stored s.memory) :
    Stored (c.run s).1.memory := by
  have htables : Stored (c.replaceTables s.memory) := by
    refine ⟨fun t => ?_, h.nodes⟩
    cases t with
    | links => exact texts_refilled _
    | subs => exact texts_refilled _
    | nodeKeys =>
      change Texts (if _ then _ else _)
      split_ifs
      · exact texts_refilled _
      · exact h.texts .nodeKeys
  have hnodes : Stored (c.replaceNodes (c.replaceTables s.memory)).1 := by
    unfold Import.replaceNodes
    split_ifs
    · exact ⟨fun t => by have := htables.texts t; cases t <;> exact this,
        importNodes_settled fun _ _ h => by cases h⟩
    · exact htables
  cases haccepted : c.accepted with
  | false =>
    obtain ⟨e, he⟩ := Import.run_refused (s := s) haccepted
    rw [he]
    exact h
  | true =>
    rw [Import.run_accepted haccepted]
    split_ifs
    · exact hnodes
    · obtain ⟨hlinks, hsubs, hkeys, hnodes'⟩ := Import.replacePassword_frame (c := c)
        (s := { s with memory := (c.replaceNodes (c.replaceTables s.memory)).1 })
      refine ⟨fun t => ?_, by rw [hnodes']; exact hnodes.nodes⟩
      cases t with
      | links =>
        refine texts_restart c.started ?_
        rw [hlinks]
        exact hnodes.texts .links
      | subs =>
        change Texts (Memory.subs _)
        rw [hsubs]
        exact hnodes.texts .subs
      | nodeKeys =>
        change Texts (Memory.nodeKeys _)
        rw [hkeys]
        exact hnodes.texts .nodeKeys

theorem setHost_frame {body : Json} {m' : Memory} (h : setHost env body m = .ok m') :
    ∃ host, m' = { m with host } := by
  unfold setHost at h
  split at h
  · exact ⟨m.host, (Except.ok.inj h).symm⟩
  · split_ifs at h
    dsimp only at h
    split_ifs at h
    exact ⟨_, (Except.ok.inj h).symm⟩

theorem setPortRange_frame (env : Environment) (body : Json) (m : Memory) :
    ∃ range, (setPortRange env body m).1 = { m with portRange := range } := by
  unfold setPortRange
  repeat' split
  all_goals exact ⟨_, rfl⟩

/-- `set_server_settings` touches the settings only. -/
theorem setServerSettings_stored (h : Stored m) (body : Json) :
    Stored (setServerSettings env body m).1 := by
  unfold setServerSettings
  cases hset : setHost env body m with
  | error e => exact h
  | ok m' =>
    obtain ⟨host, rfl⟩ := setHost_frame hset
    dsimp only
    split
    · split_ifs
      all_goals
        obtain ⟨range, hrange⟩ := setPortRange_frame env body _
        rw [hrange]
        exact h.of_eq (fun t => by cases t <;> rfl) rfl
    · obtain ⟨range, hrange⟩ := setPortRange_frame env body _
      rw [hrange]
      exact h.of_eq (fun t => by cases t <;> rfl) rfl

theorem Stored.set_node (h : Stored m) (id : String) {n : Node} (hn : n.Settled) :
    Stored { m with nodes := m.nodes.set id n } where
  texts t := by have := h.texts t; cases t <;> exact this
  nodes id' n' hn' := by
    rw [Dict.get?_set] at hn'
    split_ifs at hn'
    · exact Option.some.inj hn' ▸ hn
    · exact h.nodes id' n' hn'

theorem Stored.modify_node (h : Stored m) (id : String) {f : Node → Node}
    (hf : ∀ n : Node, n.Settled → (f n).Settled) :
    Stored { m with nodes := m.nodes.modify id f } where
  texts t := by have := h.texts t; cases t <;> exact this
  nodes id' n' hn' := by
    rw [Dict.get?_modify] at hn'
    split_ifs at hn'
    · obtain ⟨n, hn, rfl⟩ := Option.map_eq_some_iff.1 hn'
      exact hf n (h.nodes id' n hn)
    · exact h.nodes id' n' hn'

/-- Requests and tasks keep the shape. -/
theorem Stored.apply (h : Stored m) (e : PanelEvent) : Stored (e.apply env m) := by
  cases e with
  | put t name entry => exact h.setTable ((h.texts t).set name entry) t
  | remove t name => exact h.setTable ((h.texts t).erase _) t
  | connected nodeId env c answer =>
    simp only [PanelEvent.apply]
    split
    · exact h.set_node nodeId (peerNode_settled ‹_›)
    · exact h
  | updateNode nodeId body =>
    simp only [PanelEvent.apply]
    split
    · obtain ⟨n, hn, hn'⟩ := Option.bind_eq_some_iff.1 ‹_›
      exact h.set_node nodeId ((h.nodes nodeId n hn).updateNode hn')
    · exact h
  | disconnect nodeId =>
    refine ⟨fun t => by have := h.texts t; cases t <;> exact this, fun id n hn => ?_⟩
    simp only [PanelEvent.apply, Dict.get?_erase] at hn
    split_ifs at hn
    exact h.nodes id n hn
  | synced nodeId nowIso version => exact h.modify_node nodeId fun n hn => ⟨hn.share, hn.label⟩
  | failed nodeId msg => exact h.modify_node nodeId fun n hn => ⟨hn.share, hn.label⟩
  | password hash => exact h.of_eq (fun t => by cases t <;> rfl) rfl
  | serverSettings body => exact setServerSettings_stored h body
  | detected isdigit socket answers =>
    simp only [PanelEvent.apply]
    split_ifs
    · exact h.of_eq (fun t => by cases t <;> rfl) rfl
    · exact h
  | logging disabled => exact h.of_eq (fun t => by cases t <;> rfl) rfl
  | imported call => exact import_stored (s := ⟨m, ∅⟩) h
  | copy => exact h
  | replace ok savedAt => exact h
  | restart env => exact h

end Shape

/-! ### Runs -/

section Runs

variable {env env' : Environment} {other : Json.Key → String} {file : DataFile} {s v : Panel}

/-- What a panel keeps true. -/
structure Panel.Sound (s : Panel) : Prop where
  memory : Stored s.memory
  file : s.file.Tabular

theorem tabular_json (f : StateFile) (savedAt : String) :
    (DataFile.json (f.json other savedAt)).Tabular := by
  intro name hname
  simp only [List.mem_cons, List.not_mem_nil, or_false] at hname
  rcases hname with rfl | rfl | rfl <;> rfl

/-- What a turn does to the memory, the copy and the file. -/
inductive PanelTurn (other : Json.Key → String) (s : Panel) : PanelEvent → Panel → Prop
  | request {e : PanelEvent} (hends : ¬ e.EndsSave) (hcopy : e ≠ .copy) :
    PanelTurn other s e { s with memory := e.apply s.env s.memory }
  | copied (hnone : s.saving = none) :
    PanelTurn other s .copy { s with saving := some (saveState s.memory) }
  | written {copy : StateFile} (hcopy : s.saving = some copy) (savedAt : String) :
    PanelTurn other s (.replace true savedAt)
      { s with saving := none, file := .json (copy.json other savedAt) }
  | dropped {copy : StateFile} (hcopy : s.saving = some copy) (savedAt : String) :
    PanelTurn other s (.replace false savedAt) { s with saving := none }
  | started {env : Environment} {memory : Memory} (h : startup env true s.file = some memory) :
    PanelTurn other s (.restart env) { s with env, memory, saving := none }

theorem panel_turn {e : PanelEvent} (h : (panelMachine other).step s e = some v) :
    PanelTurn other s e v := by
  cases e with
  | copy =>
    simp only [panelMachine] at h
    cases hsaving : s.saving with
    | none =>
      rw [hsaving] at h
      cases h
      exact .copied hsaving
    | some copy =>
      rw [hsaving] at h
      cases h
  | replace ok savedAt =>
    simp only [panelMachine] at h
    cases hsaving : s.saving with
    | none =>
      rw [hsaving] at h
      cases h
    | some copy =>
      rw [hsaving] at h
      cases ok with
      | true =>
        cases h
        exact .written hsaving savedAt
      | false =>
        cases h
        exact .dropped hsaving savedAt
  | restart env =>
    obtain ⟨memory, hstart, rfl⟩ := Option.map_eq_some_iff.1 h
    exact .started hstart
  | _ =>
    cases h
    exact .request id (fun hcopy => by cases hcopy)

theorem sound_step {e : PanelEvent} (hs : s.Sound) (h : (panelMachine other).step s e = some v) :
    v.Sound := by
  cases panel_turn h with
  | request => exact ⟨hs.memory.apply e, hs.file⟩
  | copied => exact ⟨hs.memory, hs.file⟩
  | written => exact ⟨hs.memory, tabular_json _ _⟩
  | dropped => exact ⟨hs.memory, hs.file⟩
  | started hstart => exact ⟨startup_stored hs.file hstart, hs.file⟩

/-- Every run from a panel that is off keeps the shape. -/
theorem sound_of_run (hfile : file.Tabular) {es : List PanelEvent}
    (h : (panelMachine other).run (.off env file) es = some s) : s.Sound :=
  Machine.run_invariant (I := Panel.Sound) (fun _ _ _ hs hstep => sound_step hs hstep) h
    ⟨stored_fresh env, hfile⟩

/-- A copy waits for the end of its `save_state`. -/
theorem saving_of_run {copy : StateFile} {es : List PanelEvent} (hes : ∀ e ∈ es, ¬ e.EndsSave)
    (h : (panelMachine other).run s es = some v) (hs : s.saving = some copy) :
    v.saving = some copy := by
  induction es generalizing s with
  | nil =>
    cases h
    exact hs
  | cons e es ih =>
    obtain ⟨t, ht, h⟩ := Machine.run_cons.1 h
    refine ih (fun e he => hes e (List.mem_cons_of_mem _ he)) h ?_
    have hends := hes e List.mem_cons_self
    cases panel_turn ht with
    | request => exact hs
    | copied hnone => cases hnone.symm.trans hs
    | written => exact absurd trivial hends
    | dropped => exact absurd trivial hends
    | started => exact absurd trivial hends

/-- The file stays until a copy is written. -/
theorem file_of_run {es : List PanelEvent} (hes : ∀ e ∈ es, ¬ e.Writes)
    (h : (panelMachine other).run s es = some v) : v.file = s.file := by
  induction es generalizing s with
  | nil =>
    cases h
    rfl
  | cons e es ih =>
    obtain ⟨t, ht, h⟩ := Machine.run_cons.1 h
    rw [ih (fun e he => hes e (List.mem_cons_of_mem _ he)) h]
    have hwrites := hes e List.mem_cons_self
    cases panel_turn ht with
    | request => rfl
    | copied => rfl
    | written => exact absurd rfl hwrites
    | dropped => rfl
    | started => rfl

/-- A first start, a link and a node. -/
def firstDay : List PanelEvent :=
  [.restart Nodes.plainEnvironment, .put .links "u" (.obj [("label", .str "one")]),
    .connected "n" Nodes.plainEnvironment
      ⟨"b.io", "rvg-Yi5pbw.s", "", "", .shaking, []⟩ Nodes.accepted]

/-- A save during which the link goes, and another save that a crash cuts off. -/
def crash : List PanelEvent :=
  .copy :: [.remove .links "u"] ++
    .replace true "2024" :: ([.disconnect "n", .copy] ++ [.restart Nodes.plainEnvironment])

theorem refilled_tableJson {t : Json.Table} (h : Texts t) : refilled (tableJson other t) = t := by
  have hupdate : (∅ : Json.Table).merge (refilled (tableJson other t)) = t :=
    congrArg Prod.fst (update_tableJson h)
  rwa [Dict.empty_merge] at hupdate

/-- The entries of an export are as `_normalize_node` takes them. -/
theorem entered_nodesJson {nodes : Dict String Node} (h : ∀ id n, nodes.get? id = some n → n.Settled) :
    Import.entered env (nodesJson nodes).dict.entries = nodes.mapValues fun _ n => n.restored env := by
  have hfold : ∀ (es : List (String × Node)) (d : Dict String Node), (∀ e ∈ es, e.2.Settled) →
      (es.map fun e => (e.1, e.2.json)).foldl (Import.enterNode env) d =
        (es.map fun e => (e.1, e.2.restored env)).foldl (fun d e => d.set e.1 e.2) d := by
    intro es
    induction es with
    | nil => exact fun _ _ => rfl
    | cons e es ih =>
      intro d hes
      rw [List.map_cons, List.map_cons, List.foldl_cons, List.foldl_cons,
        Import.enterNode,
        normalizeNode_json (hes e List.mem_cons_self)]
      exact ih _ fun e he => hes e (List.mem_cons_of_mem _ he)
  rw [Import.entered_eq, dict_nodesJson, hfold _ _ fun e he => h e.1 e.2 (Dict.get?_eq_some.2 he)]
  have hnodup := (nodes.mapValues fun _ n => n.restored env).nodup
  exact Dict.ext (Dict.entries_foldl_set (d := ∅) hnodup)

/-- **A backup restores what was exported.**  A panel that imports the export of a panel holds the
tables of that panel, whatever it held before; it takes the password only when it is asked to, and
keeps its own settings. -/
theorem import_export (other : Json.Key → String) (env : Environment) (file : DataFile)
    (hfile : file.Tabular) (es : List PanelEvent) (s : Panel)
    (hrun : (panelMachine other).run (.off env file) es = some s) (exportedAt host : String)
    (c : Import) (hdata : c.body.get? "data" = some (exportJson other exportedAt host s.memory))
    (t : Stores) :
    (c.run t).2 = none ∧
      (c.run t).1.memory =
        { t.memory with
          links := restartMtprotoInstances c.started s.memory.links
          subs := s.memory.subs
          nodeKeys := s.memory.nodeKeys
          nodes := s.memory.nodes.mapValues fun _ n => n.restored c.env
          passwordHash :=
            if !(c.body.getD "keep_current_password" (.bool true)).truthy &&
              s.memory.passwordHash.truthy then s.memory.passwordHash
            else t.memory.passwordHash } := by
  have hs := (sound_of_run hfile hrun).memory
  have hbody : c.body.isObj = true := isObj_of_get? hdata
  have hexport : c.data = exportJson other exportedAt host s.memory := by
    rw [Import.data, Json.getD, hdata, Option.getD_some]
  have hpart : ∀ name, c.part name = (exportJson other exportedAt host s.memory).getD name .null :=
    fun name => by rw [Import.part, hexport]
  have hlinks : c.part "links" = tableJson other s.memory.links := hpart _
  have hsubs : c.part "subs" = tableJson other s.memory.subs := hpart _
  have hkeys : c.part "node_keys" = tableJson other s.memory.nodeKeys := hpart _
  have hnodes : c.part "nodes" = nodesJson s.memory.nodes := hpart _
  have hhash : c.part "password_hash" = s.memory.passwordHash := hpart _
  have hlinks' : refilled (tableJson other s.memory.links) = s.memory.links :=
    refilled_tableJson (hs.texts .links)
  have hsubs' : refilled (tableJson other s.memory.subs) = s.memory.subs :=
    refilled_tableJson (hs.texts .subs)
  have hkeys' : refilled (tableJson other s.memory.nodeKeys) = s.memory.nodeKeys :=
    refilled_tableJson (hs.texts .nodeKeys)
  have haccepted : c.accepted = true := by
    rw [Import.accepted, hbody, hexport, hlinks, hsubs]
    rfl
  have hentries : c.nodeEntries = (nodesJson s.memory.nodes).dict.entries := by
    rw [Import.nodeEntries, hnodes]
    exact if_pos rfl
  have hgood : ∀ e ∈ c.nodeEntries, Import.malformed e = false := by
    intro e he
    rw [hentries, dict_nodesJson] at he
    obtain ⟨e, -, rfl⟩ := List.mem_map.1 he
    exact Bool.and_false _
  have hreplaced : (c.replaceNodes (c.replaceTables t.memory)).1 =
      { t.memory with
        links := s.memory.links
        subs := s.memory.subs
        nodeKeys := s.memory.nodeKeys
        nodes := s.memory.nodes.mapValues fun _ n => n.restored c.env } := by
    have hall : c.nodeEntries.takeWhile (fun e => !Import.malformed e) = c.nodeEntries :=
      List.takeWhile_eq_self_iff.2 fun e he => by rw [hgood e he]; rfl
    rw [Import.replaceNodes_eq, hall, hnodes, if_pos (show (nodesJson _).isObj = true from rfl),
      hentries, entered_nodesJson hs.nodes, Import.replaceTables, hlinks, hsubs, hkeys,
      if_pos (show (tableJson _ _).isObj = true from rfl), hlinks', hsubs', hkeys']
  rw [Import.run_accepted haccepted, if_neg (by simpa using hgood), hreplaced]
  refine ⟨rfl, ?_⟩
  simp only [Import.replacePassword, hhash]
  split_ifs <;> rfl

/-- A fresh panel that imports the export has the link and the node. -/
theorem import_export_firstDay : ∃ s,
    (panelMachine fun _ => "").run (.off Nodes.plainEnvironment .absent) firstDay = some s ∧
      ∃ c : Import, (c.run ⟨fresh Nodes.plainEnvironment, ∅⟩).2 = none ∧
        (c.run ⟨fresh Nodes.plainEnvironment, ∅⟩).1.memory.links.get? (.str "u") =
          some (.obj [("label", .str "one")]) ∧
        (c.run ⟨fresh Nodes.plainEnvironment, ∅⟩).1.memory.nodes.keys = ["n"] ∧
        (c.run ⟨fresh Nodes.plainEnvironment, ∅⟩).1.memory.subs = s.memory.subs := by
  have hview : ((panelMachine fun _ => "").run (.off Nodes.plainEnvironment .absent) firstDay).map
      (fun s => ((restartMtprotoInstances (fun _ => none) s.memory.links).get? (.str "u"),
        (s.memory.nodes.mapValues fun _ n => n.restored Nodes.plainEnvironment).keys)) =
          some (some (.obj [("label", .str "one")]), ["n"]) := by
    rfl
  obtain ⟨s, hs, heq⟩ := Option.map_eq_some_iff.1 hview
  obtain ⟨hlink, hnode⟩ := Prod.mk.inj heq
  let c : Import :=
    ⟨Nodes.plainEnvironment, .obj [("data", exportJson (fun _ => "") "2024" "a.io" s.memory)], none,
      0, fun _ => none⟩
  obtain ⟨hok, hmemory⟩ := import_export (fun _ => "") Nodes.plainEnvironment .absent
    (fun _ _ => rfl) firstDay s hs "2024" "a.io" c rfl ⟨fresh Nodes.plainEnvironment, ∅⟩
  exact ⟨s, hs, c, hok, by rw [hmemory]; exact hlink, by rw [hmemory]; exact hnode, by rw [hmemory]⟩

end Runs

end State

end RvgGateway
