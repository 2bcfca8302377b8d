import Mathlib.Data.List.TakeWhile
import RvgGateway.State.Persistence

/-!
# The import of a backup

`backup_import` checks the outer shape of a backup and then replaces `LINKS`, `SUBS`, `NODE_KEYS`
and `NODES` one after another.  `_normalize_node` reads the nodes when the other three are already
replaced.

* `Import.run` : `backup_import`.
* `Import.AllOrNothing` : the backup is imported, or the call raises and nothing has changed.
* `Import.Clean` : the condition on the backup.
* `allOrNothing_iff` : **an import is all-or-nothing exactly for such backups.**
-/

namespace RvgGateway

namespace State

/-! ### `backup_import` -/

/-- What the call can change. -/
structure Stores where
  memory : Memory
  /-- `SESSIONS`. -/
  sessions : Dict String ℤ

/-- What `backup_import` raises. -/
inductive ImportError where
  /-- `HTTPException(status_code=400)`. -/
  | badRequest (detail : String)
  /-- `AttributeError`. -/
  | attribute
  deriving DecidableEq

/-- A call of `backup_import`. -/
structure Import where
  env : Environment
  body : Json
  /-- The session of the caller, in a cookie. -/
  token : Option String
  /-- `time.time() + SESSION_TTL`. -/
  expires : ℤ
  /-- The port and the secret with which `start_instance` returns, if it does. -/
  started : String → Option (ℤ × String)

/-- `d.clear()` and `d.update(v)` with an object. -/
def refilled (v : Json) : Json.Table := v.dict.mapKeys .str Json.Key.str_injective

/-- The loop over the nodes, and whether it ran to the end. -/
def importNodes (env : Environment) :
    List (String × Json) → Dict String Node → Dict String Node × Bool
  | [], nodes => (nodes, true)
  | e :: es, nodes =>
    if e.2.isObj then
      match normalizeNode env e.2 with
      | some n => importNodes env es (nodes.set e.1 n)
      | none => (nodes, false)
    else importNodes env es nodes

/-- An active link of MTProto. -/
def isProxyLink (d : Json) : Bool :=
  Json.isText "mtproto" (d.getD "protocol" .null) && (d.getD "active" (.bool true)).truthy

/-- The fields in which a link keeps its running proxy. -/
def proxyFields : List String := ["mtproto_port", "mtproto_secret", "listen_port"]

/-- The link of a proxy that has been started. -/
def proxyStarted (port : ℤ) (secret : String) (d : Json) : Json :=
  let fields := (d.dict.set "mtproto_port" (.int port)).set "mtproto_secret" (.str secret)
  .obj
    (if (d.getD "listen_port" .null).truthy then fields.set "listen_port" (.int port)
    else fields).entries

/-- `_restart_mtproto_instances`; it raises at once when a link is not an object, and the caller
goes on. -/
def restartMtprotoInstances (started : String → Option (ℤ × String)) (links : Json.Table) :
    Json.Table :=
  if links.values.all Json.isObj then
    links.mapValues fun key d =>
      match key with
      | .str uid =>
        if isProxyLink d then
          match started uid with
          | some r => proxyStarted r.1 r.2 d
          | none => d
        else d
      | _ => d
  else links

namespace Import

variable (c : Import)

/-- `body.get("data")`. -/
def data : Json := c.body.getD "data" .null

/-- `data.get(name)`. -/
def part (name : String) : Json := c.data.getD name .null

/-- The first three stores. -/
def replaceTables (m : Memory) : Memory where
  __ := m
  links := refilled (c.part "links")
  subs := refilled (c.part "subs")
  nodeKeys := if (c.part "node_keys").isObj then refilled (c.part "node_keys") else m.nodeKeys

/-- `NODES`, and whether the loop over the nodes ran to the end. -/
def replaceNodes (m : Memory) : Memory × Bool :=
  if (c.part "nodes").isObj then
    let r := importNodes c.env (c.part "nodes").dict.entries ∅
    ({ m with nodes := r.1 }, r.2)
  else (m, true)

/-- The password and the sessions. -/
def replacePassword (s : Stores) : Stores :=
  let keepPassword := (c.body.getD "keep_current_password" (.bool true)).truthy
  let newPwHash := c.part "password_hash"
  if !keepPassword && newPwHash.truthy then
    { memory := { s.memory with passwordHash := newPwHash }
      sessions :=
        match c.token with
        | some token => if token = "" then ∅ else Dict.set ∅ token c.expires
        | none => ∅ }
  else s

/-- `backup_import`; `stop_all` and `save_state` touch none of the stores. -/
def run (s : Stores) : Stores × Option ImportError :=
  if !c.body.isObj then (s, some .attribute)
  else if !c.data.isObj then (s, some (.badRequest "فایل بکاپ نامعتبر است"))
  else if !(c.part "links").isObj || !(c.part "subs").isObj then
    (s, some (.badRequest "ساختار فایل بکاپ نامعتبر است"))
  else
    let r := c.replaceNodes (c.replaceTables s.memory)
    if r.2 then
      let s := c.replacePassword { s with memory := r.1 }
      ({ s with
        memory :=
          { s.memory with links := restartMtprotoInstances c.started s.memory.links } }, none)
    else ({ s with memory := r.1 }, some .attribute)

/-! ### The property -/

/-- The links of the backup, where those of a running proxy know its port and its secret. -/
structure LinksImported (new : Json) (links : Json.Table) : Prop where
  keys : ∀ key, links.get? key ≠ none → ∃ uid, key = .str uid ∧ new.get? uid ≠ none
  values : ∀ uid d, new.get? uid = some d → ∃ d', links.get? (.str uid) = some d' ∧
    (d' = d ∨ isProxyLink d = true ∧ d'.isObj = true ∧
      ∀ name ∉ proxyFields, d'.get? name = d.get? name)

/-- The stores are those of the backup. -/
structure Imported (s : Stores) : Prop where
  links : LinksImported (c.part "links") s.memory.links
  subs : s.memory.subs = refilled (c.part "subs")
  nodeKeys : (c.part "node_keys").isObj = true →
    s.memory.nodeKeys = refilled (c.part "node_keys")
  nodes : (c.part "nodes").isObj = true → ∀ id,
    s.memory.nodes.get? id = ((c.part "nodes").get? id).bind (normalizeNode c.env)
  linkObjects : ∀ uid d, (c.part "links").get? uid = some d → d.isObj = true
  subObjects : ∀ id d, (c.part "subs").get? id = some d → d.isObj = true

/-- `LINKS`, `SUBS`, `NODE_KEYS`, `NODES`, `AUTH` and `SESSIONS` are the same. -/
structure Unchanged (s s' : Stores) : Prop where
  links : s'.memory.links = s.memory.links
  subs : s'.memory.subs = s.memory.subs
  nodeKeys : s'.memory.nodeKeys = s.memory.nodeKeys
  nodes : s'.memory.nodes = s.memory.nodes
  passwordHash : s'.memory.passwordHash = s.memory.passwordHash
  sessions : s'.sessions = s.sessions

/-- The call completes and the stores are those of the backup, or it raises and they are what they
were. -/
def AllOrNothing (s : Stores) : Prop :=
  match (c.run s).2 with
  | none => c.Imported (c.run s).1
  | some _ => Unchanged s (c.run s).1

/-! ### The condition -/

/-- The outer shape that the call asks for. -/
def accepted : Bool :=
  c.body.isObj && c.data.isObj && (c.part "links").isObj && (c.part "subs").isObj

/-- The nodes of the backup. -/
def nodeEntries : List (String × Json) :=
  if (c.part "nodes").isObj then (c.part "nodes").dict.entries else []

/-- A node whose `share` is neither false nor an object. -/
def malformed (e : String × Json) : Bool :=
  e.2.isObj && (e.2.getD "share" .null).truthy && !(e.2.getD "share" .null).isObj

/-- The nodes that are entered from a list of nodes without a malformed one. -/
def entered (env : Environment) (es : List (String × Json)) : Dict String Node :=
  Dict.collect (fun e => (normalizeNode env e.2).map fun n => (e.1, n)) es

/-- What the call replaces before it gets to a malformed node is there already. -/
structure Repeats (s : Stores) : Prop where
  links : s.memory.links = refilled (c.part "links")
  subs : s.memory.subs = refilled (c.part "subs")
  nodeKeys : (c.part "node_keys").isObj = true →
    s.memory.nodeKeys = refilled (c.part "node_keys")
  nodes : s.memory.nodes = entered c.env (c.nodeEntries.takeWhile fun e => !malformed e)

/-- The backup is refused for its shape; or it has no malformed node, and links and groups are
objects; or it has a malformed node behind what is there already. -/
def Clean (s : Stores) : Prop :=
  c.accepted = true →
    (c.nodeEntries.any malformed = false ∧
      (∀ uid d, (c.part "links").get? uid = some d → d.isObj = true) ∧
      ∀ id d, (c.part "subs").get? id = some d → d.isObj = true) ∨
    (c.nodeEntries.any malformed = true ∧ c.Repeats s)

/-! ### The nodes -/

section Nodes

variable {env : Environment} {e : String × Json} {es : List (String × Json)}

/-- `_normalize_node` raises exactly for the malformed nodes, once it is called for objects only. -/
theorem normalizeNode_malformed (he : e.2.isObj = true) :
    (normalizeNode env e.2).isSome = !malformed e := by
  unfold normalizeNode malformed orElse
  rw [he]
  cases ht : (e.2.getD "share" .null).truthy with
  | false => rfl
  | true =>
    cases hs : (e.2.getD "share" .null).isObj with
    | false => simp [hs]
    | true => simp [hs]

/-- A node that is not an object is left out. -/
theorem normalizeNode_not_obj (he : e.2.isObj = false) : normalizeNode env e.2 = none := by
  simp [normalizeNode, he]

/-- `NODES[nid] = _normalize_node(n)`, unless the node is left out. -/
def enterNode (env : Environment) (nodes : Dict String Node) (e : String × Json) :
    Dict String Node :=
  match normalizeNode env e.2 with
  | some n => nodes.set e.1 n
  | none => nodes

theorem entered_eq : entered env es = es.foldl (enterNode env) ∅ := by
  refine List.foldl_ext _ _ ∅ fun nodes e _ => ?_
  unfold enterNode
  beta_reduce
  cases normalizeNode env e.2 <;> rfl

/-- The loop enters the nodes in front of the first malformed one. -/
theorem importNodes_eq (nodes : Dict String Node) :
    importNodes env es nodes =
      ((es.takeWhile fun e => !malformed e).foldl (enterNode env) nodes,
        es.all fun e => !malformed e) := by
  induction es generalizing nodes with
  | nil => rfl
  | cons e es ih =>
    rw [importNodes]
    cases he : e.2.isObj with
    | false =>
      have hnot : malformed e = false := by simp [malformed, he]
      rw [if_neg (by simp), ih, List.takeWhile_cons_of_pos (by simp [hnot]), List.foldl_cons,
        enterNode, normalizeNode_not_obj he, List.all_cons, hnot]
      rfl
    | true =>
      have hsome : (normalizeNode env e.2).isSome = !malformed e := normalizeNode_malformed he
      rw [if_pos rfl]
      cases hn : normalizeNode env e.2 with
      | none =>
        have hbad : malformed e = true := by simpa [hn] using hsome
        rw [List.takeWhile_cons_of_neg (by simp [hbad]), List.all_cons, hbad]
        rfl
      | some n =>
        have hgood : malformed e = false := by simpa [hn] using hsome
        simp only [ih]
        rw [List.takeWhile_cons_of_pos (by simp [hgood]), List.foldl_cons, enterNode, hn,
          List.all_cons, hgood]
        rfl

theorem importNodes_entered :
    importNodes env es ∅ =
      (entered env (es.takeWhile fun e => !malformed e), es.all fun e => !malformed e) := by
  rw [importNodes_eq, entered_eq]

/-- Under each name stands the node of the backup. -/
theorem get?_entered (d : Dict String Json) (id : String) :
    (entered env d.entries).get? id = (d.get? id).bind (normalizeNode env) := by
  have hf : ∀ (e : String × Json) (k : String) (n : Node),
      (normalizeNode env e.2).map (fun n => (e.1, n)) = some (k, n) ↔
        e.1 = k ∧ normalizeNode env e.2 = some n := by
    intro e k n
    rw [Option.map_eq_some_iff]
    constructor
    · rintro ⟨n', hn', heq⟩
      cases heq
      exact ⟨rfl, hn'⟩
    · rintro ⟨rfl, hn⟩
      exact ⟨n, hn, rfl⟩
  refine Option.ext fun n => ?_
  rw [entered, Dict.get?_collect_eq_some]
  · rw [Option.bind_eq_some_iff]
    constructor
    · rintro ⟨e, he, hen⟩
      obtain ⟨rfl, hn⟩ := (hf e id n).1 hen
      exact ⟨e.2, Dict.get?_eq_some.2 he, hn⟩
    · rintro ⟨v, hv, hn⟩
      exact ⟨(id, v), Dict.get?_eq_some.1 hv, (hf (id, v) id n).2 ⟨rfl, hn⟩⟩
  · intro a ha b hb n n' han hbn
    obtain ⟨hak, han⟩ := (hf a id n).1 han
    obtain ⟨hbk, hbn⟩ := (hf b id n').1 hbn
    -- the keys of a dictionary are distinct, so both are the same entry
    have hsame : a.2 = b.2 := by
      have hget := Dict.get?_eq_some.2 ha
      rw [hak, ← hbk, Dict.get?_eq_some.2 hb] at hget
      exact (Option.some.inj hget).symm
    rw [hsame, hbn] at han
    exact (Option.some.inj han).symm

end Nodes

/-! ### The links -/

/-- A started proxy is entered in its own fields. -/
theorem proxyStarted_get? {d : Json} {port : ℤ} {secret name : String}
    (hname : name ∉ proxyFields) : (proxyStarted port secret d).get? name = d.get? name := by
  simp only [proxyFields, List.mem_cons, List.not_mem_nil, or_false, not_or] at hname
  have hfields : ((d.dict.set "mtproto_port" (.int port)).set "mtproto_secret" (.str secret)).get?
      name = d.get? name := by
    rw [Dict.get?_set_ne _ _ (Ne.symm hname.2.1), Dict.get?_set_ne _ _ (Ne.symm hname.1)]
    rfl
  rw [proxyStarted, Json.get?_obj_entries]
  split_ifs
  · rw [Dict.get?_set_ne _ _ (Ne.symm hname.2.2), hfields]
  · exact hfields

theorem get?_refilled (v : Json) (uid : String) : (refilled v).get? (.str uid) = v.get? uid :=
  Dict.get?_mapKeys Json.Key.str_injective v.dict uid

theorem linksImported_refilled (new : Json) : LinksImported new (refilled new) where
  keys := fun key hkey => by
    obtain ⟨d, hd⟩ := Option.ne_none_iff_exists'.1 hkey
    obtain ⟨uid, rfl, hget⟩ := Dict.mapKeys_eq_some Json.Key.str_injective hd
    exact ⟨uid, rfl, fun hnone => by cases hget.symm.trans hnone⟩
  values := fun uid d hd => ⟨d, (get?_refilled new uid).trans hd, .inl rfl⟩

/-- The restart of the proxies leaves the links those of the backup. -/
theorem linksImported_restart (started : String → Option (ℤ × String)) (new : Json) :
    LinksImported new (restartMtprotoInstances started (refilled new)) := by
  unfold restartMtprotoInstances
  split_ifs
  · refine ⟨fun key hkey => (linksImported_refilled new).keys key fun hnone => hkey ?_,
      fun uid d hd => ?_⟩
    · rw [Dict.get?_mapValues, hnone]
      rfl
    · rw [Dict.get?_mapValues, get?_refilled, hd]
      refine ⟨_, rfl, ?_⟩
      simp only
      split_ifs with hproxy
      · cases started uid with
        | none => exact .inl rfl
        | some r => exact .inr ⟨hproxy, rfl, fun name hname => proxyStarted_get? hname⟩
      · exact .inl rfl
  · exact linksImported_refilled new

/-! ### The call -/

section Run

variable {c : Import} {s : Stores}

/-- A backup of the wrong shape is refused at once. -/
theorem run_refused (h : c.accepted = false) : ∃ e, c.run s = (s, some e) := by
  unfold run
  cases hbody : c.body.isObj with
  | false => exact ⟨_, rfl⟩
  | true =>
    cases hdata : c.data.isObj with
    | false => exact ⟨_, rfl⟩
    | true =>
      have htables : (!(c.part "links").isObj || !(c.part "subs").isObj) = true := by
        rw [accepted, hbody, hdata, Bool.true_and, Bool.true_and] at h
        rw [← Bool.not_and, h]
        rfl
      rw [htables]
      exact ⟨_, rfl⟩

/-- The nodes of an import: those in front of the first malformed one. -/
theorem replaceNodes_eq (m : Memory) :
    c.replaceNodes m =
      ({ m with
        nodes :=
          if (c.part "nodes").isObj then
            entered c.env (c.nodeEntries.takeWhile fun e => !malformed e)
          else m.nodes }, !c.nodeEntries.any malformed) := by
  unfold replaceNodes nodeEntries
  split_ifs
  · simp [importNodes_entered, List.not_any_eq_all_not]
  · rfl

theorem run_accepted (h : c.accepted = true) :
    c.run s =
      if c.nodeEntries.any malformed then
        ({ s with memory := (c.replaceNodes (c.replaceTables s.memory)).1 }, some .attribute)
      else
        let s' := c.replacePassword
          { s with memory := (c.replaceNodes (c.replaceTables s.memory)).1 }
        ({ s' with
          memory :=
            { s'.memory with
              links := restartMtprotoInstances c.started s'.memory.links } }, none) := by
  simp only [accepted, Bool.and_eq_true] at h
  obtain ⟨⟨⟨hbody, hdata⟩, hlinks⟩, hsubs⟩ := h
  have hran : (c.replaceNodes (c.replaceTables s.memory)).2 = !c.nodeEntries.any malformed := by
    rw [replaceNodes_eq]
  unfold run
  simp only [hbody, hdata, hlinks, hsubs, hran]
  cases c.nodeEntries.any malformed <;> rfl

/-- The password is kept apart from the tables. -/
theorem replacePassword_frame :
    (c.replacePassword s).memory.links = s.memory.links ∧
      (c.replacePassword s).memory.subs = s.memory.subs ∧
      (c.replacePassword s).memory.nodeKeys = s.memory.nodeKeys ∧
      (c.replacePassword s).memory.nodes = s.memory.nodes := by
  unfold replacePassword
  simp only
  split_ifs <;> exact ⟨rfl, rfl, rfl, rfl⟩

/-- An import that completes has replaced the tables, and the proxies are started behind that. -/
theorem imported_iff (h : c.accepted = true) (hgood : c.nodeEntries.any malformed = false) :
    (c.run s).2 = none ∧ (c.Imported (c.run s).1 ↔
      (∀ uid d, (c.part "links").get? uid = some d → d.isObj = true) ∧
        ∀ id d, (c.part "subs").get? id = some d → d.isObj = true) := by
  rw [run_accepted h, hgood, if_neg Bool.false_ne_true]
  refine ⟨rfl, fun himported => ⟨himported.linkObjects, himported.subObjects⟩, ?_⟩
  rintro ⟨hlinkObjects, hsubObjects⟩
  have hframe := replacePassword_frame (c := c)
    (s := { s with memory := (c.replaceNodes (c.replaceTables s.memory)).1 })
  generalize c.replacePassword
    { s with memory := (c.replaceNodes (c.replaceTables s.memory)).1 } = s' at hframe ⊢
  rw [replaceNodes_eq] at hframe
  obtain ⟨hlinks, hsubs, hkeys, hnodes⟩ := hframe
  refine ⟨?_, hsubs, fun hobj => hkeys.trans (if_pos hobj), fun hobj id => ?_, hlinkObjects,
    hsubObjects⟩
  · change LinksImported _ (restartMtprotoInstances c.started s'.memory.links)
    rw [hlinks]
    exact linksImported_restart c.started (c.part "links")
  · have hall : c.nodeEntries.takeWhile (fun e => !malformed e) = c.nodeEntries := by
      refine List.takeWhile_eq_self_iff.2 fun e he => ?_
      rw [List.any_eq_false] at hgood
      simpa using hgood e he
    change s'.memory.nodes.get? id = _
    rw [hnodes, hall]
    simp only [if_pos hobj]
    rw [nodeEntries, if_pos hobj]
    exact get?_entered _ id

/-- An import that raises at a malformed node has changed nothing exactly when it repeats what is
there. -/
theorem unchanged_iff (hbad : c.nodeEntries.any malformed = true) :
    Unchanged s { s with memory := (c.replaceNodes (c.replaceTables s.memory)).1 } ↔
      c.Repeats s := by
  have hobj : (c.part "nodes").isObj = true := by
    cases hnodes : (c.part "nodes").isObj with
    | true => rfl
    | false =>
      rw [nodeEntries, hnodes] at hbad
      cases hbad
  rw [replaceNodes_eq, hobj]
  constructor
  · intro h
    refine ⟨h.links.symm, h.subs.symm, fun hkeys => ?_, h.nodes.symm⟩
    have hnodeKeys := h.nodeKeys
    simp only [replaceTables, if_pos hkeys] at hnodeKeys
    exact hnodeKeys.symm
  · intro h
    refine ⟨h.links.symm, h.subs.symm, ?_, h.nodes.symm, rfl, rfl⟩
    simp only [replaceTables]
    split_ifs with hkeys
    · exact (h.nodeKeys hkeys).symm
    · rfl

end Run

end Import

/-- An import is all-or-nothing exactly for a clean backup. -/
theorem allOrNothing_iff (c : Import) (s : Stores) : c.AllOrNothing s ↔ c.Clean s := by
  unfold Import.AllOrNothing Import.Clean
  cases hacc : c.accepted with
  | false =>
    obtain ⟨e, hrun⟩ := Import.run_refused (s := s) hacc
    rw [hrun]
    exact ⟨fun _ h => (by cases h), fun _ => ⟨rfl, rfl, rfl, rfl, rfl, rfl⟩⟩
  | true =>
    cases hbad : c.nodeEntries.any Import.malformed with
    | false =>
      obtain ⟨hnone, himported⟩ := Import.imported_iff (s := s) hacc hbad
      rw [hnone]
      simp only [himported]
      constructor
      · exact fun hobjects _ => .inl ⟨trivial, hobjects⟩
      · intro hclean
        refine (hclean trivial).elim And.right fun hrepeats => ?_
        cases hrepeats.1
    | true =>
      rw [Import.run_accepted hacc, hbad, if_pos rfl]
      simp only [Import.unchanged_iff hbad]
      constructor
      · exact fun hrepeats _ => .inr ⟨trivial, hrepeats⟩
      · intro hclean
        refine (hclean trivial).elim (fun hgood => ?_) And.right
        cases hgood.1

/-- The import of a backup whose only node has a list for its `share`. -/
def listShare : Import where
  env :=
    { rvgHost := "", rvgTls := "", adminHash := "", defaultUid := "", now := ""
      repr := fun _ => "", intOfStr := fun _ => none }
  body := .obj [("data", .obj [("links", .obj []), ("subs", .obj []),
    ("nodes", .obj [("n", .obj [("share", .arr [.int 1])])])])]
  token := none
  expires := 0
  started := fun _ => none

/-- A panel with one link. -/
def oneLink : Stores where
  memory := { fresh listShare.env with links := Dict.set ∅ (.str "u") (.obj []) }
  sessions := ∅

/-- The import raises, and the link that was there is gone. -/
theorem malformed_node_loses_links : ¬ ∀ (c : Import) (s : Stores), c.AllOrNothing s := by
  intro h
  have hall := h listShare oneLink
  have hraised : (listShare.run oneLink).2 = some .attribute := by decide +kernel
  rw [Import.AllOrNothing, hraised] at hall
  have hlost : (listShare.run oneLink).1.memory.links.contains (.str "u") = false := by
    decide +kernel
  rw [hall.links] at hlost
  revert hlost
  decide

end State

end RvgGateway
