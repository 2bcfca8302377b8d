import RvgGateway.Nodes.Snapshot
import RvgGateway.State.Persistence

/-!
# The subscription of a group

A client program fetches the links of a group in Base64.  Two handlers of `main.py` give them out:
`/sub-group/{uuid_key}`, and `/api/public/sub/{uuid_key}` when the `User-Agent` is that of a client.
Each selects the links on its own: those of this panel, those of other panels by their snapshots, and
those that are stored as text.

* `subGroupSubscription`, `publicSubData` : the two handlers, without their headers.
* `listed` : what a subscription is to list.
* `subscriptions_agree` : **both handlers give out exactly these links.**
* `empty_foreign_link_skipped` : a stored link whose text is empty is not listed.
-/

namespace RvgGateway

namespace Nodes

open RvgGateway.State (Node)

/-! ### What the handlers read -/

/-- The answer of another panel when it is asked for a snapshot. -/
inductive PeerReply where
  /-- No answer, or an answer that is no snapshot; the node counts as offline. -/
  | offline
  /-- An answer that makes `_fetch_node_snapshot` raise. -/
  | garbled
  /-- The snapshot that the panel takes for a node key. -/
  | snapshot (w : Surroundings) (entry : KeyEntry) (s : Panel)

/-- The panel that serves the subscriptions. -/
structure Central where
  surroundings : Surroundings
  panel : Panel
  /-- `NODES`. -/
  nodes : Dict String Node
  peers : String → PeerReply
  /-- The `uuid` of each of `connections`. -/
  connections : List String
  hashPassword : String → String

/-- A request for a subscription. -/
structure SubRequest where
  uuidKey : String
  /-- `pw` in the query. -/
  pw : String
  userAgent : String

/-- An element of `links` in the public data of a group. -/
structure PublicRow where
  uuid : String
  label : String
  active : Bool
  protocol : String
  usedBytes : ℤ
  limitBytes : ℤ
  vlessLink : String

/-- What the handlers answer. -/
inductive SubAnswer where
  /-- `HTTPException`. -/
  | error (status : ℕ) (detail : String)
  | locked (name : String)
  | content (body : String)
  /-- The data for the page in a browser. -/
  | page (name desc subUrl : String) (activeConnections : ℕ) (links : List PublicRow)

/-- `base64.b64encode("\n".join(lines).encode()).decode()`. -/
def encodeLines (lines : List String) : String := Str.b64encode (String.intercalate "\n" lines)

/-- The first group with the key. -/
def findSub (s : Panel) (uuidKey : String) : Option (Groups.Sub Group) :=
  s.tables.subs.values.find? fun sub => sub.group.uuidKey = uuidKey

/-- The text of a link of the panel. -/
def shareText (w : Surroundings) (uid : String) (d : PanelLink) : String :=
  (Share.generateShareLink w.config d.toCoreLink uid w.host ("RVG-" ++ d.label) d.protocol).text

/-! ### Links of other panels -/

/-- `ref.split("::", 1)`, of a text that contains `"::"`. -/
def splitRefL : List Char → Option (List Char × List Char)
  | ':' :: ':' :: rest => some ([], rest)
  | ch :: rest => (splitRefL rest).map fun p => (ch :: p.1, p.2)
  | [] => none

/-- The node and the link that an element of `node_link_ids` names. -/
def splitRef (ref : String) : Option (String × String) :=
  (splitRefL ref.toList).map fun p => (String.ofList p.1, String.ofList p.2)

example : splitRef "n1::u::v" = some ("n1", "u::v") := by decide

/-- `sorted(p for p in NODE_SHARE_PARTS if share.get(p))`. -/
def sharedParts (n : Node) : List Part :=
  Part.sorted.filter fun p => (n.share.lookup p.name).getD false

/-- The snapshot that is asked for, if any part is. -/
def askSnapshot (n : Node) (w : Surroundings) (entry : KeyEntry) (s : Panel) : Option Snapshot :=
  if sharedParts n = [] then none
  else
    some (nodeSnapshot w entry (some (String.intercalate "," ((sharedParts n).map Part.name))) s)

/-- `_fetch_node_snapshot` without the cache, of which only `links` is read; `none` when it raises. -/
def fetchNodeLinks (n : Node) : PeerReply → Option (List LinkRow)
  | .offline => some []
  | .garbled => if sharedParts n = [] then some [] else none
  | .snapshot w entry s => some (((askSnapshot n w entry s).bind Snapshot.links).getD [])

/-- `snap_by_node`. -/
def snapByNode (c : Central) (refs : List String) : Dict String (Option (List LinkRow)) :=
  Dict.collect (fun nid => (c.nodes.get? nid).map fun n => (nid, fetchNodeLinks n (c.peers nid)))
    (refs.filterMap fun ref => (splitRef ref).map Prod.fst)

/-- The beginning of the loop over `node_link_ids`: the link in the snapshot of its node. -/
def findNodeLink (snaps : Dict String (Option (List LinkRow))) (ref : String) :
    Option (String × String × LinkRow) :=
  match splitRef ref with
  | none => none
  | some (nid, uid) =>
    match snaps.get? nid with
    | some (some links) =>
      match links.find? fun l => l.uuid = uid with
      | some nodeLink => if nodeLink.vlessLink = "" then none else some (nid, uid, nodeLink)
      | none => none
    | _ => none

/-! ### `/sub-group/{uuid_key}` -/

/-- The turn of the loop over `link_ids` in `sub_group_subscription`. -/
def groupLine (c : Central) (lid : String) : Option String :=
  match c.panel.tables.links.get? lid with
  | none => none
  | some e =>
    if isLinkAllowed c.surroundings.now (some e.link.toLink) then
      some (shareText c.surroundings lid e.link)
    else none

/-- The turn of the loop over `node_link_ids` in `sub_group_subscription`. -/
def groupNodeLine (snaps : Dict String (Option (List LinkRow))) (ref : String) : Option String :=
  match findNodeLink snaps ref with
  | none => none
  | some (_, _, nodeLink) =>
    if !nodeLink.entry.link.active then none
    else if nodeLink.expired then none
    else if 0 < nodeLink.entry.link.limitBytes &&
        nodeLink.entry.link.limitBytes ≤ nodeLink.entry.link.usedBytes then none
    else some nodeLink.vlessLink

/-- The turn of the loop over `foreign_links` in `sub_group_subscription`. -/
def groupForeignLine (fl : ForeignLink) : Option String :=
  if fl.vlessLink = "" then none else some fl.vlessLink

/-- `sub_group_subscription`. -/
def subGroupSubscription (c : Central) (r : SubRequest) : SubAnswer :=
  match findSub c.panel r.uuidKey with
  | none => .error 404 "not found"
  | some sub =>
    let passwordHash := sub.group.passwordHash.getD ""
    if passwordHash ≠ "" && c.hashPassword r.pw ≠ passwordHash then .error 403 "wrong password"
    else
      let snaps := snapByNode c sub.group.nodeLinkIds
      .content (encodeLines
        (sub.linkIds.filterMap (groupLine c) ++
          sub.group.nodeLinkIds.filterMap (groupNodeLine snaps) ++
          sub.group.foreignLinks.filterMap groupForeignLine))

/-! ### `/api/public/sub/{uuid_key}` -/

/-- The turn of the loop over `link_ids` in `public_sub_data`. -/
def publicRow (c : Central) (lid : String) : Option PublicRow :=
  match c.panel.tables.links.get? lid with
  | none => none
  | some e =>
    some
      { uuid := lid
        label := e.link.label
        active := isLinkAllowed c.surroundings.now (some e.link.toLink)
        protocol := e.link.protocol
        usedBytes := e.link.usedBytes
        limitBytes := e.link.limitBytes
        vlessLink := shareText c.surroundings lid e.link }

/-- The connections of the links of the group. -/
def activeConnections (c : Central) (linkIds : List String) : ℕ :=
  (linkIds.map fun lid =>
    if c.panel.tables.links.contains lid then c.connections.count lid else 0).sum

/-- The turn of the loop over `node_link_ids` in `public_sub_data`. -/
def publicNodeRow (snaps : Dict String (Option (List LinkRow))) (ref : String) :
    Option PublicRow :=
  match findNodeLink snaps ref with
  | none => none
  | some (nid, uid, nodeLink) =>
    let lb := nodeLink.entry.link.limitBytes
    some
      { uuid := nid ++ "::" ++ uid
        label := nodeLink.entry.link.label
        active := nodeLink.entry.link.active && !nodeLink.expired &&
          !(0 < lb && lb ≤ nodeLink.entry.link.usedBytes)
        protocol := nodeLink.entry.link.protocol
        usedBytes := nodeLink.entry.link.usedBytes
        limitBytes := lb
        vlessLink := nodeLink.vlessLink }

/-- The turn of the loop over `foreign_links` in `public_sub_data`. -/
def publicForeignRow (fl : ForeignLink) : Option PublicRow :=
  if fl.vlessLink = "" then none
  else
    some
      { uuid := Share.textOr fl.key fl.vlessLink
        label := fl.label
        active := true
        protocol := Ports.defaultProtocol
        usedBytes := fl.usedBytes
        limitBytes := 0
        vlessLink := fl.vlessLink }

/-- `links_out`. -/
def linksOut (c : Central) (sub : Groups.Sub Group) : List PublicRow :=
  let snaps := snapByNode c sub.group.nodeLinkIds
  sub.linkIds.filterMap (publicRow c) ++ sub.group.nodeLinkIds.filterMap (publicNodeRow snaps) ++
    sub.group.foreignLinks.filterMap publicForeignRow

/-- The names of client programs. -/
def clientNames : List String :=
  ["v2rayng", "v2rayn", "shadowrocket", "clash", "surfboard", "nekoray"]

/-- `is_client`. -/
def isClient (userAgent : String) : Bool :=
  clientNames.any fun ua => Str.contains ua (Str.lower userAgent)

/-- `public_sub_data`. -/
def publicSubData (c : Central) (r : SubRequest) : SubAnswer :=
  match findSub c.panel r.uuidKey with
  | none => .error 404 "not found"
  | some sub =>
    if sub.group.passwordHash.isSome && some (c.hashPassword r.pw) ≠ sub.group.passwordHash then
      .locked sub.group.name
    else if isClient r.userAgent then
      .content (encodeLines (((linksOut c sub).filter PublicRow.active).map PublicRow.vlessLink))
    else
      .page ("پنل: " ++ sub.group.name) sub.group.desc
        (c.surroundings.publicUrl ("/sub-group/" ++ r.uuidKey))
        (activeConnections c sub.linkIds) (linksOut c sub)

/-! ### What a subscription is to list -/

/-- The text of a link that may carry traffic. -/
def allowedText (w : Surroundings) (links : Dict String (Groups.Entry PanelLink)) (uid : String) :
    Option String :=
  (links.get? uid).bind fun e =>
    if isLinkAllowed w.now (some e.link.toLink) then some (shareText w uid e.link) else none

/-- The text of a link of another panel, if the snapshot has links and the link was allowed there
when the snapshot was taken. -/
def allowedRemotely (c : Central) (ref : String) : Option String :=
  (splitRef ref).bind fun p =>
    (c.nodes.get? p.1).bind fun n =>
      match c.peers p.1 with
      | .snapshot w entry s =>
        ((askSnapshot n w entry s).bind Snapshot.links).bind fun _ =>
          allowedText w s.tables.links p.2
      | _ => none

/-- The allowed links of the panel, those of other panels, and the texts `foreign`. -/
def listedWith (c : Central) (sub : Groups.Sub Group) (foreign : List ForeignLink) : List String :=
  sub.linkIds.filterMap (allowedText c.surroundings c.panel.tables.links) ++
    sub.group.nodeLinkIds.filterMap (allowedRemotely c) ++ foreign.map ForeignLink.vlessLink

/-- What a subscription is to list: every stored text that is not empty among them. -/
def listed (c : Central) (sub : Groups.Sub Group) : List String :=
  listedWith c sub (sub.group.foreignLinks.filter fun fl => fl.vlessLink ≠ "")

/-- With a text in every stored link, as `update_sub` stores them, all of them are listed. -/
theorem listed_eq_listedWith (c : Central) {sub : Groups.Sub Group}
    (h : ∀ fl ∈ sub.group.foreignLinks, fl.vlessLink ≠ "") :
    listed c sub = listedWith c sub sub.group.foreignLinks := by
  have hall : sub.group.foreignLinks.filter (fun fl => fl.vlessLink ≠ "") =
      sub.group.foreignLinks :=
    List.filter_eq_self.2 fun fl hfl => decide_eq_true (h fl hfl)
  rw [listed, hall]

/-- The group has no password, or the one that is given. -/
def Opens (c : Central) (sub : Groups.Sub Group) (pw : String) : Prop :=
  sub.group.passwordHash = none ∨ sub.group.passwordHash = some (c.hashPassword pw)

/-! ### The links of a node -/

/-- No link has an empty text. -/
theorem shareText_ne_empty (w : Surroundings) (uid : String) (d : PanelLink) :
    shareText w uid d ≠ "" := by
  unfold shareText
  cases Share.generateShareLink w.config d.toCoreLink uid w.host ("RVG-" ++ d.label)
      d.protocol with
  | url u => simp [Share.ShareLink.text, Share.Url.text, String.append_eq_empty_iff]
  | vmess cfg => simp [Share.ShareLink.text, String.append_eq_empty_iff]

/-- The row of a link in `list_links`. -/
theorem find_listLinks (w : Surroundings) (s : Panel) (uid : String) :
    (listLinks w s).find? (fun l => l.uuid = uid) =
      (s.tables.links.get? uid).map (linkRow w uid) := by
  have hrows : ∀ l ∈ listLinks w s, ∃ e, s.tables.links.get? l.uuid = some e ∧
      l = linkRow w l.uuid e := by
    intro l hl
    obtain ⟨e, he, rfl⟩ := List.mem_map.1 (List.mem_mergeSort.1 hl)
    exact ⟨e.2, Dict.get?_eq_some.2 he, rfl⟩
  cases hget : s.tables.links.get? uid with
  | none =>
    refine List.find?_eq_none.2 fun l hl huuid => ?_
    obtain ⟨e, he, -⟩ := hrows l hl
    rw [of_decide_eq_true huuid, hget] at he
    cases he
  | some e =>
    have hmem : linkRow w uid e ∈ listLinks w s :=
      List.mem_mergeSort.2 (List.mem_map.2 ⟨(uid, e), Dict.get?_eq_some.1 hget, rfl⟩)
    cases hfind : (listLinks w s).find? fun l => l.uuid = uid with
    | none => exact absurd (decide_eq_true rfl) (List.find?_eq_none.1 hfind _ hmem)
    | some l =>
      have huuid : l.uuid = uid := by simpa using List.find?_some hfind
      obtain ⟨e', he', hl⟩ := hrows l (List.mem_of_find?_eq_some hfind)
      rw [huuid, hget] at he'
      cases he'
      rw [hl, huuid]
      rfl

/-- A snapshot with links has those of `list_links`. -/
theorem askSnapshot_links {n : Node} {w : Surroundings} {entry : KeyEntry} {s : Panel}
    {links : List LinkRow} (h : (askSnapshot n w entry s).bind Snapshot.links = some links) :
    links = listLinks w s := by
  obtain ⟨snap, hsnap, hlinks⟩ := Option.bind_eq_some_iff.1 h
  unfold askSnapshot at hsnap
  split_ifs at hsnap
  cases hsnap
  simp only [nodeSnapshot] at hlinks
  split_ifs at hlinks
  cases hlinks
  rfl

/-- The dictionary of snapshots holds what was fetched from the nodes that are named. -/
theorem get?_snapByNode (c : Central) {refs : List String} {ref nid uid : String}
    (href : ref ∈ refs) (hsplit : splitRef ref = some (nid, uid)) :
    (snapByNode c refs).get? nid =
      (c.nodes.get? nid).map fun n => fetchNodeLinks n (c.peers nid) := by
  have hmem : nid ∈ refs.filterMap fun ref => (splitRef ref).map Prod.fst :=
    List.mem_filterMap.2 ⟨ref, href, by rw [hsplit]; rfl⟩
  have hentries : (fun nid => (c.nodes.get? nid).map fun n =>
      (nid, fetchNodeLinks n (c.peers nid))) = fun nid =>
        ((c.nodes.get? nid).map fun n => fetchNodeLinks n (c.peers nid)).map fun v => (nid, v) := by
    funext nid
    rw [Option.map_map]
    rfl
  rw [snapByNode, hentries]
  exact Dict.get?_collect_keys _ hmem

/-- In the row of a link stands whether the link is allowed. -/
theorem linkRow_allowed (w : Surroundings) (uid : String) (e : Groups.Entry PanelLink) :
    ((linkRow w uid e).entry.link.active && !(linkRow w uid e).expired &&
      !(0 < (linkRow w uid e).entry.link.limitBytes &&
        (linkRow w uid e).entry.link.limitBytes ≤ (linkRow w uid e).entry.link.usedBytes)) =
      isLinkAllowed w.now (some e.link.toLink) := by
  change (e.link.active && !isLinkExpired w.now e.link.toLink &&
    !(decide (0 < e.link.limitBytes) && decide (e.link.limitBytes ≤ e.link.usedBytes))) = _
  simp only [isLinkAllowed]
  generalize (decide (0 < e.link.limitBytes) && decide (e.link.limitBytes ≤ e.link.usedBytes)) =
    exhausted
  cases e.link.active <;> cases isLinkExpired w.now e.link.toLink <;> cases exhausted <;> rfl

/-- The link that is found in a snapshot. -/
theorem findNodeLink_eq (c : Central) {refs : List String} {ref : String} (href : ref ∈ refs) :
    findNodeLink (snapByNode c refs) ref =
      (splitRef ref).bind fun p =>
        (c.nodes.get? p.1).bind fun n =>
          match c.peers p.1 with
          | .snapshot w entry s =>
            ((askSnapshot n w entry s).bind Snapshot.links).bind fun _ =>
              (s.tables.links.get? p.2).map fun e => (p.1, p.2, linkRow w p.2 e)
          | _ => none := by
  unfold findNodeLink
  cases hsplit : splitRef ref with
  | none => rfl
  | some p =>
    obtain ⟨nid, uid⟩ := p
    simp only [get?_snapByNode c href hsplit, Option.bind_some]
    cases c.nodes.get? nid with
    | none => rfl
    | some n =>
      simp only [Option.map_some, Option.bind_some]
      cases c.peers nid with
      | offline => rfl
      | garbled =>
        simp only [fetchNodeLinks]
        split_ifs <;> rfl
      | snapshot w entry s =>
        simp only [fetchNodeLinks]
        cases hlinks : (askSnapshot n w entry s).bind Snapshot.links with
        | none => rfl
        | some links =>
          simp only [Option.getD_some, Option.bind_some, askSnapshot_links hlinks,
            find_listLinks]
          cases s.tables.links.get? uid with
          | none => rfl
          | some e => exact if_neg (shareText_ne_empty w uid e.link)

/-! ### Agreement -/

theorem groupLine_eq (c : Central) (lid : String) :
    groupLine c lid = allowedText c.surroundings c.panel.tables.links lid := by
  unfold groupLine allowedText
  cases c.panel.tables.links.get? lid <;> rfl

/-- The rows that a client gets of a list. -/
theorem selected_eq {α : Type} {l : List α} {f : α → Option PublicRow} {g : α → Option String}
    (h : ∀ a ∈ l, ((f a).filter PublicRow.active).map PublicRow.vlessLink = g a) :
    ((l.filterMap f).filter PublicRow.active).map PublicRow.vlessLink = l.filterMap g := by
  rw [List.filter_filterMap, List.map_filterMap]
  exact List.filterMap_congr h

theorem publicRow_selected (c : Central) (lid : String) :
    ((publicRow c lid).filter PublicRow.active).map PublicRow.vlessLink =
      allowedText c.surroundings c.panel.tables.links lid := by
  unfold publicRow allowedText
  cases c.panel.tables.links.get? lid with
  | none => rfl
  | some e =>
    by_cases hallowed : isLinkAllowed c.surroundings.now (some e.link.toLink) = true
    · simp [Option.filter, hallowed]
    · simp [Option.filter, hallowed]

/-- The three conditions of `sub_group_subscription` are the one of `public_sub_data`, and both are
that the link was allowed. -/
theorem nodeLine_eq (c : Central) {refs : List String} {ref : String} (href : ref ∈ refs) :
    groupNodeLine (snapByNode c refs) ref = allowedRemotely c ref ∧
      ((publicNodeRow (snapByNode c refs) ref).filter PublicRow.active).map PublicRow.vlessLink =
        allowedRemotely c ref := by
  unfold groupNodeLine publicNodeRow allowedRemotely
  rw [findNodeLink_eq c href]
  cases splitRef ref with
  | none => exact ⟨rfl, rfl⟩
  | some p =>
    simp only [Option.bind_some]
    cases c.nodes.get? p.1 with
    | none => exact ⟨rfl, rfl⟩
    | some n =>
      simp only [Option.bind_some]
      cases c.peers p.1 with
      | offline => exact ⟨rfl, rfl⟩
      | garbled => exact ⟨rfl, rfl⟩
      | snapshot w entry s =>
        simp only
        cases (askSnapshot n w entry s).bind Snapshot.links with
        | none => exact ⟨rfl, rfl⟩
        | some links =>
          simp only [Option.bind_some, allowedText]
          cases s.tables.links.get? p.2 with
          | none => exact ⟨rfl, rfl⟩
          | some e =>
            have htext : (linkRow w p.2 e).vlessLink = shareText w p.2 e.link := rfl
            simp only [Option.map_some, Option.bind_some, ← linkRow_allowed w p.2 e, htext]
            generalize (linkRow w p.2 e).entry.link.active = active
            generalize (linkRow w p.2 e).expired = expired
            generalize (decide (0 < (linkRow w p.2 e).entry.link.limitBytes) &&
              decide ((linkRow w p.2 e).entry.link.limitBytes ≤
                (linkRow w p.2 e).entry.link.usedBytes)) = exhausted
            cases active <;> cases expired <;> cases exhausted <;> exact ⟨rfl, rfl⟩

theorem groupForeignLine_filterMap (l : List ForeignLink) :
    l.filterMap groupForeignLine =
      (l.filter fun fl => fl.vlessLink ≠ "").map ForeignLink.vlessLink := by
  rw [← List.filterMap_eq_map, List.filterMap_filter]
  refine List.filterMap_congr fun fl _ => ?_
  unfold groupForeignLine
  by_cases hempty : fl.vlessLink = "" <;> simp [hempty]

theorem publicForeignRow_selected (fl : ForeignLink) :
    ((publicForeignRow fl).filter PublicRow.active).map PublicRow.vlessLink =
      groupForeignLine fl := by
  unfold publicForeignRow groupForeignLine
  split <;> rfl

/-- `/sub-group` lists what a subscription is to list. -/
theorem groupLines_eq (c : Central) (sub : Groups.Sub Group) :
    sub.linkIds.filterMap (groupLine c) ++
        sub.group.nodeLinkIds.filterMap (groupNodeLine (snapByNode c sub.group.nodeLinkIds)) ++
          sub.group.foreignLinks.filterMap groupForeignLine = listed c sub := by
  have hlocal : sub.linkIds.filterMap (groupLine c) =
      sub.linkIds.filterMap (allowedText c.surroundings c.panel.tables.links) :=
    List.filterMap_congr fun lid _ => groupLine_eq c lid
  have hnodes : sub.group.nodeLinkIds.filterMap
      (groupNodeLine (snapByNode c sub.group.nodeLinkIds)) =
        sub.group.nodeLinkIds.filterMap (allowedRemotely c) :=
    List.filterMap_congr fun ref href => (nodeLine_eq c href).1
  rw [hlocal, hnodes, groupForeignLine_filterMap]
  rfl

/-- The active rows of the public data are the same. -/
theorem linksOut_eq (c : Central) (sub : Groups.Sub Group) :
    ((linksOut c sub).filter PublicRow.active).map PublicRow.vlessLink = listed c sub := by
  simp only [linksOut, List.filter_append, List.map_append]
  rw [selected_eq fun lid _ => publicRow_selected c lid,
    selected_eq fun ref href => (nodeLine_eq c href).2,
    selected_eq fun fl _ => publicForeignRow_selected fl, groupForeignLine_filterMap]
  rfl

/-- **The two subscriptions agree**: for every group that a key finds, asked for with its password if
it has one, both handlers give a client the texts of the allowed links of the panel, of the links of
other panels that were allowed there when the snapshot was taken, and of the stored links that have a
text, in this order. -/
theorem subscriptions_agree (c : Central) (r : SubRequest) {sub : Groups.Sub Group}
    (hsub : findSub c.panel r.uuidKey = some sub) (hpw : Opens c sub r.pw)
    (hclient : isClient r.userAgent = true) :
    subGroupSubscription c r = .content (encodeLines (listed c sub)) ∧
      publicSubData c r = .content (encodeLines (listed c sub)) := by
  unfold subGroupSubscription publicSubData
  simp only [hsub, hclient, groupLines_eq, linksOut_eq, if_true]
  rcases hpw with hpw | hpw
  · exact ⟨by simp [hpw], by simp [hpw]⟩
  · exact ⟨by simp [hpw], by simp [hpw]⟩

/-! ### Two groups -/

/-- A stored link. -/
def storedLink (text : String) : ForeignLink := ⟨"", "", text, 0, ""⟩

/-- A group without a password. -/
def openGroup (linkIds nodeLinkIds : List String) (foreignLinks : List ForeignLink) :
    Groups.Sub Group :=
  ⟨⟨"g", "", none, "key", "", nodeLinkIds, foreignLinks⟩, linkIds⟩

/-- An entry of `NODES` that asks for the links. -/
def linksNode : Node where
  label := "n"
  host := "n.io"
  key := ""
  enabled := true
  mergeDashboard := true
  share := [("usage", false), ("links", true)]
  createdAt := .null
  lastSyncAt := .null
  lastError := .null
  peerVersion := .null

/-- A panel with the group and one node, which both have the link `u`. -/
def centralWith (sub : Groups.Sub Group) : Central where
  surroundings := bareHost
  panel := Panel.ofTables ⟨oneLink, (∅ : Dict String (Groups.Sub Group)).set "g" sub⟩
  nodes := (∅ : Dict String Node).set "n" linksNode
  peers := fun _ =>
    .snapshot bareHost { trafficKey with share := ∅ } (Panel.ofTables ⟨oneLink, ∅⟩)
  connections := []
  hashPassword := fun pw => pw

/-- A client asks for the group. -/
def clientRequest : SubRequest := ⟨"key", "", "v2rayNG/1.8"⟩

/-- A link of each kind. -/
theorem subscriptions_agree_openGroup :
    let sub := openGroup ["u"] ["n::u"] [storedLink "vless://x"]
    (listed (centralWith sub) sub).length = 3 ∧
      subGroupSubscription (centralWith sub) clientRequest =
        .content (encodeLines (listed (centralWith sub) sub)) ∧
      publicSubData (centralWith sub) clientRequest =
        .content (encodeLines (listed (centralWith sub) sub)) :=
  ⟨by decide +kernel, subscriptions_agree _ _ rfl (.inl rfl) (by decide)⟩

/-- **A stored link whose text is empty is not listed**: of two stored links only the second is
given out. -/
theorem empty_foreign_link_skipped : ¬ ∀ (c : Central) (r : SubRequest) (sub : Groups.Sub Group),
    findSub c.panel r.uuidKey = some sub → Opens c sub r.pw → isClient r.userAgent = true →
      subGroupSubscription c r =
          .content (encodeLines (listedWith c sub sub.group.foreignLinks)) ∧
        publicSubData c r =
          .content (encodeLines (listedWith c sub sub.group.foreignLinks)) := by
  intro hall
  have hgroup := (hall (centralWith (openGroup [] [] [storedLink "", storedLink "vless://x"]))
    clientRequest _ rfl (.inl rfl) (by decide)).1
  have hlines : subGroupSubscription
      (centralWith (openGroup [] [] [storedLink "", storedLink "vless://x"])) clientRequest =
        .content (encodeLines ["vless://x"]) := rfl
  rw [hlines] at hgroup
  exact absurd (SubAnswer.content.inj hgroup) (by decide +kernel)

end Nodes

end RvgGateway
