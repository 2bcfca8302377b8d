import RvgGateway.Groups.Membership
import RvgGateway.Lib.Json
import RvgGateway.Share.ShareLink

/-!
# What a panel tells another panel

A panel gives out node keys.  With a key another panel reads `/api/node/snapshot`, which answers with
the parts that were asked for and that the key shares.  The answer is put together from four
endpoints of the panel: `list_links`, `list_subs`, `get_activity` and `get_stats`.

* `nodeSnapshot` : the answer.
* `Unseen` : panels that differ in the data of one part only give the same answer.
* `unseen_iff` : a part that is not shared is unseen exactly when no part is shown that has figures
  of it mixed in.
* `unshared_unseen_iff` : **the same for all the parts that a key does not share.**
* `link_count_leaks` : a key that shares no links gets their number with the traffic.
-/

namespace RvgGateway

namespace Nodes

/-! ### The data -/

/-- `NODE_SHARE_PARTS`. -/
inductive Part
  | usage
  | links
  | subs
  | requests
  | logs
  deriving DecidableEq, Repr

/-- The name of a part in requests and keys. -/
def Part.name : Part → String
  | usage => "usage"
  | links => "links"
  | subs => "subs"
  | requests => "requests"
  | logs => "logs"

/-- The parts in the order of their names. -/
def Part.sorted : List Part := [links, logs, requests, subs, usage]

/-- An entry of `NODE_KEYS`. -/
structure KeyEntry where
  label : String
  secret : String
  revoked : Bool
  /-- `share`, empty when it is absent. -/
  share : Dict String Json
  canManage : Bool
  passwordHash : Option String
  lastUsedAt : Option String
  peerHost : Option String
  useCount : ℕ

/-- The fields of a link that no group request touches. -/
structure PanelLink extends Share.CoreLink where
  label : String
  note : String
  createdAt : String
  isDefault : Bool
  adTag : Option String

/-- An entry of `foreign_links`. -/
structure ForeignLink where
  key : String
  label : String
  vlessLink : String
  usedBytes : ℤ
  source : String

/-- The fields of a group next to `link_ids`. -/
structure Group where
  name : String
  desc : String
  passwordHash : Option String
  uuidKey : String
  createdAt : String
  nodeLinkIds : List String
  foreignLinks : List ForeignLink

/-- An entry of `activity_logs`. -/
structure LogEntry where
  kind : String
  level : String
  message : String
  time : String
  deriving DecidableEq, Repr

/-- The data of a panel, part by part. -/
structure Panel where
  /-- `LINKS` and `SUBS`. -/
  tables : Groups.Tables PanelLink Group
  activityLogs : List LogEntry
  /-- `stats["total_bytes"]`. -/
  totalBytes : ℕ
  hourlyTraffic : Dict ℕ ℕ
  /-- `len(connections)`. -/
  activeConnections : ℕ
  /-- `stats["total_requests"]`. -/
  totalRequests : ℕ
  /-- `stats["total_errors"]`. -/
  totalErrors : ℕ

/-- What the answers read besides: the settings, the clock and the programs that run. -/
structure Surroundings where
  /-- `CONFIG["host"]`. -/
  configHost : String
  config : Share.ShareConfig
  /-- `get_current_version()`. -/
  version : String
  /-- `uptime()`. -/
  uptime : String
  now : ℤ
  /-- `get_instance_info(uid) is not None`. -/
  mtprotoRunning : String → Bool
  /-- `core_manager.is_running`. -/
  coreRunning : String → Bool
  ports : Ports.Registries
  /-- `port_manager.port_errors`. -/
  portErrors : Dict ℤ String
  /-- `fmt_bytes`. -/
  fmtBytes : ℤ → String
  /-- `round(b / 1024 ** 2, 2)`. -/
  megabytes : ℕ → ℚ

/-- `get_host`. -/
def Surroundings.host (w : Surroundings) : String :=
  Share.textOr (Str.strip w.configHost) "localhost"

/-- `public_url`. -/
def Surroundings.publicUrl (w : Surroundings) (path : String) : String :=
  (if w.config.tls then "https" else "http") ++ "://" ++ w.host ++ path

/-! ### The four endpoints -/

/-- An element of the answer of `list_links`. -/
structure LinkRow where
  uuid : String
  entry : Groups.Entry PanelLink
  /-- `running`, for MTProto. -/
  running : Option Bool
  portStatus : Option String
  expired : Bool
  vlessLink : String
  subUrl : String

/-- `port_status` of a link. -/
def portStatus (w : Surroundings) (d : PanelLink) : Option String :=
  let lcore := Ports.normalCore d.core
  if lcore = "xray" || lcore = "singbox" then
    some (if w.coreRunning lcore then "running" else "core down")
  else if d.listenPort ≠ 0 && d.listenPort ≠ w.config.port then
    if w.ports.portInUseByUs d.listenPort then some "running"
    else some (Share.textOr ((w.portErrors.get? d.listenPort).getD "") "stopped")
  else none

/-- The turn of the loop in `list_links`. -/
def linkRow (w : Surroundings) (uid : String) (e : Groups.Entry PanelLink) : LinkRow where
  uuid := uid
  entry := e
  running := if e.link.protocol = "mtproto" then some (w.mtprotoRunning uid) else none
  portStatus := portStatus w e.link
  expired := isLinkExpired w.now e.link.toLink
  vlessLink := (Share.generateShareLink w.config e.link.toCoreLink uid w.host
    ("RVG-" ++ e.link.label) e.link.protocol).text
  subUrl := w.publicUrl ("/sub/" ++ uid)

/-- `list_links`: the newest first. -/
def listLinks (w : Surroundings) (s : Panel) : List LinkRow :=
  (s.tables.links.entries.map fun e => linkRow w e.1 e.2).mergeSort fun a b =>
    b.entry.link.createdAt ≤ a.entry.link.createdAt

/-- An element of the answer of `list_subs`. -/
structure SubRow where
  subId : String
  /-- The entry, without its `password_hash`. -/
  sub : Groups.Sub Group
  hasPassword : Bool
  linksCount : ℕ
  activeCount : ℕ
  totalUsedBytes : ℤ
  totalUsedFmt : String
  publicUrl : String
  subUrl : String

/-- The links of a group that may carry traffic. -/
def activeCount (w : Surroundings) (links : Dict String (Groups.Entry PanelLink))
    (linkIds : List String) : ℕ :=
  linkIds.countP fun lid => isLinkAllowed w.now ((links.get? lid).map fun e => e.link.toLink)

/-- The bytes that the links of a group used. -/
def totalUsed (links : Dict String (Groups.Entry PanelLink)) (sub : Groups.Sub Group) : ℤ :=
  (sub.linkIds.map fun lid => ((links.get? lid).map fun e => e.link.usedBytes).getD 0).sum +
    (sub.group.foreignLinks.map ForeignLink.usedBytes).sum

/-- The turn of the loop in `list_subs`. -/
def subRow (w : Surroundings) (links : Dict String (Groups.Entry PanelLink)) (sid : String)
    (sub : Groups.Sub Group) : SubRow where
  subId := sid
  sub := { sub with group := { sub.group with passwordHash := none } }
  hasPassword := sub.group.passwordHash.isSome
  linksCount :=
    sub.linkIds.length + sub.group.nodeLinkIds.length + sub.group.foreignLinks.length
  activeCount := activeCount w links sub.linkIds + sub.group.foreignLinks.length
  totalUsedBytes := totalUsed links sub
  totalUsedFmt := w.fmtBytes (totalUsed links sub)
  publicUrl := w.publicUrl ("/p/" ++ sub.group.uuidKey)
  subUrl := w.publicUrl ("/sub-group/" ++ sub.group.uuidKey)

/-- `list_subs`: the newest first. -/
def listSubs (w : Surroundings) (s : Panel) : List SubRow :=
  (s.tables.subs.entries.map fun e => subRow w s.tables.links e.1 e.2).mergeSort fun a b =>
    b.sub.group.createdAt ≤ a.sub.group.createdAt

/-- The last `n` elements. -/
def lastN {α : Type} (n : ℕ) (l : List α) : List α := l.drop (l.length - n)

/-- `get_activity`. -/
def getActivity (s : Panel) : List LogEntry := lastN 150 s.activityLogs

/-- `get_stats`, without the fields that no snapshot has. -/
structure Stats where
  activeConnections : ℕ
  totalTrafficMb : ℚ
  totalRequests : ℕ
  totalErrors : ℕ
  uptime : String
  hourly : Dict ℕ ℕ
  linksCount : ℕ
  activeLinks : ℕ
  subsCount : ℕ

/-- `get_stats`. -/
def getStats (w : Surroundings) (s : Panel) : Stats where
  activeConnections := s.activeConnections
  totalTrafficMb := w.megabytes s.totalBytes
  totalRequests := s.totalRequests
  totalErrors := s.totalErrors
  uptime := w.uptime
  hourly := s.hourlyTraffic
  linksCount := s.tables.links.size
  activeLinks := s.tables.links.values.countP fun e => isLinkAllowed w.now (some e.link.toLink)
  subsCount := s.tables.subs.size

/-! ### The snapshot -/

/-- `_parse_parts`. -/
def parseParts (raw : Option String) : List Part :=
  match raw with
  | none => []
  | some raw => Part.sorted.filter fun p => ((Str.split ',' raw).map Str.strip).contains p.name

/-- The key shares the part; a part that it does not mention is shared, but for the logs. -/
def KeyEntry.allows (entry : KeyEntry) (p : Part) : Bool :=
  match entry.share.get? p.name with
  | some v => v.truthy
  | none => p ≠ .logs

/-- The figures of the part `usage`. -/
structure UsageOut where
  totalBytes : ℕ
  totalTrafficMb : ℚ
  hourly : Dict ℕ ℕ
  activeConnections : ℕ

/-- The figures of the part `requests`. -/
structure RequestsOut where
  totalRequests : ℕ
  totalErrors : ℕ

/-- `stats` in a snapshot. -/
structure StatsOut where
  uptime : String
  linksCount : ℕ
  activeLinks : ℕ
  subsCount : ℕ
  usage : Option UsageOut
  requests : Option RequestsOut

/-- The answer of `node_snapshot`. -/
structure Snapshot where
  host : String
  version : String
  parts : List Part
  links : Option (List LinkRow)
  subs : Option (List SubRow)
  logs : Option (List LogEntry)
  stats : Option StatsOut

/-- The parts that are asked for and shared. -/
def KeyEntry.shown (entry : KeyEntry) (raw : Option String) : List Part :=
  (parseParts raw).filter entry.allows

/-- `stats_out`. -/
def statsOut (w : Surroundings) (s : Panel) (parts : List Part) : StatsOut :=
  let st := getStats w s
  { uptime := st.uptime
    linksCount := st.linksCount
    activeLinks := st.activeLinks
    subsCount := st.subsCount
    usage :=
      if parts.contains .usage then
        some ⟨s.totalBytes, st.totalTrafficMb, st.hourly, st.activeConnections⟩
      else none
    requests :=
      if parts.contains .requests then some ⟨st.totalRequests, st.totalErrors⟩ else none }

/-- `node_snapshot`. -/
def nodeSnapshot (w : Surroundings) (entry : KeyEntry) (raw : Option String) (s : Panel) :
    Snapshot :=
  let parts := entry.shown raw
  { host := w.host
    version := w.version
    parts := parts
    links := if parts.contains .links then some (listLinks w s) else none
    subs := if parts.contains .subs then some (listSubs w s) else none
    logs := if parts.contains .logs then some (lastN 60 (getActivity s)) else none
    stats :=
      if parts.contains .usage || parts.contains .requests then some (statsOut w s parts)
      else none }

/-! ### Two panels -/

/-- The panels differ in the data of the part only. -/
def Part.DifferOnly (s s' : Panel) : Part → Prop
  | .links => ∃ links, s' = { s with tables := ⟨links, s.tables.subs⟩ }
  | .subs => ∃ subs, s' = { s with tables := ⟨s.tables.links, subs⟩ }
  | .logs => ∃ logs, s' = { s with activityLogs := logs }
  | .usage => ∃ bytes hourly conns,
      s' = { s with totalBytes := bytes, hourlyTraffic := hourly, activeConnections := conns }
  | .requests => ∃ requests errors, s' = { s with totalRequests := requests, totalErrors := errors }

/-- Panels that differ in the data of the part only give the same answer. -/
def Unseen (w : Surroundings) (entry : KeyEntry) (raw : Option String) (p : Part) : Prop :=
  ∀ s s', p.DifferOnly s s' → nodeSnapshot w entry raw s = nodeSnapshot w entry raw s'

/-- The other parts that have figures of the part mixed in: `stats` counts the links and the groups
with any traffic or request counters, and `list_subs` sums up the links of each group. -/
def Part.mixedInto : Part → List Part
  | links => [subs, usage, requests]
  | subs => [usage, requests]
  | _ => []

section Unseen

variable {w : Surroundings} {entry : KeyEntry} {raw : Option String} {s s' : Panel}

/-- Panels give the same answer when they agree on what the shown parts read. -/
theorem nodeSnapshot_congr
    (hlinks : .links ∈ entry.shown raw → s.tables.links = s'.tables.links)
    (hsubs : .subs ∈ entry.shown raw → s.tables = s'.tables)
    (hlogs : .logs ∈ entry.shown raw → s.activityLogs = s'.activityLogs)
    (hstats : .usage ∈ entry.shown raw ∨ .requests ∈ entry.shown raw →
      statsOut w s (entry.shown raw) = statsOut w s' (entry.shown raw)) :
    nodeSnapshot w entry raw s = nodeSnapshot w entry raw s' := by
  have h₁ : .links ∈ entry.shown raw → listLinks w s = listLinks w s' := by
    intro h
    rw [listLinks, hlinks h, listLinks]
  have h₂ : .subs ∈ entry.shown raw → listSubs w s = listSubs w s' := by
    intro h
    rw [listSubs, hsubs h, listSubs]
  have h₃ : .logs ∈ entry.shown raw → lastN 60 (getActivity s) = lastN 60 (getActivity s') := by
    intro h
    rw [getActivity, hlogs h, getActivity]
  simp only [nodeSnapshot, List.contains_iff_mem, Bool.or_eq_true, Snapshot.mk.injEq, true_and]
  refine ⟨?_, ?_, ?_, ?_⟩
  · split_ifs with h
    · rw [h₁ h]
    · rfl
  · split_ifs with h
    · rw [h₂ h]
    · rfl
  · split_ifs with h
    · rw [h₃ h]
    · rfl
  · split_ifs with h
    · rw [hstats h]
    · rfl

/-- An answer with no figures of a part in it. -/
theorem unseen_of_not_mixed {p : Part} (hp : p ∉ entry.shown raw)
    (hmixed : ∀ q ∈ entry.shown raw, q ∉ p.mixedInto) : Unseen w entry raw p := by
  have hnot : ∀ {q}, q ∈ p.mixedInto → q ∉ entry.shown raw := fun hq hshown => hmixed _ hshown hq
  intro s s' hdiffer
  cases p with
  | links =>
    obtain ⟨links, rfl⟩ := hdiffer
    refine nodeSnapshot_congr (fun h => absurd h hp)
      (fun h => absurd h (hnot (by simp [Part.mixedInto]))) (fun _ => rfl) fun h => ?_
    exact h.elim (fun h => absurd h (hnot (by simp [Part.mixedInto])))
      fun h => absurd h (hnot (by simp [Part.mixedInto]))
  | subs =>
    obtain ⟨subs, rfl⟩ := hdiffer
    refine nodeSnapshot_congr (fun _ => rfl) (fun h => absurd h hp) (fun _ => rfl) fun h => ?_
    exact h.elim (fun h => absurd h (hnot (by simp [Part.mixedInto])))
      fun h => absurd h (hnot (by simp [Part.mixedInto]))
  | logs =>
    obtain ⟨logs, rfl⟩ := hdiffer
    exact nodeSnapshot_congr (fun _ => rfl) (fun _ => rfl) (fun h => absurd h hp) fun _ => rfl
  | usage =>
    obtain ⟨bytes, hourly, conns, rfl⟩ := hdiffer
    refine nodeSnapshot_congr (fun _ => rfl) (fun _ => rfl) (fun _ => rfl) fun _ => ?_
    simp [statsOut, getStats, hp]
  | requests =>
    obtain ⟨requests, errors, rfl⟩ := hdiffer
    refine nodeSnapshot_congr (fun _ => rfl) (fun _ => rfl) (fun _ => rfl) fun _ => ?_
    simp [statsOut, getStats, hp]

/-! ### What leaks -/

/-- The link of the panels below: it used one byte. -/
def oneByteLink : PanelLink where
  protocol := "vless-ws"
  core := none
  listenPort := 0
  active := true
  expiresAt := .never
  limitBytes := 0
  usedBytes := 1
  publicPort := 0
  alpn := ""
  fingerprint := ""
  flow := ""
  sniffing := true
  security := ""
  sni := ""
  tlsCert := ""
  tlsKey := ""
  realityPriv := ""
  realityPub := ""
  realitySid := ""
  realityDest := ""
  ssCipher := none
  ssPassword := ""
  mtprotoPort := 0
  mtprotoSecret := ""
  mtprotoDomain := ""
  label := ""
  note := ""
  createdAt := ""
  isDefault := false
  adTag := none

/-- The group of the panels below: it lists the link. -/
def oneLinkGroup : Groups.Sub Group := ⟨⟨"", "", none, "", "", [], []⟩, ["u"]⟩

/-- A panel with nothing but the tables. -/
def Panel.ofTables (tables : Groups.Tables PanelLink Group) : Panel := ⟨tables, [], 0, ∅, 0, 0, 0⟩

/-- The links table with one link. -/
def oneLink : Dict String (Groups.Entry PanelLink) := Dict.set ∅ "u" ⟨oneByteLink, none⟩

/-- The groups table with one group. -/
def oneGroup : Dict String (Groups.Sub Group) := Dict.set ∅ "g" oneLinkGroup

/-- With any counters shown, the answer has the sizes of the tables. -/
theorem stats_sizes (h : .usage ∈ entry.shown raw ∨ .requests ∈ entry.shown raw) (s : Panel) :
    (nodeSnapshot w entry raw s).stats.map (fun st => (st.linksCount, st.subsCount)) =
      some (s.tables.links.size, s.tables.subs.size) := by
  have hif : ((entry.shown raw).contains .usage || (entry.shown raw).contains .requests) = true := by
    simpa using h
  simp only [nodeSnapshot]
  rw [if_pos hif]
  rfl

/-- With the groups shown, the answer has the traffic of their links. -/
theorem subs_used (h : .subs ∈ entry.shown raw) (links : Dict String (Groups.Entry PanelLink)) :
    (nodeSnapshot w entry raw (Panel.ofTables ⟨links, oneGroup⟩)).subs.map
        (fun rows => rows.map SubRow.totalUsedBytes) =
      some [((links.get? "u").map fun e => e.link.usedBytes).getD 0] := by
  have hif : (entry.shown raw).contains .subs = true := by simpa using h
  have hrows : listSubs w (Panel.ofTables ⟨links, oneGroup⟩) =
      [subRow w links "g" oneLinkGroup] :=
    List.mergeSort_singleton _
  simp only [nodeSnapshot]
  rw [if_pos hif, hrows, Option.map_some, List.map_singleton]
  simp [subRow, totalUsed, oneLinkGroup]

/-- A shown part that has figures of `p` mixed in gives `p` away. -/
theorem not_unseen_of_mixed {p q : Part} (hq : q ∈ entry.shown raw) (hmixed : q ∈ p.mixedInto) :
    ¬ Unseen w entry raw p := by
  intro h
  cases p with
  | links =>
    by_cases hsubs : q = .subs
    · have hsame := h (Panel.ofTables ⟨∅, oneGroup⟩) _ ⟨oneLink, rfl⟩
      have hused := subs_used (w := w) (hsubs ▸ hq) ∅
      rw [hsame] at hused
      cases hused.symm.trans (subs_used (hsubs ▸ hq) oneLink)
    · have hstats : .usage ∈ entry.shown raw ∨ .requests ∈ entry.shown raw := by
        cases q <;> simp_all [Part.mixedInto]
      have hsame := h (Panel.ofTables ⟨∅, ∅⟩) _ ⟨oneLink, rfl⟩
      have hsizes := stats_sizes (w := w) hstats (Panel.ofTables ⟨∅, ∅⟩)
      rw [hsame] at hsizes
      cases hsizes.symm.trans (stats_sizes hstats _)
  | subs =>
    have hstats : .usage ∈ entry.shown raw ∨ .requests ∈ entry.shown raw := by
      cases q <;> simp_all [Part.mixedInto]
    have hsame := h (Panel.ofTables ⟨∅, ∅⟩) _ ⟨oneGroup, rfl⟩
    have hsizes := stats_sizes (w := w) hstats (Panel.ofTables ⟨∅, ∅⟩)
    rw [hsame] at hsizes
    cases hsizes.symm.trans (stats_sizes hstats _)
  | logs => cases hmixed
  | usage => cases hmixed
  | requests => cases hmixed

/-- **A part that the key does not share is unseen exactly when no part is shown that has figures of
it mixed in.** -/
theorem unseen_iff {p : Part} (hp : entry.allows p = false) :
    Unseen w entry raw p ↔ ∀ q ∈ entry.shown raw, q ∉ p.mixedInto := by
  constructor
  · intro h q hq hmixed
    exact not_unseen_of_mixed hq hmixed h
  · refine unseen_of_not_mixed fun hshown => ?_
    rw [KeyEntry.shown, List.mem_filter, hp] at hshown
    cases hshown.2

end Unseen

/-- **All that a key does not share stays unseen exactly when the parts that are asked for and shared
have no figures of it mixed in.** -/
theorem unshared_unseen_iff (w : Surroundings) (entry : KeyEntry) (raw : Option String) :
    (∀ p, entry.allows p = false → Unseen w entry raw p) ↔
      ∀ p, entry.allows p = false → ∀ q ∈ entry.shown raw, q ∉ p.mixedInto :=
  forall₂_congr fun _ hp => unseen_iff hp

/-- The key of a panel that shares the traffic and not the links. -/
def trafficKey : KeyEntry where
  label := "peer"
  secret := "secret"
  revoked := false
  share := Dict.set ∅ "links" (.bool false)
  canManage := false
  passwordHash := none
  lastUsedAt := none
  peerHost := none
  useCount := 0

/-- A panel on a bare host. -/
def bareHost : Surroundings where
  configHost := "localhost"
  config := ⟨8000, false, fun secret _ => secret⟩
  version := "1"
  uptime := "00:00:00"
  now := 0
  mtprotoRunning := fun _ => false
  coreRunning := fun _ => false
  ports := ⟨∅, ∅⟩
  portErrors := ∅
  fmtBytes := fun b => toString b ++ " B"
  megabytes := fun b => b / 1048576

/-- With the traffic a key gets the number of the links, which it does not share. -/
theorem link_count_leaks :
    ¬ ∀ w entry raw p, KeyEntry.allows entry p = false → Unseen w entry raw p := by
  intro h
  have hseen := h bareHost trafficKey (some "usage") .links rfl
  refine not_unseen_of_mixed (q := .usage) ?_ (by simp [Part.mixedInto]) hseen
  decide +kernel

end Nodes

end RvgGateway
