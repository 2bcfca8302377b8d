import RvgGateway.Ports.Admin

/-!
# Do the listeners match the links?

`sync_all` computes from `LINKS` which listeners are called for.  The requests do not: each adjusts
the registries by a rule of its own.  `create_link` and a change of `listen_port` start the listener
of one link, `delete_link` closes one port, and nothing else moves a listener.  Nor does `startup`
wait for its own `_sync_cores`, which may move links to unicorn behind the look of `sync_all`.

* `inSync_started_iff` : a start leaves a state in sync exactly when no such move is missed.
* `inSync_step_iff` : one request, in a state in sync, leaves a state in sync exactly when it is
  `Covered`, that is, when the links that its rule leaves alone call for the listeners that
  all the links called for before.
* `inSync_iff_covered` : **a run is in sync throughout exactly when its start and all its requests are
  covered.**
* `disabled_link_keeps_listening` : disabling a link is not covered; its listener stays up.
-/

namespace RvgGateway

namespace Ports

/-- The listeners on one port: the TCP server and the uvicorn. -/
abbrev Calls := Option TcpServer × Option Unit

/-- The listeners of `a`, and those of `b` where `a` has none. -/
def Calls.or (a b : Calls) : Calls := (a.1.or b.1, a.2.or b.2)

/-- The listeners that are registered on the port `p`. -/
def listening (r : Registries) (p : ℤ) : Calls := (r.tcpServers.get? p, r.uvicornServers.get? p)

/-- The listeners that `links` call for on the port `p`. -/
def calledFor (h : Host) (links : Links) (p : ℤ) : Calls :=
  ((neededTcp h links).get? p, (neededHttp h links).get? p)

/-- The listeners that one link calls for on the port `p`. -/
def callsAt (h : Host) (p : ℤ) (e : String × Link) : Calls :=
  (Dict.entryAt p (tcpNeed h e), Dict.entryAt p (httpNeed h e))

/-- The registries are exactly those that `LINKS` calls for, and `sync_all` would start nothing and
stop nothing. -/
structure InSync (h : Host) (s : Panel) : Prop where
  matches_links : ∀ p, listening s.ports p = calledFor h s.links p
  idle : syncAll h s.links s.ports = s.ports

/-! ### The condition -/

/-- The links that a request leaves to the listeners that are up already: all the links in the table
that it leaves behind, except the one whose listener it starts. -/
def Op.untouched (h : Host) (s : Panel) : Op → Links
  | .createLink _ osFree body mt =>
    match newLink h s osFree body mt with
    | .error _ => s.links
    | .ok _ => syncCores h s.links
  | .updateLink uid body mt =>
    match s.links.get? uid with
    | none => s.links
    | some link =>
      let p := patchLink h s uid link body mt
      let links :=
        if p.syncPorts && isManaged p.link then s.links.erase uid
        else s.links.modify uid fun _ => p.link
      if p.syncCores then syncCores h links else links
  | .deleteLink uid =>
    match s.links.get? uid with
    | none => s.links
    | some _ => syncCores h (s.links.erase uid)
  | .backupImport (.tables links) _ => links
  | .backupImport _ _ => s.links

/-- The port that a request closes: the port of a deleted link, unless an active link has it too. -/
def Op.released (s : Panel) : Op → Option ℤ
  | .deleteLink uid =>
    match s.links.get? uid with
    | none => none
    | some link =>
      if link.listenPort ≠ 0 &&
          !(s.links.erase uid).values.any fun d => d.listenPort = link.listenPort && d.active then
        some link.listenPort
      else none
  | _ => none

/-- On every port that the request does not close, the links that it leaves to the running listeners
call for the listeners that the links called for before. -/
def Covered (h : Host) (s : Panel) (op : Op) : Prop :=
  ∀ p, op.released s ≠ some p → calledFor h (op.untouched h s) p = calledFor h s.links p

/-- The move of links to unicorn by the start's own `_sync_cores` comes before `sync_all`, or the
saved links call for the same listeners behind it. -/
def Boot.Covered (h : Host) (links : Links) (boot : Boot) : Prop :=
  boot.coresFirst = false → ∀ p, calledFor h (syncCores h links) p = calledFor h links p

/-! ### What links call for -/

section Calls

variable {h : Host} {links : Links} {uid : String} {link : Link} {p : ℤ}

@[simp] theorem Calls.none_or (a : Calls) : Calls.or (none, none) a = a := by
  simp [Calls.or]

/-- No other link has the port, unless it is the port of the panel. -/
def Alone (links : Links) (uid : String) (port : ℤ) : Prop :=
  port ≠ 0 → ∀ u d, links.get? u = some d → u ≠ uid → d.listenPort ≠ port

theorem callsAt_eq_none (hp : ownPort h link ≠ some p) : callsAt h p (uid, link) = (none, none) := by
  have htcp : Dict.entryAt p (tcpNeed h (uid, link)) = none := by
    refine Option.eq_none_iff_forall_ne_some.2 fun server hs => ?_
    exact hp (tcpNeed_eq_some.1 (Dict.entryAt_eq_some.1 hs)).1
  have hhttp : Dict.entryAt p (httpNeed h (uid, link)) = none := by
    refine Option.eq_none_iff_forall_ne_some.2 fun x hs => ?_
    exact hp (httpNeed_eq_some.1 (Dict.entryAt_eq_some.1 hs)).1
  rw [callsAt, htcp, hhttp]

theorem callsAt_of_not_managed (hm : isManaged link = false) :
    callsAt h p (uid, link) = (none, none) := by
  refine callsAt_eq_none fun hp => ?_
  rw [(ownPort_eq_some.1 hp).1.2.1] at hm
  cases hm

/-- A port that no link calls for. -/
theorem calledFor_eq_none (hp : ∀ u d, links.get? u = some d → ownPort h d ≠ some p) :
    calledFor h links p = (none, none) := by
  have hcalls : ∀ e ∈ links.entries, callsAt h p e = (none, none) := fun e he =>
    callsAt_eq_none (hp e.1 e.2 (Dict.get?_eq_some.2 he))
  rw [calledFor, neededTcp, neededHttp,
    Dict.get?_collect_eq_none fun e he => congrArg Prod.fst (hcalls e he),
    Dict.get?_collect_eq_none fun e he => congrArg Prod.snd (hcalls e he)]

/-- A link that has its port alone adds its listener to those of the others. -/
theorem calledFor_eq_or (hl : links.get? uid = some link)
    (halone : isManaged link = true → Alone links uid link.listenPort) :
    calledFor h links p = (callsAt h p (uid, link)).or (calledFor h (links.erase uid) p) := by
  have hothers : ownPort h link = some p →
      ∀ u d, links.get? u = some d → u ≠ uid → callsAt h p (u, d) = (none, none) := by
    intro hp u d hd hu
    obtain ⟨⟨-, hm, h0, -⟩, hport⟩ := ownPort_eq_some.1 hp
    refine callsAt_eq_none fun hd' => halone hm h0 u d hd hu ?_
    rw [hport, (ownPort_eq_some.1 hd').2]
  have htcp : Dict.entryAt p (tcpNeed h (uid, link)) ≠ none → ownPort h link = some p := by
    intro hne
    obtain ⟨server, hs⟩ := Option.ne_none_iff_exists'.1 hne
    exact (tcpNeed_eq_some.1 (Dict.entryAt_eq_some.1 hs)).1
  have hhttp : Dict.entryAt p (httpNeed h (uid, link)) ≠ none → ownPort h link = some p := by
    intro hne
    obtain ⟨x, hs⟩ := Option.ne_none_iff_exists'.1 hne
    exact (httpNeed_eq_some.1 (Dict.entryAt_eq_some.1 hs)).1
  refine Prod.ext ?_ ?_
  · exact Dict.get?_collect_erase hl fun hne u d hd hu =>
      congrArg Prod.fst (hothers (htcp hne) u d hd hu)
  · exact Dict.get?_collect_erase hl fun hne u d hd hu =>
      congrArg Prod.snd (hothers (hhttp hne) u d hd hu)

/-- Links that call for the same ones after a change of the entries. -/
theorem calledFor_mapValues {f : String → Link → Link}
    (hf : ∀ u d, links.get? u = some d → callsAt h p (u, f u d) = callsAt h p (u, d)) :
    calledFor h (links.mapValues f) p = calledFor h links p := by
  have hcalls : ∀ e ∈ links.entries, callsAt h p (e.1, f e.1 e.2) = callsAt h p e := fun e he =>
    hf e.1 e.2 (Dict.get?_eq_some.2 he)
  refine Prod.ext ?_ ?_
  · exact Dict.get?_collect_congr fun e he => congrArg Prod.fst (hcalls e he)
  · exact Dict.get?_collect_congr fun e he => congrArg Prod.snd (hcalls e he)

/-- MTProto links call for no listener, so the ports of their proxies do not matter. -/
theorem calledFor_restartMtprotoInstances (restarted : String → Option ℤ) :
    calledFor h (restartMtprotoInstances restarted links) p = calledFor h links p := by
  refine calledFor_mapValues fun u d _ => ?_
  by_cases hm : d.protocol = "mtproto"
  · have hrestart : ∀ port, (mtprotoPort port d).protocol = "mtproto" := by
      intro port; unfold mtprotoPort; split_ifs <;> exact hm
    have hnot : ∀ link : Link, link.protocol = "mtproto" → isManaged link = false := by
      intro link hl; simp [isManaged, hl]
    rw [callsAt_of_not_managed (hnot d hm)]
    refine callsAt_of_not_managed (hnot _ ?_)
    split_ifs
    · cases restarted u with
      | none => exact hm
      | some port => exact hrestart port
    · exact hm
  · simp [hm]

end Calls

/-! ### Starting one listener -/

section Start

variable {h : Host} (hbind : ∀ p, h.binds p = true) {r : Registries} {uid : String} {link : Link}

include hbind

/-- `syncLink` on a free port adds the listener of the link. -/
theorem listening_syncLink
    (hfree : isManaged link = true → listening r link.listenPort = (none, none)) (p : ℤ) :
    listening (syncLink h uid link r) p = (callsAt h p (uid, link)).or (listening r p) := by
  cases hm : isManaged link with
  | false => rw [syncLink_of_not_managed hm, callsAt_of_not_managed hm, Calls.none_or]
  | true =>
    have hport := hfree hm
    refine Prod.ext ?_ ?_
    · exact get?_tcpServers_syncLink hbind (congrArg Prod.fst hport) p
    · exact get?_uvicornServers_syncLink hbind (congrArg Prod.snd hport) p

/-- Starting the listener of a link that has its port alone is right exactly when the other links
call for the listeners that are up. -/
theorem listening_syncLink_iff {links : Links} (hl : links.get? uid = some link)
    (hfree : isManaged link = true → listening r link.listenPort = (none, none))
    (halone : isManaged link = true → Alone links uid link.listenPort) :
    (∀ p, listening (syncLink h uid link r) p = calledFor h links p) ↔
      ∀ p, calledFor h (links.erase uid) p = listening r p := by
  refine forall_congr' fun p => ?_
  rw [listening_syncLink hbind hfree, calledFor_eq_or hl halone]
  by_cases hp : ownPort h link = some p
  · -- on its own port nothing else listens and nothing else is called for
    obtain ⟨⟨-, hm, h0, -⟩, rfl⟩ := ownPort_eq_some.1 hp
    have hrest : calledFor h (links.erase uid) link.listenPort = (none, none) := by
      refine calledFor_eq_none fun u d hd hown => ?_
      have hu : u ≠ uid := by
        rintro rfl; rw [Dict.get?_erase_self] at hd; cases hd
      rw [Dict.get?_erase_ne links hu.symm] at hd
      exact halone hm h0 u d hd hu (ownPort_eq_some.1 hown).2
    rw [hrest, hfree hm]
    exact iff_of_true rfl rfl
  · rw [callsAt_eq_none hp, Calls.none_or, Calls.none_or]
    exact eq_comm

end Start

/-! ### The requests -/

section Requests

variable {h : Host} {s : Panel} {uid : String} {link : Link}

/-- The registries match the links; what `InSync` says about the ports. -/
def Matches (h : Host) (s : Panel) : Prop := ∀ p, listening s.ports p = calledFor h s.links p

theorem listening_eq_none {r : Registries} {p : ℤ} (hp : r.portInUseByUs p = false) :
    listening r p = (none, none) := by
  unfold Registries.portInUseByUs at hp
  rw [Bool.or_eq_false_iff] at hp
  have htcp : r.tcpServers.get? p = none := by simpa [Dict.contains] using hp.2
  have huvi : r.uvicornServers.get? p = none := by simpa [Dict.contains] using hp.1
  exact Prod.ext htcp huvi

/-- Nothing listens on port 0. -/
theorem Matches.listening_zero (hs : Matches h s) : listening s.ports 0 = (none, none) := by
  rw [hs 0]
  refine calledFor_eq_none fun u d _ hown => ?_
  obtain ⟨⟨-, -, h0, -⟩, hport⟩ := ownPort_eq_some.1 hown
  exact h0 hport

/-! #### Migration -/

theorem migrateLink_of_normal (hn : normalCore link.core = "unicorn") : migrateLink link = link :=
  if_pos hn

/-- A link that unicorn serves is not migrated. -/
theorem migrateLink_of_managed (hm : isManaged link = true) : migrateLink link = link := by
  have hcore : coreName link.core = "unicorn" := by
    unfold isManaged at hm
    simp only [Bool.and_eq_true, decide_eq_true_eq] at hm
    exact hm.1
  refine migrateLink_of_normal ?_
  unfold normalCore
  rw [hcore]
  decide

theorem get?_syncCores (links : Links) (u : String) :
    (syncCores h links).get? u =
      (links.get? u).map fun d => if h.linux then migrateLink d else d := by
  unfold syncCores
  split_ifs with hl
  · rw [Dict.get?_mapValues]
  · simp

theorem erase_syncCores (links : Links) (u : String) :
    (syncCores h links).erase u = syncCores h (links.erase u) := by
  unfold syncCores
  split_ifs
  · rw [Dict.erase_mapValues]
  · rfl

theorem get?_syncCores_self {links : Links} (hl : links.get? uid = some link)
    (hm : migrateLink link = link) : (syncCores h links).get? uid = some link := by
  rw [get?_syncCores, hl, Option.map_some, hm, ite_self]

/-- Migration changes neither ports nor activity. -/
theorem exists_of_get?_syncCores {links : Links} {u : String} {d : Link}
    (hd : (syncCores h links).get? u = some d) :
    ∃ d', links.get? u = some d' ∧ d.listenPort = d'.listenPort ∧ d.active = d'.active := by
  rw [get?_syncCores] at hd
  obtain ⟨d', hd', rfl⟩ := Option.map_eq_some_iff.1 hd
  refine ⟨d', hd', ?_⟩
  unfold migrateLink
  split_ifs <;> exact ⟨rfl, rfl⟩

theorem migrateLink_keeps (d : Link) : (migrateLink d).protocol = d.protocol ∧
    (migrateLink d).active = d.active ∧ (migrateLink d).listenPort = d.listenPort := by
  unfold migrateLink
  split_ifs <;> exact ⟨rfl, rfl, rfl⟩

theorem migrateLink_mtprotoPort (port : ℤ) (d : Link) :
    migrateLink (mtprotoPort port d) = mtprotoPort port (migrateLink d) := by
  have hset : migrateLink { d with listenPort := port } =
      { migrateLink d with listenPort := port } := by
    simp only [migrateLink]
    split_ifs
    · rfl
    · rfl
    · rfl
    · rfl
  unfold mtprotoPort
  rw [(migrateLink_keeps d).2.2]
  split_ifs
  · exact hset
  · rfl

/-- A restarted proxy does not change what is migrated. -/
theorem syncCores_restartMtprotoInstances (restarted : String → Option ℤ) (links : Links) :
    syncCores h (restartMtprotoInstances restarted links) =
      restartMtprotoInstances restarted (syncCores h links) := by
  unfold syncCores restartMtprotoInstances
  cases h.linux with
  | false => rfl
  | true =>
    rw [if_pos rfl, if_pos rfl, Dict.mapValues_mapValues, Dict.mapValues_mapValues]
    refine congrArg (Dict.mapValues · links) (funext fun u => funext fun d => ?_)
    rw [(migrateLink_keeps d).1, (migrateLink_keeps d).2.1]
    split_ifs
    · cases restarted u with
      | none => rfl
      | some port => exact migrateLink_mtprotoPort port d
    · rfl

theorem Alone.syncCores {links : Links} {port : ℤ} (ha : Alone links uid port) :
    Alone (syncCores h links) uid port := by
  intro h0 u d hd hu
  obtain ⟨d', hd', hport, -⟩ := exists_of_get?_syncCores hd
  rw [hport]
  exact ha h0 u d' hd' hu

/-! #### `create_link` -/

theorem findFreePort_spec {osFree : ℤ → Bool} {r : Registries} {start stop p : ℤ}
    {exclude : List ℤ} (hp : r.findFreePort osFree start stop exclude = some p) : p ∉ exclude := by
  have hcond := List.find?_some hp
  intro hmem
  simp [hmem] at hcond

/-- An allocated port is that of the panel, or one that nothing has. -/
theorem allocateListenPort_spec {osFree : ℤ → Bool} {protocol core : String}
    {requested : PortField} {p : ℤ}
    (hp : allocateListenPort h s osFree protocol requested core = .ok p) :
    p = 0 ∨ p ∉ usedPorts h s := by
  unfold allocateListenPort at hp
  cases requested with
  | malformed => cases hp
  | number q =>
    simp only at hp
    split_ifs at hp with hrange hused
    cases hp
    exact .inr fun hmem => hused (by simpa using hmem)
  | absent =>
    simp only at hp
    split_ifs at hp
    · cases hfind : s.ports.findFreePort osFree h.portRange.1 h.portRange.2 (usedPorts h s) with
      | none => rw [hfind] at hp; cases hp
      | some q => rw [hfind] at hp; cases hp; exact .inr (findFreePort_spec hfind)
    · cases hp; exact .inl rfl

theorem startNew_spec {body : CreateBody} {mt : MtprotoStart} {link' : Link}
    (hnew : startNew body mt link = .ok link') :
    link'.core = link.core ∧ link'.protocol = link.protocol ∧
      (link'.protocol ≠ "mtproto" → link'.listenPort = link.listenPort) := by
  unfold startNew at hnew
  by_cases hmt : link.protocol = "mtproto"
  · rw [if_pos hmt] at hnew
    cases mt with
    | runtimeError exc => cases hnew
    | failed exc => cases hnew
    | started port =>
      simp only at hnew
      split_ifs at hnew
      cases hnew
      unfold mtprotoPort
      split_ifs <;> exact ⟨rfl, rfl, fun hne => absurd hmt hne⟩
  · rw [if_neg hmt] at hnew
    split_ifs at hnew
    cases hnew
    exact ⟨rfl, rfl, fun _ => rfl⟩

/-- A new link is one that its core serves, on a port that nothing has unless it is MTProto. -/
theorem newLink_spec {osFree : ℤ → Bool} {body : CreateBody} {mt : MtprotoStart}
    (hnew : newLink h s osFree body mt = .ok link) :
    link.core = some body.coreName ∧ link.protocol = body.protocolName ∧
      (coreProtocolSupported body.coreName).contains link.protocol = true ∧
      (link.protocol ≠ "mtproto" → link.listenPort = 0 ∨ link.listenPort ∉ usedPorts h s) := by
  unfold newLink at hnew
  cases hnum : body.numbersOk with
  | false => rw [hnum] at hnew; cases hnew
  | true =>
  cases hsupported : (coreProtocolSupported body.coreName).contains body.protocolName with
  | false => rw [hnum, hsupported] at hnew; cases hnew
  | true =>
  rw [hnum, hsupported] at hnew
  cases halloc : allocateListenPort h s osFree body.protocolName body.requestedPort
      body.coreName with
  | error reply => rw [halloc] at hnew; cases hnew
  | ok port =>
    rw [halloc] at hnew
    change startNew body mt (linkData body port) = _ at hnew
    obtain ⟨hcore, hproto, hport⟩ := startNew_spec hnew
    refine ⟨hcore, hproto, hproto ▸ hsupported, fun hne => ?_⟩
    rw [hport hne]
    exact allocateListenPort_spec halloc

theorem normalCore_coreName (body : CreateBody) :
    normalCore (some body.coreName) = body.coreName := by
  have hmem : body.coreName = "unicorn" ∨ body.coreName = "xray" ∨ body.coreName = "singbox" := by
    unfold CreateBody.coreName
    simp only
    split_ifs with hc
    · simpa using hc
    · exact .inl rfl
  rcases hmem with hc | hc | hc <;> rw [hc] <;> decide

/-- A new link is not migrated. -/
theorem migrateLink_newLink {osFree : ℤ → Bool} {body : CreateBody} {mt : MtprotoStart}
    (hnew : newLink h s osFree body mt = .ok link) : migrateLink link = link := by
  obtain ⟨hcore, -, hsup, -⟩ := newLink_spec hnew
  unfold migrateLink
  rw [hcore, normalCore_coreName]
  split_ifs <;> rfl

theorem not_mem_usedPorts {p : ℤ} (hp : p ∉ usedPorts h s) :
    (∀ u d, s.links.get? u = some d → d.listenPort ≠ p) ∧ s.ports.portInUseByUs p = false := by
  unfold usedPorts at hp
  simp only [List.mem_append, not_or] at hp
  obtain ⟨⟨⟨hlinks, huvi⟩, htcp⟩, -⟩ := hp
  constructor
  · rintro u d hd rfl
    refine hlinks (List.mem_map.2 ⟨d, ?_, rfl⟩)
    exact List.mem_map.2 ⟨(u, d), Dict.get?_eq_some.1 hd, rfl⟩
  · unfold Registries.portInUseByUs
    rw [Bool.or_eq_false_iff, ← Bool.not_eq_true, ← Bool.not_eq_true, Dict.contains_iff,
      Dict.contains_iff]
    exact ⟨huvi, htcp⟩

theorem isManaged_protocol (hm : isManaged link = true) : link.protocol ≠ "mtproto" := by
  unfold isManaged at hm
  simp only [Bool.and_eq_true, decide_eq_true_eq] at hm
  exact hm.2

/-- What creating a link leaves behind: its listener is started, whatever its core. -/
theorem complete_createLink {osFree : ℤ → Bool} {body : CreateBody} {mt : MtprotoStart}
    (hnew : newLink h s osFree body mt = .ok link) :
    complete h s (.createLink uid osFree body mt) =
      ⟨syncCores h (s.links.set uid link), syncLink h uid link s.ports⟩ := by
  have hhandle : handle h s (.createLink uid osFree body mt) =
      (.ok, ⟨s.links.set uid link, s.ports⟩,
        (if body.coreName = "unicorn" then [.syncPorts uid link] else []) ++ [.syncCores]) := by
    rw [handle, createLink, hnew]
  rw [complete, hhandle]
  by_cases hc : body.coreName = "unicorn"
  · simp [hc, runTask]
  · have hm : isManaged link = false := by
      have hcore := (newLink_spec hnew).1
      have hne : Ports.coreName (some body.coreName) ≠ "unicorn" := by
        unfold Ports.coreName
        simp only
        split_ifs with hempty
        · have hn := normalCore_coreName body
          rw [hempty] at hn
          exact absurd hn (by decide)
        · exact hc
      simp [isManaged, hcore, hne]
    simp [hc, runTask, syncLink_of_not_managed hm]

theorem matches_createLink_iff (hbind : ∀ p, h.binds p = true) (hs : Matches h s)
    {osFree : ℤ → Bool} {body : CreateBody} {mt : MtprotoStart}
    (hfresh : s.links.get? uid = none) :
    Matches h (complete h s (.createLink uid osFree body mt)) ↔
      Covered h s (.createLink uid osFree body mt) := by
  cases hnew : newLink h s osFree body mt with
  | error reply =>
    have hcomplete : complete h s (.createLink uid osFree body mt) = s := by
      simp [complete, handle, createLink, hnew]
    rw [hcomplete]
    exact iff_of_true hs fun _ _ => by simp only [Op.untouched, hnew]
  | ok link =>
    have hmig := migrateLink_newLink hnew
    have hl : (syncCores h (s.links.set uid link)).get? uid = some link :=
      get?_syncCores_self (Dict.get?_set_self _ _ _) hmig
    have hport : isManaged link = true → link.listenPort = 0 ∨ link.listenPort ∉ usedPorts h s :=
      fun hm => (newLink_spec hnew).2.2.2 (isManaged_protocol hm)
    have hfree : isManaged link = true → listening s.ports link.listenPort = (none, none) := by
      intro hm
      rcases hport hm with h0 | hused
      · rw [h0]; exact hs.listening_zero
      · exact listening_eq_none (not_mem_usedPorts hused).2
    have halone : isManaged link = true →
        Alone (syncCores h (s.links.set uid link)) uid link.listenPort := by
      intro hm
      refine Alone.syncCores fun h0 u d hd hu => ?_
      rw [Dict.get?_set_ne _ _ hu.symm] at hd
      exact (not_mem_usedPorts ((hport hm).resolve_left h0)).1 u d hd
    rw [complete_createLink hnew, Matches, listening_syncLink_iff hbind hl hfree halone,
      erase_syncCores, Dict.erase_set, Dict.erase_of_get?_none hfresh]
    simp only [Covered, Op.untouched, Op.released, hnew, hs _, ne_eq, reduceCtorEq,
      not_false_eq_true, forall_const]

/-! #### `update_link` -/

/-- A link whose listener an update moves is on a port that no other link, no listener and not the
panel has. -/
theorem editPort_moved {old_port port : ℤ} {field : Option PortField}
    (hedit : editPort h s uid old_port field = .moved port) :
    port = 0 ∨ (port ∉ (s.links.erase uid).values.map Link.listenPort ++ [h.port] ∧
      s.ports.portInUseByUs port = false) := by
  unfold editPort at hedit
  rcases field with _ | _ | q | _
  · cases hedit
  · simp only at hedit
    split_ifs at hedit
    cases hedit
    exact .inl rfl
  · simp only at hedit
    split_ifs at hedit with hrange hsame hused
    cases hedit
    by_cases h0 : port = 0
    · exact .inl h0
    · have hunused : (((s.links.erase uid).values.map Link.listenPort ++ [h.port]).contains port ||
          s.ports.portInUseByUs port) = false := by
        rw [Bool.not_eq_true] at hused
        rwa [decide_eq_true h0, Bool.true_and] at hused
      obtain ⟨hlinks, hports⟩ := Bool.or_eq_false_iff.1 hunused
      refine .inr ⟨fun hmem => ?_, hports⟩
      rw [List.contains_iff_mem.2 hmem] at hlinks
      cases hlinks
  · cases hedit

/-- Only the start of a proxy changes the link after the edit, and then the link is MTProto. -/
theorem finishPatch_link {wasActive moved : Bool} {body : PatchBody} {mt : MtprotoStart}
    (hne : link.protocol ≠ "mtproto") :
    (finishPatch s uid wasActive link moved body mt).link = link ∧
      (finishPatch s uid wasActive link moved body mt).syncPorts = moved := by
  have hmt : decide (link.protocol = "mtproto") = false := decide_eq_false hne
  unfold finishPatch
  rw [hmt]
  cases body.subOk <;> simp

theorem finishPatch_mtproto {wasActive moved : Bool} {body : PatchBody} {mt : MtprotoStart}
    (hmt : link.protocol = "mtproto") :
    (finishPatch s uid wasActive link moved body mt).syncPorts = false := by
  unfold finishPatch
  rw [decide_eq_true hmt]
  simp only [Bool.not_true, Bool.and_false, Bool.true_and]
  split_ifs
  · rfl
  · rfl
  · cases mt <;> rfl
  · cases mt <;> rfl
  · rfl

/-- A request that starts the listener of a link leaves the link as it was edited. -/
theorem finishPatch_syncPorts {wasActive moved : Bool} {body : PatchBody} {mt : MtprotoStart}
    (hsync : (finishPatch s uid wasActive link moved body mt).syncPorts = true) :
    moved = true ∧ (finishPatch s uid wasActive link moved body mt).link = link := by
  by_cases hmt : link.protocol = "mtproto"
  · rw [finishPatch_mtproto hmt] at hsync
    cases hsync
  · obtain ⟨hlink, hmoved⟩ := finishPatch_link hmt
    exact ⟨hmoved.symm.trans hsync, hlink⟩

/-- A link whose listener an update starts is on a port that no other link and no listener has. -/
theorem patchLink_syncPorts {body : PatchBody} {mt : MtprotoStart}
    (hsync : (patchLink h s uid link body mt).syncPorts = true) :
    (patchLink h s uid link body mt).link.listenPort = 0 ∨
      ((patchLink h s uid link body mt).link.listenPort ∉
          (s.links.erase uid).values.map Link.listenPort ∧
        s.ports.portInUseByUs (patchLink h s uid link body mt).link.listenPort = false) := by
  unfold patchLink at hsync ⊢
  generalize editFields link body = edit at hsync ⊢
  obtain ⟨edited, ok⟩ := edit
  cases ok with
  | false => cases hsync
  | true =>
    simp only at hsync ⊢
    cases hedit : editPort h s uid edited.listenPort body.listenPort with
    | refused reply => rw [hedit] at hsync; cases hsync
    | unchanged =>
      rw [hedit] at hsync
      cases (finishPatch_syncPorts hsync).1
    | moved port =>
      rw [hedit] at hsync
      simp only at hsync ⊢
      rw [(finishPatch_syncPorts hsync).2]
      exact (editPort_moved hedit).imp_right fun hport =>
        ⟨fun hmem => hport.1 (List.mem_append_left _ hmem), hport.2⟩

theorem complete_updateLink {body : PatchBody} {mt : MtprotoStart}
    (hl : s.links.get? uid = some link) :
    let p := patchLink h s uid link body mt
    let links := s.links.modify uid fun _ => p.link
    complete h s (.updateLink uid body mt) =
      ⟨if p.syncCores then syncCores h links else links,
        if p.syncPorts then syncLink h uid p.link s.ports else s.ports⟩ := by
  intro p links
  have hhandle : handle h s (.updateLink uid body mt) = (p.reply, ⟨links, s.ports⟩,
      (if p.syncPorts then [.syncPorts uid p.link] else []) ++
        if p.syncCores then [.syncCores] else []) := by
    rw [handle, updateLink, hl]
  rw [complete, hhandle]
  cases p.syncPorts <;> cases p.syncCores <;> rfl

theorem matches_updateLink_iff (hbind : ∀ p, h.binds p = true) (hs : Matches h s)
    {body : PatchBody} {mt : MtprotoStart} :
    Matches h (complete h s (.updateLink uid body mt)) ↔
      Covered h s (.updateLink uid body mt) := by
  cases hl : s.links.get? uid with
  | none =>
    have hcomplete : complete h s (.updateLink uid body mt) = s := by
      simp [complete, handle, updateLink, hl]
    rw [hcomplete]
    exact iff_of_true hs fun _ _ => by simp only [Op.untouched, hl]
  | some link =>
    rw [complete_updateLink hl]
    simp only [Covered, Op.untouched, Op.released, hl, ne_eq, reduceCtorEq, not_false_eq_true,
      forall_const, ← hs _]
    generalize hp : patchLink h s uid link body mt = p
    cases hsync : p.syncPorts && isManaged p.link with
    | false =>
      -- no listener is touched
      have hports : (if p.syncPorts then syncLink h uid p.link s.ports else s.ports) = s.ports := by
        rcases Bool.and_eq_false_iff.1 hsync with hno | hm
        · rw [hno]; rfl
        · rw [syncLink_of_not_managed hm, ite_self]
      rw [hports]
      exact forall_congr' fun q => eq_comm
    | true =>
      obtain ⟨hsp, hm⟩ := Bool.and_eq_true_iff.1 hsync
      have hport := patchLink_syncPorts (hp ▸ hsp)
      rw [hp] at hport
      have hget : (s.links.modify uid fun _ => p.link).get? uid = some p.link := by
        rw [Dict.get?_modify, hl]; simp
      have hfree : listening s.ports p.link.listenPort = (none, none) := by
        rcases hport with h0 | hused
        · rw [h0]; exact hs.listening_zero
        · exact listening_eq_none hused.2
      have halone : Alone (s.links.modify uid fun _ => p.link) uid p.link.listenPort := by
        intro h0 u d hd hu hdp
        rw [Dict.get?_modify, if_neg hu, ← Dict.get?_erase_ne s.links hu.symm] at hd
        refine (hport.resolve_left h0).1 (List.mem_map.2 ⟨d, ?_, hdp⟩)
        exact List.mem_map.2 ⟨(u, d), Dict.get?_eq_some.1 hd, rfl⟩
      rw [hsp, if_pos rfl, if_pos rfl]
      cases p.syncCores with
      | false =>
        rw [if_neg (by decide), if_neg (by decide), Matches,
          listening_syncLink_iff hbind hget (fun _ => hfree) (fun _ => halone), Dict.erase_modify]
      | true =>
        rw [if_pos rfl, if_pos rfl, Matches, listening_syncLink_iff hbind
          (get?_syncCores_self hget (migrateLink_of_managed hm)) (fun _ => hfree)
          (fun _ => halone.syncCores), erase_syncCores, Dict.erase_modify]

/-! #### `delete_link` and `backup_import` -/

theorem listening_releasePortIfUnused (port p : ℤ) :
    listening (releasePortIfUnused s port) p =
      if port = p ∧ (s.links.values.any fun d => d.listenPort = port && d.active) = false then
        (none, none)
      else listening s.ports p := by
  unfold releasePortIfUnused
  cases s.links.values.any fun d => d.listenPort = port && d.active with
  | true => simp
  | false =>
    by_cases hp : port = p
    · subst hp
      simp [listening]
    · simp [listening, hp, Dict.get?_erase_ne]

theorem complete_deleteLink (hl : s.links.get? uid = some link) :
    complete h s (.deleteLink uid) = ⟨syncCores h (s.links.erase uid),
      if link.listenPort ≠ 0 then releasePortIfUnused ⟨s.links.erase uid, s.ports⟩ link.listenPort
      else s.ports⟩ := by
  have hhandle : handle h s (.deleteLink uid) = (.ok, ⟨s.links.erase uid, s.ports⟩,
      (if link.listenPort ≠ 0 then [.releasePort link.listenPort] else []) ++ [.syncCores]) := by
    rw [handle, deleteLink, hl]
  rw [complete, hhandle]
  split_ifs <;> rfl

/-- Deleting a link silences the port that it releases, and no other. -/
theorem listening_deleteLink (hl : s.links.get? uid = some link) (p : ℤ) :
    listening (complete h s (.deleteLink uid)).ports p =
      if (Op.deleteLink uid).released s = some p then (none, none) else listening s.ports p := by
  rw [complete_deleteLink hl]
  simp only [Op.released, hl]
  by_cases h0 : link.listenPort = 0
  · simp [h0]
  · simp only [h0, ne_eq, not_false_eq_true, if_true, decide_true, Bool.true_and]
    rw [listening_releasePortIfUnused]
    cases (s.links.erase uid).values.any fun d => d.listenPort = link.listenPort && d.active with
    | true => simp
    | false => simp

/-- The remaining links call for nothing on the port that is released. -/
theorem calledFor_released {p : ℤ} (hrel : (Op.deleteLink uid).released s = some p) :
    calledFor h (syncCores h (s.links.erase uid)) p = (none, none) := by
  unfold Op.released at hrel
  cases hl : s.links.get? uid with
  | none => simp [hl] at hrel
  | some link =>
    simp only [hl] at hrel
    split_ifs at hrel with hcond
    cases hrel
    have hno : (s.links.erase uid).values.any (fun d =>
        d.listenPort = link.listenPort && d.active) = false := by
      simpa using (Bool.and_eq_true_iff.1 hcond).2
    refine calledFor_eq_none fun u d hd hown => ?_
    obtain ⟨d', hd', hport', hact'⟩ := exists_of_get?_syncCores hd
    obtain ⟨⟨hact, -⟩, hport⟩ := ownPort_eq_some.1 hown
    have hmem : d' ∈ (s.links.erase uid).values :=
      List.mem_map.2 ⟨(u, d'), Dict.get?_eq_some.1 hd', rfl⟩
    refine List.any_eq_false.1 hno d' hmem ?_
    rw [← hport', ← hact', hport, hact, decide_eq_true rfl, Bool.true_and]

theorem matches_deleteLink_iff (hs : Matches h s) :
    Matches h (complete h s (.deleteLink uid)) ↔ Covered h s (.deleteLink uid) := by
  cases hl : s.links.get? uid with
  | none =>
    have hcomplete : complete h s (.deleteLink uid) = s := by
      simp [complete, handle, deleteLink, hl]
    rw [hcomplete]
    exact iff_of_true hs fun _ _ => by simp only [Op.untouched, hl]
  | some link =>
    have huntouched : (Op.deleteLink uid).untouched h s = syncCores h (s.links.erase uid) := by
      simp only [Op.untouched, hl]
    have hlinks : (complete h s (.deleteLink uid)).links = syncCores h (s.links.erase uid) := by
      rw [complete_deleteLink hl]
    unfold Matches Covered
    rw [huntouched, hlinks]
    refine forall_congr' fun p => ?_
    rw [listening_deleteLink hl, hs p]
    by_cases hrel : (Op.deleteLink uid).released s = some p
    · rw [if_pos hrel, calledFor_released hrel]
      exact iff_of_true rfl fun hne => absurd hrel hne
    · rw [if_neg hrel]
      exact ⟨fun heq _ => heq.symm, fun heq => (heq hrel).symm⟩

theorem matches_backupImport_iff (hs : Matches h s) {data : Backup}
    {restarted : String → Option ℤ} :
    Matches h (complete h s (.backupImport data restarted)) ↔
      Covered h s (.backupImport data restarted) := by
  cases data with
  | notDict => exact iff_of_true hs fun _ _ => rfl
  | badTables => exact iff_of_true hs fun _ _ => rfl
  | tables links =>
    have hcomplete : complete h s (.backupImport (.tables links) restarted) =
        ⟨restartMtprotoInstances restarted links, s.ports⟩ := rfl
    rw [hcomplete]
    simp only [Covered, Op.untouched, Op.released, Matches, calledFor_restartMtprotoInstances,
      hs _, ne_eq, reduceCtorEq, not_false_eq_true, forall_const]
    exact forall_congr' fun p => eq_comm

end Requests

/-! ### Runs -/

section Runs

variable {h : Host} (hbind : ∀ p, h.binds p = true)

include hbind

/-- When the registries match the links, `sync_all` has nothing to do. -/
theorem inSync_iff {s : Panel} : InSync h s ↔ Matches h s := by
  refine ⟨InSync.matches_links, fun hs => ⟨hs, ?_⟩⟩
  have htcp : (syncAll h s.links s.ports).tcpServers = s.ports.tcpServers := by
    rw [tcpServers_syncAll hbind]
    refine Dict.reconcile_eq_self fun p => ?_
    exact congrArg Option.isSome (congrArg Prod.fst (hs p))
  have huvi : (syncAll h s.links s.ports).uvicornServers = s.ports.uvicornServers := by
    rw [uvicornServers_syncAll hbind]
    refine Dict.reconcile_eq_self fun p => ?_
    exact congrArg Option.isSome (congrArg Prod.snd (hs p))
  exact Registries.ext htcp huvi

/-- With no listener up before, `sync_all` starts exactly what the links call for. -/
theorem listening_syncAll_empty (links : Links) (p : ℤ) :
    listening (syncAll h links ⟨∅, ∅⟩) p = calledFor h links p := by
  have hempty : ∀ {V : Type} (needed : Dict ℤ V),
      (Dict.reconcile needed ∅).get? p = needed.get? p := by
    intro V needed
    rw [Dict.get?_reconcile, Dict.get?_empty, Option.none_or]
    cases hn : needed.get? p <;> simp [Dict.contains, hn]
  refine Prod.ext ?_ ?_
  · exact (congrArg (Dict.get? · p) (tcpServers_syncAll hbind links _)).trans (hempty _)
  · exact (congrArg (Dict.get? · p) (uvicornServers_syncAll hbind links _)).trans (hempty _)

/-- **The start**: it leaves a state in sync exactly when it is covered. -/
theorem inSync_started_iff (links : Links) (boot : Boot) :
    InSync h (started h links boot) ↔ boot.Covered h links := by
  have hseen : ∀ p, listening (started h links boot).ports p = calledFor h (boot.seen h links) p :=
    listening_syncAll_empty hbind (boot.seen h links)
  rw [inSync_iff hbind, Matches]
  simp only [hseen]
  unfold Boot.seen Boot.Covered started
  cases boot.coresFirst with
  | true => simp
  | false =>
    simp only [syncCores_restartMtprotoInstances, calledFor_restartMtprotoInstances,
      Bool.false_eq_true, if_false, forall_const]
    exact forall_congr' fun p => eq_comm

/-- **One request**: it leaves the registries in sync exactly when it is covered. -/
theorem inSync_step_iff {s s' : Panel} {op : Op} (hs : InSync h s)
    (hstep : (adminMachine h).step s op = some s') : InSync h s' ↔ Covered h s op := by
  simp only [adminMachine] at hstep
  split_ifs at hstep with hfresh
  cases hstep
  rw [inSync_iff hbind] at hs ⊢
  cases op with
  | createLink uid osFree body mt =>
    refine matches_createLink_iff hbind hs ?_
    simpa [Op.fresh, Dict.contains] using hfresh
  | updateLink uid body mt => exact matches_updateLink_iff hbind hs
  | deleteLink uid => exact matches_deleteLink_iff hs
  | backupImport data restarted => exact matches_backupImport_iff hs

/-- **A run is in sync throughout exactly when its start and all its requests are covered.** -/
theorem inSync_iff_covered (links : Links) (boot : Boot) {ops : List Op} {s : Panel}
    (hrun : (adminMachine h).run (started h links boot) ops = some s) :
    (∀ done t, done <+: ops → (adminMachine h).run (started h links boot) done = some t →
        InSync h t) ↔
      boot.Covered h links ∧ (adminMachine h).Along (Covered h) (started h links boot) ops := by
  have hsteps := fun h₀ => Machine.invariant_iff_along
    (fun _ _ _ hs hstep => inSync_step_iff hbind hs hstep) hrun h₀
  constructor
  · intro hall
    have hstart : InSync h (started h links boot) := hall [] _ (List.nil_prefix) rfl
    exact ⟨(inSync_started_iff hbind links boot).1 hstart, (hsteps hstart).1 hall⟩
  · rintro ⟨hboot, halong⟩
    exact (hsteps ((inSync_started_iff hbind links boot).2 hboot)).2 halong

end Runs

/-- A host on which every port can be bound; the panel has port 8000. -/
def openHost : Host where
  port := 8000
  portRange := (20000, 40000)
  linux := true
  binds _ := true

/-- A start that finds no link. -/
def firstBoot : Boot where
  restarted _ := none
  coresFirst := false

/-- An active WebSocket link on port 8080. -/
def webSocketLink : Link where
  protocol := "vless-ws"
  core := some "unicorn"
  listenPort := 8080
  active := true
  expiresAt := .never
  limitBytes := 0
  usedBytes := 0

/-- The request for `webSocketLink`. -/
def webSocketBody : CreateBody where
  numbersOk := true
  limitBytes := 0
  expiresAt := .never
  protocol := some "vless-ws"
  core := none
  listenPort := .number 8080
  mtprotoPort := .absent
  textsOk := true

/-- A saved link that xray does not serve; a start moves it to unicorn, with a listener on 3000. -/
def packetUpLink : Link where
  protocol := "xhttp-packet-up"
  core := some "xray"
  listenPort := 3000
  active := true
  expiresAt := .never
  limitBytes := 0
  usedBytes := 0

/-- A saved link whose proxy is restarted. -/
def proxyLink : Link where
  protocol := "mtproto"
  core := some "unicorn"
  listenPort := 8443
  active := true
  expiresAt := .never
  limitBytes := 0
  usedBytes := 0

/-- The links that the panel was stopped with. -/
def savedLinks : Links := ((∅ : Links).set "m" proxyLink).set "b" packetUpLink

/-- While the proxy is restarted, on another port, `_sync_cores` runs. -/
def savedBoot : Boot where
  restarted _ := some 9000
  coresFirst := true

/-- The links behind the start. -/
def bootedLinks : Links :=
  ((∅ : Links).set "m" { proxyLink with listenPort := 9000 }).set "b"
    { packetUpLink with core := some "unicorn" }

/-- The panel starts with a link that it moves to unicorn, `webSocketLink` is created and deleted:
the registries are in sync with port 3000 open. -/
theorem inSync_iff_covered_webSocket :
    InSync openHost ⟨bootedLinks, ∅, (∅ : Dict ℤ Unit).set 3000 ()⟩ := by
  have hstart : started openHost savedLinks savedBoot =
      ⟨bootedLinks, ∅, (∅ : Dict ℤ Unit).set 3000 ()⟩ := by
    decide +kernel
  have hcreate : (adminMachine openHost).run (started openHost savedLinks savedBoot)
      [.createLink "a" (fun _ => true) webSocketBody (.started 0)] =
        some ⟨bootedLinks.set "a" webSocketLink, ∅,
          ((∅ : Dict ℤ Unit).set 3000 ()).set 8080 ()⟩ := by
    decide +kernel
  have hrun : (adminMachine openHost).run (started openHost savedLinks savedBoot)
      [.createLink "a" (fun _ => true) webSocketBody (.started 0), .deleteLink "a"] =
        some ⟨bootedLinks, ∅, (∅ : Dict ℤ Unit).set 3000 ()⟩ := by
    decide +kernel
  have hnew : newLink openHost (started openHost savedLinks savedBoot) (fun _ => true) webSocketBody
      (.started 0) = .ok webSocketLink := by
    rfl
  have hmigrated : syncCores openHost bootedLinks = bootedLinks := by
    decide +kernel
  refine (inSync_iff_covered (fun _ => rfl) savedLinks savedBoot hrun).2
    ⟨fun hlate => (by cases hlate), fun p _ => ?_, fun s hs => ⟨fun p hp => ?_, fun _ _ => trivial⟩⟩ _
    _ (List.prefix_refl _) hrun
  · simp only [Op.untouched, hnew]
    rw [hstart]
    exact congrArg (calledFor openHost · p) hmigrated
  · obtain ⟨t, hstep, ht⟩ := Machine.run_cons.1 hcreate
    cases hs.symm.trans hstep
    cases ht
    have hreleased : (Op.deleteLink "a").released
        ⟨bootedLinks.set "a" webSocketLink, ∅, ((∅ : Dict ℤ Unit).set 3000 ()).set 8080 ()⟩ =
          some 8080 := by
      decide +kernel
    have huntouched : (Op.deleteLink "a").untouched openHost
        ⟨bootedLinks.set "a" webSocketLink, ∅, ((∅ : Dict ℤ Unit).set 3000 ()).set 8080 ()⟩ =
          bootedLinks := by
      decide +kernel
    have hport : p ≠ 8080 := fun hp' => hp (hp' ▸ hreleased)
    have hcall : callsAt openHost p ("a", webSocketLink) = (none, none) :=
      callsAt_eq_none fun hown => hport (Option.some.inj hown).symm
    have halone : Alone (bootedLinks.set "a" webSocketLink) "a" 8080 := by
      intro _ u d hd hu
      rw [Dict.get?_set_ne _ _ hu.symm] at hd
      have hnone : ∀ e ∈ bootedLinks.entries, e.2.listenPort ≠ 8080 := by decide +kernel
      exact hnone (u, d) (Dict.get?_eq_some.1 hd)
    rw [huntouched, calledFor_eq_or (Dict.get?_set_self _ _ _) fun _ => halone, hcall,
      Calls.none_or]
    exact congrArg (calledFor openHost · p) (by decide +kernel)

/-- The body `{"active": false}`. -/
def disableBody : PatchBody where
  active := some false
  resetUsage := false
  limitBytes := none
  expiresAt := none
  listenPort := none
  subOk := true

/-- A link with a port of its own is created and then disabled: its listener stays up, although no
link calls for it. -/
theorem disabled_link_keeps_listening :
    ¬ ∀ h : Host, (∀ p, h.binds p = true) → ∀ (links : Links) (boot : Boot) (ops : List Op)
      (s : Panel), (adminMachine h).run (started h links boot) ops = some s → InSync h s := by
  intro hall
  have hrun : (adminMachine openHost).run (started openHost ∅ firstBoot)
      [.createLink "a" (fun _ => true) webSocketBody (.started 0),
        .updateLink "a" disableBody (.started 0)] =
      some ⟨(∅ : Links).set "a" { webSocketLink with active := false }, ∅,
        (∅ : Dict ℤ Unit).set 8080 ()⟩ := by
    decide +kernel
  have hsync := (hall openHost (fun _ => rfl) ∅ _ _ _ hrun).matches_links 8080
  exact absurd hsync (by decide +kernel)

end Ports

end RvgGateway
