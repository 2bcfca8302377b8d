import RvgGateway.Lib.Machine
import RvgGateway.Ports.PortManager

/-!
# The administration of links

The four requests of `main.py` that change `LINKS`: `create_link`, `update_link`, `delete_link` and
`backup_import`.  A request checks its body, edits `LINKS` and spawns tasks that bring the listeners
and the external cores after the edit; `adminMachine` performs one request together with its tasks.

What the requests do to fields that no listener depends on (labels, notes, certificates, groups) is
left out.  The outcomes that the host decides (a free port, the start of an MTProto proxy, the
random identifier of a new link) are part of the label.
-/

namespace RvgGateway

namespace Ports

/-- The state that the requests work on. -/
structure Panel where
  /-- `LINKS`. -/
  links : Links
  ports : Registries
  deriving DecidableEq

/-- How a request ends. -/
inductive Reply where
  | ok
  /-- `HTTPException`. -/
  | error (status : ℕ) (detail : String)
  /-- An exception that no handler expects. -/
  | crashed
  deriving DecidableEq, Repr

/-- A port number in a request body. -/
inductive PortField where
  /-- Absent, `None`, `""`, `0` or `"0"`. -/
  | absent
  | number (p : ℤ)
  /-- `int` raises. -/
  | malformed
  deriving DecidableEq, Repr

/-- How the start of an MTProto proxy ends. -/
inductive MtprotoStart where
  | started (port : ℤ)
  | runtimeError (exc : String)
  | failed (exc : String)
  deriving DecidableEq, Repr

/-! ### Protocols and cores -/

/-- `PROTOCOLS`. -/
def protocols : List String :=
  ["vless-ws", "vless-httpupgrade", "xhttp-packet-up", "xhttp-stream-up",
    "trojan-ws", "trojan-httpupgrade", "trojan-xhttp-packet-up", "trojan-xhttp-stream-up",
    "vmess-ws", "vmess-httpupgrade", "vmess-tcp",
    "mtproto", "shadowsocks", "shadowsocks-tcp",
    "vless", "vmess", "trojan", "shadowsocks",
    "hysteria2", "hysteria", "tuic", "mixed", "http", "socks"]

/-- `DEFAULT_PROTOCOL`. -/
def defaultProtocol : String := "vless-ws"

/-- `OWN_PORT_PROTOCOLS`. -/
def ownPortProtocols : List String := ["vmess-tcp", "shadowsocks-tcp", "mtproto"]

/-- `CORE_PROTOCOL_SUPPORTED.get(core, set())`. -/
def coreProtocolSupported (core : String) : List String :=
  if core = "unicorn" then
    ["vless-ws", "vless-httpupgrade", "xhttp-packet-up", "xhttp-stream-up",
      "trojan-ws", "trojan-httpupgrade", "trojan-xhttp-packet-up", "trojan-xhttp-stream-up",
      "vmess-ws", "vmess-httpupgrade", "vmess-tcp",
      "mtproto", "shadowsocks", "shadowsocks-tcp"]
  else if core = "xray" then
    ["vless", "vmess", "trojan", "shadowsocks", "socks", "http",
      "vless-ws", "vless-httpupgrade", "vless-xhttp-packet-up", "vless-xhttp-stream-up",
      "vmess-ws", "vmess-httpupgrade", "trojan-ws", "trojan-httpupgrade",
      "trojan-xhttp-packet-up", "trojan-xhttp-stream-up", "shadowsocks"]
  else if core = "singbox" then
    ["vless", "vmess", "trojan", "shadowsocks", "mixed", "http", "socks",
      "hysteria2", "hysteria", "tuic",
      "vless-ws", "vless-httpupgrade", "vmess-ws", "vmess-httpupgrade",
      "trojan-ws", "trojan-httpupgrade", "shadowsocks"]
  else []

/-- `(core or "unicorn").strip().lower()`. -/
def normalCore (core : Option String) : String := Str.lower (Str.strip (coreName core))

/-- The turn of the loop in `_migrate_invalid_core_links`. -/
def migrateLink (d : Link) : Link :=
  if normalCore d.core = "unicorn" then d
  else if (coreProtocolSupported (normalCore d.core)).contains d.protocol then d
  else if (coreProtocolSupported "unicorn").contains d.protocol then
    { d with core := some "unicorn" }
  else d

/-- `_sync_cores`, of which only the migration of links touches `LINKS`. -/
def syncCores (h : Host) (links : Links) : Links :=
  if h.linux then links.mapValues fun _ d => migrateLink d else links

/-- `core_links_present`. -/
def coreLinksPresent (links : Links) : Bool :=
  links.values.any fun d => coreName d.core ≠ "unicorn"

/-! ### Tasks -/

/-- What a request can spawn. -/
inductive Task where
  | syncPorts (uid : String) (link : Link)
  | releasePort (port : ℤ)
  | syncCores
  deriving DecidableEq

/-- `_release_port_if_unused`. -/
def releasePortIfUnused (s : Panel) (port : ℤ) : Registries :=
  if s.links.values.any fun d => d.listenPort = port && d.active then s.ports
  else (s.ports.stopTcpPort port).stopUvicornPort port

/-- Run a task to its end. -/
def runTask (h : Host) (s : Panel) : Task → Panel
  | .syncPorts uid link => { s with ports := syncLink h uid link s.ports }
  | .releasePort port => { s with ports := releasePortIfUnused s port }
  | .syncCores => { s with links := syncCores h s.links }

/-! ### `create_link` -/

/-- The body of `create_link`. -/
structure CreateBody where
  /-- The limits and the texts read before the port convert. -/
  numbersOk : Bool
  /-- `limit_value` in bytes. -/
  limitBytes : ℤ
  /-- `expires_days` from now. -/
  expiresAt : Expiry
  protocol : Option String
  core : Option String
  listenPort : PortField
  /-- `mtproto_port`, the name of the field in the older form. -/
  mtprotoPort : PortField
  /-- The texts read after the port convert. -/
  textsOk : Bool

/-- The ports that a new link cannot have. -/
def usedPorts (h : Host) (s : Panel) : List ℤ :=
  s.links.values.map Link.listenPort ++ s.ports.uvicornServers.keys ++ s.ports.tcpServers.keys ++
    [h.port]

/-- `_allocate_listen_port`. -/
def allocateListenPort (h : Host) (s : Panel) (osFree : ℤ → Bool) (protocol : String)
    (requested : PortField) (core : String) : Except Reply ℤ :=
  let used := usedPorts h s
  match requested with
  | .malformed => .error (.error 400 "شماره پورت نامعتبر است")
  | .number p =>
    if !(1 ≤ p && p ≤ 65535) then .error (.error 400 "شماره پورت نامعتبر است")
    else if used.contains p then .error (.error 409 s!"پورت {p} قبلاً استفاده شده است")
    else .ok p
  | .absent =>
    if core ≠ "unicorn" || ownPortProtocols.contains protocol then
      let lo := h.portRange.1
      let hi := h.portRange.2
      match s.ports.findFreePort osFree lo hi used with
      | none => .error (.error 503
          s!"هیچ پورت آزادی در بازه‌ی {lo}-{hi} پیدا نشد — بازه را در تنظیمات تغییر دهید")
      | some p => .ok p
    else .ok 0

/-- The protocol of a new link. -/
def CreateBody.protocolName (body : CreateBody) : String :=
  let protocol :=
    match body.protocol with
    | none => defaultProtocol
    | some protocol => if protocol = "" then defaultProtocol else protocol
  if protocols.contains protocol then protocol else defaultProtocol

/-- The core of a new link. -/
def CreateBody.coreName (body : CreateBody) : String :=
  let core := normalCore body.core
  if ["unicorn", "xray", "singbox"].contains core then core else "unicorn"

/-- The port that the body asks for. -/
def CreateBody.requestedPort (body : CreateBody) : PortField :=
  if body.protocolName = "mtproto" && body.listenPort = .absent then body.mtprotoPort
  else body.listenPort

/-- `listen_port` of an MTProto link after its proxy started: a port of its own becomes the one that
the proxy got. -/
def mtprotoPort (port : ℤ) (link : Link) : Link :=
  if link.listenPort ≠ 0 then { link with listenPort := port } else link

/-- `link_data` of a new link. -/
def linkData (body : CreateBody) (listenPort : ℤ) : Link where
  protocol := body.protocolName
  core := some body.coreName
  listenPort := listenPort
  active := true
  expiresAt := body.expiresAt
  limitBytes := body.limitBytes
  usedBytes := 0

/-- `_create_link_core` from the record to the entry in `LINKS`: an MTProto link needs its proxy to
start. -/
def startNew (body : CreateBody) (mt : MtprotoStart) (link : Link) : Except Reply Link :=
  if link.protocol = "mtproto" then
    match mt with
    | .started port => if body.textsOk then .ok (mtprotoPort port link) else .error .crashed
    | .runtimeError exc => .error (.error 409 exc)
    | .failed exc => .error (.error 502 s!"راه‌اندازی MTProto ناموفق: {exc}")
  else if body.textsOk then .ok link
  else .error .crashed

/-- The refusal of a protocol that the core does not serve. -/
def unsupported (protocol core : String) : Reply :=
  .error 400 s!"پروتکل «{protocol}» با هسته‌ی «{core}» پشتیبانی نمی‌شود — هسته را تغییر دهید"

/-- `_create_link_core`, up to the entry in `LINKS`. -/
def newLink (h : Host) (s : Panel) (osFree : ℤ → Bool) (body : CreateBody) (mt : MtprotoStart) :
    Except Reply Link :=
  if !body.numbersOk then .error .crashed
  else if !(coreProtocolSupported body.coreName).contains body.protocolName then
    .error (unsupported body.protocolName body.coreName)
  else
    match allocateListenPort h s osFree body.protocolName body.requestedPort body.coreName with
    | .error reply => .error reply
    | .ok listenPort => startNew body mt (linkData body listenPort)

/-- `create_link`, under the identifier `uid`. -/
def createLink (h : Host) (s : Panel) (uid : String) (osFree : ℤ → Bool) (body : CreateBody)
    (mt : MtprotoStart) : Reply × Panel × List Task :=
  match newLink h s osFree body mt with
  | .error reply => (reply, s, [])
  | .ok link =>
    let sync := if body.coreName = "unicorn" then [Task.syncPorts uid link] else []
    (.ok, { s with links := s.links.set uid link }, sync ++ [.syncCores])

/-! ### `update_link` -/

/-- The body of `update_link`.  A field that is present but does not convert is `some none`. -/
structure PatchBody where
  active : Option Bool
  resetUsage : Bool
  limitBytes : Option (Option ℤ)
  expiresAt : Option (Option Expiry)
  listenPort : Option PortField
  /-- `sub_id` can be looked up in the table of groups. -/
  subOk : Bool

/-- The fields that are edited before the port; `false` if a conversion raises. -/
def editFields (link : Link) (body : PatchBody) : Link × Bool :=
  let link := { link with active := body.active.getD link.active }
  let link := if body.resetUsage then { link with usedBytes := 0 } else link
  match body.limitBytes with
  | some none => (link, false)
  | limitBytes =>
    let link := { link with limitBytes := (limitBytes.bind id).getD link.limitBytes }
    match body.expiresAt with
    | some none => (link, false)
    | expiresAt => ({ link with expiresAt := (expiresAt.bind id).getD link.expiresAt }, true)

/-- What the branch for `listen_port` decides. -/
inductive PortEdit where
  | unchanged
  | moved (port : ℤ)
  | refused (reply : Reply)

/-- The branch for `listen_port`. -/
def editPort (h : Host) (s : Panel) (uid : String) (old_port : ℤ) : Option PortField → PortEdit
  | none => .unchanged
  | some .malformed => .refused (.error 400 "شماره پورت نامعتبر است")
  | some .absent => if old_port = 0 then .unchanged else .moved 0
  | some (.number new_port) =>
    if new_port ≠ 0 && !(1 ≤ new_port && new_port ≤ 65535) then
      .refused (.error 400 "شماره پورت نامعتبر است")
    else if new_port = old_port then .unchanged
    else
      let used := (s.links.erase uid).values.map Link.listenPort ++ [h.port]
      if new_port ≠ 0 && (used.contains new_port || s.ports.portInUseByUs new_port) then
        .refused (.error 409 s!"پورت {new_port} قبلاً استفاده شده است")
      else .moved new_port

/-- What `update_link` does with an existing link. -/
structure Patched where
  reply : Reply
  /-- The link as the request leaves it. -/
  link : Link
  /-- `sync_ports_for_link` is called. -/
  syncPorts : Bool
  /-- `_sync_cores` is spawned. -/
  syncCores : Bool

/-- `update_link` after the edit: the restart of an MTProto proxy and the end of the request. -/
def finishPatch (s : Panel) (uid : String) (wasActive : Bool) (link : Link) (moved : Bool)
    (body : PatchBody) (mt : MtprotoStart) : Patched :=
  let isMtproto : Bool := link.protocol = "mtproto"
  let syncPorts := moved && !isMtproto
  let done (link : Link) : Patched :=
    ⟨.ok, link, syncPorts, coreLinksPresent (s.links.modify uid fun _ => link)⟩
  if !body.subOk then ⟨.crashed, link, syncPorts, false⟩
  else if isMtproto && link.active ≠ wasActive then
    if !link.active then done link
    else
      match mt with
      | .started port => done (mtprotoPort port link)
      | .runtimeError exc | .failed exc =>
        ⟨.error 502 s!"روشن کردن پروکسی تلگرام ناموفق بود: {exc}", { link with active := false },
          syncPorts, false⟩
  else if isMtproto && moved then
    match mt with
    | .started port => done (mtprotoPort port link)
    | .runtimeError exc | .failed exc =>
      ⟨.error 502 s!"تغییر پورت MTProto ناموفق بود: {exc}", link, syncPorts, false⟩
  else done link

/-- `update_link` of an existing link. -/
def patchLink (h : Host) (s : Panel) (uid : String) (link : Link) (body : PatchBody)
    (mt : MtprotoStart) : Patched :=
  let wasActive := link.active
  match editFields link body with
  | (link, false) => ⟨.crashed, link, false, false⟩
  | (link, true) =>
    match editPort h s uid link.listenPort body.listenPort with
    | .refused reply => ⟨reply, link, false, false⟩
    | .unchanged => finishPatch s uid wasActive link false body mt
    | .moved port => finishPatch s uid wasActive { link with listenPort := port } true body mt

/-- `update_link`. -/
def updateLink (h : Host) (s : Panel) (uid : String) (body : PatchBody) (mt : MtprotoStart) :
    Reply × Panel × List Task :=
  match s.links.get? uid with
  | none => (.error 404 "link not found", s, [])
  | some link =>
    let p := patchLink h s uid link body mt
    (p.reply, { s with links := s.links.modify uid fun _ => p.link },
      (if p.syncPorts then [Task.syncPorts uid p.link] else []) ++
        if p.syncCores then [.syncCores] else [])

/-! ### `delete_link` and `backup_import` -/

/-- `delete_link`. -/
def deleteLink (s : Panel) (uid : String) : Reply × Panel × List Task :=
  match s.links.get? uid with
  | none => (.error 404 "link not found", s, [])
  | some link =>
    let release := if link.listenPort ≠ 0 then [Task.releasePort link.listenPort] else []
    (.ok, { s with links := s.links.erase uid }, release ++ [.syncCores])

/-- The body of `backup_import`. -/
inductive Backup where
  /-- `data` is not an object. -/
  | notDict
  /-- `links` or `subs` is not an object. -/
  | badTables
  | tables (links : Links)

/-- `_restart_mtproto_instances`; `restarted uid` is the port that the proxy of `uid` gets, `none`
if it does not start. -/
def restartMtprotoInstances (restarted : String → Option ℤ) (links : Links) : Links :=
  links.mapValues fun uid d =>
    if d.protocol = "mtproto" && d.active then
      match restarted uid with
      | some port => mtprotoPort port d
      | none => d
    else d

/-- `backup_import`. -/
def backupImport (s : Panel) (data : Backup) (restarted : String → Option ℤ) :
    Reply × Panel × List Task :=
  match data with
  | .notDict => (.error 400 "فایل بکاپ نامعتبر است", s, [])
  | .badTables => (.error 400 "ساختار فایل بکاپ نامعتبر است", s, [])
  | .tables links => (.ok, { s with links := restartMtprotoInstances restarted links }, [])

/-! ### Requests in sequence -/

/-- A request, with what the host decides about it. -/
inductive Op where
  | createLink (uid : String) (osFree : ℤ → Bool) (body : CreateBody) (mt : MtprotoStart)
  | updateLink (uid : String) (body : PatchBody) (mt : MtprotoStart)
  | deleteLink (uid : String)
  | backupImport (data : Backup) (restarted : String → Option ℤ)

/-- The handler of a request. -/
def handle (h : Host) (s : Panel) : Op → Reply × Panel × List Task
  | .createLink uid osFree body mt => createLink h s uid osFree body mt
  | .updateLink uid body mt => updateLink h s uid body mt
  | .deleteLink uid => deleteLink s uid
  | .backupImport data restarted => backupImport s data restarted

/-- A request, and then the tasks that it spawned in their order. -/
def complete (h : Host) (s : Panel) (op : Op) : Panel :=
  (handle h s op).2.2.foldl (runTask h) (handle h s op).2.1

/-- The identifier of a new link is new; `generate_uuid` is random. -/
def Op.fresh (s : Panel) : Op → Bool
  | .createLink uid _ _ _ => !s.links.contains uid
  | _ => true

/-- Requests, each completed with its tasks before the next. -/
def adminMachine (h : Host) : Machine Panel Op where
  step s op := if op.fresh s then some (complete h s op) else none

/-- What the host decides about a start of the panel. -/
structure Boot where
  /-- The ports that the MTProto proxies get, `none` for one that does not start. -/
  restarted : String → Option ℤ
  /-- The `_sync_cores` that `startup` spawns runs before `sync_all` looks at the links.  Nothing but
  the start of a proxy suspends `startup` in between. -/
  coresFirst : Bool

/-- The links that `sync_all` finds in `startup`. -/
def Boot.seen (h : Host) (links : Links) (boot : Boot) : Links :=
  let links := restartMtprotoInstances boot.restarted links
  if boot.coresFirst then syncCores h links else links

/-- The state that `startup` leaves behind the load of `links`, with no listener running before: the
proxies are restarted, `sync_all` runs, and so does the task of `_sync_cores`. -/
def started (h : Host) (links : Links) (boot : Boot) : Panel :=
  ⟨syncCores h (restartMtprotoInstances boot.restarted links), syncAll h (boot.seen h links) ⟨∅, ∅⟩⟩

end Ports

end RvgGateway
