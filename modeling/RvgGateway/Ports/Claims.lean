import RvgGateway.Ports.Sync

/-!
# Who claims which port

A link claims its `listen_port`, and an MTProto link also the `mtproto_port` of its proxy.  Requests
that only edit `LINKS` do so at once, but the start of a proxy (`start_instance` of
`mtproto_native.py`) waits for a lock, for its port and for its process, while other requests run.
`claimsMachine` interleaves the requests, step by step, at these waits.

* `Server` : `LINKS`, the listeners, the running proxies and the requests in flight.
* `draftLink` : `_create_link_core` up to the start of a proxy.
* `Server.tryPort` : `allocate_port_async`.
* `claimsMachine` : the machine.

What the listeners do is the subject of `Ports.Sync`; here they change at any time.
-/

namespace RvgGateway

namespace Ports

/-- A link with the port of its proxy. -/
structure ProxyLink extends Link where
  /-- `mtproto_port`; 0 if there is none. -/
  mtprotoPort : ℤ
  deriving DecidableEq

/-- The host, with `MTPROTO_PORT_RANGE_START` and `MTPROTO_PORT_RANGE_END`. -/
structure ProxyHost extends Host where
  mtprotoRange : ℤ × ℤ

/-- What a request wants with a proxy. -/
inductive Purpose where
  /-- Nothing but to stop it. -/
  | stop
  /-- A new link; its texts convert or not. -/
  | create (link : Link) (textsOk : Bool)
  /-- A link that becomes active. -/
  | activate
  /-- A link whose port was edited, or that is started with the process. -/
  | restart
  /-- A new advertising tag; the second attempt takes any port. -/
  | adTag (second : Bool)
  deriving DecidableEq

/-- Where a request is. -/
inductive Phase where
  /-- In `stop_instance`, before the lock. -/
  | stopping
  /-- In `stop_instance`, while the process ends. -/
  | ending
  /-- In `start_instance`, before the lock. -/
  | waiting
  /-- In `allocate_port_async`, with so many attempts left. -/
  | trying (left : ℕ)
  /-- The process starts on the port. -/
  | launching (port : ℤ)
  deriving DecidableEq

/-- A request that works on a proxy, with the arguments of `start_instance`. -/
structure Job where
  uid : String
  purpose : Purpose
  /-- `preferred_port`. -/
  preferred : Option ℤ
  /-- `force_port`. -/
  force : Bool
  phase : Phase
  deriving DecidableEq

/-- The state of the server. -/
structure Server where
  /-- `LINKS`. -/
  links : Dict String ProxyLink
  ports : Registries
  /-- `_instances`, the ports of the proxies. -/
  instances : Dict String ℤ
  /-- `_used_ports`. -/
  usedPorts : List ℤ
  /-- The request that holds `_instances_lock`. -/
  lock : Option ℕ
  jobs : Dict ℕ Job
  deriving DecidableEq

/-- `p or None`. -/
def portOrNone (p : ℤ) : Option ℤ := if p ≠ 0 then some p else none

/-- `PORT_RETRY_ATTEMPTS`. -/
def portRetryAttempts : ℕ := 20

/-- `_create_link_core` up to the start of a proxy. -/
def draftLink (h : Host) (s : Panel) (osFree : ℤ → Bool) (body : CreateBody) : Except Reply Link :=
  if !body.numbersOk then .error .crashed
  else if !(coreProtocolSupported body.coreName).contains body.protocolName then
    .error (unsupported body.protocolName body.coreName)
  else
    (allocateListenPort h s osFree body.protocolName body.requestedPort body.coreName).map
      (linkData body)

/-- The sequential model of `_create_link_core` is the draft and the start. -/
theorem newLink_eq_draft (h : Host) (s : Panel) (osFree : ℤ → Bool) (body : CreateBody)
    (mt : MtprotoStart) :
    newLink h s osFree body mt = (draftLink h s osFree body).bind (startNew body mt) := by
  unfold newLink draftLink
  split_ifs
  · rfl
  · rfl
  · cases allocateListenPort h s osFree body.protocolName body.requestedPort body.coreName <;> rfl

namespace Server

/-- What the sequential parts of the requests see. -/
def panel (s : Server) : Panel := ⟨s.links.mapValues fun _ d => d.toLink, s.ports⟩

/-- Enter a request in flight, or move it on. -/
def setJob (s : Server) (j : ℕ) (job : Job) : Server := { s with jobs := s.jobs.set j job }

/-- The request has ended. -/
def endJob (s : Server) (j : ℕ) : Server := { s with jobs := s.jobs.erase j }

/-! ### Requests -/

/-- `create_link`. -/
def createLink (h : ProxyHost) (s : Server) (j : ℕ) (uid : String) (osFree : ℤ → Bool)
    (body : CreateBody) : Server :=
  match draftLink h.toHost s.panel osFree body with
  | .error _ => s
  | .ok link =>
    if link.protocol = "mtproto" then
      s.setJob j ⟨uid, .create link body.textsOk, portOrNone link.listenPort, link.listenPort ≠ 0,
        .waiting⟩
    else if body.textsOk then { s with links := s.links.set uid ⟨link, 0⟩ }
    else s

/-- `update_link` behind the edit of the link, which was `d` and is `link`. -/
def restartEdited (s : Server) (j : ℕ) (uid : String) (d : ProxyLink) (link : Link) (moved : Bool)
    (body : PatchBody) : Server :=
  if !body.subOk || link.protocol ≠ "mtproto" then s
  else if link.active ≠ d.active then
    if !link.active then s.setJob j ⟨uid, .stop, none, false, .stopping⟩
    else
      -- the arguments are those from before the edit of the port
      s.setJob j ⟨uid, .activate, (portOrNone d.listenPort).or (portOrNone d.mtprotoPort),
        d.listenPort ≠ 0, .waiting⟩
  else if moved then
    s.setJob j ⟨uid, .restart, portOrNone link.listenPort, link.listenPort ≠ 0, .stopping⟩
  else s

/-- `update_link`. -/
def updateLink (h : ProxyHost) (s : Server) (j : ℕ) (uid : String) (body : PatchBody) : Server :=
  match s.links.get? uid with
  | none => s
  | some d =>
    let edited (link : Link) : Server := { s with links := s.links.set uid ⟨link, d.mtprotoPort⟩ }
    match editFields d.toLink body with
    | (link, false) => edited link
    | (link, true) =>
      match editPort h.toHost s.panel uid link.listenPort body.listenPort with
      | .refused _ => edited link
      | .unchanged => (edited link).restartEdited j uid d link false body
      | .moved port =>
        let link := { link with listenPort := port }
        (edited link).restartEdited j uid d link true body

/-- `delete_link`. -/
def deleteLink (s : Server) (j : ℕ) (uid : String) : Server :=
  match s.links.get? uid with
  | none => s
  | some d =>
    let s := { s with links := s.links.erase uid }
    if d.protocol = "mtproto" then s.setJob j ⟨uid, .stop, none, false, .stopping⟩ else s

/-- `_update_mtproto_ad_tag` up to the stop of the proxy. -/
def updateAdTag (s : Server) (j : ℕ) (uid : String) : Server :=
  match s.links.get? uid with
  | none => s
  | some d =>
    if d.protocol = "mtproto" then
      s.setJob j ⟨uid, .adTag false, portOrNone d.mtprotoPort, true, .stopping⟩
    else s

/-- The turn of the loop in `_restart_mtproto_instances` for a link that was active when the loop
began; it may have been edited since, or deleted, and then the loop has it as it was. -/
def restartInstance (s : Server) (j : ℕ) (uid : String) (deleted : ProxyLink) : Server :=
  let d := (s.links.get? uid).getD deleted
  if d.protocol = "mtproto" then
    s.setJob j ⟨uid, .restart, portOrNone d.mtprotoPort, d.listenPort ≠ 0, .waiting⟩
  else s

/-! ### Proxies -/

/-- Take the proxy out of `_instances` and its port out of `_used_ports`. -/
def dropInstance (s : Server) (uid : String) : Server :=
  match s.instances.get? uid with
  | none => s
  | some port =>
    { s with
      instances := s.instances.erase uid
      usedPorts := s.usedPorts.filter (· ≠ port) }

/-- `LINKS` after `start_instance` returned the port. -/
def arrive (s : Server) (job : Job) (port : ℤ) : Dict String ProxyLink :=
  match job.purpose with
  | .stop => s.links
  | .create link textsOk =>
    if textsOk then s.links.set job.uid ⟨mtprotoPort port link, port⟩ else s.links
  | .activate | .restart => s.links.modify job.uid fun d => ⟨mtprotoPort port d.toLink, port⟩
  | .adTag _ => s.links.modify job.uid fun d => { d with mtprotoPort := port }

/-- The end of a request whose `start_instance` returned the port. -/
def finish (s : Server) (j : ℕ) (job : Job) (port : ℤ) : Server :=
  let s := { s with links := s.arrive job port }
  match job.purpose with
  | .adTag _ =>
    if s.links.contains job.uid then s.endJob j
    else s.setJob j { job with purpose := .stop, phase := .stopping }
  | _ => s.endJob j

/-- The end of a request whose `start_instance` raised, a `RuntimeError` or not. -/
def fail (s : Server) (j : ℕ) (job : Job) (runtime : Bool) : Server :=
  let s := { s with lock := none }
  match job.purpose with
  | .activate =>
    { s with links := s.links.modify job.uid fun d => { d with active := false } }.endJob j
  | .adTag false =>
    if runtime then
      s.setJob j
        { job with purpose := .adTag true, preferred := none, force := false, phase := .waiting }
    else s.endJob j
  | _ => s.endJob j

/-- Some port of the range for proxies, or failure. -/
def scan (h : ProxyHost) (s : Server) (j : ℕ) (job : Job) (free : ℤ → Bool) : Server :=
  let range := h.mtprotoRange
  let ports := (List.range (range.2 - range.1).toNat).map fun (i : ℕ) => range.1 + (i : ℤ)
  match ports.find? free with
  | some port => s.setJob j { job with phase := .launching port }
  | none => s.fail j job true

/-- `allocate_port_async`, from one attempt to the next. -/
def tryPort (h : ProxyHost) (s : Server) (j : ℕ) (job : Job) (left : ℕ) (osFree : ℤ → Bool) :
    Server :=
  let free (port : ℤ) : Bool := !s.usedPorts.contains port && osFree port
  match job.preferred with
  | none => s.scan h j job free
  | some port =>
    match left with
    | 0 => if job.force then s.fail j job true else s.scan h j job free
    | left + 1 =>
      if free port then s.setJob j { job with phase := .launching port }
      else s.setJob j { job with phase := .trying left }

end Server

/-! ### The machine -/

/-- A step of a request, with what the host decides about it; `j` names the request. -/
inductive Step where
  /-- The listeners change. -/
  | listeners (ports : Registries)
  | createLink (j : ℕ) (uid : String) (osFree : ℤ → Bool) (body : CreateBody)
  | updateLink (j : ℕ) (uid : String) (body : PatchBody)
  | deleteLink (j : ℕ) (uid : String)
  | updateAdTag (j : ℕ) (uid : String)
  | restartInstance (j : ℕ) (uid : String) (deleted : ProxyLink)
  /-- `stop_instance` gets the lock. -/
  | stop (j : ℕ)
  /-- `stop_instance` returns. -/
  | stopped (j : ℕ)
  /-- `start_instance` gets the lock; a proxy of the link is alive or not. -/
  | acquire (j : ℕ) (alive : Bool)
  | tryPort (j : ℕ) (osFree : ℤ → Bool)
  /-- The process is up, and `start_instance` returns. -/
  | launched (j : ℕ)
  /-- `start_instance` raises. -/
  | fail (j : ℕ) (runtime : Bool)
  /-- `_watch_process`: the proxy of the link has ended. -/
  | exit (uid : String)

/-- Nothing is known by the name of a new request and the identifier of a new link. -/
def Step.fresh (s : Server) : Step → Bool
  | .createLink j uid _ _ => !s.jobs.contains j && !s.links.contains uid
  | .updateLink j _ _ | .deleteLink j _ | .updateAdTag j _ | .restartInstance j _ _ =>
    !s.jobs.contains j
  | _ => true

/-- A step of a request in flight. -/
def advance (h : ProxyHost) (s : Server) (j : ℕ) (job : Job) : Step → Option Server
  | .stop _ =>
    if job.phase = .stopping && s.lock = none then
      some ((s.dropInstance job.uid).setJob j { job with phase := .ending })
    else none
  | .stopped _ =>
    if job.phase = .ending then
      some (if job.purpose = .stop then s.endJob j else s.setJob j { job with phase := .waiting })
    else none
  | .acquire _ alive =>
    if job.phase = .waiting && s.lock = none then
      match s.instances.get? job.uid, alive with
      | some port, true => some (s.finish j job port)
      | _, _ =>
        some ({ s with lock := some j }.setJob j { job with phase := .trying portRetryAttempts })
    else none
  | .tryPort _ osFree =>
    -- the panel listens on its own port
    match job.phase, osFree h.port with
    | .trying left, false => some (s.tryPort h j job left osFree)
    | _, _ => none
  | .launched _ =>
    match job.phase with
    | .launching port =>
      some ({ s with
        usedPorts := port :: s.usedPorts
        instances := s.instances.set job.uid port
        lock := none }.finish j job port)
    | _ => none
  | .fail _ runtime =>
    match job.phase with
    | .trying _ => some (s.fail j job runtime)
    | .launching port =>
      some ({ s with usedPorts := s.usedPorts.filter (· ≠ port) }.fail j job runtime)
    | _ => none
  | _ => none

/-- A step. -/
def perform (h : ProxyHost) (s : Server) (l : Step) : Option Server :=
  match l with
  | .listeners ports => some { s with ports }
  | .createLink j uid osFree body => some (s.createLink h j uid osFree body)
  | .updateLink j uid body => some (s.updateLink h j uid body)
  | .deleteLink j uid => some (s.deleteLink j uid)
  | .updateAdTag j uid => some (s.updateAdTag j uid)
  | .restartInstance j uid deleted => some (s.restartInstance j uid deleted)
  | .exit uid => if s.lock = none then some (s.dropInstance uid) else none
  | .stop j | .stopped j | .acquire j _ | .tryPort j _ | .launched j | .fail j _ =>
    (s.jobs.get? j).bind fun job => advance h s j job l

/-- The requests, interleaved at their waits. -/
def claimsMachine (h : ProxyHost) : Machine Server Step where
  step s l := if l.fresh s then perform h s l else none

/-- No links, no proxies and no requests. -/
def Server.init : Server := ⟨∅, ⟨∅, ∅⟩, ∅, [], none, ∅⟩

end Ports

end RvgGateway
