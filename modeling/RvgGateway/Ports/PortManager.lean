import Mathlib.Algebra.Order.Ring.Int
import RvgGateway.Lib.Text
import RvgGateway.Links.Link

/-!
# Listeners on own ports

`port_manager.py`.  A link can have a port of its own.  For `vmess-tcp` and `shadowsocks-tcp` a raw
TCP server listens there, for the HTTP transports an additional uvicorn does.  The module keeps a
registry of each and changes them in two ways: `syncLink` after a change to one link, `syncAll`
from scratch at startup.

## Main results

* `tcpServers_syncAll`, `uvicornServers_syncAll` : `syncAll` reconciles each registry with the
  table of the listeners that `LINKS` calls for.
* `get?_tcpServers_syncLink`, `get?_uvicornServers_syncLink` : on a port that is free, `syncLink`
  starts exactly the listener that the link calls for.
-/

namespace RvgGateway

namespace Ports

/-- The kind of a raw TCP server. -/
inductive TcpKind where
  | vmess
  | ss
  deriving DecidableEq, Repr

/-- An entry of `_tcp_servers`. -/
structure TcpServer where
  kind : TcpKind
  uuid : String
  deriving DecidableEq, Repr

/-- What the two programs read of the host and its configuration. -/
structure Host where
  /-- `CONFIG["port"]`, the port of the panel. -/
  port : ℤ
  /-- `CONFIG["port_range"]`. -/
  portRange : ℤ × ℤ
  /-- Not `platform_guard()`: the external cores run only on Linux. -/
  linux : Bool
  /-- A listener started on the port comes up (`_port_free` and the start itself). -/
  binds : ℤ → Bool

/-- The registries of running listeners. -/
structure Registries where
  /-- `_tcp_servers`. -/
  tcpServers : Dict ℤ TcpServer
  /-- `_uvicorn_servers`. -/
  uvicornServers : Dict ℤ Unit
  deriving DecidableEq

namespace Registries

theorem ext {r r' : Registries} (htcp : r.tcpServers = r'.tcpServers)
    (huvi : r.uvicornServers = r'.uvicornServers) : r = r' := by
  cases r
  cases r'
  cases htcp
  cases huvi
  rfl

/-- `_start_tcp_port`. -/
def startTcpPort (h : Host) (r : Registries) (port : ℤ) (kind : TcpKind) (uuid : String) :
    Registries :=
  if r.tcpServers.contains port then r
  else if h.binds port then { r with tcpServers := r.tcpServers.set port ⟨kind, uuid⟩ }
  else r

/-- `_stop_tcp_port`. -/
def stopTcpPort (r : Registries) (port : ℤ) : Registries :=
  { r with tcpServers := r.tcpServers.erase port }

/-- `_start_uvicorn_port`. -/
def startUvicornPort (h : Host) (r : Registries) (port : ℤ) : Registries :=
  if r.uvicornServers.contains port then r
  else if h.binds port then { r with uvicornServers := r.uvicornServers.set port () }
  else r

/-- `_stop_uvicorn_port`. -/
def stopUvicornPort (r : Registries) (port : ℤ) : Registries :=
  { r with uvicornServers := r.uvicornServers.erase port }

/-- `port_in_use_by_us`. -/
def portInUseByUs (r : Registries) (port : ℤ) : Bool :=
  r.uvicornServers.contains port || r.tcpServers.contains port

/-- `find_free_port`; `osFree` is what `_port_free` answers. -/
def findFreePort (osFree : ℤ → Bool) (r : Registries) (start stop : ℤ) (exclude : List ℤ) :
    Option ℤ :=
  ((List.range (stop - start).toNat).map fun i => start + (i : ℤ)).find? fun port =>
    !(exclude.contains port || r.portInUseByUs port) && osFree port

end Registries

/-- `tcp_kind`. -/
def tcpKind (protocol : String) : Option TcpKind :=
  if protocol = "vmess-tcp" then some .vmess
  else if protocol = "shadowsocks-tcp" then some .ss
  else none

/-- `core or "unicorn"`. -/
def coreName : Option String → String
  | none => "unicorn"
  | some core => if core = "" then "unicorn" else core

/-- The listeners of the link are the business of this module: it is served by unicorn and is not
MTProto, whose port belongs to the proxy process. -/
def isManaged (link : Link) : Bool := coreName link.core = "unicorn" && link.protocol ≠ "mtproto"

/-- `_sync_link`. -/
def syncLink (h : Host) (uid : String) (link : Link) (r : Registries) : Registries :=
  if !isManaged link then r
  else
    match tcpKind link.protocol with
    | some kind =>
      if link.active && link.listenPort ≠ 0 && link.listenPort ≠ h.port then
        r.startTcpPort h link.listenPort kind uid
      else r.stopTcpPort link.listenPort
    | none =>
      if link.listenPort ≠ 0 && link.listenPort ≠ h.port && link.active then
        r.startUvicornPort h link.listenPort
      else r

/-! ### The listeners that `LINKS` calls for -/

/-- The port on which a link calls for a listener: the filter at the head of the loop of
`sync_all`. -/
def ownPort (h : Host) (link : Link) : Option ℤ :=
  if link.active && isManaged link && link.listenPort ≠ 0 && link.listenPort ≠ h.port then
    some link.listenPort
  else none

/-- What a link enters into `needed_tcp`. -/
def tcpNeed (h : Host) (e : String × Link) : Option (ℤ × TcpServer) :=
  match ownPort h e.2, tcpKind e.2.protocol with
  | some port, some kind => some (port, ⟨kind, e.1⟩)
  | _, _ => none

/-- What a link enters into `needed_http`. -/
def httpNeed (h : Host) (e : String × Link) : Option (ℤ × Unit) :=
  match ownPort h e.2, tcpKind e.2.protocol with
  | some port, none => some (port, ())
  | _, _ => none

/-- `needed_tcp` of `sync_all`. -/
def neededTcp (h : Host) (links : Links) : Dict ℤ TcpServer :=
  Dict.collect (tcpNeed h) links.entries

/-- `needed_http` of `sync_all`. -/
def neededHttp (h : Host) (links : Links) : Dict ℤ Unit := Dict.collect (httpNeed h) links.entries

/-- Close the TCP servers that are not needed. -/
def closeTcp (needed : Dict ℤ TcpServer) (r : Registries) : Registries :=
  r.tcpServers.keys.foldl (fun r port => if needed.contains port then r else r.stopTcpPort port) r

/-- Close the uvicorn servers that are not needed. -/
def closeUvicorn (needed : Dict ℤ Unit) (r : Registries) : Registries :=
  r.uvicornServers.keys.foldl
    (fun r port => if needed.contains port then r else r.stopUvicornPort port) r

/-- Start the TCP servers that are needed. -/
def openTcp (h : Host) (needed : Dict ℤ TcpServer) (r : Registries) : Registries :=
  needed.entries.foldl (fun r e => r.startTcpPort h e.1 e.2.kind e.2.uuid) r

/-- Start the uvicorn servers that are needed. -/
def openUvicorn (h : Host) (needed : Dict ℤ Unit) (r : Registries) : Registries :=
  needed.entries.foldl (fun r e => r.startUvicornPort h e.1) r

/-- `sync_all`: the four loops over the registries, one after the other. -/
def syncAll (h : Host) (links : Links) (r : Registries) : Registries :=
  openUvicorn h (neededHttp h links) (openTcp h (neededTcp h links)
    (closeUvicorn (neededHttp h links) (closeTcp (neededTcp h links) r)))

/-! ### One listener -/

section Starts

variable {h : Host} {r : Registries}

@[simp] theorem uvicornServers_startTcpPort (port : ℤ) (kind : TcpKind) (uuid : String) :
    (r.startTcpPort h port kind uuid).uvicornServers = r.uvicornServers := by
  unfold Registries.startTcpPort
  split_ifs <;> rfl

@[simp] theorem tcpServers_startUvicornPort (port : ℤ) :
    (r.startUvicornPort h port).tcpServers = r.tcpServers := by
  unfold Registries.startUvicornPort
  split_ifs <;> rfl

@[simp] theorem uvicornServers_stopTcpPort (port : ℤ) :
    (r.stopTcpPort port).uvicornServers = r.uvicornServers := rfl

@[simp] theorem tcpServers_stopUvicornPort (port : ℤ) :
    (r.stopUvicornPort port).tcpServers = r.tcpServers := rfl

@[simp] theorem tcpServers_stopTcpPort (port : ℤ) :
    (r.stopTcpPort port).tcpServers = r.tcpServers.erase port := rfl

@[simp] theorem uvicornServers_stopUvicornPort (port : ℤ) :
    (r.stopUvicornPort port).uvicornServers = r.uvicornServers.erase port := rfl

/-- A start registers the server unless the port has one already. -/
theorem tcpServers_startTcpPort (hbind : ∀ p, h.binds p = true) (port : ℤ) (kind : TcpKind)
    (uuid : String) :
    (r.startTcpPort h port kind uuid).tcpServers = r.tcpServers.setDefault port ⟨kind, uuid⟩ := by
  unfold Registries.startTcpPort Dict.setDefault
  rw [hbind port, if_pos rfl]
  split_ifs <;> rfl

theorem uvicornServers_startUvicornPort (hbind : ∀ p, h.binds p = true) (port : ℤ) :
    (r.startUvicornPort h port).uvicornServers = r.uvicornServers.setDefault port () := by
  unfold Registries.startUvicornPort Dict.setDefault
  rw [hbind port, if_pos rfl]
  split_ifs <;> rfl

end Starts

/-! ### All listeners -/

/-- What no turn of a loop changes, the loop does not change. -/
theorem foldl_frame {β γ : Type*} (π : Registries → γ) {g : Registries → β → Registries}
    (hg : ∀ r b, π (g r b) = π r) (l : List β) (r : Registries) : π (l.foldl g r) = π r := by
  induction l generalizing r with
  | nil => rfl
  | cons b l ih => rw [List.foldl_cons, ih, hg]

@[simp] theorem uvicornServers_closeTcp (needed : Dict ℤ TcpServer) (r : Registries) :
    (closeTcp needed r).uvicornServers = r.uvicornServers := by
  unfold closeTcp
  exact foldl_frame Registries.uvicornServers (fun r port => by split_ifs <;> rfl) _ _

@[simp] theorem tcpServers_closeUvicorn (needed : Dict ℤ Unit) (r : Registries) :
    (closeUvicorn needed r).tcpServers = r.tcpServers := by
  unfold closeUvicorn
  exact foldl_frame Registries.tcpServers (fun r port => by split_ifs <;> rfl) _ _

@[simp] theorem uvicornServers_openTcp (h : Host) (needed : Dict ℤ TcpServer) (r : Registries) :
    (openTcp h needed r).uvicornServers = r.uvicornServers := by
  unfold openTcp
  exact foldl_frame Registries.uvicornServers (fun r e => by simp) _ _

@[simp] theorem tcpServers_openUvicorn (h : Host) (needed : Dict ℤ Unit) (r : Registries) :
    (openUvicorn h needed r).tcpServers = r.tcpServers := by
  unfold openUvicorn
  exact foldl_frame Registries.tcpServers (fun r e => by simp) _ _

theorem tcpServers_closeTcp (needed : Dict ℤ TcpServer) (r : Registries) :
    (closeTcp needed r).tcpServers = r.tcpServers.keys.foldl
      (fun d port => if needed.contains port then d else d.erase port) r.tcpServers := by
  unfold closeTcp
  exact (List.foldl_hom Registries.tcpServers fun r port => by split_ifs <;> rfl).symm

theorem uvicornServers_closeUvicorn (needed : Dict ℤ Unit) (r : Registries) :
    (closeUvicorn needed r).uvicornServers = r.uvicornServers.keys.foldl
      (fun d port => if needed.contains port then d else d.erase port) r.uvicornServers := by
  unfold closeUvicorn
  exact (List.foldl_hom Registries.uvicornServers fun r port => by split_ifs <;> rfl).symm

section SyncAll

variable {h : Host} (hbind : ∀ p, h.binds p = true)

include hbind

theorem tcpServers_openTcp (needed : Dict ℤ TcpServer) (r : Registries) :
    (openTcp h needed r).tcpServers =
      needed.entries.foldl (fun d e => d.setDefault e.1 e.2) r.tcpServers := by
  unfold openTcp
  exact (List.foldl_hom Registries.tcpServers fun r (e : ℤ × TcpServer) =>
    (tcpServers_startTcpPort hbind e.1 e.2.kind e.2.uuid).symm).symm

theorem uvicornServers_openUvicorn (needed : Dict ℤ Unit) (r : Registries) :
    (openUvicorn h needed r).uvicornServers =
      needed.entries.foldl (fun d e => d.setDefault e.1 e.2) r.uvicornServers := by
  unfold openUvicorn
  exact (List.foldl_hom Registries.uvicornServers fun r (e : ℤ × Unit) =>
    (uvicornServers_startUvicornPort hbind e.1).symm).symm

/-- `syncAll` reconciles the TCP servers with the ones that are needed. -/
theorem tcpServers_syncAll (links : Links) (r : Registries) :
    (syncAll h links r).tcpServers = Dict.reconcile (neededTcp h links) r.tcpServers := by
  rw [syncAll, tcpServers_openUvicorn, tcpServers_openTcp hbind, tcpServers_closeUvicorn,
    tcpServers_closeTcp, Dict.reconcile]

/-- `syncAll` reconciles the uvicorn servers with the ones that are needed. -/
theorem uvicornServers_syncAll (links : Links) (r : Registries) :
    (syncAll h links r).uvicornServers = Dict.reconcile (neededHttp h links) r.uvicornServers := by
  rw [syncAll, uvicornServers_openUvicorn hbind, uvicornServers_openTcp,
    uvicornServers_closeUvicorn, uvicornServers_closeTcp, Dict.reconcile]

end SyncAll

/-! ### One link -/

section SyncLink

variable {h : Host} {link : Link} {uid : String} {r : Registries}

theorem ownPort_eq_some {p : ℤ} : ownPort h link = some p ↔
    (link.active = true ∧ isManaged link = true ∧ link.listenPort ≠ 0 ∧
      link.listenPort ≠ h.port) ∧ link.listenPort = p := by
  unfold ownPort
  simp only [Bool.and_eq_true, decide_eq_true_eq, and_assoc]
  split_ifs with hc
  · simp [hc]
  · constructor
    · intro hs; cases hs
    · rintro ⟨ha, hm, h0, hp, rfl⟩; exact absurd ⟨ha, hm, h0, hp⟩ hc

theorem tcpNeed_eq_some {p : ℤ} {server : TcpServer} : tcpNeed h (uid, link) = some (p, server) ↔
    ownPort h link = some p ∧ ∃ kind, tcpKind link.protocol = some kind ∧ server = ⟨kind, uid⟩ := by
  unfold tcpNeed
  cases ownPort h link <;> cases tcpKind link.protocol <;> simp [eq_comm]

theorem httpNeed_eq_some {p : ℤ} {x : Unit} : httpNeed h (uid, link) = some (p, x) ↔
    ownPort h link = some p ∧ tcpKind link.protocol = none := by
  unfold httpNeed
  cases ownPort h link <;> cases tcpKind link.protocol <;> simp

/-- `syncLink` on a port without a TCP server starts the server that the link calls for. -/
theorem get?_tcpServers_syncLink (hbind : ∀ p, h.binds p = true)
    (hfree : r.tcpServers.get? link.listenPort = none) (p : ℤ) :
    (syncLink h uid link r).tcpServers.get? p =
      (Dict.entryAt p (tcpNeed h (uid, link))).or (r.tcpServers.get? p) := by
  unfold syncLink tcpNeed ownPort
  cases hm : isManaged link
  · simp [Dict.entryAt]
  cases hk : tcpKind link.protocol with
  | none =>
    -- an HTTP link leaves the TCP servers alone
    simp only [Bool.not_true, Bool.false_eq_true, if_false]
    split_ifs <;> simp [Dict.entryAt]
  | some kind =>
    simp only [Bool.not_true, Bool.false_eq_true, if_false, Bool.and_true]
    split_ifs with hc
    · rw [tcpServers_startTcpPort hbind, Dict.get?_setDefault]
      by_cases hp : link.listenPort = p
      · subst hp; simp [hfree, Dict.entryAt]
      · simp [hp, Dict.entryAt]
    · rw [tcpServers_stopTcpPort, Dict.erase_of_get?_none hfree]
      simp [Dict.entryAt]

/-- `syncLink` on a port without a uvicorn server starts the server that the link calls for. -/
theorem get?_uvicornServers_syncLink (hbind : ∀ p, h.binds p = true)
    (hfree : r.uvicornServers.get? link.listenPort = none) (p : ℤ) :
    (syncLink h uid link r).uvicornServers.get? p =
      (Dict.entryAt p (httpNeed h (uid, link))).or (r.uvicornServers.get? p) := by
  unfold syncLink httpNeed ownPort
  cases hm : isManaged link
  · simp [Dict.entryAt]
  cases hk : tcpKind link.protocol with
  | some kind =>
    -- a TCP link leaves the uvicorn servers alone
    simp only [Bool.not_true, Bool.false_eq_true, if_false]
    split_ifs <;> simp [Dict.entryAt]
  | none =>
    have hcomm : (link.active && true && link.listenPort ≠ 0 && link.listenPort ≠ h.port) =
        (link.listenPort ≠ 0 && link.listenPort ≠ h.port && link.active) := by
      cases link.active <;> simp
    simp only [Bool.not_true, Bool.false_eq_true, if_false, hcomm]
    split_ifs with hc
    · rw [uvicornServers_startUvicornPort hbind, Dict.get?_setDefault]
      by_cases hp : link.listenPort = p
      · subst hp; simp [hfree, Dict.entryAt]
      · simp [hp, Dict.entryAt]
    · simp [Dict.entryAt]

/-- `syncLink` does nothing for a link that is not the business of this module. -/
theorem syncLink_of_not_managed (hm : isManaged link = false) : syncLink h uid link r = r := by
  unfold syncLink
  rw [hm]; rfl

end SyncLink

end Ports

end RvgGateway
