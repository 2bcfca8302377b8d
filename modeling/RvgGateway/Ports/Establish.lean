import RvgGateway.Ports.Sync

/-!
# Does `sync_all` establish the listeners?

`sync_all` compares the ports of the registries with the ports that `LINKS` calls for.  It does not
look at what listens there: a raw TCP server that is up is left alone, whichever link it serves.

* `Established` : the registries hold exactly what the links call for, and `sync_all` has nothing
  left to do.
* `established_iff` : **`sync_all` establishes the listeners exactly when every raw TCP port that is
  in use and stays in use is in use for the link that needs it.**
-/

namespace RvgGateway

namespace Ports

/-- No two active links of unicorn call for the same port. -/
def DistinctPorts (h : Host) (links : Links) : Prop :=
  ∀ u d v e p, links.get? u = some d → links.get? v = some e → ownPort h d = some p →
    ownPort h e = some p → u = v

/-- The registries hold exactly the listeners that the links call for. -/
structure Established (h : Host) (links : Links) (r : Registries) : Prop where
  tcp : ∀ port server, r.tcpServers.get? port = some server ↔
    ∃ uid link, links.get? uid = some link ∧ tcpNeed h (uid, link) = some (port, server)
  http : ∀ port, r.uvicornServers.get? port = some () ↔
    ∃ uid link, links.get? uid = some link ∧ httpNeed h (uid, link) = some (port, ())
  idle : syncAll h links r = r

variable {h : Host} {links : Links}

/-- What is needed on a port is what the link needs that has the port. -/
theorem get?_neededTcp (hd : DistinctPorts h links) {port : ℤ} {server : TcpServer} :
    (neededTcp h links).get? port = some server ↔
      ∃ uid link, links.get? uid = some link ∧ tcpNeed h (uid, link) = some (port, server) := by
  rw [neededTcp, Dict.get?_collect_eq_some]
  · constructor
    · rintro ⟨⟨uid, link⟩, hmem, hneed⟩
      exact ⟨uid, link, Dict.get?_eq_some.2 hmem, hneed⟩
    · rintro ⟨uid, link, hget, hneed⟩
      exact ⟨(uid, link), Dict.get?_eq_some.1 hget, hneed⟩
  · rintro ⟨u, d⟩ hu ⟨v, e⟩ hv s t hs ht
    obtain ⟨hpu, kind, hkind, rfl⟩ := tcpNeed_eq_some.1 hs
    obtain ⟨hpv, kind', hkind', rfl⟩ := tcpNeed_eq_some.1 ht
    have huv := hd u d v e port (Dict.get?_eq_some.2 hu) (Dict.get?_eq_some.2 hv) hpu hpv
    subst huv
    cases (Dict.get?_eq_some.2 hu).symm.trans (Dict.get?_eq_some.2 hv)
    cases hkind.symm.trans hkind'
    rfl

theorem get?_neededHttp {port : ℤ} : (neededHttp h links).get? port = some () ↔
    ∃ uid link, links.get? uid = some link ∧ httpNeed h (uid, link) = some (port, ()) := by
  rw [neededHttp, Dict.get?_collect_eq_some fun _ _ _ _ _ _ _ _ => rfl]
  constructor
  · rintro ⟨⟨uid, link⟩, hmem, hneed⟩
    exact ⟨uid, link, Dict.get?_eq_some.2 hmem, hneed⟩
  · rintro ⟨uid, link, hget, hneed⟩
    exact ⟨(uid, link), Dict.get?_eq_some.1 hget, hneed⟩

section Bound

variable (hbind : ∀ p, h.binds p = true)
include hbind

/-- The second of two calls has nothing to do. -/
theorem syncAll_syncAll (r : Registries) : syncAll h links (syncAll h links r) = syncAll h links r := by
  have htcp : (syncAll h links (syncAll h links r)).tcpServers = (syncAll h links r).tcpServers := by
    rw [tcpServers_syncAll hbind, tcpServers_syncAll hbind, Dict.reconcile_reconcile]
  have huvi : (syncAll h links (syncAll h links r)).uvicornServers =
      (syncAll h links r).uvicornServers := by
    rw [uvicornServers_syncAll hbind, uvicornServers_syncAll hbind, Dict.reconcile_reconcile]
  exact Registries.ext htcp huvi

/-- A needed TCP port keeps the server that it has. -/
theorem get?_tcpServers_syncAll (r : Registries) (port : ℤ) :
    (syncAll h links r).tcpServers.get? port = ((neededTcp h links).get? port).map fun server =>
      (r.tcpServers.get? port).getD server := by
  rw [tcpServers_syncAll hbind, Dict.get?_reconcile, Dict.contains]
  cases (neededTcp h links).get? port with
  | none => rfl
  | some server => cases r.tcpServers.get? port <;> rfl

theorem get?_uvicornServers_syncAll (r : Registries) (port : ℤ) :
    (syncAll h links r).uvicornServers.get? port = (neededHttp h links).get? port := by
  rw [uvicornServers_syncAll hbind, Dict.get?_reconcile, Dict.contains]
  cases (neededHttp h links).get? port with
  | none => rfl
  | some server => cases r.uvicornServers.get? port <;> rfl

end Bound

/-- **`sync_all` establishes the listeners exactly when** no raw TCP port that a link needs is
registered for another link, or with another kind.  The prior registries are arbitrary. -/
theorem established_iff (h : Host) (hbind : ∀ p, h.binds p = true) (links : Links)
    (hd : DistinctPorts h links) (r : Registries) :
    Established h links (syncAll h links r) ↔
      ∀ uid link port server server', links.get? uid = some link →
        tcpNeed h (uid, link) = some (port, server) → r.tcpServers.get? port = some server' →
          server' = server := by
  constructor
  · intro hest uid link port server server' hlink hneed hold
    have hneeded := (get?_neededTcp hd).2 ⟨uid, link, hlink, hneed⟩
    have hafter := (hest.tcp port server).2 ⟨uid, link, hlink, hneed⟩
    rw [get?_tcpServers_syncAll hbind, hneeded, hold] at hafter
    exact Option.some.inj hafter
  · intro hold
    refine ⟨fun port server => ?_, fun port => ?_, syncAll_syncAll hbind r⟩
    · rw [← get?_neededTcp hd, get?_tcpServers_syncAll hbind]
      cases hneeded : (neededTcp h links).get? port with
      | none => simp
      | some needed =>
        obtain ⟨uid, link, hlink, hneed⟩ := (get?_neededTcp hd).1 hneeded
        cases hreg : r.tcpServers.get? port with
        | none => simp
        | some server' =>
          rw [hold uid link port needed server' hlink hneed hreg]
          simp
    · rw [get?_uvicornServers_syncAll hbind, get?_neededHttp]

theorem distinctPorts_of_entries (hports : ∀ e ∈ links.entries, ∀ e' ∈ links.entries,
    (ownPort h e.2).isSome → ownPort h e.2 = ownPort h e'.2 → e.1 = e'.1) :
    DistinctPorts h links := by
  intro u d v e p hu hv hd he
  exact hports (u, d) (Dict.get?_eq_some.1 hu) (v, e) (Dict.get?_eq_some.1 hv)
    (Option.isSome_iff_exists.2 ⟨p, hd⟩) (hd.trans he.symm)

/-- A link that needs a raw TCP port. -/
def rawLink (port : ℤ) : Link := ⟨"vmess-tcp", none, port, true, .never, 0, 0⟩

/-- Two links with raw TCP ports and `webSocketLink`. -/
def mixedLinks : Links :=
  (((∅ : Links).set "u1" (rawLink 3000)).set "u2" (rawLink 3002)).set "u3" webSocketLink

/-- The listener of the first one is up, and so are two that nothing needs any more. -/
def staleListeners : Registries :=
  ⟨((∅ : Dict ℤ TcpServer).set 3000 ⟨.vmess, "u1"⟩).set 3001 ⟨.ss, "u4"⟩, (∅ : Dict ℤ Unit).set 3002 ()⟩

/-- One listener stays, two are started and two are stopped. -/
theorem established_iff_mixedLinks :
    Established openHost mixedLinks (syncAll openHost mixedLinks staleListeners) := by
  have hdistinct : DistinctPorts openHost mixedLinks := distinctPorts_of_entries (by decide +kernel)
  refine (established_iff openHost (fun _ => rfl) mixedLinks hdistinct staleListeners).2 ?_
  intro uid link port server server' hlink hneed hold
  have hup : ∀ e ∈ mixedLinks.entries, ∀ e' ∈ staleListeners.tcpServers.entries,
      ∀ need ∈ tcpNeed openHost e, need.1 = e'.1 → e'.2 = need.2 := by
    decide +kernel
  exact hup (uid, link) (Dict.get?_eq_some.1 hlink) (port, server') (Dict.get?_eq_some.1 hold)
    (port, server) hneed rfl

/-- The port of a link that was deleted and of a new one: the server of the old link stays. -/
theorem stale_server_stays : ¬ ∀ (h : Host), (∀ p, h.binds p = true) → ∀ (links : Links),
    DistinctPorts h links → ∀ r, Established h links (syncAll h links r) := by
  intro hall
  have hest := hall openHost (fun _ => rfl) ((∅ : Links).set "u2" (rawLink 3000))
    (distinctPorts_of_entries (by decide +kernel)) ⟨(∅ : Dict ℤ TcpServer).set 3000 ⟨.vmess, "u1"⟩, ∅⟩
  have hserver := (hest.tcp 3000 ⟨.vmess, "u2"⟩).2 ⟨"u2", rawLink 3000, by decide, by decide⟩
  exact absurd hserver (by decide +kernel)

end Ports

end RvgGateway
