import RvgGateway.Groups.Membership
import RvgGateway.Ports.Claims

/-!
# One request, three models

`create_link`, `update_link` and `delete_link` do several things at once, and each of these has its
own model: `adminMachine` has the listeners, `claimsMachine` the waits for a proxy, and
`Groups.machine` the groups.  They agree on `LINKS`.

* `panel_createLink`, `panel_updateLink`, `panel_deleteLink`, `panel_restartInstance` : a request of
  `claimsMachine` with nothing in between is the request of `adminMachine`.
* `records_createLink`, `records_updateLink`, `records_deleteLink` : the tables of `Groups.machine`,
  without the groups, are those of `adminMachine`.
-/

namespace RvgGateway

namespace Ports

/-! ### A request with nothing in between -/

/-- The rest of the request `j`, at once; `mt` is what `start_instance` comes to. -/
def Server.settle (s : Server) (j : ℕ) (mt : MtprotoStart) : Server :=
  match s.jobs.get? j with
  | none => s
  | some job =>
    match job.purpose, mt with
    | .stop, _ => s.endJob j
    | _, .started port => s.finish j job port
    | _, .runtimeError _ => s.fail j job true
    | _, .failed _ => s.fail j job false

section Settle

variable {h : ProxyHost} {s : Server} {j : ℕ} {uid : String} {mt : MtprotoStart} {d : ProxyLink}
  {link : Link} {body : PatchBody}

/-- `LINKS` behind the rest of a request. -/
def Job.ended (job : Job) (mt : MtprotoStart) (links : Links) : Links :=
  match job.purpose, mt with
  | .create link true, .started port => links.set job.uid (mtprotoPort port link)
  | .activate, .started port | .restart, .started port =>
    links.modify job.uid (mtprotoPort port)
  | .activate, _ => links.modify job.uid fun d => { d with active := false }
  | _, _ => links

theorem panel_settle_of_none (hj : s.jobs.get? j = none) : (s.settle j mt).panel = s.panel := by
  rw [Server.settle, hj]

theorem panel_settle_links (hj : s.jobs.get? j = none) (links : Dict String ProxyLink) :
    (Server.settle { s with links } j mt).panel = ({ s with links } : Server).panel :=
  panel_settle_of_none hj

theorem panel_set : ({ s with links := s.links.set uid d } : Server).panel =
    { s.panel with links := s.panel.links.set uid d.toLink } :=
  congrArg (Panel.mk · s.ports) (Dict.mapValues_set _ _ _ _)

theorem panel_modify {f : ProxyLink → ProxyLink} {f' : Link → Link}
    (hf : ∀ d, (f d).toLink = f' d.toLink) :
    ({ s with links := s.links.modify uid f } : Server).panel =
      { s.panel with links := s.panel.links.modify uid f' } :=
  congrArg (Panel.mk · s.ports) (Dict.mapValues_modify hf _)

theorem panel_settle (job : Job) : ((s.setJob j job).settle j mt).panel =
    { s.panel with links := job.ended mt s.panel.links } := by
  have hjob : (s.setJob j job).jobs.get? j = some job := Dict.get?_set_self _ _ _
  obtain ⟨u, purpose, preferred, force, phase⟩ := job
  rw [Server.settle, hjob]
  cases purpose with
  | stop => cases mt <;> rfl
  | create link textsOk =>
    cases mt with
    | started port => cases textsOk with
      | true => exact panel_set
      | false => rfl
    | runtimeError | failed => cases textsOk <;> rfl
  | activate =>
    cases mt with
    | started port => exact panel_modify fun _ => rfl
    | runtimeError | failed => exact panel_modify fun _ => rfl
  | restart =>
    cases mt with
    | started port => exact panel_modify fun _ => rfl
    | runtimeError | failed => rfl
  | adTag second =>
    have harrive : ∀ port, ({ s with links := s.links.modify u fun d =>
        { d with mtprotoPort := port } } : Server).panel = s.panel := fun port =>
      (panel_modify fun _ => rfl : _ = { s.panel with links := s.panel.links.modify u id }).trans
        (by rw [Dict.modify_id])
    cases mt with
    | started port =>
      refine Eq.trans ?_ (harrive port)
      unfold Server.finish
      dsimp only
      split_ifs <;> rfl
    | runtimeError | failed => cases second <;> rfl

/-- **`create_link`**. -/
theorem panel_createLink (hj : s.jobs.get? j = none) (osFree : ℤ → Bool) (body : CreateBody) :
    ((s.createLink h j uid osFree body).settle j mt).panel =
      (createLink h.toHost s.panel uid osFree body mt).2.1 := by
  unfold Server.createLink createLink
  rw [newLink_eq_draft]
  cases draftLink h.toHost s.panel osFree body with
  | error reply => exact panel_settle_of_none hj
  | ok link =>
    by_cases hmt : link.protocol = "mtproto"
    · simp only [Except.bind, startNew, if_pos hmt]
      refine (panel_settle _).trans ?_
      cases mt with
      | started port => cases body.textsOk <;> rfl
      | runtimeError | failed => cases body.textsOk <;> rfl
    · simp only [Except.bind, startNew, if_neg hmt]
      cases body.textsOk with
      | true => exact (panel_settle_links hj _).trans panel_set
      | false => exact panel_settle_of_none hj

/-- `update_link` behind the edit of the link, which is in `e`. -/
theorem panel_restartEdited {e : Server} {p : Panel} {moved : Bool} (hj : e.jobs.get? j = none)
    (he : e.panel = { p with links := p.links.modify uid fun _ => link }) :
    ((e.restartEdited j uid d link moved body).settle j mt).panel =
      { p with links := p.links.modify uid fun _ =>
          (finishPatch p uid d.active link moved body mt).link } := by
  have hstay : (e.settle j mt).panel = { p with links := p.links.modify uid fun _ => link } :=
    (panel_settle_of_none hj).trans he
  have hended : ∀ job : Job, ((e.setJob j job).settle j mt).panel =
      { p with links := job.ended mt (p.links.modify uid fun _ => link) } := fun job => by
    rw [panel_settle, he]
  unfold Server.restartEdited finishPatch
  cases body.subOk with
  | false => exact hstay
  | true =>
    by_cases hmt : link.protocol = "mtproto"
    · have hthen : ∀ f : Link → Link, { p with links :=
          (p.links.modify uid fun _ => link).modify uid f } =
          { p with links := p.links.modify uid fun _ => f link } := fun f => by
        rw [Dict.modify_modify]
        rfl
      have hproxy : decide (link.protocol = "mtproto") = true := decide_eq_true hmt
      have hother : decide (link.protocol ≠ "mtproto") = false := decide_eq_false (not_not.2 hmt)
      by_cases hactive : link.active = d.active
      · -- the proxy is restarted for its new port
        cases moved with
        | false => simpa [hmt, hactive] using hstay
        | true =>
          simp only [hmt, hactive, ne_eq, not_true_eq_false, decide_false, Bool.not_true,
            Bool.or_self, Bool.false_eq_true, if_false, Bool.and_false, Bool.true_and, if_true]
          refine (hended _).trans ?_
          cases mt with
          | started port => exact hthen _
          | runtimeError | failed => rfl
      · -- the proxy is stopped or started
        have hchanged : decide (link.active ≠ d.active) = true := decide_eq_true hactive
        simp only [hproxy, hother, hchanged, Bool.not_true, Bool.or_self, Bool.false_eq_true, if_false,
          Bool.and_self, if_true, if_pos hactive]
        cases hon : link.active with
        | false => exact hended _
        | true =>
          refine (hended _).trans ?_
          cases mt with
          | started port => exact hthen _
          | runtimeError | failed => exact hthen fun d => { d with active := false }
    · simpa [hmt] using hstay

/-- A new value under the key of a link. -/
theorem panel_edited (hd : s.links.get? uid = some d) {p : ℤ} :
    ({ s with links := s.links.set uid ⟨link, p⟩ } : Server).panel =
      { s.panel with links := s.panel.links.modify uid fun _ => link } := by
  rw [Dict.set_eq_modify hd]
  exact panel_modify fun _ => rfl

theorem get?_panel_links : s.panel.links.get? uid = (s.links.get? uid).map ProxyLink.toLink :=
  Dict.get?_mapValues _ _ _

/-- **`update_link`**. -/
theorem panel_updateLink (hj : s.jobs.get? j = none) :
    ((s.updateLink h j uid body).settle j mt).panel =
      (updateLink h.toHost s.panel uid body mt).2.1 := by
  unfold Server.updateLink updateLink
  rw [get?_panel_links]
  cases hd : s.links.get? uid with
  | none => exact panel_settle_of_none hj
  | some d =>
    have hstay : ∀ link, (Server.settle { s with links := s.links.set uid ⟨link, d.mtprotoPort⟩ }
        j mt).panel = { s.panel with links := s.panel.links.modify uid fun _ => link } := fun link =>
      (panel_settle_links hj _).trans (panel_edited hd)
    dsimp only [Option.map_some, patchLink]
    rcases editFields d.toLink body with ⟨link, _ | _⟩
    · exact hstay link
    · dsimp only
      cases editPort h.toHost s.panel uid link.listenPort body.listenPort with
      | refused reply => exact hstay link
      | unchanged => exact panel_restartEdited hj (panel_edited hd)
      | moved port => exact panel_restartEdited hj (panel_edited hd)

/-- **`delete_link`**. -/
theorem panel_deleteLink (hj : s.jobs.get? j = none) :
    ((s.deleteLink j uid).settle j mt).panel = (deleteLink s.panel uid).2.1 := by
  unfold Server.deleteLink deleteLink
  rw [get?_panel_links]
  cases s.links.get? uid with
  | none => exact panel_settle_of_none hj
  | some d =>
    have herase : ({ s with links := s.links.erase uid } : Server).panel =
        { s.panel with links := s.panel.links.erase uid } :=
      congrArg (Panel.mk · s.ports) (Dict.erase_mapValues _ _ _).symm
    by_cases hmt : d.protocol = "mtproto"
    · simp only [hmt, if_true]
      exact (panel_settle _).trans herase
    · simp only [hmt, if_false]
      exact (panel_settle_links hj _).trans herase

/-- **The turn of `_restart_mtproto_instances`** for a link that was active at first. -/
theorem panel_restartInstance (hj : s.jobs.get? j = none) (hd : s.links.get? uid = some d)
    (hactive : d.active = true) (deleted : ProxyLink) (restarted : String → Option ℤ)
    (hmt : ∀ port, mt = .started port ↔ restarted uid = some port) (v : String) :
    ((s.restartInstance j uid deleted).settle j mt).panel.links.get? v =
      if v = uid then (restartMtprotoInstances restarted s.panel.links).get? uid
      else s.panel.links.get? v := by
  have hget : s.panel.links.get? uid = some d.toLink := by
    rw [get?_panel_links, hd]
    rfl
  have hturn : (restartMtprotoInstances restarted s.panel.links).get? uid =
      some (if d.protocol = "mtproto" && d.active then
        ((restarted uid).map fun port => mtprotoPort port d.toLink).getD d.toLink
      else d.toLink) := by
    rw [restartMtprotoInstances, Dict.get?_mapValues, hget]
    cases restarted uid <;> rfl
  have hstay : s.panel.links.get? v =
      if v = uid then some d.toLink else s.panel.links.get? v := by
    split_ifs with hv
    · rw [hv, hget]
    · rfl
  rw [hturn, Server.restartInstance, hd, Option.getD_some]
  by_cases hproxy : d.protocol = "mtproto"
  · simp only [hproxy, hactive, decide_true, Bool.and_self, if_true, panel_settle, Job.ended]
    cases mt with
    | started port =>
      simp only [(hmt port).1 rfl, Dict.get?_modify, Option.map_some, Option.getD_some]
      split_ifs with hv
      · rw [hv, hget]
        rfl
      · rfl
    | runtimeError | failed =>
      cases hres : restarted uid with
      | none => exact hstay
      | some port => cases (hmt port).2 hres
  · simp only [hproxy, decide_false, Bool.false_and, Bool.false_eq_true, if_false]
    rw [panel_settle_of_none hj]
    exact hstay

end Settle

/-! ### The requests on groups -/

section Groups

open Groups (SubField Tables)

variable {G : Type} {h : Host} {s : Panel} {t : Tables Link G} {uid : String} {mt : MtprotoStart}

/-- The links of the tables, without their groups. -/
def records (t : Tables Link G) : Links := t.links.mapValues fun _ e => e.link

theorem get?_records : (records t).get? uid = (t.links.get? uid).map Groups.Entry.link :=
  Dict.get?_mapValues _ _ _

theorem records_createLink (hs : s.links = records t) (osFree : ℤ → Bool) (body : CreateBody)
    (subId : SubField) :
    records (t.createLink uid (newLink h s osFree body mt).toOption subId) =
      (createLink h s uid osFree body mt).2.1.links := by
  unfold createLink Tables.createLink
  cases newLink h s osFree body mt with
  | error reply => exact hs.symm
  | ok link =>
    rw [hs]
    exact Dict.mapValues_set _ _ _ _

theorem records_updateLink (hs : s.links = records t) (body : PatchBody) (raises : Bool)
    (subId : SubField) :
    records (t.updateLink uid (fun old => (patchLink h s uid old body mt).link) raises subId) =
      (updateLink h s uid body mt).2.1.links := by
  unfold updateLink Tables.updateLink
  rw [hs, get?_records]
  cases hold : t.links.get? uid with
  | none => exact hs.symm
  | some old =>
    have hset : ∀ e : Groups.Entry Link, (t.links.set uid e).mapValues (fun _ e => e.link) =
        (records t).modify uid fun _ => e.link := fun e => by
      rw [Dict.set_eq_modify hold]
      refine Dict.mapValues_modify ?_ _
      exact fun _ => rfl
    dsimp only [Option.map_some]
    split
    · exact hset _
    · exact hset _

theorem records_deleteLink (hs : s.links = records t) :
    records (t.deleteLink uid) = (deleteLink s uid).2.1.links := by
  unfold deleteLink Tables.deleteLink
  rw [hs, get?_records]
  cases t.links.get? uid with
  | none => exact hs.symm
  | some old => exact (Dict.erase_mapValues _ _ _).symm

end Groups

end Ports

end RvgGateway
