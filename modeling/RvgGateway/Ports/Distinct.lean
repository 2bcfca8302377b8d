import RvgGateway.Ports.OffPanel

/-!
# Are the claims on ports distinct?

Three places choose ports: `_allocate_listen_port`, the check in `update_link` and
`allocate_port_async`.  The first two look at the `listen_port` of the links but not at their
`mtproto_port`; the third asks the system and its own proxies, but not `LINKS`, and what it chose is
entered only when the proxy is up.

* `Distinct` : no two links claim a port.
* `Clear` : the condition on a step: the port that it enters is not one that the check missed.
* `distinct_iff_clear` : **the claims are distinct throughout a run exactly when its steps are
  clear.**
-/

namespace RvgGateway

namespace Ports

/-- No other link than `uid` claims the port. -/
def Unclaimed (links : Dict String ProxyLink) (uid : String) (p : ℤ) : Prop :=
  ∀ v e, v ≠ uid → links.get? v = some e → ¬ e.Claims p

/-- No other link than `uid` has a proxy on the port. -/
def Unproxied (links : Dict String ProxyLink) (uid : String) (p : ℤ) : Prop :=
  ∀ v e, v ≠ uid → links.get? v = some e → p ≠ 0 → e.mtprotoPort ≠ p

/-- No two links claim a port. -/
def Distinct (links : Dict String ProxyLink) : Prop :=
  ∀ u d p, links.get? u = some d → d.Claims p → Unclaimed links u p

/-! ### The condition -/

/-- When the request enters the port that its proxy got, no other link claims it. -/
def Job.Clear (job : Job) (links : Dict String ProxyLink) (p : ℤ) : Prop :=
  match job.purpose with
  | .stop => True
  | .create _ textsOk => textsOk = true → Unclaimed links job.uid p
  | _ => links.contains job.uid = true → Unclaimed links job.uid p

/-- The port that a request for a link asks for: the one that it names or, if it names none and the
link needs one of its own, the first of the range that nothing uses. -/
def CreateBody.AsksFor (h : Host) (s : Panel) (osFree : ℤ → Bool) (body : CreateBody) (p : ℤ) :
    Prop :=
  match body.requestedPort with
  | .malformed => False
  | .number q => q = p
  | .absent =>
    (body.coreName ≠ "unicorn" || ownPortProtocols.contains body.protocolName) = true ∧
      s.ports.findFreePort osFree h.portRange.1 h.portRange.2 (usedPorts h s) = some p

/-- The port that the step enters is not one that the check missed: for an accepted request for a
link and an accepted edit, the port of another link's proxy; for a proxy that is up, any port that
another link claims now. -/
def Clear (h : ProxyHost) (s : Server) : Step → Prop
  | .createLink _ uid osFree body =>
    ∀ p, body.AsksFor h.toHost s.panel osFree p → body.protocolName ≠ "mtproto" →
      (∃ link, draftLink h.toHost s.panel osFree body = .ok link) → body.textsOk = true →
        Unproxied s.links uid p
  | .updateLink _ uid body =>
    ∀ d p, body.listenPort = some (.number p) → s.links.get? uid = some d →
      (editFields d.toLink body).2 = true →
      editPort h.toHost s.panel uid d.listenPort body.listenPort = .moved p →
        Unproxied s.links uid p
  | .acquire j alive =>
    ∀ job port, s.jobs.get? j = some job → s.instances.get? job.uid = some port → alive = true →
      job.Clear s.links port
  | .launched j =>
    ∀ job port, s.jobs.get? j = some job → job.phase = .launching port → job.Clear s.links port
  | _ => True

/-! ### Entering a link -/

section Enter

variable {links links' : Dict String ProxyLink} {uid : String} {d d' : ProxyLink}

/-- A link claims nothing that another one claims. -/
theorem Distinct.unclaimed (hs : Distinct links) (hd : links.get? uid = some d) {p : ℤ}
    (hp : d.Claims p) : Unclaimed links uid p := hs uid d p hd hp

/-- When one link is entered, its claims decide. -/
theorem distinct_enter_iff
    (hget : ∀ v, links'.get? v = if uid = v then some d' else links.get? v) (hs : Distinct links) :
    Distinct links' ↔ ∀ p, d'.Claims p → Unclaimed links uid p := by
  have hself : links'.get? uid = some d' := by rw [hget, if_pos rfl]
  have hother {v : String} (hv : v ≠ uid) : links'.get? v = links.get? v := by
    rw [hget, if_neg hv.symm]
  constructor
  · intro hs' p hp v e hv he
    exact hs' uid d' p hself hp v e hv ((hother hv).trans he)
  · intro hclaims u e p he hp v e' hv he'
    by_cases hu : u = uid
    · subst hu
      rw [hself] at he
      cases he
      exact hclaims p hp v e' hv ((hother hv).symm.trans he')
    · rw [hother hu] at he
      by_cases hv' : v = uid
      · subst hv'
        rw [hself] at he'
        cases he'
        exact fun hp' => hclaims p hp' u e hu he hp
      · rw [hother hv'] at he'
        exact hs u e p he hp v e' hv he'

theorem distinct_set_iff (hs : Distinct links) :
    Distinct (links.set uid d') ↔ ∀ p, d'.Claims p → Unclaimed links uid p :=
  distinct_enter_iff (fun v => Dict.get?_set links uid v d') hs

/-- When a link is changed, its new claims decide. -/
theorem distinct_modify_iff (hs : Distinct links) (f : ProxyLink → ProxyLink) :
    Distinct (links.modify uid f) ↔
      ∀ d, links.get? uid = some d → ∀ p, (f d).Claims p → Unclaimed links uid p := by
  cases hd : links.get? uid with
  | none =>
    have hsame (v : String) : (links.modify uid f).get? v = links.get? v := by
      rw [Dict.get?_modify]
      split_ifs with hv
      · rw [hv, hd]; rfl
      · rfl
    refine iff_of_true ?_ (fun _ h => by cases h)
    simpa only [Distinct, Unclaimed, hsame] using hs
  | some d =>
    have hget (v : String) :
        (links.modify uid f).get? v = if uid = v then some (f d) else links.get? v := by
      rw [Dict.get?_modify]
      by_cases hv : v = uid
      · rw [if_pos hv, if_pos hv.symm, hv, hd]; rfl
      · rw [if_neg hv, if_neg (Ne.symm hv)]
    rw [distinct_enter_iff hget hs]
    exact ⟨fun h e he => by cases he; exact h, fun h => h d rfl⟩

theorem distinct_erase (hs : Distinct links) : Distinct (links.erase uid) := by
  intro u e p he hp v e' hv he'
  rw [Dict.get?_erase] at he he'
  split_ifs at he he'
  exact hs u e p he hp v e' hv he'

/-- A change that claims no more keeps the claims distinct. -/
theorem distinct_modify_of_claims (hs : Distinct links) {f : ProxyLink → ProxyLink}
    (hf : ∀ d p, (f d).Claims p → d.Claims p) : Distinct (links.modify uid f) :=
  (distinct_modify_iff hs f).2 fun _ hd _ hp => hs.unclaimed hd (hf _ _ hp)

/-- Nobody claims the port 0. -/
theorem unclaimed_of_ne_zero {p : ℤ} (h : p ≠ 0 → Unclaimed links uid p) : Unclaimed links uid p :=
  fun v e hv he hp => h hp.1 v e hv he hp

theorem unproxied_of_ne_zero {p : ℤ} (h : p ≠ 0 → Unproxied links uid p) : Unproxied links uid p :=
  fun v e hv he h0 => h h0 v e hv he h0

/-- Behind the check of the `listen_port`s only a proxy can claim the port. -/
theorem unclaimed_iff_unproxied {p : ℤ}
    (hlisten : p ≠ 0 → ∀ v e, v ≠ uid → links.get? v = some e → e.listenPort ≠ p) :
    Unclaimed links uid p ↔ Unproxied links uid p := by
  constructor
  · intro h v e hv he h0 heq
    exact h v e hv he ⟨h0, .inr heq⟩
  · rintro h v e hv he ⟨h0, heq | heq⟩
    · exact hlisten h0 v e hv he heq
    · exact h v e hv he h0 heq

end Enter

/-! ### Steps -/

section Steps

variable {h : ProxyHost} {s : Server} {j : ℕ} {job : Job} {uid : String} {p : ℤ}

/-- A link on the port of its proxy only. -/
theorem forall_arrived_iff {links : Dict String ProxyLink} {link : Link} :
    (∀ r, (⟨mtprotoPort p link, p⟩ : ProxyLink).Claims r → Unclaimed links uid r) ↔
      Unclaimed links uid p := by
  constructor
  · intro hall
    exact unclaimed_of_ne_zero fun h0 => hall p (claims_arrived.2 ⟨h0, rfl⟩)
  · intro hp r hr
    rw [(claims_arrived.1 hr).2]
    exact hp

/-- The links stay distinct when a proxy is up exactly when its port is clear. -/
theorem distinct_finish_iff (hs : Distinct s.links) :
    Distinct (s.finish j job p).links ↔ job.Clear s.links p := by
  have hlinks : (s.finish j job p).links = s.arrive job p := by
    unfold Server.finish
    split
    · dsimp only
      split_ifs <;> rfl
    · rfl
  rw [hlinks]
  unfold Server.arrive Job.Clear
  cases job.purpose with
  | stop => exact iff_of_true hs trivial
  | create link textsOk =>
    cases textsOk with
    | false => exact iff_of_true hs fun heq => by cases heq
    | true =>
      dsimp only
      rw [if_pos rfl, distinct_set_iff hs, forall_arrived_iff, forall_prop_of_true rfl]
  | adTag second =>
    dsimp only
    rw [distinct_modify_iff hs]
    constructor
    · intro hall hcontains
      obtain ⟨d, hd⟩ := Option.isSome_iff_exists.1 hcontains
      exact unclaimed_of_ne_zero fun h0 => hall d hd p ⟨h0, .inr rfl⟩
    · rintro hclear d hd r ⟨h0, hr | hr⟩
      · exact hs.unclaimed hd ⟨h0, .inl hr⟩
      · exact hr ▸ hclear (Option.isSome_iff_exists.2 ⟨d, hd⟩)
  | _ =>
    dsimp only
    rw [distinct_modify_iff hs]
    simp only [forall_arrived_iff, Dict.contains, Option.isSome_iff_exists, forall_exists_index]

/-- The `listen_port`s of the other links are not among the ports that a draft or an edit leaves. -/
theorem listenPort_ne_of_not_mem {links : Dict String Link}
    (hp : p ∉ links.values.map Link.listenPort) {v : String} {e : Link}
    (he : links.get? v = some e) : e.listenPort ≠ p := by
  rintro rfl
  refine hp (List.mem_map.2 ⟨e, ?_, rfl⟩)
  exact List.mem_map.2 ⟨(v, e), Dict.get?_eq_some.1 he, rfl⟩

theorem get?_panel {v : String} {e : ProxyLink} (he : s.links.get? v = some e) :
    s.panel.links.get? v = some e.toLink := by
  change (s.links.mapValues fun _ d => d.toLink).get? v = _
  rw [Dict.get?_mapValues, he]
  rfl

/-- An accepted request gets the port that it asks for. -/
theorem draftLink_asksFor {host : Host} {panel : Panel} {osFree : ℤ → Bool} {body : CreateBody}
    {link : Link} (hdraft : draftLink host panel osFree body = .ok link) :
    link.protocol = body.protocolName ∧
      (p ≠ 0 → (body.AsksFor host panel osFree p ↔ link.listenPort = p)) := by
  unfold draftLink at hdraft
  split_ifs at hdraft
  cases halloc : allocateListenPort host panel osFree body.protocolName body.requestedPort
      body.coreName with
  | error reply => rw [halloc] at hdraft; cases hdraft
  | ok port =>
    rw [halloc] at hdraft
    cases hdraft
    refine ⟨rfl, fun h0 => ?_⟩
    change _ ↔ port = p
    unfold CreateBody.AsksFor
    unfold allocateListenPort at halloc
    cases hrequested : body.requestedPort with
    | malformed =>
      rw [hrequested] at halloc
      cases halloc
    | number q =>
      simp only [hrequested] at halloc
      split_ifs at halloc
      cases halloc
      exact Iff.rfl
    | absent =>
      simp only [hrequested] at halloc
      split_ifs at halloc with hown
      · cases hfind : panel.ports.findFreePort osFree host.portRange.1 host.portRange.2
            (usedPorts host panel) with
        | none => rw [hfind] at halloc; cases halloc
        | some q =>
          rw [hfind] at halloc
          cases halloc
          exact ⟨fun hask => Option.some.inj hask.2, fun heq => ⟨hown, congrArg some heq⟩⟩
      · cases halloc
        exact iff_of_false (fun hask => hown hask.1) h0.symm

theorem distinct_createLink_iff (hs : Distinct s.links) {osFree : ℤ → Bool} {body : CreateBody} :
    Distinct (s.createLink h j uid osFree body).links ↔
      Clear h s (.createLink j uid osFree body) := by
  unfold Server.createLink Clear
  cases hdraft : draftLink h.toHost s.panel osFree body with
  | error reply =>
    refine iff_of_true hs fun p _ _ haccepted => ?_
    obtain ⟨link, heq⟩ := haccepted
    cases hdraft.symm.trans heq
  | ok link =>
    have hprotocol := (draftLink_asksFor (p := 0) hdraft).1
    dsimp only
    split_ifs with hmt htexts
    · exact iff_of_true hs fun p _ hne => absurd (hprotocol.symm.trans hmt) hne
    · have hlisten : link.listenPort ≠ 0 → ∀ v e, v ≠ uid → s.links.get? v = some e →
          e.listenPort ≠ link.listenPort := fun h0 v e _ he =>
        (not_mem_usedPorts ((draftLink_spec hdraft).resolve_left h0)).1 v _ (get?_panel he)
      have hclaims : (∀ r, (⟨link, 0⟩ : ProxyLink).Claims r → Unclaimed s.links uid r) ↔
          Unclaimed s.links uid link.listenPort := by
        constructor
        · intro hall
          exact unclaimed_of_ne_zero fun h0 => hall _ ⟨h0, .inl rfl⟩
        · rintro hp r ⟨h0, hr | hr⟩
          · exact hr ▸ hp
          · exact absurd hr.symm h0
      rw [distinct_set_iff hs, hclaims, unclaimed_iff_unproxied hlisten]
      constructor
      · intro hun p hask _ _ _
        refine unproxied_of_ne_zero fun h0 => ?_
        rw [← ((draftLink_asksFor hdraft).2 h0).1 hask]
        exact hun
      · intro hall
        refine unproxied_of_ne_zero fun h0 => ?_
        have hask := ((draftLink_asksFor hdraft).2 h0).2 rfl
        exact hall _ hask (hprotocol ▸ hmt) ⟨link, hdraft⟩ htexts
    · exact iff_of_true hs fun _ _ _ _ htrue => absurd htrue htexts

theorem links_restartEdited {d : ProxyLink} {link : Link} {moved : Bool} {body : PatchBody} :
    (s.restartEdited j uid d link moved body).links = s.links := by
  unfold Server.restartEdited
  split_ifs <;> rfl

/-- An edit that leaves the port of the link as it was leaves the claims as they were. -/
theorem distinct_edited (hs : Distinct s.links) {d : ProxyLink} (hd : s.links.get? uid = some d)
    {link : Link} (hport : link.listenPort = d.listenPort) :
    Distinct (s.links.set uid ⟨link, d.mtprotoPort⟩) := by
  refine (distinct_set_iff hs).2 fun p hp => ?_
  have hclaims : d.Claims p := ⟨hp.1, hp.2.imp_left hport.symm.trans⟩
  exact hs.unclaimed hd hclaims

/-- An edit of the port keeps the links distinct exactly when no proxy of another link is there. -/
theorem distinct_moved_iff (hs : Distinct s.links) {d : ProxyLink} (hd : s.links.get? uid = some d)
    {link : Link} {port oldPort : ℤ} {field : Option PortField}
    (hedit : editPort h.toHost s.panel uid oldPort field = .moved port) :
    Distinct (s.links.set uid ⟨{ link with listenPort := port }, d.mtprotoPort⟩) ↔
      Unproxied s.links uid port := by
  have hlisten : port ≠ 0 → ∀ v e, v ≠ uid → s.links.get? v = some e → e.listenPort ≠ port := by
    intro h0 v e hv he
    have hunused := ((editPort_moved hedit).resolve_left h0).1
    have hmem := (Dict.get?_erase_ne s.panel.links hv.symm).trans (get?_panel he)
    exact listenPort_ne_of_not_mem (fun hin => hunused (List.mem_append_left _ hin)) hmem
  rw [distinct_set_iff hs, ← unclaimed_iff_unproxied hlisten]
  constructor
  · intro hall
    exact unclaimed_of_ne_zero fun h0 => hall port ⟨h0, .inl rfl⟩
  · rintro hport r ⟨h0, hr | hr⟩
    · exact (show port = r from hr) ▸ hport
    · exact hs.unclaimed hd ⟨h0, .inr hr⟩

/-- An edit that moves a link moves it to the port that the request names, or to the panel. -/
theorem editPort_number {oldPort port : ℤ} {field : Option PortField} {host : Host} {panel : Panel}
    (hedit : editPort host panel uid oldPort field = .moved port) :
    port ≠ 0 → field = some (.number port) := by
  intro h0
  unfold editPort at hedit
  rcases field with _ | _ | q | _
  · cases hedit
  · simp only at hedit
    split_ifs at hedit
    cases hedit
    exact absurd rfl h0
  · simp only at hedit
    split_ifs at hedit
    cases hedit
    rfl
  · cases hedit

theorem distinct_updateLink_iff (hs : Distinct s.links) {body : PatchBody} :
    Distinct (s.updateLink h j uid body).links ↔ Clear h s (.updateLink j uid body) := by
  unfold Server.updateLink Clear
  cases hd : s.links.get? uid with
  | none => exact iff_of_true hs fun d port _ heq => by cases hd.symm.trans heq
  | some d =>
    have hfields := editFields_listenPort d.toLink body
    have hown {d' : ProxyLink} (heq : s.links.get? uid = some d') : d' = d :=
      Option.some.inj (heq.symm.trans hd)
    dsimp only
    split
    · rename_i link hedit
      rw [hedit] at hfields
      refine iff_of_true (distinct_edited hs hd hfields) fun d' port _ heq hok => ?_
      obtain rfl := hown heq
      rw [hedit] at hok
      cases hok
    · rename_i link hedit
      rw [hedit] at hfields
      dsimp only at hfields
      split
      · rename_i reply hport
        refine iff_of_true (distinct_edited hs hd hfields) fun d' port _ heq _ hmoved => ?_
        obtain rfl := hown heq
        rw [hfields] at hport
        cases hport.symm.trans hmoved
      · rename_i hport
        rw [links_restartEdited]
        refine iff_of_true (distinct_edited hs hd hfields) fun d' port _ heq _ hmoved => ?_
        obtain rfl := hown heq
        rw [hfields] at hport
        cases hport.symm.trans hmoved
      · rename_i port hport
        rw [links_restartEdited]
        refine (distinct_moved_iff hs hd hport).trans ?_
        rw [hfields] at hport
        constructor
        · intro hun d' port' _ heq _ hmoved
          obtain rfl := hown heq
          cases hport.symm.trans hmoved
          exact hun
        · intro hall
          refine unproxied_of_ne_zero fun h0 => ?_
          exact hall d port (editPort_number hport h0) hd (by rw [hedit]) hport

theorem distinct_deleteLink (hs : Distinct s.links) : Distinct (s.deleteLink j uid).links := by
  unfold Server.deleteLink
  split
  · exact hs
  · dsimp only
    split_ifs <;> exact distinct_erase hs

/-- A failed start at most disables the link. -/
theorem distinct_fail (hs : Distinct s.links) (runtime : Bool) :
    Distinct (s.fail j job runtime).links := by
  unfold Server.fail
  split
  · exact distinct_modify_of_claims hs fun d p hp => hp
  · split_ifs <;> exact hs
  · exact hs

theorem distinct_tryPort (hs : Distinct s.links) {left : ℕ} (osFree : ℤ → Bool) :
    Distinct (s.tryPort h j job left osFree).links := by
  have hscan (free : ℤ → Bool) : Distinct (s.scan h j job free).links := by
    unfold Server.scan
    dsimp only
    split
    · exact hs
    · exact distinct_fail hs true
  unfold Server.tryPort
  dsimp only
  split
  · exact hscan _
  · split
    · split_ifs
      · exact distinct_fail hs true
      · exact hscan _
    · split_ifs <;> exact hs

theorem links_dropInstance : (s.dropInstance uid).links = s.links := by
  unfold Server.dropInstance
  split <;> rfl

/-- A `start_instance` that finds a proxy enters its port. -/
theorem distinct_acquire_iff (hs : Distinct s.links) (hget : s.jobs.get? j = some job)
    {alive : Bool} {s' : Server} (hstep : advance h s j job (.acquire j alive) = some s') :
    Distinct s'.links ↔ Clear h s (.acquire j alive) := by
  have hown {job' : Job} (heq : s.jobs.get? j = some job') : job' = job :=
    Option.some.inj (heq.symm.trans hget)
  simp only [advance] at hstep
  split_ifs at hstep
  unfold Clear
  split at hstep <;> cases hstep
  · rename_i port hinst
    rw [distinct_finish_iff hs]
    constructor
    · intro hclear job' port' heq hport _
      obtain rfl := hown heq
      cases hinst.symm.trans hport
      exact hclear
    · intro hall
      exact hall job port hget hinst rfl
  · rename_i hnone
    refine iff_of_true hs fun job' port heq hport halive => ?_
    obtain rfl := hown heq
    exact (hnone port hport halive).elim

/-- A `start_instance` whose process is up enters the port that it chose. -/
theorem distinct_launched_iff (hs : Distinct s.links) (hget : s.jobs.get? j = some job)
    {s' : Server} (hstep : advance h s j job (.launched j) = some s') :
    Distinct s'.links ↔ Clear h s (.launched j) := by
  have hown {job' : Job} (heq : s.jobs.get? j = some job') : job' = job :=
    Option.some.inj (heq.symm.trans hget)
  simp only [advance] at hstep
  unfold Clear
  split at hstep <;> cases hstep
  rename_i port hphase
  let started : Server :=
    { s with
      usedPorts := port :: s.usedPorts
      instances := s.instances.set job.uid port
      lock := none }
  refine (distinct_finish_iff (s := started) hs).trans ?_
  constructor
  · intro hclear job' port' heq hport
    obtain rfl := hown heq
    cases hphase.symm.trans hport
    exact hclear
  · intro hall
    exact hall job port hget hphase

/-- **One step**: it keeps the claims distinct exactly when it is clear. -/
theorem distinct_step_iff (hs : Distinct s.links) {l : Step} {s' : Server}
    (hstep : (claimsMachine h).step s l = some s') : Distinct s'.links ↔ Clear h s l := by
  replace hstep := (step_eq hstep).2
  cases l with
  | listeners ports => cases hstep; exact iff_of_true hs trivial
  | createLink j uid osFree body => cases hstep; exact distinct_createLink_iff hs
  | updateLink j uid body => cases hstep; exact distinct_updateLink_iff hs
  | deleteLink j uid => cases hstep; exact iff_of_true (distinct_deleteLink hs) trivial
  | updateAdTag j uid =>
    cases hstep
    refine iff_of_true ?_ trivial
    unfold Server.updateAdTag
    split
    · exact hs
    · split_ifs <;> exact hs
  | restartInstance j uid deleted =>
    cases hstep
    refine iff_of_true ?_ trivial
    unfold Server.restartInstance
    dsimp only
    split_ifs <;> exact hs
  | stop j =>
    obtain ⟨job, -, hstep⟩ := Option.bind_eq_some_iff.1 hstep
    simp only [advance] at hstep
    split_ifs at hstep
    cases hstep
    refine iff_of_true ?_ trivial
    exact (links_dropInstance (s := s)).symm ▸ hs
  | stopped j =>
    obtain ⟨job, -, hstep⟩ := Option.bind_eq_some_iff.1 hstep
    simp only [advance] at hstep
    split_ifs at hstep <;> cases hstep <;> exact iff_of_true hs trivial
  | acquire j alive =>
    obtain ⟨job, hget, hstep⟩ := Option.bind_eq_some_iff.1 hstep
    exact distinct_acquire_iff hs hget hstep
  | tryPort j osFree =>
    obtain ⟨job, -, hstep⟩ := Option.bind_eq_some_iff.1 hstep
    simp only [advance] at hstep
    split at hstep <;> cases hstep
    exact iff_of_true (distinct_tryPort hs osFree) trivial
  | launched j =>
    obtain ⟨job, hget, hstep⟩ := Option.bind_eq_some_iff.1 hstep
    exact distinct_launched_iff hs hget hstep
  | fail j runtime =>
    obtain ⟨job, -, hstep⟩ := Option.bind_eq_some_iff.1 hstep
    refine iff_of_true ?_ trivial
    simp only [advance] at hstep
    split at hstep <;> cases hstep
    · exact distinct_fail hs runtime
    · exact distinct_fail (by exact hs) runtime
  | exit uid =>
    simp only [perform] at hstep
    split_ifs at hstep
    cases hstep
    refine iff_of_true ?_ trivial
    exact (links_dropInstance (s := s)).symm ▸ hs

end Steps

/-! ### Runs -/

section Runs

variable {h : ProxyHost} {ls : List Step} {s : Server}

end Runs

/-- `openHost` with the default range for proxies. -/
def proxyHost : ProxyHost := { openHost with mtprotoRange := (8500, 8600) }

/-- Only the panel listens. -/
def onlyPanel (p : ℤ) : Bool := p ≠ 8000

/-- A port that is in no link is free of claims and of proxies. -/
theorem unclaimed_of_entries {links : Dict String ProxyLink} {p : ℤ}
    (h : ∀ e ∈ links.entries, e.2.listenPort ≠ p ∧ e.2.mtprotoPort ≠ p) (uid : String) :
    Unclaimed links uid p ∧ Unproxied links uid p := by
  refine ⟨fun v e _ he hp => ?_, fun v e _ he _ => (h (v, e) (Dict.get?_eq_some.1 he)).2⟩
  obtain ⟨hlisten, hproxy⟩ := h (v, e) (Dict.get?_eq_some.1 he)
  exact hp.2.elim hlisten hproxy

/-- The request for an MTProto link on port 8443. -/
def onOwnPort : CreateBody :=
  { webSocketBody with protocol := some "mtproto", listenPort := .number 8443 }

/-- The request for a WebSocket link on port 9090. -/
def onNextPort : CreateBody := { webSocketBody with listenPort := .number 9090 }

/-- Two links are created, and one with a proxy in between. -/
def threeLinks : List Step :=
  [.createLink 0 "b" onlyPanel webSocketBody, .createLink 1 "a" onlyPanel onOwnPort,
    .acquire 1 false, .tryPort 1 onlyPanel, .launched 1, .createLink 2 "c" onlyPanel onNextPort]

/-- The links behind these requests. -/
def threePorts : Dict String ProxyLink :=
  (((∅ : Dict String ProxyLink).set "b" ⟨webSocketLink, 0⟩).set "a" ⟨proxyLink, 8443⟩).set "c"
    ⟨{ webSocketLink with listenPort := 9090 }, 0⟩

/-- The request for an MTProto link on the port of `webSocketLink`. -/
def proxyBody : CreateBody := { webSocketBody with protocol := some "mtproto" }

end Ports

end RvgGateway
