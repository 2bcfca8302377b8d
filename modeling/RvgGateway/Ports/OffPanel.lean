import RvgGateway.Ports.Claims

/-!
# The port of the panel

The allocators of `main.py` leave the port of the panel out, and a proxy cannot start on it, since
the panel listens there.

* `ProxyLink.Claims` : a link claims a port.
* `Server.Off` : nothing is on the port of the panel, kept by every step (`off_step`).
* `offPanel_run` : **no link ever claims the port of the panel.**
-/

namespace RvgGateway

namespace Ports

/-- The link claims the port. -/
def ProxyLink.Claims (d : ProxyLink) (p : ℤ) : Prop :=
  p ≠ 0 ∧ (d.listenPort = p ∨ d.mtprotoPort = p)

/-- No link claims the port of the panel. -/
def OffPanel (h : ProxyHost) (links : Dict String ProxyLink) : Prop :=
  ∀ u d, links.get? u = some d → ¬ d.Claims h.port

/-- The port is not that of the panel. -/
def OffPort (h : ProxyHost) (p : ℤ) : Prop := p ≠ 0 → p ≠ h.port

/-- The port on which the request starts a proxy is not that of the panel. -/
def Job.Off (h : ProxyHost) (job : Job) : Prop := ∀ p, job.phase = .launching p → OffPort h p

/-- Nothing is on the port of the panel. -/
structure Server.Off (h : ProxyHost) (s : Server) : Prop where
  links : OffPanel h s.links
  instances : ∀ u p, s.instances.get? u = some p → OffPort h p
  jobs : ∀ j job, s.jobs.get? j = some job → job.Off h

section Off

variable {h : ProxyHost} {s : Server} {j : ℕ} {job : Job} {uid : String} {p : ℤ}

/-- A link is off the port of the panel when its two ports are. -/
theorem not_claims_iff {d : ProxyLink} :
    ¬ d.Claims h.port ↔ OffPort h d.listenPort ∧ OffPort h d.mtprotoPort := by
  constructor
  · intro hd
    exact ⟨fun h0 heq => hd ⟨heq ▸ h0, .inl heq⟩, fun h0 heq => hd ⟨heq ▸ h0, .inr heq⟩⟩
  · rintro ⟨hlisten, hproxy⟩ ⟨h0, heq | heq⟩
    · exact hlisten (heq.symm ▸ h0) heq
    · exact hproxy (heq.symm ▸ h0) heq

theorem offPort_zero : OffPort h 0 := fun h0 => absurd rfl h0

/-- A link whose proxy is up claims the port of the proxy. -/
theorem claims_arrived {link : Link} {r : ℤ} :
    (⟨mtprotoPort p link, p⟩ : ProxyLink).Claims r ↔ r ≠ 0 ∧ r = p := by
  have hlisten : (mtprotoPort p link).listenPort = p ∨ (mtprotoPort p link).listenPort = 0 := by
    unfold mtprotoPort
    split_ifs with hport
    · exact .inl rfl
    · exact .inr (not_not.1 hport)
  constructor
  · rintro ⟨h0, hr | hr⟩
    · rcases hlisten with hl | hl
      · exact ⟨h0, hr.symm.trans hl⟩
      · exact absurd (hr.symm.trans hl) h0
    · exact ⟨h0, hr.symm⟩
  · rintro ⟨h0, rfl⟩
    exact ⟨h0, .inr rfl⟩

theorem offPanel_set {links : Dict String ProxyLink} {d : ProxyLink} (hlinks : OffPanel h links)
    (hd : ¬ d.Claims h.port) : OffPanel h (links.set uid d) := by
  intro u e he
  rw [Dict.get?_set] at he
  split_ifs at he
  · cases he; exact hd
  · exact hlinks u e he

theorem offPanel_modify {links : Dict String ProxyLink} {f : ProxyLink → ProxyLink}
    (hlinks : OffPanel h links) (hf : ∀ d, ¬ d.Claims h.port → ¬ (f d).Claims h.port) :
    OffPanel h (links.modify uid f) := by
  intro u e he
  rw [Dict.get?_modify] at he
  split_ifs at he
  · obtain ⟨d, hd, rfl⟩ := Option.map_eq_some_iff.1 he
    exact hf d (hlinks u d hd)
  · exact hlinks u e he

theorem offPanel_erase {links : Dict String ProxyLink} (hlinks : OffPanel h links) :
    OffPanel h (links.erase uid) := by
  intro u e he
  rw [Dict.get?_erase] at he
  split_ifs at he
  exact hlinks u e he

theorem Server.Off.setJob (hs : s.Off h) (hjob : job.Off h) : (s.setJob j job).Off h where
  links := hs.links
  instances := hs.instances
  jobs k job' hget := by
    change (s.jobs.set j job).get? k = _ at hget
    rw [Dict.get?_set] at hget
    split_ifs at hget
    · cases hget; exact hjob
    · exact hs.jobs k job' hget

theorem Server.Off.endJob (hs : s.Off h) : (s.endJob j).Off h where
  links := hs.links
  instances := hs.instances
  jobs k job' hget := by
    change (s.jobs.erase j).get? k = _ at hget
    rw [Dict.get?_erase] at hget
    split_ifs at hget
    exact hs.jobs k job' hget

theorem Server.Off.dropInstance (hs : s.Off h) (uid : String) : (s.dropInstance uid).Off h := by
  unfold Server.dropInstance
  split
  · exact hs
  · refine ⟨hs.links, fun u q hq => ?_, hs.jobs⟩
    change (s.instances.erase uid).get? u = _ at hq
    rw [Dict.get?_erase] at hq
    split_ifs at hq
    exact hs.instances u q hq

theorem Server.Off.finish (hs : s.Off h) (hp : OffPort h p) :
    (s.finish j job p).Off h := by
  have harrived (link : Link) : ¬ (⟨mtprotoPort p link, p⟩ : ProxyLink).Claims h.port := by
    intro hc
    obtain ⟨h0, heq⟩ := claims_arrived.1 hc
    exact hp (heq ▸ h0) heq.symm
  have hlinks : OffPanel h (s.arrive job p) := by
    unfold Server.arrive
    split
    · exact hs.links
    · split_ifs
      · exact offPanel_set hs.links (harrived _)
      · exact hs.links
    · exact offPanel_modify hs.links fun d _ => harrived _
    · exact offPanel_modify hs.links fun d _ => harrived _
    · refine offPanel_modify hs.links fun d hd => ?_
      exact not_claims_iff.2 ⟨(not_claims_iff.1 hd).1, hp⟩
  have harrive : ({ s with links := s.arrive job p } : Server).Off h :=
    ⟨hlinks, hs.instances, hs.jobs⟩
  unfold Server.finish
  split
  · dsimp only
    split_ifs
    · exact harrive.endJob
    · exact harrive.setJob fun _ heq => by cases heq
  · exact harrive.endJob

theorem Server.Off.fail (hs : s.Off h) (runtime : Bool) :
    (s.fail j job runtime).Off h := by
  have hunlocked : ({ s with lock := none } : Server).Off h := ⟨hs.links, hs.instances, hs.jobs⟩
  unfold Server.fail
  split
  · refine Server.Off.endJob ⟨offPanel_modify hs.links fun d hd hc => hd hc, hs.instances, hs.jobs⟩
  · split_ifs
    · exact hunlocked.setJob fun _ heq => by cases heq
    · exact hunlocked.endJob
  · exact hunlocked.endJob

theorem Server.Off.launch (hs : s.Off h) (hp : OffPort h p) :
    (s.setJob j { job with phase := .launching p }).Off h :=
  hs.setJob fun q hq => by cases hq; exact hp

/-- A port that is free is not that of the panel, which listens on it. -/
theorem offPort_of_free {osFree : ℤ → Bool} (hpanel : osFree h.port = false) {used : List ℤ}
    (hfree : (!used.contains p && osFree p) = true) : OffPort h p := by
  rintro - rfl
  rw [hpanel, Bool.and_false] at hfree
  cases hfree

theorem Server.Off.scan (hs : s.Off h) {osFree : ℤ → Bool}
    (hpanel : osFree h.port = false) :
    (s.scan h j job fun port => !s.usedPorts.contains port && osFree port).Off h := by
  unfold Server.scan
  simp only
  split
  · rename_i port hfind
    have hfree := List.find?_some hfind
    exact hs.launch (offPort_of_free hpanel hfree)
  · exact hs.fail true

theorem Server.Off.tryPort (hs : s.Off h) {osFree : ℤ → Bool} {left : ℕ}
    (hpanel : osFree h.port = false) : (s.tryPort h j job left osFree).Off h := by
  unfold Server.tryPort
  simp only
  split
  · exact hs.scan hpanel
  · split
    · split_ifs
      · exact hs.fail true
      · exact hs.scan hpanel
    · split_ifs with hfree
      · exact hs.launch (offPort_of_free hpanel hfree)
      · exact hs.setJob fun _ heq => by cases heq

/-- The port of a draft is not that of the panel or of another link. -/
theorem draftLink_spec {host : Host} {panel : Panel} {osFree : ℤ → Bool} {body : CreateBody}
    {link : Link} (hdraft : draftLink host panel osFree body = .ok link) :
    link.listenPort = 0 ∨ link.listenPort ∉ usedPorts host panel := by
  unfold draftLink at hdraft
  split_ifs at hdraft
  cases halloc : allocateListenPort host panel osFree body.protocolName body.requestedPort
      body.coreName with
  | error reply => rw [halloc] at hdraft; cases hdraft
  | ok port =>
    rw [halloc] at hdraft
    cases hdraft
    exact allocateListenPort_spec halloc

theorem draftLink_off {osFree : ℤ → Bool} {body : CreateBody} {link : Link}
    (hdraft : draftLink h.toHost s.panel osFree body = .ok link) : OffPort h link.listenPort := by
  intro h0 heq
  refine ((draftLink_spec hdraft).resolve_left h0) ?_
  rw [usedPorts, heq]
  exact List.mem_append_right _ (List.mem_singleton.2 rfl)

theorem editPort_off {oldPort : ℤ} {field : Option PortField}
    (hedit : editPort h.toHost s.panel uid oldPort field = .moved p) : OffPort h p := by
  intro h0 heq
  refine ((editPort_moved hedit).resolve_left h0).1 ?_
  rw [heq]
  exact List.mem_append_right _ (List.mem_singleton.2 rfl)

/-- The edit of the fields leaves the port as it is. -/
theorem editFields_listenPort (link : Link) (body : PatchBody) :
    (editFields link body).1.listenPort = link.listenPort := by
  unfold editFields
  cases body.resetUsage <;> rcases body.limitBytes with _ | _ | _ <;>
    rcases body.expiresAt with _ | _ | _ <;> rfl

theorem Server.Off.createLink (hs : s.Off h) (osFree : ℤ → Bool) (body : CreateBody) :
    (s.createLink h j uid osFree body).Off h := by
  unfold Server.createLink
  cases hdraft : draftLink h.toHost s.panel osFree body with
  | error reply => exact hs
  | ok link =>
    have hoff := draftLink_off hdraft
    dsimp only
    split_ifs
    · exact hs.setJob fun _ heq => by cases heq
    · have hclaims := not_claims_iff.2 (⟨hoff, offPort_zero⟩ :
        OffPort h (⟨link, 0⟩ : ProxyLink).listenPort ∧ OffPort h 0)
      exact ⟨offPanel_set hs.links hclaims, hs.instances, hs.jobs⟩
    · exact hs

theorem Server.Off.restartEdited (hs : s.Off h) {d : ProxyLink} {link : Link} {moved : Bool}
    {body : PatchBody} : (s.restartEdited j uid d link moved body).Off h := by
  unfold Server.restartEdited
  split_ifs
  · exact hs
  · exact hs.setJob fun _ heq => by cases heq
  · exact hs.setJob fun _ heq => by cases heq
  · exact hs.setJob fun _ heq => by cases heq
  · exact hs

theorem Server.Off.updateLink (hs : s.Off h) (body : PatchBody) :
    (s.updateLink h j uid body).Off h := by
  unfold Server.updateLink
  cases hd : s.links.get? uid with
  | none => exact hs
  | some d =>
    obtain ⟨hold, hproxy⟩ := not_claims_iff.1 (hs.links uid d hd)
    -- the edit of the link keeps its claims off the panel if the new port is
    have hedited (link : Link)
        (hport : link.listenPort = d.listenPort ∨ OffPort h link.listenPort) :
        ({ s with links := s.links.set uid ⟨link, d.mtprotoPort⟩ } : Server).Off h := by
      have hlisten : OffPort h link.listenPort := hport.elim (fun heq => heq ▸ hold) id
      exact ⟨offPanel_set hs.links (not_claims_iff.2 ⟨hlisten, hproxy⟩), hs.instances, hs.jobs⟩
    have hfields := editFields_listenPort d.toLink body
    dsimp only
    split
    · rename_i link heq
      rw [heq] at hfields
      exact hedited link (.inl hfields)
    · rename_i link heq
      rw [heq] at hfields
      split
      · exact hedited link (.inl hfields)
      · exact (hedited link (.inl hfields)).restartEdited
      · rename_i port hedit
        exact (hedited { link with listenPort := port } (.inr (editPort_off hedit))).restartEdited

theorem Server.Off.deleteLink (hs : s.Off h) : (s.deleteLink j uid).Off h := by
  unfold Server.deleteLink
  split
  · exact hs
  · have herase : ({ s with links := s.links.erase uid } : Server).Off h :=
      ⟨offPanel_erase hs.links, hs.instances, hs.jobs⟩
    dsimp only
    split_ifs
    · exact herase.setJob fun _ heq => by cases heq
    · exact herase

theorem Server.Off.advance (hs : s.Off h) (hget : s.jobs.get? j = some job) {l : Step} {s' : Server}
    (hstep : Ports.advance h s j job l = some s') : s'.Off h := by
  have hjob := hs.jobs j job hget
  cases l with
  | stop _ =>
    simp only [Ports.advance] at hstep
    split_ifs at hstep
    cases hstep
    exact (hs.dropInstance _).setJob fun _ heq => by cases heq
  | stopped _ =>
    simp only [Ports.advance] at hstep
    split_ifs at hstep <;> cases hstep
    · exact hs.endJob
    · exact hs.setJob fun _ heq => by cases heq
  | acquire _ alive =>
    simp only [Ports.advance] at hstep
    split_ifs at hstep
    split at hstep <;> cases hstep
    · rename_i port _ hinst
      exact hs.finish (hs.instances _ _ hinst)
    · exact Server.Off.setJob ⟨hs.links, hs.instances, hs.jobs⟩ fun _ heq => by cases heq
  | tryPort _ osFree =>
    simp only [Ports.advance] at hstep
    split at hstep <;> cases hstep
    rename_i hpanel
    exact hs.tryPort hpanel
  | launched _ =>
    simp only [Ports.advance] at hstep
    split at hstep <;> cases hstep
    rename_i port hphase
    have hport := hjob port hphase
    refine Server.Off.finish ⟨hs.links, fun u q hq => ?_, hs.jobs⟩ hport
    change (s.instances.set job.uid port).get? u = _ at hq
    rw [Dict.get?_set] at hq
    split_ifs at hq
    · cases hq; exact hport
    · exact hs.instances u q hq
  | fail _ runtime =>
    simp only [Ports.advance] at hstep
    split at hstep <;> cases hstep
    · exact hs.fail runtime
    · rename_i port _
      have hdrop : ({ s with usedPorts := s.usedPorts.filter (· ≠ port) } : Server).Off h :=
        ⟨hs.links, hs.instances, hs.jobs⟩
      exact hdrop.fail runtime
  | _ => cases hstep

theorem step_eq {l : Step} {s' : Server} (hstep : (claimsMachine h).step s l = some s') :
    l.fresh s = true ∧ perform h s l = some s' := by
  simpa [claimsMachine] using hstep

/-- No step brings anything to the port of the panel. -/
theorem off_step {l : Step} {s' : Server} (hs : s.Off h)
    (hstep : (claimsMachine h).step s l = some s') : s'.Off h := by
  replace hstep := (step_eq hstep).2
  cases l with
  | listeners ports => cases hstep; exact ⟨hs.links, hs.instances, hs.jobs⟩
  | createLink j uid osFree body => cases hstep; exact hs.createLink osFree body
  | updateLink j uid body => cases hstep; exact hs.updateLink body
  | deleteLink j uid => cases hstep; exact hs.deleteLink
  | updateAdTag j uid =>
    cases hstep
    unfold Server.updateAdTag
    split
    · exact hs
    · split_ifs
      · exact hs.setJob fun _ heq => by cases heq
      · exact hs
  | restartInstance j uid deleted =>
    cases hstep
    unfold Server.restartInstance
    dsimp only
    split_ifs
    · exact hs.setJob fun _ heq => by cases heq
    · exact hs
  | exit uid =>
    simp only [perform] at hstep
    split_ifs at hstep
    cases hstep
    exact hs.dropInstance uid
  | _ =>
    obtain ⟨job, hget, hadvance⟩ := Option.bind_eq_some_iff.1 hstep
    exact hs.advance hget hadvance

/-- **No link ever claims the port of the panel.** -/
theorem offPanel_run {ls : List Step} (hrun : (claimsMachine h).run Server.init ls = some s) :
    OffPanel h s.links := by
  have hinit : Server.init.Off h := by
    constructor
    · intro u d hd
      cases hd
    · intro u p hp
      cases hp
    · intro j job hjob
      cases hjob
  exact (Machine.run_invariant (fun _ _ _ hs hstep => off_step hs hstep) hrun hinit).links

end Off

end Ports

end RvgGateway
