import RvgGateway.Xhttp.Frame

/-!
# Whose sessions requests get

Sessions are looked up by the identifier in the path alone.  The user is in the path too, and the
session records the user that created it, but `_get_or_create_session` does not compare them.

* `Isolated` : what the step hands out, writes and delivers belongs to the user of the request.
* `SameUser` : a request that names a registered session comes from the user that created it.
* `isolated_iff_sameUser` : **a run is isolated exactly when its requests keep to that.**
-/

namespace RvgGateway

namespace Xhttp

/-- The tasks of a session are its user's. -/
def Session.Own (o : Session) : Prop := ∀ pid h, o.handler? pid = some h → h.uuid = o.uuid

/-- The tasks of all sessions are their users'. -/
def EngineState.Owned (s : EngineState) : Prop :=
  ∀ (i : ℕ) (o : Session), s.objects[i]? = some o → o.Own

namespace Session.Own

variable {o o' : Session}

theorem init (uuid mode : String) (now : ℚ) : (Session.init uuid mode now).Own := by
  intro pid h hh
  cases handler?_eq_some.1 hh

theorem tended (ho : o.Own) (ht : o.Tended o') : o'.Own := by
  intro pid h' hh'
  obtain ⟨h, hh, huuid, -⟩ := ht.handler_of pid h' hh'
  rw [huuid, ht.uuid_eq]
  exact ho pid h hh

theorem setTask (ho : o.Own) {pid : ℕ} {t : Task} (ht : ∀ h, t = .running h → h.uuid = o.uuid) :
    (o.setTask pid t).Own := by
  intro pid' h hh
  rcases handler?_of_setTask hh with ⟨-, heq⟩ | hold
  · exact ht h heq
  · exact ho pid' h hold

/-- What a stretch leaves is the user's too. -/
theorem stays (ho : o.Own) {h : Handler} {out : Outcome} (hh : h.uuid = o.uuid)
    (hstays : Stays h o.uuid o.closed o.tasks out) : out.session.Own := by
  intro pid h' hh'
  rw [hstays.uuid_eq]
  rcases hstays.tasks_eq with htasks | ⟨p, htasks, huuid, -⟩
  · refine ho pid h' ?_
    unfold handler? at hh' ⊢
    rwa [htasks] at hh'
  · rcases handler?_of_append htasks (handler?_eq_some.1 hh') with heq | hold
    · cases heq
      rw [huuid, hh]
    · exact ho pid h' hold

/-- A request of the same user is served. -/
theorem serve (ho : o.Own) {uuid sid : String} {serve : Session → Session × Task}
    (hserve : Serves uuid sid serve) (huuid : o.uuid = uuid) : (o.serve serve).Own := by
  intro pid h hh
  rw [hserve.serve_uuid]
  rcases hserve.handler?_of_serve hh with ⟨htask, -⟩ | hold
  · exact htask.trans huuid.symm
  · exact ho pid h hold

end Session.Own

namespace EngineState.Owned

variable {s s' : EngineState} {i pid : ℕ} {o : Session} {h : Handler}

theorem put (hs : s.Owned) (ho : o.Own) : (s.put i o).Owned := by
  intro j o' hj
  unfold EngineState.put at hj
  simp only [List.getElem?_set] at hj
  split_ifs at hj with hij hlt
  · cases hj; exact ho
  · exact hs j o' hj

theorem setTask (hs : s.Owned) {t : Task}
    (ht : ∀ o h, s.objects[i]? = some o → t = .running h → h.uuid = o.uuid) :
    (s.setTask i pid t).Owned := by
  intro j o' hj
  unfold EngineState.setTask at hj
  simp only [List.getElem?_modify] at hj
  obtain ⟨o, ho, rfl⟩ := Option.map_eq_some_iff.1 hj
  split_ifs with hij
  · subst hij
    exact (hs i o ho).setTask fun h heq => ht o h ho heq
  · exact hs j o ho

theorem done (hs : s.Owned) (reply : Reply) : (s.setTask i pid (.done reply)).Owned :=
  hs.setTask fun _ _ _ heq => by cases heq

theorem waitTeardown (hs : s.Owned) {victim : ℕ} {stage : Stage} {reply : Reply} :
    (s.waitTeardown i pid victim stage reply).Owned := by
  intro j o' hj
  unfold EngineState.waitTeardown at hj
  simp only [List.getElem?_modify] at hj
  obtain ⟨o, ho, rfl⟩ := Option.map_eq_some_iff.1 hj
  split_ifs with hij
  · split
    · exact hs j o ho
    · rename_i h hh
      refine (hs j o ho).setTask fun h' heq => ?_
      cases heq
      exact hs j o ho pid h hh
  · exact hs j o ho

theorem beginTeardown (hs : s.Owned) (sid : String) : (s.beginTeardown sid).1.Owned := by
  unfold EngineState.beginTeardown
  split
  · exact hs
  · split
    · exact hs
    · rename_i o ho
      exact hs.put ((hs _ o ho).tended (.beginTeardown o))

theorem teardown (hs : s.Owned) {reply : Reply}
    (hh : ∀ o, s.objects[i]? = some o → h.uuid = o.uuid) : (s.teardown i pid h reply).Owned := by
  unfold EngineState.teardown
  -- the caller is still the task that it was
  have hresumed : (s.setTask i pid (.running { h with cancelled := false })).Owned :=
    hs.setTask fun o h' ho heq => by cases heq; exact hh o ho
  have hbegin := hresumed.beginTeardown h.sid
  dsimp only
  split
  · rename_i heq
    rw [heq] at hbegin
    exact hbegin.done reply
  · rename_i heq
    rw [heq] at hbegin
    exact hbegin.waitTeardown

theorem resumeTeardown (hs : s.Owned) {victim : ℕ} {stage : Stage} {reply : Reply}
    (hh : ∀ o, s.objects[i]? = some o → h.uuid = o.uuid)
    (hres : s.resumeTeardown i pid h victim stage reply = some s') : s'.Owned := by
  unfold EngineState.resumeTeardown at hres
  split at hres
  · cases hres
  · rename_i o ho
    have hput : ∀ o', o.Tended o' → (s.put victim o').Owned ∧
        ∀ o₁, (s.put victim o').objects[i]? = some o₁ → h.uuid = o₁.uuid := by
      intro o' htended
      refine ⟨hs.put ((hs victim o ho).tended htended), fun o₁ ho₁ => ?_⟩
      unfold EngineState.put at ho₁
      simp only [List.getElem?_set] at ho₁
      split_ifs at ho₁ with hi hlt
      · cases ho₁
        rw [htended.uuid_eq]
        exact hh o (hi ▸ ho)
      · exact hh o₁ ho₁
    split at hres
    · cases hres
    · rename_i o' hcont
      cases hres
      exact (hput o' (Session.Tended.continueTeardown hcont)).1.done reply
    · rename_i o' stage' hcont
      cases hres
      obtain ⟨howned, huuid⟩ := hput o' (Session.Tended.continueTeardown hcont)
      exact howned.setTask fun o₁ h' ho₁ heq => by cases heq; exact huuid o₁ ho₁

theorem conclude (hs : s.Owned) {out : Outcome} (ho : s.objects[i]? = some o)
    (hh : o.handler? pid = some h) (hstays : Stays h o.uuid o.closed o.tasks out) :
    (s.conclude i pid h out).Owned := by
  have huuid : h.uuid = o.uuid := hs i o ho pid h hh
  have hput : EngineState.Owned { s.put i out.session with world := out.world } :=
    hs.put ((hs i o ho).stays huuid hstays)
  have hsame : ∀ o₁, (s.put i out.session).objects[i]? = some o₁ → h.uuid = o₁.uuid := by
    intro o₁ ho₁
    unfold EngineState.put at ho₁
    rw [List.getElem?_set_self (List.getElem?_eq_some_iff.1 ho).1] at ho₁
    cases ho₁
    rw [hstays.uuid_eq, huuid]
  unfold EngineState.conclude
  dsimp only
  split
  · rename_i h' hnext
    refine hput.setTask fun o₁ h₁ ho₁ heq => ?_
    cases heq
    exact (hstays.next h' hnext).1.trans (hsame o₁ ho₁)
  · exact hput.done _
  · exact hput.teardown hsame

theorem sweep (hs : s.Owned) (sids : List String) : (s.sweep sids).Owned := by
  induction sids generalizing s with
  | nil => exact hs
  | cons sid todo ih =>
    have hbegin := hs.beginTeardown sid
    unfold EngineState.sweep
    split
    · rename_i heq
      rw [heq] at hbegin
      exact ih hbegin
    · rename_i heq
      rw [heq] at hbegin
      exact hbegin

theorem resumeReaper (hs : s.Owned) {victim : ℕ} {stage : Stage}
    (hres : s.resumeReaper victim stage = some s') : s'.Owned := by
  unfold EngineState.resumeReaper at hres
  split at hres
  · cases hres
  · rename_i o ho
    split at hres
    · cases hres
    · rename_i hcont
      cases hres
      exact (hs.put ((hs victim o ho).tended (.continueTeardown hcont))).sweep _
    · rename_i hcont
      cases hres
      exact hs.put ((hs victim o ho).tended (.continueTeardown hcont))

/-- A request of the user that created the session, or of anyone if there is none. -/
theorem arrive (hs : s.Owned) {uuid mode sid : String} {now : ℚ}
    {serve : Session → Session × Task}
    (huser : ∀ i o, s.sessions.get? sid = some i → s.objects[i]? = some o → o.uuid = uuid)
    (hserve : Serves uuid sid serve) : (s.arrive uuid mode sid now serve).1.Owned := by
  cases hget : s.sessions.get? sid with
  | none =>
    rw [arrive_new hget]
    intro j o hj
    simp only [List.getElem?_append] at hj
    split_ifs at hj
    · exact hs j o hj
    · rw [List.getElem?_singleton] at hj
      split_ifs at hj
      cases hj
      exact (Session.Own.init uuid mode now).serve hserve rfl
  | some i =>
    cases ho : s.objects[i]? with
    | none => rw [arrive_lost hget ho]; exact hs
    | some o =>
      rw [arrive_old hget ho]
      have hseen : Session.Own { o with lastSeen := now } := (hs i o ho).tended (.of_tasks rfl rfl)
      exact hs.put (hseen.serve hserve (huser i o hget ho))

end EngineState.Owned

/-! ### Runs -/

/-- What the step hands out, writes and delivers belongs to the user of the request. -/
def Isolated (e : Engine) (s : EngineState) (l : Label) : Prop :=
  ∀ uuid owner, (.got uuid owner ∈ emitted e s l ∨ (∃ d, .wrote uuid owner d ∈ emitted e s l) ∨
    ∃ d, .delivered uuid owner d ∈ emitted e s l) → owner = uuid

/-- A request of `uuid` that names a registered session comes from the user that created it. -/
def EngineState.Names (s : EngineState) (uuid sid : String) : Prop :=
  ∀ i o, s.sessions.get? sid = some i → s.objects[i]? = some o → o.uuid = uuid

/-- The same, for the requests that are let in. -/
def SameUser (e : Engine) (s : EngineState) : Label → Prop
  | .packetUp uuid sid _ _ => s.Names uuid sid
  | .streamUp uuid sid _ _ => s.Names uuid sid
  | .downlink _ uuid sid _ clock => checkLink e.kind s.world clock uuid = true → s.Names uuid sid
  | _ => True

variable {e : Engine} {s s' : EngineState} {l : Label}

/-- A step that keeps to the condition keeps the tasks with their users. -/
theorem owned_step (hs : s.Owned) (hsame : SameUser e s l) (hstep : (machine e).step s l = some s') :
    s'.Owned := by
  obtain ⟨res, hhap, rfl⟩ := step_happens hstep
  cases hhap with
  | packetUp uuid sid seq now => exact hs.arrive hsame (servePacketUp_serves uuid sid seq)
  | streamUp uuid sid now monotonic =>
    exact hs.arrive hsame (serveStreamUp_serves e.kind uuid sid monotonic)
  | downlink mode uuid sid now clock hcheck =>
    exact hs.arrive (hsame hcheck) (serveDownlink_serves uuid sid)
  | refused => exact hs
  | inTeardown i pid inp m ho hh hphase hres =>
    refine hs.resumeTeardown (fun o₁ ho₁ => ?_) hres
    rw [ho] at ho₁
    cases ho₁
    exact hs i _ ho pid _ hh
  | stretch i pid inp m ho hh hphase hout => exact hs.conclude ho hh (proceed_stays hout)
  | lose i w ho => exact hs.put ((hs i _ ho).tended (.close _ w))
  | reap now hidle => exact hs.sweep _
  | sweep hbusy hres => exact hs.resumeReaper hres
  | other accounts hashCache => exact hs

/-- The request gets a session of its user exactly when it names one. -/
theorem arrive_isolated_iff {uuid mode sid : String} {now : ℚ} {serve : Session → Session × Task} :
    (∀ uuid' owner, .got uuid' owner ∈ (s.arrive uuid mode sid now serve).2 → owner = uuid') ↔
      s.Names uuid sid := by
  cases hget : s.sessions.get? sid with
  | none =>
    rw [arrive_new hget]
    refine ⟨fun _ i o hi => ?_, fun _ uuid' owner hmem => ?_⟩
    · rw [hget] at hi
      cases hi
    · cases List.mem_singleton.1 hmem
      rfl
  | some i =>
    cases ho : s.objects[i]? with
    | none =>
      rw [arrive_lost hget ho]
      refine ⟨fun _ j o hj hoj => ?_, fun _ uuid' owner hmem => by cases hmem⟩
      rw [hget] at hj
      cases hj
      rw [ho] at hoj
      cases hoj
    | some o =>
      rw [arrive_old hget ho]
      constructor
      · intro h j o' hj hoj
        rw [hget] at hj
        cases hj
        rw [ho] at hoj
        cases hoj
        exact h uuid o.uuid (List.mem_singleton.2 rfl)
      · intro hnames uuid' owner hmem
        cases List.mem_singleton.1 hmem
        exact hnames i o hget ho

/-- Requests get sessions of their users exactly when they keep to the condition. -/
theorem got_isolated_iff :
    (∀ uuid owner, .got uuid owner ∈ emitted e s l → owner = uuid) ↔ SameUser e s l := by
  cases l with
  | packetUp uuid sid seq now => exact arrive_isolated_iff
  | streamUp uuid sid now monotonic => exact arrive_isolated_iff
  | downlink mode uuid sid now clock =>
    unfold emitted
    rw [EngineState.next]
    split
    · rename_i hcheck
      exact arrive_isolated_iff.trans ⟨fun h _ => h, fun h => h hcheck⟩
    · rename_i hcheck
      exact ⟨fun _ hc => absurd hc hcheck, fun _ _ _ hmem => by cases hmem⟩
  | resume | lose | reap | sweep | other =>
    refine ⟨fun _ => trivial, fun _ uuid owner hmem => ?_⟩
    rcases emitted_cases hmem with ⟨harr, -⟩ | ⟨_, _, _, _, _, _, _, -, -, -, hout, hev⟩
    · cases harr
    · rcases (proceed_stays hout).events _ hev with ⟨_, heq⟩ | ⟨_, heq⟩ | ⟨_, heq⟩ <;> cases heq

/-- Where the tasks are their users', so is what they write and deliver. -/
theorem stretch_isolated (hs : s.Owned) {uuid owner : String} {d : Bytes}
    (hmem : .wrote uuid owner d ∈ emitted e s l ∨ .delivered uuid owner d ∈ emitted e s l) :
    owner = uuid := by
  have hown : ∀ ev ∈ emitted e s l, ev = .wrote uuid owner d ∨ ev = .delivered uuid owner d →
      owner = uuid := by
    intro ev hmem hcase
    rcases emitted_cases hmem with ⟨-, _, _, rfl⟩ | ⟨i, pid, _, _, o, h, _, -, ho, hh, hout, hev⟩
    · rcases hcase with heq | heq <;> cases heq
    · have huuid : h.uuid = o.uuid := hs i o ho pid h hh
      rcases (proceed_stays hout).events ev hev with ⟨_, rfl⟩ | ⟨_, rfl⟩ | ⟨_, rfl⟩ <;>
        rcases hcase with heq | heq <;> cases heq <;> exact huuid.symm
  rcases hmem with hmem | hmem
  · exact hown _ hmem (.inl rfl)
  · exact hown _ hmem (.inr rfl)

theorem isolated_iff (hs : s.Owned) : Isolated e s l ↔ SameUser e s l := by
  rw [← got_isolated_iff]
  constructor
  · intro h uuid owner hmem
    exact h uuid owner (.inl hmem)
  · rintro h uuid owner (hmem | ⟨d, hmem⟩ | ⟨d, hmem⟩)
    · exact h uuid owner hmem
    · exact stretch_isolated hs (.inl hmem)
    · exact stretch_isolated hs (.inr hmem)

/-- **Sessions are isolated exactly in the runs in which every request that names a registered
session comes from the user that created it.** -/
theorem isolated_iff_sameUser (e : Engine) (world : World) (ls : List Label) :
    (machine e).Along (Isolated e) (.init world) ls ↔
      (machine e).Along (SameUser e) (.init world) ls := by
  refine Machine.along_iff (I := EngineState.Owned) (fun _ _ _ hs hsame hstep =>
    owned_step hs hsame hstep) (fun _ _ hs => isolated_iff hs) fun i o hi => ?_
  cases hi

/-- Two users with links. -/
def twoUsers : World :=
  let link : Link := ⟨"xhttp-packet-up", none, 0, true, .never, 0, 0⟩
  ⟨⟨((∅ : Links).set "alice" link).set "bob" link, 0, ∅⟩, .init⟩

/-- Alice's first packet opens a connection, Bob's `GET` names her session, and its target sends a
byte. -/
def sharedSession : List Label :=
  [.packetUp "alice" "s" 0 0, .downlink "packet-up" "bob" "s" 0 ⟨0, 0⟩,
    .resume 0 0 (.data Relay.VlessHeader.localhost.encode) (momentAt 0), .resume 0 0 .go (momentAt 0),
    .resume 0 0 .go (momentAt 0), .resume 0 2 .go (momentAt 0),
    .resume 0 2 (.data [42]) (momentAt 0), .resume 0 2 .go (momentAt 0)]

/-- Bob is sent what Alice's target sent. -/
theorem downlink_of_another_user :
    ¬ (machine ⟨.vless, id⟩).Along (Isolated ⟨.vless, id⟩) (.init twoUsers)
      (sharedSession ++ [.resume 0 1 .go (momentAt 0)]) := by
  intro h
  have hrun : ((machine ⟨.vless, id⟩).run (.init twoUsers) sharedSession).map (fun s => decide
      (.delivered "bob" "alice" [0, 0, 42] ∈ emitted ⟨.vless, id⟩ s
        (.resume 0 1 .go (momentAt 0)))) = some true := by decide +kernel
  obtain ⟨s, hs, hdelivered⟩ := Option.map_eq_some_iff.1 hrun
  have howner := h.last hs "bob" "alice" (.inr (.inr ⟨_, of_decide_eq_true hdelivered⟩))
  exact absurd howner (by decide)

end Xhttp

end RvgGateway
