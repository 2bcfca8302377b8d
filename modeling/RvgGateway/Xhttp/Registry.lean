import RvgGateway.Xhttp.Frame

/-!
# The registered sessions

A session object is registered under one identifier until a `_teardown` takes it out, and never
again.  While it is registered it is open, its tasks are requests under its identifier and their
pumps, and none of them is in `_teardown`; the objects that are being torn down are not registered.

* `EngineState.WellFormed` : that description.
* `wellFormed_step`, `wellFormed_of_reaches` : **every state that the engine reaches is well
  formed.**
-/

namespace RvgGateway

namespace Xhttp

/-- The object is not registered, and will not be again. -/
def EngineState.Gone (s : EngineState) (victim : ℕ) : Prop :=
  victim < s.objects.length ∧ ∀ sid, s.sessions.get? sid ≠ some victim

/-- The object is open, and its tasks are requests under this identifier or their pumps. -/
def Session.Live (sid : String) (o : Session) : Prop :=
  o.closed = false ∧ ∀ pid h, o.handler? pid = some h → h.sid = sid ∧ h.phase.outside = true

/-- The tasks of the object wait in `_teardown` for objects in `G` only. -/
def Session.Waits (G : ℕ → Prop) (o : Session) : Prop :=
  ∀ pid h victim stage reply, o.handler? pid = some h → h.phase = .teardown victim stage reply →
    G victim

/-- Every session is registered once, is live, and what is torn down is gone. -/
structure EngineState.WellFormed (s : EngineState) : Prop where
  registered : ∀ sid i, s.sessions.get? sid = some i → ∃ o, s.objects[i]? = some o ∧ o.Live sid
  distinct : ∀ sid sid' i, s.sessions.get? sid = some i → s.sessions.get? sid' = some i → sid = sid'
  waits : ∀ (i : ℕ) (o : Session), s.objects[i]? = some o → o.Waits s.Gone
  reaper : ∀ victim stage, s.reaper.current = some (victim, stage) → s.Gone victim

/-! ### Session objects -/

namespace Session

variable {o o' : Session} {sid : String} {G G' : ℕ → Prop}

theorem Live.of_tended (ho : o.Live sid) (ht : o.Tended o') (hclosed : o'.closed = o.closed) :
    o'.Live sid := by
  refine ⟨hclosed.trans ho.1, fun pid h' hh' => ?_⟩
  obtain ⟨h, hh, -, hs, -, hp⟩ := ht.handler_of pid h' hh'
  rw [hs, hp]
  exact ho.2 pid h hh

theorem Waits.of_tended (ho : o.Waits G) (ht : o.Tended o') : o'.Waits G := by
  intro pid h' victim stage reply hh' hphase
  obtain ⟨h, hh, -, -, -, hp⟩ := ht.handler_of pid h' hh'
  exact ho pid h victim stage reply hh (hp ▸ hphase)

theorem Waits.mono (ho : o.Waits G) (hG : ∀ victim, G victim → G' victim) : o.Waits G' :=
  fun pid h victim stage reply hh hphase => hG victim (ho pid h victim stage reply hh hphase)

theorem Live.setTask (ho : o.Live sid) {pid : ℕ} {t : Task}
    (ht : ∀ h, t = .running h → h.sid = sid ∧ h.phase.outside = true) :
    (o.setTask pid t).Live sid := by
  refine ⟨ho.1, fun pid' h hh => ?_⟩
  rcases handler?_of_setTask hh with ⟨-, heq⟩ | hold
  · exact ht h heq
  · exact ho.2 pid' h hold

theorem Waits.setTask (ho : o.Waits G) {pid : ℕ} {t : Task}
    (ht : ∀ h victim stage reply, t = .running h → h.phase = .teardown victim stage reply →
      G victim) : (o.setTask pid t).Waits G := by
  intro pid' h victim stage reply hh hphase
  rcases handler?_of_setTask hh with ⟨-, heq⟩ | hold
  · exact ht h victim stage reply heq hphase
  · exact ho pid' h victim stage reply hold hphase

/-- A handler outside `_teardown` waits for nothing there. -/
theorem not_teardown {h : Handler} (hout : h.phase.outside = true) {victim : ℕ} {stage : Stage}
    {reply : Reply} : h.phase ≠ .teardown victim stage reply := by
  intro heq
  rw [heq] at hout
  cases hout

/-- A stretch keeps its session live … -/
theorem Live.stays (ho : o.Live sid) {h : Handler} {out : Outcome} (hsid : h.sid = sid)
    (hstays : Stays h o.uuid o.closed o.tasks out) : out.session.Live sid := by
  refine ⟨hstays.closed_eq.trans ho.1, fun pid h' hh' => ?_⟩
  rcases hstays.tasks_eq with htasks | ⟨p, htasks, -, hp, hphase, -⟩
  · refine ho.2 pid h' ?_
    unfold handler? at hh' ⊢
    rwa [htasks] at hh'
  · rcases handler?_of_append htasks (handler?_eq_some.1 hh') with heq | hold
    · cases heq
      exact ⟨hp.trans hsid, by rw [hphase]; rfl⟩
    · exact ho.2 pid h' hold

/-- … and does not make its tasks wait in `_teardown`. -/
theorem Waits.stays (ho : o.Waits G) {h : Handler} {out : Outcome}
    (hstays : Stays h o.uuid o.closed o.tasks out) : out.session.Waits G := by
  intro pid h' victim stage reply hh' hphase'
  rcases hstays.tasks_eq with htasks | ⟨p, htasks, -, -, hphase, -⟩
  · refine ho pid h' victim stage reply ?_ hphase'
    unfold handler? at hh' ⊢
    rwa [htasks] at hh'
  · rcases handler?_of_append htasks (handler?_eq_some.1 hh') with heq | hold
    · cases heq
      rw [hphase] at hphase'
      cases hphase'
    · exact ho pid h' victim stage reply hold hphase'

/-- A request under the identifier of a live session is served on it. -/
theorem Live.serve (ho : o.Live sid) {uuid : String} {serve : Session → Session × Task}
    (hserve : Serves uuid sid serve) : (o.serve serve).Live sid := by
  refine ⟨hserve.serve_closed.trans ho.1, fun pid h hh => ?_⟩
  rcases hserve.handler?_of_serve hh with ⟨-, hsid, hphase⟩ | hold
  · exact ⟨hsid, by rw [hphase]; rfl⟩
  · exact ho.2 pid h hold

theorem Waits.serve (ho : o.Waits G) {uuid : String} {serve : Session → Session × Task}
    (hserve : Serves uuid sid serve) : (o.serve serve).Waits G := by
  intro pid h victim stage reply hh hp
  rcases hserve.handler?_of_serve hh with ⟨-, -, hphase⟩ | hold
  · rw [hphase] at hp
    cases hp
  · exact ho pid h victim stage reply hold hp

theorem live_init (uuid mode : String) (now : ℚ) : (Session.init uuid mode now).Live sid :=
  ⟨rfl, fun _ _ hh => by cases handler?_eq_some.1 hh⟩

theorem waits_init (uuid mode : String) (now : ℚ) : (Session.init uuid mode now).Waits G :=
  fun _ _ _ _ _ hh => by cases handler?_eq_some.1 hh

end Session

/-! ### States -/

namespace EngineState

variable {s s' : EngineState} {i pid victim : ℕ} {o : Session} {h : Handler} {sid : String}

theorem put_eq_modify (s : EngineState) (i : ℕ) (o : Session) :
    s.put i o = { s with objects := s.objects.modify i fun _ => o } := by
  unfold put
  rw [List.set_eq_modify]

namespace WellFormed

/-- The object of a well-formed state under an identifier. -/
theorem live (hs : s.WellFormed) (hget : s.sessions.get? sid = some i)
    (ho : s.objects[i]? = some o) : o.Live sid := by
  obtain ⟨o', ho', hlive⟩ := hs.registered sid i hget
  rw [ho] at ho'
  cases ho'
  exact hlive

theorem modify (hs : s.WellFormed) {f : Session → Session}
    (hlive : ∀ o sid, s.objects[i]? = some o → s.sessions.get? sid = some i → o.Live sid →
      (f o).Live sid)
    (hwaits : ∀ o, s.objects[i]? = some o → o.Waits s.Gone → (f o).Waits s.Gone) :
    WellFormed { s with objects := s.objects.modify i f } := by
  have hgone : ∀ v, s.Gone v → Gone { s with objects := s.objects.modify i f } v := by
    intro v hv
    exact ⟨by simpa using hv.1, hv.2⟩
  refine ⟨fun sid j hget => ?_, hs.distinct, fun j o' hj => ?_, fun v st hcur => ?_⟩
  · obtain ⟨o, ho, hl⟩ := hs.registered sid j hget
    simp only [List.getElem?_modify, ho]
    by_cases hij : i = j
    · subst hij
      exact ⟨f o, by simp, hlive o sid ho hget hl⟩
    · exact ⟨o, by simp [hij], hl⟩
  · simp only [List.getElem?_modify] at hj
    obtain ⟨o, ho, rfl⟩ := Option.map_eq_some_iff.1 hj
    refine Session.Waits.mono ?_ hgone
    split_ifs with hij
    · subst hij
      exact hwaits o ho (hs.waits i o ho)
    · exact hs.waits j o ho
  · exact hgone v (hs.reaper v st hcur)

theorem put (hs : s.WellFormed) {o' : Session}
    (hlive : ∀ o sid, s.objects[i]? = some o → s.sessions.get? sid = some i → o.Live sid →
      o'.Live sid)
    (hwaits : ∀ o, s.objects[i]? = some o → o.Waits s.Gone → o'.Waits s.Gone) :
    (s.put i o').WellFormed := by
  rw [put_eq_modify]
  exact hs.modify hlive hwaits

/-- An object that is gone is tended. -/
theorem put_gone (hs : s.WellFormed) {o' : Session} (ho : s.objects[i]? = some o)
    (hgone : s.Gone i) (ht : o.Tended o') : (s.put i o').WellFormed := by
  refine hs.put (fun _ sid _ hget => absurd hget (hgone.2 sid)) fun o₁ ho₁ hw => ?_
  rw [ho] at ho₁
  cases ho₁
  exact hw.of_tended ht

theorem done (hs : s.WellFormed) (reply : Reply) : (s.setTask i pid (.done reply)).WellFormed :=
  hs.modify (fun _ _ _ _ hl => hl.setTask fun _ heq => by cases heq)
    fun _ _ hw => hw.setTask fun _ _ _ _ heq => by cases heq

/-- A task of a session that is gone waits in `_teardown` of another one. -/
theorem waitTeardown (hs : s.WellFormed) (hgone : s.Gone i) (hvictim : s.Gone victim)
    {stage : Stage} {reply : Reply} : (s.waitTeardown i pid victim stage reply).WellFormed := by
  refine hs.modify (fun _ sid _ hget => absurd hget (hgone.2 sid)) fun o _ hw => ?_
  split
  · exact hw
  · refine hw.setTask fun h' v st r heq hphase => ?_
    cases heq
    cases hphase
    exact hvictim

end WellFormed

/-! ### `_teardown` -/

/-- `_teardown` under an identifier that is not registered does nothing. -/
theorem beginTeardown_none (hget : s.sessions.get? sid = none) : s.beginTeardown sid = (s, none) := by
  unfold beginTeardown
  rw [hget]

/-- `_teardown` takes the object out. -/
theorem beginTeardown_some (hget : s.sessions.get? sid = some victim)
    (ho : s.objects[victim]? = some o) :
    s.beginTeardown sid =
      ({ s.put victim o.beginTeardown.1 with sessions := s.sessions.erase sid },
        o.beginTeardown.2.map (victim, ·)) := by
  unfold beginTeardown
  simp only [hget, ho]

theorem beginTeardown_sessions (hs : s.WellFormed) (sid sid' : String) :
    (s.beginTeardown sid).1.sessions.get? sid' =
      if sid = sid' then none else s.sessions.get? sid' := by
  cases hget : s.sessions.get? sid with
  | none =>
    rw [beginTeardown_none hget]
    split_ifs with heq
    · rw [← heq]; exact hget
    · rfl
  | some victim =>
    obtain ⟨o, ho, -⟩ := hs.registered sid victim hget
    rw [beginTeardown_some hget ho]
    exact Dict.get?_erase _ _ _

theorem beginTeardown_length (s : EngineState) (sid : String) :
    (s.beginTeardown sid).1.objects.length = s.objects.length := by
  unfold beginTeardown
  split
  · rfl
  · split
    · rfl
    · simp [EngineState.put]

/-- What is gone stays gone. -/
theorem Gone.beginTeardown (hs : s.WellFormed) (hgone : s.Gone victim) (sid : String) :
    (s.beginTeardown sid).1.Gone victim := by
  refine ⟨by rw [beginTeardown_length]; exact hgone.1, fun sid' => ?_⟩
  rw [beginTeardown_sessions hs]
  split_ifs
  · simp
  · exact hgone.2 sid'

namespace WellFormed

theorem beginTeardown (hs : s.WellFormed) (sid : String) :
    (s.beginTeardown sid).1.WellFormed ∧
      ∀ victim stage, (s.beginTeardown sid).2 = some (victim, stage) →
        (s.beginTeardown sid).1.Gone victim := by
  have hgone : ∀ v, s.Gone v → (s.beginTeardown sid).1.Gone v := fun v hv => hv.beginTeardown hs sid
  have hsessions := beginTeardown_sessions hs sid
  cases hget : s.sessions.get? sid with
  | none =>
    rw [beginTeardown_none hget]
    exact ⟨hs, fun _ _ heq => by cases heq⟩
  | some victim =>
    obtain ⟨o, ho, -⟩ := hs.registered sid victim hget
    have hbegin := beginTeardown_some hget ho
    -- the object that is taken out had no other identifier
    have hother : ∀ sid', (s.beginTeardown sid).1.sessions.get? sid' ≠ some victim := by
      intro sid' hsome
      rw [hsessions] at hsome
      split_ifs at hsome with heq
      exact heq (hs.distinct sid sid' victim hget hsome)
    have hvictim : (s.beginTeardown sid).1.Gone victim :=
      ⟨by rw [beginTeardown_length]; exact (List.getElem?_eq_some_iff.1 ho).1, hother⟩
    have hobjects : (s.beginTeardown sid).1.objects = s.objects.set victim o.beginTeardown.1 := by
      rw [hbegin]; rfl
    refine ⟨⟨fun sid' j hj => ?_, fun a b j ha hb => ?_, fun j o' hj => ?_, fun v st hcur => ?_⟩,
      fun v st heq => ?_⟩
    · have hne : victim ≠ j := fun heq => hother sid' (heq ▸ hj)
      rw [hsessions] at hj
      split_ifs at hj with heq
      obtain ⟨o', ho', hl⟩ := hs.registered sid' j hj
      exact ⟨o', by rw [hobjects, List.getElem?_set_ne hne]; exact ho', hl⟩
    · rw [hsessions] at ha hb
      split_ifs at ha hb
      exact hs.distinct a b j ha hb
    · rw [hobjects] at hj
      simp only [List.getElem?_set] at hj
      split_ifs at hj with hij hlt
      · cases hj
        exact ((hs.waits victim o ho).of_tended (.beginTeardown o)).mono hgone
      · exact (hs.waits j o' hj).mono hgone
    · refine hgone v (hs.reaper v st ?_)
      rw [hbegin] at hcur
      exact hcur
    · rw [hbegin] at heq
      obtain ⟨stage, -, hpair⟩ := Option.map_eq_some_iff.1 heq
      cases hpair
      exact hvictim

end WellFormed

/-! ### Stretches and `_teardown` of a task -/

theorem getElem?_put_self (ho : s.objects[i]? = some o) (o' : Session) :
    (s.put i o').objects[i]? = some o' :=
  List.getElem?_set_self (List.getElem?_eq_some_iff.1 ho).1

/-- The first stretch of `_teardown` in a task, in two steps. -/
theorem teardown_eq (s : EngineState) (i pid : ℕ) (h : Handler) (reply : Reply) :
    ∃ s₁, s₁ = s.setTask i pid (.running { h with cancelled := false }) ∧
      (((s₁.beginTeardown h.sid).2 = none ∧
          s.teardown i pid h reply = (s₁.beginTeardown h.sid).1.setTask i pid (.done reply)) ∨
        ∃ victim stage, (s₁.beginTeardown h.sid).2 = some (victim, stage) ∧
          s.teardown i pid h reply =
            (s₁.beginTeardown h.sid).1.waitTeardown i pid victim stage reply) := by
  refine ⟨_, rfl, ?_⟩
  unfold teardown
  dsimp only
  split
  · rename_i heq
    rw [heq]
    exact .inl ⟨rfl, rfl⟩
  · rename_i victim stage heq
    rw [heq]
    exact .inr ⟨victim, stage, rfl, rfl⟩

/-- An object all of whose identifiers were torn down is gone. -/
theorem Gone.of_teardown (hs : s.WellFormed) (hlt : i < s.objects.length)
    (hsid : ∀ sid', s.sessions.get? sid' = some i → sid = sid') :
    (s.beginTeardown sid).1.Gone i := by
  refine ⟨by rw [beginTeardown_length]; exact hlt, fun sid' hsome => ?_⟩
  rw [beginTeardown_sessions hs] at hsome
  split_ifs at hsome with heq
  exact heq (hsid sid' hsome)

namespace WellFormed

/-- A task outside `_teardown` goes on. -/
theorem running (hs : s.WellFormed) (hphase : h.phase.outside = true)
    (hsid : ∀ sid, s.sessions.get? sid = some i → h.sid = sid) :
    (s.setTask i pid (.running h)).WellFormed := by
  refine hs.modify (fun o sid _ hget hl => hl.setTask fun h' heq => ?_)
    fun o _ hw => hw.setTask fun h' v st r heq hp => ?_
  · cases heq
    exact ⟨hsid sid hget, hphase⟩
  · cases heq
    exact absurd hp (Session.not_teardown hphase)

theorem teardown (hs : s.WellFormed) (ho : s.objects[i]? = some o) (hphase : h.phase.outside = true)
    (hsid : ∀ sid, s.sessions.get? sid = some i → h.sid = sid) (reply : Reply) :
    (s.teardown i pid h reply).WellFormed := by
  obtain ⟨s₁, hs₁, hcases⟩ := teardown_eq s i pid h reply
  have hwf₁ : s₁.WellFormed := by rw [hs₁]; exact hs.running hphase hsid
  have hlt : i < s₁.objects.length := by
    rw [hs₁]
    simpa [setTask] using (List.getElem?_eq_some_iff.1 ho).1
  have hsid₁ : ∀ sid, s₁.sessions.get? sid = some i → h.sid = sid := by rw [hs₁]; exact hsid
  obtain ⟨hwf₂, hvictim⟩ := hwf₁.beginTeardown h.sid
  rcases hcases with ⟨-, heq⟩ | ⟨victim, stage, hbegin, heq⟩
  · rw [heq]
    exact hwf₂.done reply
  · rw [heq]
    exact hwf₂.waitTeardown (.of_teardown hwf₁ hlt hsid₁) (hvictim victim stage hbegin)

/-- A task that waits in `_teardown` is not a task of a registered session. -/
theorem gone_of_phase (hs : s.WellFormed) (ho : s.objects[i]? = some o)
    (hh : o.handler? pid = some h) {stage : Stage} {reply : Reply}
    (hphase : h.phase = .teardown victim stage reply) : s.Gone i ∧ s.Gone victim := by
  refine ⟨⟨(List.getElem?_eq_some_iff.1 ho).1, fun sid hget => ?_⟩,
    hs.waits i o ho pid h victim stage reply hh hphase⟩
  exact Session.not_teardown ((hs.live hget ho).2 pid h hh).2 hphase

theorem resumeTeardown (hs : s.WellFormed) (ho : s.objects[i]? = some o)
    (hh : o.handler? pid = some h) {stage : Stage} {reply : Reply}
    (hphase : h.phase = .teardown victim stage reply)
    (hres : s.resumeTeardown i pid h victim stage reply = some s') : s'.WellFormed := by
  obtain ⟨hgone, hvictim⟩ := hs.gone_of_phase ho hh hphase
  unfold EngineState.resumeTeardown at hres
  split at hres
  · cases hres
  · rename_i ov hov
    split at hres
    · cases hres
    · rename_i hcont
      cases hres
      exact (hs.put_gone hov hvictim (.continueTeardown hcont)).done reply
    · rename_i hcont
      cases hres
      refine (hs.put_gone hov hvictim (.continueTeardown hcont)).modify
        (fun _ sid _ hget => absurd hget (hgone.2 sid)) fun o₁ _ hw =>
          hw.setTask fun h' v st r heq hp => ?_
      cases heq
      cases hp
      exact ⟨by simpa [EngineState.put] using hvictim.1, hvictim.2⟩

/-- The state behind a stretch, before its task goes on or ends. -/
theorem stretched (hs : s.WellFormed) {out : Outcome} (ho : s.objects[i]? = some o)
    (hh : o.handler? pid = some h) (hstays : Stays h o.uuid o.closed o.tasks out) :
    EngineState.WellFormed { s.put i out.session with world := out.world } := by
  have hput : (s.put i out.session).WellFormed := by
    refine hs.put (fun o₁ sid ho₁ hget hl => ?_) fun o₁ ho₁ hw => ?_
    · rw [ho] at ho₁
      cases ho₁
      exact hl.stays (hl.2 pid h hh).1 hstays
    · rw [ho] at ho₁
      cases ho₁
      exact hw.stays hstays
  exact ⟨hput.registered, hput.distinct, hput.waits, hput.reaper⟩

theorem conclude (hs : s.WellFormed) {out : Outcome} (ho : s.objects[i]? = some o)
    (hh : o.handler? pid = some h) (hphase : h.phase.outside = true)
    (hstays : Stays h o.uuid o.closed o.tasks out) : (s.conclude i pid h out).WellFormed := by
  have hsid : ∀ sid, s.sessions.get? sid = some i → h.sid = sid := fun sid hget =>
    ((hs.live hget ho).2 pid h hh).1
  have hput := hs.stretched ho hh hstays
  unfold EngineState.conclude
  dsimp only
  split
  · rename_i h' hnext
    obtain ⟨-, hsid', hphase'⟩ := hstays.next h' hnext
    exact hput.running hphase' fun sid hget => hsid'.trans (hsid sid hget)
  · exact hput.done _
  · exact hput.teardown (getElem?_put_self ho _) hphase hsid _

theorem withReaper (hs : s.WellFormed) (r : Reaper)
    (hr : ∀ victim stage, r.current = some (victim, stage) → s.Gone victim) :
    EngineState.WellFormed { s with reaper := r } :=
  ⟨hs.registered, hs.distinct, hs.waits, hr⟩

theorem sweep (hs : s.WellFormed) (sids : List String) : (s.sweep sids).WellFormed := by
  induction sids generalizing s with
  | nil => exact hs.withReaper _ fun _ _ heq => by cases heq
  | cons sid todo ih =>
    obtain ⟨hbegin, hvictim⟩ := hs.beginTeardown sid
    unfold EngineState.sweep
    split
    · rename_i heq
      rw [heq] at hbegin
      exact ih hbegin
    · rename_i current heq
      rw [heq] at hbegin hvictim
      exact hbegin.withReaper _ fun v st hcur => hvictim v st hcur

theorem resumeReaper (hs : s.WellFormed) {stage : Stage}
    (hbusy : s.reaper.current = some (victim, stage))
    (hres : s.resumeReaper victim stage = some s') : s'.WellFormed := by
  have hvictim := hs.reaper victim stage hbusy
  unfold EngineState.resumeReaper at hres
  split at hres
  · cases hres
  · rename_i ov hov
    split at hres
    · cases hres
    · rename_i hcont
      cases hres
      exact (hs.put_gone hov hvictim (.continueTeardown hcont)).sweep _
    · rename_i hcont
      cases hres
      refine (hs.put_gone hov hvictim (.continueTeardown hcont)).withReaper _ fun v st hcur => ?_
      cases hcur
      exact ⟨by simpa [EngineState.put] using hvictim.1, hvictim.2⟩

theorem lt_length (hs : s.WellFormed) (hget : s.sessions.get? sid = some i) :
    i < s.objects.length := by
  obtain ⟨o, ho, -⟩ := hs.registered sid i hget
  exact (List.getElem?_eq_some_iff.1 ho).1

/-- A new object is registered under an identifier. -/
theorem register (hs : s.WellFormed) (hlive : o.Live sid) (hwaits : ∀ G, o.Waits G) :
    EngineState.WellFormed
      { s with
        sessions := s.sessions.set sid s.objects.length
        objects := s.objects ++ [o] } := by
  have hgone : ∀ v, s.Gone v → Gone
      { s with
        sessions := s.sessions.set sid s.objects.length
        objects := s.objects ++ [o] } v := by
    rintro v ⟨hv, hfree⟩
    refine ⟨by simpa using Nat.lt_succ_of_lt hv, fun sid' hsome => ?_⟩
    simp only [Dict.get?_set] at hsome
    split_ifs at hsome
    · cases hsome
      exact absurd hv (lt_irrefl _)
    · exact hfree sid' hsome
  refine ⟨fun sid' j hj => ?_, fun a b j ha hb => ?_, fun j o' hj => ?_, fun v st hcur => ?_⟩
  · simp only [Dict.get?_set] at hj
    split_ifs at hj with heq
    · cases hj
      cases heq
      exact ⟨o, List.getElem?_concat_length, hlive⟩
    · obtain ⟨o', ho', hl⟩ := hs.registered sid' j hj
      exact ⟨o', by simp only [List.getElem?_append_left (hs.lt_length hj), ho'], hl⟩
  · -- the number of the new object is not in use
    simp only [Dict.get?_set] at ha hb
    split_ifs at ha hb with h₁ h₂ h₂
    · exact h₁.symm.trans h₂
    · cases ha
      exact absurd (hs.lt_length hb) (lt_irrefl _)
    · cases hb
      exact absurd (hs.lt_length ha) (lt_irrefl _)
    · exact hs.distinct a b j ha hb
  · simp only [List.getElem?_append] at hj
    split_ifs at hj
    · exact (hs.waits j o' hj).mono hgone
    · rw [List.getElem?_singleton] at hj
      split_ifs at hj
      cases hj
      exact hwaits _
  · exact hgone v (hs.reaper v st hcur)

theorem arrive (hs : s.WellFormed) {uuid mode : String} {now : ℚ}
    {serve : Session → Session × Task} (hserve : Serves uuid sid serve) :
    (s.arrive uuid mode sid now serve).1.WellFormed := by
  cases hget : s.sessions.get? sid with
  | none =>
    rw [arrive_new hget]
    exact hs.register ((Session.live_init uuid mode now).serve hserve) fun G =>
      (Session.waits_init uuid mode now).serve hserve
  | some i =>
    obtain ⟨o, ho, -⟩ := hs.registered sid i hget
    rw [arrive_old hget ho]
    have htended : o.Tended { o with lastSeen := now } := .of_tasks rfl rfl
    refine hs.put (fun o₁ sid' ho₁ hget' hl => ?_) fun o₁ ho₁ hw => ?_
    · rw [ho] at ho₁
      cases ho₁
      cases hs.distinct sid sid' i hget hget'
      exact (hl.of_tended htended rfl).serve hserve
    · rw [ho] at ho₁
      cases ho₁
      exact (hw.of_tended htended).serve hserve

end WellFormed

theorem WellFormed.init (world : World) : (EngineState.init world).WellFormed where
  registered _ _ hget := by cases hget
  distinct _ _ _ hget := by cases hget
  waits _ _ ho := by cases ho
  reaper _ _ hcur := by cases hcur

end EngineState

variable {e : Engine} {s s' : EngineState} {l : Label}

/-- **Every step keeps the registry well formed.** -/
theorem wellFormed_step (hs : s.WellFormed) (hstep : (machine e).step s l = some s') :
    s'.WellFormed := by
  obtain ⟨res, hhap, rfl⟩ := step_happens hstep
  cases hhap with
  | packetUp uuid sid seq now => exact hs.arrive (servePacketUp_serves uuid sid seq)
  | streamUp uuid sid now monotonic => exact hs.arrive (serveStreamUp_serves e.kind uuid sid monotonic)
  | downlink mode uuid sid now clock hcheck => exact hs.arrive (serveDownlink_serves uuid sid)
  | refused => exact hs
  | inTeardown i pid inp m ho hh hphase hres => exact hs.resumeTeardown ho hh hphase hres
  | stretch i pid inp m ho hh hphase hout => exact hs.conclude ho hh hphase (proceed_stays hout)
  | lose i w ho =>
    refine hs.put (fun o₁ sid ho₁ _ hl => ?_) fun o₁ ho₁ hw => ?_ <;>
      (rw [ho] at ho₁; cases ho₁)
    · exact hl.of_tended (.close _ w) rfl
    · exact hw.of_tended (.close _ w)
  | reap now hidle => exact hs.sweep _
  | sweep hbusy hres => exact hs.resumeReaper hbusy hres
  | other accounts hashCache => exact ⟨hs.registered, hs.distinct, hs.waits, hs.reaper⟩

theorem wellFormed_of_reaches {world : World} (h : (machine e).Reaches (.init world) s) :
    s.WellFormed :=
  h.invariant (fun _ _ _ hs hstep => wellFormed_step hs hstep) (.init world)

end Xhttp

end RvgGateway
