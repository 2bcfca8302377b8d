import RvgGateway.Xhttp.Registry

/-!
# What a step does to one session

Most steps leave a given session alone: they serve other sessions, or tear them down, and two
sessions never share an object.  The other ones serve a request on it, do a stretch of one of its
tasks, or close one of its connections.

* `Spares` : the step leaves the session alone.
* `Session.Acts` : what a step can do to the session while it stays registered.
* `session_step`, `session_born` : **nothing else happens to a session, and none is registered but
  by the request that needs it.**
-/

namespace RvgGateway

namespace Xhttp

variable {e : Engine} {s s' : EngineState} {l : Label}

/-- The session under `sid`, the object `k`, is as it was. -/
def Spares (sid : String) (k : ℕ) (s s' : EngineState) : Prop :=
  s'.sessions.get? sid = s.sessions.get? sid ∧ s'.objects[k]? = s.objects[k]?

namespace Spares

variable {sid sid' : String} {i k pid victim : ℕ} {o : Session} {h : Handler}

theorem trans {s₁ s₂ s₃ : EngineState} (h₁ : Spares sid k s₁ s₂) (h₂ : Spares sid k s₂ s₃) :
    Spares sid k s₁ s₃ := ⟨h₂.1.trans h₁.1, h₂.2.trans h₁.2⟩

theorem modify (hne : i ≠ k) (f : Session → Session) :
    Spares sid k s { s with objects := s.objects.modify i f } :=
  ⟨rfl, by simp [hne]⟩

theorem put (hne : i ≠ k) (o : Session) : Spares sid k s (s.put i o) :=
  ⟨rfl, List.getElem?_set_ne hne⟩

/-- `_teardown` of another session. -/
theorem beginTeardown (hs : s.WellFormed) (hget : s.sessions.get? sid = some k)
    (hne : sid' ≠ sid) : Spares sid k s (s.beginTeardown sid').1 := by
  refine ⟨by rw [EngineState.beginTeardown_sessions hs, if_neg hne], ?_⟩
  cases hget' : s.sessions.get? sid' with
  | none => rw [EngineState.beginTeardown_none hget']
  | some victim =>
    obtain ⟨o, ho, -⟩ := hs.registered sid' victim hget'
    rw [EngineState.beginTeardown_some hget' ho]
    refine List.getElem?_set_ne fun heq => hne ?_
    exact hs.distinct sid' sid k (heq ▸ hget') hget

end Spares

namespace EngineState

variable {sid sid' : String} {i k pid victim : ℕ} {o : Session} {h : Handler}

/-- The reaper does not register anything. -/
theorem sweep_none (hs : s.WellFormed) (hget : s.sessions.get? sid = none) (sids : List String) :
    (s.sweep sids).sessions.get? sid = none := by
  induction sids generalizing s with
  | nil => exact hget
  | cons sid' todo ih =>
    have hbegin : (s.beginTeardown sid').1.sessions.get? sid = none := by
      rw [beginTeardown_sessions hs]
      split_ifs
      · rfl
      · exact hget
    have hwf := (hs.beginTeardown sid').1
    unfold sweep
    split
    · rename_i heq
      rw [heq] at hbegin hwf
      exact ih hwf hbegin
    · rename_i heq
      rw [heq] at hbegin
      exact hbegin

/-- The reaper spares a session that is registered after it. -/
theorem sweep_spares (hs : s.WellFormed) (hget : s.sessions.get? sid = some k) (sids : List String)
    (hkept : (s.sweep sids).sessions.get? sid ≠ none) : Spares sid k s (s.sweep sids) := by
  induction sids generalizing s with
  | nil => exact ⟨rfl, rfl⟩
  | cons sid' todo ih =>
    have hwf := (hs.beginTeardown sid').1
    by_cases hne : sid' = sid
    · -- the reaper takes it out, and it does not come back
      have hnone : (s.beginTeardown sid').1.sessions.get? sid = none := by
        rw [beginTeardown_sessions hs, if_pos hne]
      refine absurd ?_ hkept
      unfold sweep
      split
      · rename_i heq
        rw [heq] at hnone hwf
        exact sweep_none hwf hnone todo
      · rename_i heq
        rw [heq] at hnone
        exact hnone
    · have hspares := Spares.beginTeardown hs hget hne
      unfold sweep at hkept ⊢
      split at hkept
      · rename_i heq
        rw [heq] at hspares hwf
        exact hspares.trans (ih hwf (hspares.1.trans hget) hkept)
      · rename_i heq
        rw [heq] at hspares
        exact hspares

theorem teardown_sessions (hs : s.WellFormed) (hphase : h.phase.outside = true)
    (hsid : ∀ sid, s.sessions.get? sid = some i → h.sid = sid) (reply : Reply) (sid : String) :
    (s.teardown i pid h reply).sessions.get? sid =
      if h.sid = sid then none else s.sessions.get? sid := by
  obtain ⟨s₁, hs₁, hcases⟩ := teardown_eq s i pid h reply
  have hwf₁ : s₁.WellFormed := by rw [hs₁]; exact hs.running hphase hsid
  have hbegin := beginTeardown_sessions hwf₁ h.sid sid
  rw [show s₁.sessions = s.sessions by rw [hs₁]; rfl] at hbegin
  rcases hcases with ⟨-, heq⟩ | ⟨victim, stage, -, heq⟩ <;> (rw [heq]; exact hbegin)

/-- `_teardown` by a task of another object spares a session that stays registered. -/
theorem teardown_spares (hs : s.WellFormed) (hget : s.sessions.get? sid = some k)
    (hphase : h.phase.outside = true) (hsid : ∀ sid, s.sessions.get? sid = some i → h.sid = sid)
    (hik : i ≠ k) (hne : h.sid ≠ sid) (reply : Reply) :
    Spares sid k s (s.teardown i pid h reply) := by
  obtain ⟨s₁, hs₁, hcases⟩ := teardown_eq s i pid h reply
  have hwf₁ : s₁.WellFormed := by rw [hs₁]; exact hs.running hphase hsid
  have hspares₁ : Spares sid k s s₁ := by rw [hs₁]; exact .modify hik _
  have hspares₂ := hspares₁.trans (.beginTeardown hwf₁ (hspares₁.1.trans hget) hne)
  rcases hcases with ⟨-, heq⟩ | ⟨victim, stage, -, heq⟩ <;>
    (rw [heq]; exact hspares₂.trans (.modify hik _))

theorem resumeTeardown_spares (hs : s.WellFormed) (hget : s.sessions.get? sid = some k)
    (ho : s.objects[i]? = some o) (hh : o.handler? pid = some h) {stage : Stage} {reply : Reply}
    (hphase : h.phase = .teardown victim stage reply)
    (hres : s.resumeTeardown i pid h victim stage reply = some s') : Spares sid k s s' := by
  obtain ⟨hgone, hvictim⟩ := hs.gone_of_phase ho hh hphase
  have hik : i ≠ k := fun heq => hgone.2 sid (heq ▸ hget)
  have hvk : victim ≠ k := fun heq => hvictim.2 sid (heq ▸ hget)
  unfold resumeTeardown at hres
  split at hres
  · cases hres
  · split at hres
    · cases hres
    · cases hres
      exact (Spares.put hvk _).trans (.modify hik _)
    · cases hres
      exact (Spares.put hvk _).trans (.modify hik _)

theorem resumeReaper_spares (hs : s.WellFormed) (hget : s.sessions.get? sid = some k)
    {stage : Stage} (hbusy : s.reaper.current = some (victim, stage))
    (hres : s.resumeReaper victim stage = some s') (hkept : s'.sessions.get? sid ≠ none) :
    Spares sid k s s' := by
  have hvictim := hs.reaper victim stage hbusy
  have hvk : victim ≠ k := fun heq => hvictim.2 sid (heq ▸ hget)
  unfold resumeReaper at hres
  split at hres
  · cases hres
  · rename_i ov hov
    split at hres
    · cases hres
    · rename_i hcont
      cases hres
      have hwf := hs.put_gone hov hvictim (.continueTeardown hcont)
      exact (Spares.put hvk _).trans (sweep_spares hwf hget _ hkept)
    · cases hres
      exact ⟨rfl, List.getElem?_set_ne hvk⟩

/-- A request under another identifier. -/
theorem arrive_spares (hs : s.WellFormed) (hget : s.sessions.get? sid = some k) (hne : sid' ≠ sid)
    {uuid mode : String} {now : ℚ} {serve : Session → Session × Task} :
    Spares sid k s (s.arrive uuid mode sid' now serve).1 := by
  obtain ⟨o, ho, -⟩ := hs.registered sid k hget
  cases hget' : s.sessions.get? sid' with
  | none =>
    rw [arrive_new hget']
    exact ⟨Dict.get?_set_ne _ _ hne, List.getElem?_append_left (List.getElem?_eq_some_iff.1 ho).1⟩
  | some i =>
    obtain ⟨o', ho', -⟩ := hs.registered sid' i hget'
    rw [arrive_old hget' ho']
    refine .put (fun heq => hne ?_) _
    exact hs.distinct sid' sid k (heq ▸ hget') hget

/-- A stretch of a task of another object spares a session that stays registered. -/
theorem conclude_spares (hs : s.WellFormed) (hget : s.sessions.get? sid = some k) {out : Outcome}
    (ho : s.objects[i]? = some o) (hh : o.handler? pid = some h) (hphase : h.phase.outside = true)
    (hstays : Stays h o.uuid o.closed o.tasks out) (hik : i ≠ k)
    (hkept : (s.conclude i pid h out).sessions.get? sid ≠ none) :
    Spares sid k s (s.conclude i pid h out) := by
  have hsid : ∀ sid, s.sessions.get? sid = some i → h.sid = sid := fun sid hget =>
    ((hs.live hget ho).2 pid h hh).1
  have hput := hs.stretched ho hh hstays
  have hspares : Spares sid k s { s.put i out.session with world := out.world } :=
    ⟨rfl, List.getElem?_set_ne hik⟩
  unfold conclude at hkept ⊢
  dsimp only at hkept ⊢
  split at hkept
  · exact hspares.trans (.modify hik _)
  · exact hspares.trans (.modify hik _)
  · rw [teardown_sessions hput hphase hsid] at hkept
    split_ifs at hkept with hne
    · exact absurd rfl hkept
    · exact hspares.trans (teardown_spares hput (hspares.1.trans hget) hphase hsid hik hne _)

/-- A stretch of a task of a session that stays registered: the task goes on or ends. -/
theorem conclude_own (hs : s.WellFormed) (hget : s.sessions.get? sid = some i) {out : Outcome}
    (ho : s.objects[i]? = some o) (hh : o.handler? pid = some h) (hphase : h.phase.outside = true)
    (hstays : Stays h o.uuid o.closed o.tasks out)
    (hkept : (s.conclude i pid h out).sessions.get? sid ≠ none) :
    ∃ t, out.next.task? = some t ∧ (s.conclude i pid h out).sessions.get? sid = some i ∧
      (s.conclude i pid h out).objects[i]? = some (out.session.setTask pid t) := by
  have hsid : ∀ sid, s.sessions.get? sid = some i → h.sid = sid := fun sid hget =>
    ((hs.live hget ho).2 pid h hh).1
  have hput := hs.stretched ho hh hstays
  have hset : ∀ t, (({ s.put i out.session with world := out.world } : EngineState).setTask i pid
      t).objects[i]? = some (out.session.setTask pid t) := by
    intro t
    have hself := getElem?_put_self ho out.session
    unfold setTask
    simp only [List.getElem?_modify_eq]
    rw [hself]
    rfl
  unfold conclude at hkept ⊢
  dsimp only at hkept ⊢
  cases hnext : out.next with
  | wait h' => exact ⟨_, rfl, hget, hset _⟩
  | ends reply => exact ⟨_, rfl, hget, hset _⟩
  | teardown reply =>
    rw [hnext] at hkept
    dsimp only at hkept
    rw [teardown_sessions hput hphase hsid, if_pos (hsid sid hget)] at hkept
    exact absurd rfl hkept

/-- Going on in `_teardown` registers no session … -/
theorem resumeTeardown_none (hget : s.sessions.get? sid = none) {stage : Stage} {reply : Reply}
    (hres : s.resumeTeardown i pid h victim stage reply = some s') :
    s'.sessions.get? sid = none := by
  unfold resumeTeardown at hres
  split at hres
  · cases hres
  · split at hres <;> cases hres <;> exact hget

/-- … nor does the end of a stretch … -/
theorem conclude_none (hs : s.WellFormed) (hget : s.sessions.get? sid = none)
    (ho : s.objects[i]? = some o) (hh : o.handler? pid = some h) (hphase : h.phase.outside = true)
    {out : Outcome} (hstays : Stays h o.uuid o.closed o.tasks out) :
    (s.conclude i pid h out).sessions.get? sid = none := by
  have hput := hs.stretched ho hh hstays
  unfold conclude
  dsimp only
  split
  · exact hget
  · exact hget
  · rw [teardown_sessions hput hphase fun sid hget => ((hs.live hget ho).2 pid h hh).1]
    split_ifs
    · rfl
    · exact hget

/-- … nor does the reaper. -/
theorem resumeReaper_none (hs : s.WellFormed) (hget : s.sessions.get? sid = none) {stage : Stage}
    (hbusy : s.reaper.current = some (victim, stage))
    (hres : s.resumeReaper victim stage = some s') : s'.sessions.get? sid = none := by
  have hvictim := hs.reaper victim stage hbusy
  unfold resumeReaper at hres
  split at hres
  · cases hres
  · rename_i ov hov
    split at hres
    · cases hres
    · rename_i hcont
      cases hres
      exact sweep_none (hs.put_gone hov hvictim (.continueTeardown hcont)) hget _
    · cases hres
      exact hget

end EngineState

/-- The request is an upload on the session `sid`. -/
def Label.uploads (sid : String) : Label → Prop
  | .packetUp _ sid' _ _ => sid' = sid
  | .streamUp _ sid' _ _ => sid' = sid
  | _ => False

/-- What a step can do to the session `o` under `sid`, the object `k`, while it stays registered. -/
inductive Session.Acts (e : Engine) (world : World) (sid : String) (k : ℕ) (o : Session) :
    Label → Session → Prop
  | idle {l : Label} (hl : ¬ l.uploads sid) : Acts e world sid k o l o
  | packetUp (uuid : String) (seq : ℤ) (now : ℚ) :
      Acts e world sid k o (.packetUp uuid sid seq now)
        ({ o with lastSeen := now }.serve (servePacketUp uuid sid seq))
  | streamUp (uuid : String) (now monotonic : ℚ) :
      Acts e world sid k o (.streamUp uuid sid now monotonic)
        ({ o with lastSeen := now }.serve (serveStreamUp e.kind uuid sid monotonic))
  | downlink (mode uuid : String) (now : ℚ) (clock : Clock) :
      Acts e world sid k o (.downlink mode uuid sid now clock)
        ({ o with lastSeen := now }.serve (serveDownlink uuid sid))
  | stretch (pid : ℕ) (inp : Input) (m : Moment) {h : Handler} {out : Outcome} {t : Task}
      (hh : o.handler? pid = some h) (hout : proceed e inp m h world o = some out)
      (hnext : out.next.task? = some t) :
      Acts e world sid k o (.resume k pid inp m) (out.session.setTask pid t)
  | lose (w : ℕ) : Acts e world sid k o (.lose k w) (o.close w)

/-- **What a step can do to a session that stays registered.** -/
theorem session_step {sid : String} {k : ℕ} {o : Session} (hs : s.WellFormed)
    (hget : s.sessions.get? sid = some k) (ho : s.objects[k]? = some o)
    (hstep : (machine e).step s l = some s') (hkept : s'.sessions.get? sid ≠ none) :
    s'.sessions.get? sid = some k ∧
      ∃ o', s'.objects[k]? = some o' ∧ o.Acts e s.world sid k l o' := by
  -- a step that spares the session leaves it idle
  have hidle : ¬ l.uploads sid → Spares sid k s s' →
      s'.sessions.get? sid = some k ∧
        ∃ o', s'.objects[k]? = some o' ∧ o.Acts e s.world sid k l o' := fun hl hspares =>
    ⟨hspares.1.trans hget, o, hspares.2.trans ho, .idle hl⟩
  obtain ⟨res, hhap, rfl⟩ := step_happens hstep
  cases hhap with
  | packetUp uuid sid' seq now =>
    by_cases hne : sid' = sid
    · subst hne
      rw [arrive_old hget ho]
      exact ⟨hget, _, EngineState.getElem?_put_self ho _, .packetUp uuid seq now⟩
    · exact hidle hne (EngineState.arrive_spares hs hget hne)
  | streamUp uuid sid' now monotonic =>
    by_cases hne : sid' = sid
    · subst hne
      rw [arrive_old hget ho]
      exact ⟨hget, _, EngineState.getElem?_put_self ho _, .streamUp uuid now monotonic⟩
    · exact hidle hne (EngineState.arrive_spares hs hget hne)
  | downlink mode uuid sid' now clock hcheck =>
    by_cases hne : sid' = sid
    · subst hne
      rw [arrive_old hget ho]
      exact ⟨hget, _, EngineState.getElem?_put_self ho _, .downlink mode uuid now clock⟩
    · exact hidle id (EngineState.arrive_spares hs hget hne)
  | refused => exact hidle id ⟨rfl, rfl⟩
  | inTeardown i pid inp m ho' hh hphase hres =>
    exact hidle id (EngineState.resumeTeardown_spares hs hget ho' hh hphase hres)
  | stretch i pid inp m ho' hh hphase hout =>
    have hstays := proceed_stays hout
    by_cases hik : i = k
    · subst hik
      rw [ho] at ho'
      cases ho'
      obtain ⟨t, hnext, hget', ho'⟩ := EngineState.conclude_own hs hget ho hh hphase hstays hkept
      exact ⟨hget', _, ho', .stretch pid inp m hh hout hnext⟩
    · exact hidle id (EngineState.conclude_spares hs hget ho' hh hphase hstays hik hkept)
  | lose i w ho' =>
    by_cases hik : i = k
    · subst hik
      rw [ho] at ho'
      cases ho'
      exact ⟨hget, _, EngineState.getElem?_put_self ho _, .lose w⟩
    · exact hidle id (.put hik _)
  | reap now hfree => exact hidle id (EngineState.sweep_spares hs hget _ hkept)
  | sweep hbusy hres => exact hidle id (EngineState.resumeReaper_spares hs hget hbusy hres hkept)
  | other accounts hashCache => exact hidle id ⟨rfl, rfl⟩

/-- A request registers the session that it names, and no other one. -/
theorem arrive_born {sid : String} (hs : s.WellFormed) (hget : s.sessions.get? sid = none)
    (uuid mode sid' : String) (now : ℚ) (serve : Session → Session × Task) :
    if sid' = sid then
      (s.arrive uuid mode sid' now serve).1.sessions.get? sid = some s.objects.length ∧
        (s.arrive uuid mode sid' now serve).1.objects[s.objects.length]? =
          some ((Session.init uuid mode now).serve serve)
    else (s.arrive uuid mode sid' now serve).1.sessions.get? sid = none := by
  split_ifs with heq
  · subst heq
    rw [arrive_new hget]
    exact ⟨Dict.get?_set_self _ _ _, List.getElem?_concat_length⟩
  · cases hget' : s.sessions.get? sid' with
    | none =>
      rw [arrive_new hget']
      exact (Dict.get?_set_ne _ _ heq).trans hget
    | some i =>
      obtain ⟨o', ho', -⟩ := hs.registered sid' i hget'
      rw [arrive_old hget' ho']
      exact hget

/-- A step registers a session only when a request arrives for it. -/
theorem session_born {sid : String} (hs : s.WellFormed) (hget : s.sessions.get? sid = none)
    (hstep : (machine e).step s l = some s') :
    (s'.sessions.get? sid = none ∧ ¬ l.uploads sid) ∨
      ∃ k o', s'.sessions.get? sid = some k ∧ s'.objects[k]? = some o' ∧
        ∃ uuid mode now, (Session.init uuid mode now).Acts e s.world sid k l o' := by
  obtain ⟨res, hhap, rfl⟩ := step_happens hstep
  cases hhap with
  | packetUp uuid sid' seq now =>
    have hborn := arrive_born hs hget uuid "packet-up" sid' now (servePacketUp uuid sid' seq)
    split_ifs at hborn with heq
    · subst heq
      exact .inr ⟨_, _, hborn.1, hborn.2, uuid, "packet-up", now, .packetUp uuid seq now⟩
    · exact .inl ⟨hborn, heq⟩
  | streamUp uuid sid' now monotonic =>
    have hborn := arrive_born hs hget uuid "stream-up" sid' now
      (serveStreamUp e.kind uuid sid' monotonic)
    split_ifs at hborn with heq
    · subst heq
      exact .inr ⟨_, _, hborn.1, hborn.2, uuid, "stream-up", now, .streamUp uuid now monotonic⟩
    · exact .inl ⟨hborn, heq⟩
  | downlink mode uuid sid' now clock hcheck =>
    have hborn := arrive_born hs hget uuid mode sid' now (serveDownlink uuid sid')
    split_ifs at hborn with heq
    · subst heq
      exact .inr ⟨_, _, hborn.1, hborn.2, uuid, mode, now, .downlink mode uuid now clock⟩
    · exact .inl ⟨hborn, id⟩
  | refused => exact .inl ⟨hget, id⟩
  | inTeardown i pid inp m ho hh hphase hres =>
    exact .inl ⟨EngineState.resumeTeardown_none hget hres, id⟩
  | stretch i pid inp m ho hh hphase hout =>
    exact .inl ⟨EngineState.conclude_none hs hget ho hh hphase (proceed_stays hout), id⟩
  | lose i w ho => exact .inl ⟨hget, id⟩
  | reap now hidle => exact .inl ⟨EngineState.sweep_none hs hget _, id⟩
  | sweep hbusy hres => exact .inl ⟨EngineState.resumeReaper_none hs hget hbusy hres, id⟩
  | other accounts hashCache => exact .inl ⟨hget, id⟩

end Xhttp

end RvgGateway
