import RvgGateway.Xhttp.Effect
import RvgGateway.Xhttp.ObjectStep

/-!
# Who will close the connection of a session

`_teardown` takes a session out of `xhttp_sessions` first, then waits for the pump that it
cancelled, and closes the connection behind that wait.  Up to there the session is *held*: it is
registered, or a task or the reaper waits for its pump.

* `EngineState.Held` : the session is held.
* `Session.Shut` : the connection of the session, if it has one, is closing.
* `held_step` : **a session that a step lets go is shut**, and nothing else is opened in that step.
-/

namespace RvgGateway

namespace Xhttp

/-- The session whose pump the wait is for. -/
def Phase.awaited : Phase → Option ℕ
  | .teardown victim (.task _) _ => some victim
  | _ => none

/-- A task of the object waits for the pump of the object `k`. -/
def Session.Awaits (k : ℕ) (o : Session) : Prop :=
  ∃ pid h, o.handler? pid = some h ∧ h.phase.awaited = some k

/-- The object `k` is registered, or a task waits for its pump, or it is one of `X`. -/
def EngineState.HeldBy (X : ℕ → Prop) (s : EngineState) (k : ℕ) : Prop :=
  (∃ sid, s.sessions.get? sid = some k) ∨
    (∃ (i : ℕ) (o : Session), s.objects[i]? = some o ∧ o.Awaits k) ∨ X k

/-- The wait is for the pump of the object. -/
def awaitedBy (current : Option (ℕ × Stage)) (k : ℕ) : Prop := ∃ p, current = some (k, .task p)

/-- The object `k` is registered, or a task or the reaper waits for its pump. -/
def EngineState.Held (s : EngineState) (k : ℕ) : Prop := s.HeldBy (awaitedBy s.reaper.current) k

/-- The connection of the session is closing, if it has one. -/
def Session.Shut (o : Session) : Prop := ∀ w, o.writer = some w → o.isClosing w = true

/-- The session has the same connection, and none more is open. -/
structure Session.Shrinks (o o' : Session) : Prop where
  writer : o'.writer = o.writer
  closing : ∀ w, o.isClosing w = true → o'.isClosing w = true

theorem Phase.awaited_of_outside {phase : Phase} (hphase : phase.outside = true) :
    phase.awaited = none := by
  cases phase with
  | teardown => cases hphase
  | start | input | meter | connect | payload | drain | put => rfl

/-! ### Session objects -/

namespace Session

variable {o o₁ o' : Session} {pid k : ℕ} {h : Handler}

theorem Shrinks.refl (o : Session) : o.Shrinks o := ⟨rfl, fun _ hw => hw⟩

theorem Shrinks.trans (h₁ : o.Shrinks o₁) (h₂ : o₁.Shrinks o') : o.Shrinks o' :=
  ⟨h₂.writer.trans h₁.writer, fun w hw => h₂.closing w (h₁.closing w hw)⟩

theorem Shut.shrinks (ho : o.Shut) (hshrinks : o.Shrinks o') : o'.Shut := by
  intro w hw
  exact hshrinks.closing w (ho w (hshrinks.writer ▸ hw))

theorem isClosing_close (o : Session) (w v : ℕ) :
    (o.close w).isClosing v = true ↔ v = w ∨ o.isClosing v = true := by
  unfold isClosing close
  simp only [List.getElem?_modify]
  by_cases hwv : w = v
  · subst hwv
    cases o.writers[w]? <;> simp
  · cases o.writers[v]? with
    | none => simp
    | some c => simp [hwv, Ne.symm hwv]

theorem shrinks_close (o : Session) (w : ℕ) : o.Shrinks (o.close w) :=
  ⟨rfl, fun v hv => (isClosing_close o w v).2 (.inr hv)⟩

theorem shrinks_finalise (o : Session) : o.Shrinks o.finalise := by
  unfold finalise putNowait
  split <;> exact ⟨rfl, fun _ hw => hw⟩

theorem shrinks_tolerates : Tolerates Shrinks where
  refl := .refl
  trans := .trans
  flag _ := ⟨rfl, fun _ hw => hw⟩
  close := shrinks_close
  finalise := shrinks_finalise

/-- `_teardown` behind the pump shuts the session. -/
theorem shrinks_shut (o : Session) : o.Shrinks o.shut.1 ∧ o.shut.1.Shut := by
  unfold shut
  split
  · rename_i hnone
    refine ⟨shrinks_finalise o, fun w hw => ?_⟩
    rw [(shrinks_finalise o).writer, hnone] at hw
    cases hw
  · rename_i w hsome
    refine ⟨shrinks_close o w, fun v hv => ?_⟩
    rw [(shrinks_close o w).writer, hsome] at hv
    cases hv
    exact (isClosing_close o w w).2 (.inl rfl)

/-- The first part of `_teardown` ends in the wait for the pump, or the session is shut. -/
theorem shrinks_beginTeardown (o : Session) : o.Shrinks o.beginTeardown.1 ∧
    ((∃ p, o.beginTeardown.2 = some (.task p)) ∨ o.beginTeardown.1.Shut) := by
  have hshut := shrinks_shut { o with closed := true }
  unfold beginTeardown
  dsimp only
  split
  · exact ⟨⟨hshut.1.writer, hshut.1.closing⟩, .inr hshut.2⟩
  · split
    · exact ⟨⟨hshut.1.writer, hshut.1.closing⟩, .inr hshut.2⟩
    · exact ⟨⟨rfl, fun _ hw => hw⟩, .inl ⟨_, rfl⟩⟩

/-- The other parts do not come back to that wait, and the session is shut behind it. -/
theorem shrinks_continueTeardown {cancelled : Bool} {stage : Stage} {res : Session × Option Stage}
    (hres : o.continueTeardown cancelled stage = some res) :
    o.Shrinks res.1 ∧ (∀ p, res.2 ≠ some (.task p)) ∧ ((∃ p, stage = .task p) → res.1.Shut) := by
  unfold continueTeardown at hres
  split at hres
  · split at hres
    · cases hres
      refine ⟨(shrinks_shut o).1, fun p => ?_, fun _ => (shrinks_shut o).2⟩
      unfold shut
      split <;> simp
    · cases hres
  · cases hres
    split
    · exact ⟨.refl o, fun p => by simp, by simp⟩
    · exact ⟨shrinks_finalise o, fun p => by simp, by simp⟩

theorem Shrinks.follows {actor : Option ℕ} (ht : Relation.ReflTransGen (Tends actor) o o') :
    o.Shrinks o' :=
  shrinks_tolerates.follows (fun _ _ _ => ⟨rfl, fun _ hw => hw⟩) ht

/-- A task that does not wait for a pump itself can be set. -/
theorem Awaits.setTask (ho : o.Awaits k) {t : Task}
    (hpid : ∀ h, o.handler? pid = some h → h.phase.awaited ≠ some k) : (o.setTask pid t).Awaits k := by
  obtain ⟨pid', h, hh, hphase⟩ := ho
  have hne : pid ≠ pid' := by
    rintro rfl
    exact hpid h hh hphase
  refine ⟨pid', h, ?_, hphase⟩
  rw [handler?_eq_some] at hh ⊢
  unfold Session.setTask
  rwa [List.getElem?_set_ne hne]

theorem handler?_setTask_self {h' : Handler} (hh : o.handler? pid = some h) :
    (o.setTask pid (.running h')).handler? pid = some h' := by
  have hlt := (List.getElem?_eq_some_iff.1 (handler?_eq_some.1 hh)).1
  rw [handler?_eq_some]
  exact List.getElem?_set_self hlt

/-- A task that is set to wait for a pump does so. -/
theorem awaits_of_setTask {h' : Handler} (hh : o.handler? pid = some h)
    (hphase : h'.phase.awaited = some k) : (o.setTask pid (.running h')).Awaits k :=
  ⟨pid, h', handler?_setTask_self hh, hphase⟩

/-- The handlers of `o` go on in `o'`, at the same waits. -/
def Lingers (o o' : Session) : Prop :=
  ∀ pid h, o.handler? pid = some h → ∃ h', o'.handler? pid = some h' ∧ h'.phase = h.phase

theorem Lingers.of_tasks (htasks : o'.tasks = o.tasks) : o.Lingers o' := by
  intro pid h hh
  refine ⟨h, ?_, rfl⟩
  unfold handler? at hh ⊢
  rwa [htasks]

theorem Lingers.of_append {t : Task} (htasks : o'.tasks = o.tasks ++ [t]) : o.Lingers o' := by
  intro pid h hh
  refine ⟨h, ?_, rfl⟩
  rw [handler?_eq_some] at hh ⊢
  rw [htasks, List.getElem?_append_left (List.getElem?_eq_some_iff.1 hh).1]
  exact hh

theorem Lingers.awaits (hl : o.Lingers o') (ho : o.Awaits k) : o'.Awaits k := by
  obtain ⟨pid, h, hh, hphase⟩ := ho
  obtain ⟨h', hh', heq⟩ := hl pid h hh
  exact ⟨pid, h', hh', heq ▸ hphase⟩

theorem lingers_beginTeardown (o : Session) : o.Lingers o.beginTeardown.1 := by
  unfold beginTeardown
  dsimp only
  split
  · exact .of_tasks (shut_tasks _)
  · split
    · exact .of_tasks (shut_tasks _)
    · rename_i p _ _ _ heq
      intro pid h hh
      -- the pump is cancelled where it waits
      have hlt := (List.getElem?_eq_some_iff.1 (handler?_eq_some.1 heq)).1
      by_cases hpid : p = pid
      · subst hpid
        rw [show handler? { o with closed := true } p = o.handler? p from rfl, hh] at heq
        cases heq
        exact ⟨_, handler?_eq_some.2 (List.getElem?_set_self hlt), rfl⟩
      · refine ⟨h, handler?_eq_some.2 ?_, rfl⟩
        rw [handler?_eq_some] at hh
        exact (List.getElem?_set_ne hpid).trans hh

end Session

/-! ### `_teardown` in the engine -/

/-- The object `k` is shut. -/
def EngineState.ShutAt (s : EngineState) (k : ℕ) : Prop :=
  ∀ o : Session, s.objects[k]? = some o → o.Shut

/-- The objects shrink, and what is let go is shut. -/
structure EngineState.Lets (X X' : ℕ → Prop) (s s' : EngineState) : Prop where
  length : s'.objects.length = s.objects.length
  shrinks : ∀ (k : ℕ) (o o' : Session), s.objects[k]? = some o → s'.objects[k]? = some o' →
    o.Shrinks o'
  shut : ∀ k, s.HeldBy X k → s'.HeldBy X' k ∨ s'.ShutAt k

namespace EngineState

variable {X X' X₁ : ℕ → Prop} {s s' s₁ : EngineState} {i pid k victim : ℕ} {o : Session}
  {h : Handler} {sid : String}

theorem HeldBy.mono (hs : s.HeldBy X k) (hX : X k → X' k) : s.HeldBy X' k :=
  hs.imp_right (Or.imp_right hX)

/-- Only the sessions and the objects matter. -/
theorem HeldBy.congr (hs : s.HeldBy X k) (hsessions : s'.sessions = s.sessions)
    (hobjects : s'.objects = s.objects) : s'.HeldBy X k := by
  unfold HeldBy at hs ⊢
  rwa [hsessions, hobjects]

namespace Lets

/-- The object that there was before. -/
theorem before (hs : s.Lets X X' s') {o' : Session} (ho' : s'.objects[k]? = some o') :
    ∃ o, s.objects[k]? = some o ∧ o.Shrinks o' := by
  have hlt := (List.getElem?_eq_some_iff.1 ho').1
  rw [hs.length] at hlt
  exact ⟨_, List.getElem?_eq_getElem hlt, hs.shrinks k _ o' (List.getElem?_eq_getElem hlt) ho'⟩

theorem shutAt (hs : s.Lets X X' s') (hk : s.ShutAt k) : s'.ShutAt k := by
  intro o' ho'
  obtain ⟨o, ho, hshrinks⟩ := hs.before ho'
  exact (hk o ho).shrinks hshrinks

theorem trans (h₁ : s.Lets X X₁ s₁) (h₂ : s₁.Lets X₁ X' s') : s.Lets X X' s' where
  length := h₂.length.trans h₁.length
  shrinks k o o' ho ho' := by
    obtain ⟨o₁, ho₁, hshrinks⟩ := h₂.before ho'
    exact (h₁.shrinks k o o₁ ho ho₁).trans hshrinks
  shut k hk := by
    rcases h₁.shut k hk with hk₁ | hshut
    · exact h₂.shut k hk₁
    · exact .inr (h₂.shutAt hshut)

theorem weaken (hs : s.Lets X X₁ s') (hX : ∀ k, X₁ k → X' k) : s.Lets X X' s' :=
  ⟨hs.length, hs.shrinks, fun k hk => (hs.shut k hk).imp_left fun h => h.mono (hX k)⟩

/-- What is shut need not be held. -/
theorem drop (hs : s.Lets X X₁ s') (hX : ∀ k, X₁ k → s'.ShutAt k) :
    s.Lets X (fun _ => False) s' := by
  refine ⟨hs.length, hs.shrinks, fun k hk => ?_⟩
  rcases hs.shut k hk with (hreg | hawait | hk) | hshut
  · exact .inl (.inl hreg)
  · exact .inl (.inr (.inl hawait))
  · exact .inr (hX k hk)
  · exact .inr hshut

/-- The reaper and the world do not matter. -/
theorem of_eq (hsessions : s'.sessions = s.sessions) (hobjects : s'.objects = s.objects)
    (hX : ∀ k, X k → X' k) : s.Lets X X' s' where
  length := by rw [hobjects]
  shrinks k o o' ho ho' := by
    rw [hobjects, ho] at ho'
    cases ho'
    exact .refl o
  shut k hk := .inl ((hk.congr hsessions hobjects).mono (hX k))

/-- One object changes. -/
theorem modify {f : Session → Session} (hf : ∀ o, s.objects[i]? = some o → o.Shrinks (f o))
    (hX : ∀ k, X k → X' k ∨ ∃ o, s.objects[i]? = some o ∧ (f o).Awaits k)
    (hawaits : ∀ k o, s.objects[i]? = some o → o.Awaits k → (f o).Awaits k ∨ s.ShutAt k) :
    s.Lets X X' { s with objects := s.objects.modify i f } := by
  have hat : ∀ {k o}, s.objects[k]? = some o →
      (s.objects.modify i f)[k]? = some (if i = k then f o else o) := by
    intro k o ho
    rw [List.getElem?_modify, ho]
    rfl
  have hshrinks : ∀ (k : ℕ) (o o' : Session), s.objects[k]? = some o →
      (s.objects.modify i f)[k]? = some o' → o.Shrinks o' := by
    intro k o o' ho ho'
    rw [hat ho] at ho'
    cases ho'
    split_ifs with hik
    · subst hik
      exact hf o ho
    · exact .refl o
  have hself : ∀ {o}, s.objects[i]? = some o → (s.objects.modify i f)[i]? = some (f o) := by
    intro o ho
    rw [hat ho, if_pos rfl]
  refine ⟨by simp, hshrinks, fun k hk => ?_⟩
  rcases hk with hreg | ⟨j, o, ho, hawait⟩ | hk
  · exact .inl (.inl hreg)
  · by_cases hij : i = j
    · subst hij
      rcases hawaits k o ho hawait with hnew | hshut
      · exact .inl (.inr (.inl ⟨i, f o, hself ho, hnew⟩))
      · refine .inr fun o' ho' => ?_
        have hlt := (List.getElem?_eq_some_iff.1 ho').1
        simp only [List.length_modify] at hlt
        have hold := List.getElem?_eq_getElem hlt
        exact (hshut _ hold).shrinks (hshrinks k _ o' hold ho')
    · have hj := hat ho
      rw [if_neg hij] at hj
      exact .inl (.inr (.inl ⟨j, o, hj, hawait⟩))
  · rcases hX k hk with hk' | ⟨o, ho, hnew⟩
    · exact .inl (.inr (.inr hk'))
    · exact .inl (.inr (.inl ⟨i, f o, hself ho, hnew⟩))

/-- A task is set that does not wait for a pump, or for one of a session that is shut. -/
theorem setTask (hold : ∀ o h k, s.objects[i]? = some o → o.handler? pid = some h →
      h.phase.awaited = some k → s.ShutAt k) (t : Task) : s.Lets X X (s.setTask i pid t) := by
  refine modify (fun o _ => ⟨rfl, fun _ hw => hw⟩) (fun k hk => .inl hk) fun k o ho hawait => ?_
  by_cases hpid : ∃ h, o.handler? pid = some h ∧ h.phase.awaited = some k
  · obtain ⟨h, hh, hphase⟩ := hpid
    exact .inr (hold o h k ho hh hphase)
  · exact .inl (hawait.setTask fun h hh hphase => hpid ⟨h, hh, hphase⟩)

/-- One object is torn down a part further. -/
theorem put {o' : Session} (ho : s.objects[i]? = some o) (hshrinks : o.Shrinks o')
    (hl : o.Lingers o') : s.Lets X X (s.put i o') := by
  unfold EngineState.put
  rw [List.set_eq_modify]
  refine modify (fun o₁ ho₁ => ?_) (fun k hk => .inl hk) fun k o₁ ho₁ hawait => ?_
  · rw [ho] at ho₁
    cases ho₁
    exact hshrinks
  · rw [ho] at ho₁
    cases ho₁
    exact .inl (hl.awaits hawait)

/-- A task that does not wait for a pump comes to wait. -/
theorem waitTeardown (ho : s.objects[i]? = some o) (hh : o.handler? pid = some h)
    (hphase : h.phase.awaited = none) (victim : ℕ) (stage : Stage) (reply : Reply) :
    s.Lets (fun k => X k ∨ awaitedBy (some (victim, stage)) k) X
      (s.waitTeardown i pid victim stage reply) := by
  unfold EngineState.waitTeardown
  refine modify (fun o₁ ho₁ => ?_) (fun k hk => ?_) fun k o₁ ho₁ hawait => ?_
  · split <;> exact ⟨rfl, fun _ hw => hw⟩
  · refine hk.imp_right fun hawaited => ⟨o, ho, ?_⟩
    obtain ⟨p, heq⟩ := hawaited
    cases heq
    rw [hh]
    exact Session.awaits_of_setTask hh rfl
  · rw [ho] at ho₁
    cases ho₁
    rw [hh]
    refine .inl (hawait.setTask fun h' hh' heq => ?_)
    rw [hh] at hh'
    cases hh'
    rw [hphase] at heq
    cases heq

/-- An identifier is taken out. -/
theorem erase (hX : ∀ k, X k → X' k)
    (hsid : ∀ k, s.sessions.get? sid = some k → X' k ∨ s.ShutAt k) :
    s.Lets X X' { s with sessions := s.sessions.erase sid } where
  length := rfl
  shrinks k o o' ho ho' := by
    rw [ho] at ho'
    cases ho'
    exact .refl o
  shut k hk := by
    rcases hk with ⟨sid', hget⟩ | hawait | hk
    · by_cases heq : sid = sid'
      · subst heq
        exact (hsid k hget).imp_left fun hk => .inr (.inr hk)
      · refine .inl (.inl ⟨sid', ?_⟩)
        rw [Dict.get?_erase, if_neg heq]
        exact hget
    · exact .inl (.inr (.inl hawait))
    · exact .inl (.inr (.inr (hX k hk)))

/-- `_teardown` leaves the handlers at their waits. -/
theorem lingers_begin (s : EngineState) (sid : String) (ho : s.objects[i]? = some o) :
    ∃ o', (s.beginTeardown sid).1.objects[i]? = some o' ∧ o.Lingers o' := by
  unfold EngineState.beginTeardown
  split
  · exact ⟨o, ho, .of_tasks rfl⟩
  · rename_i victim _
    split
    · exact ⟨o, ho, .of_tasks rfl⟩
    · rename_i ov hov
      by_cases hvi : victim = i
      · subst hvi
        rw [ho] at hov
        cases hov
        exact ⟨_, getElem?_put_self ho _, Session.lingers_beginTeardown o⟩
      · exact ⟨o, (List.getElem?_set_ne hvi).trans ho, .of_tasks rfl⟩

/-- The first part of `_teardown`: its caller has to wait, or the session is shut. -/
theorem beginTeardown (s : EngineState) (sid : String) :
    s.Lets X (fun k => X k ∨ awaitedBy (s.beginTeardown sid).2 k) (s.beginTeardown sid).1 := by
  cases hget : s.sessions.get? sid with
  | none =>
    rw [beginTeardown_none hget]
    exact of_eq rfl rfl fun k hk => .inl hk
  | some victim =>
    cases ho : s.objects[victim]? with
    | none =>
      have hlost : s.beginTeardown sid = (s, none) := by
        unfold EngineState.beginTeardown
        simp only [hget, ho]
      rw [hlost]
      exact of_eq rfl rfl fun k hk => .inl hk
    | some o =>
      rw [beginTeardown_some hget ho]
      obtain ⟨hshrinks, hends⟩ := Session.shrinks_beginTeardown o
      refine (put ho hshrinks (Session.lingers_beginTeardown o)).trans
        (erase (fun k hk => .inl hk) fun k hk => ?_)
      rw [show (s.put victim o.beginTeardown.1).sessions = s.sessions from rfl, hget] at hk
      cases hk
      rcases hends with ⟨p, hstage⟩ | hshut
      · exact .inl (.inr ⟨p, by rw [hstage]; rfl⟩)
      · refine .inr fun o' ho' => ?_
        rw [getElem?_put_self ho] at ho'
        cases ho'
        exact hshut

/-- A task of one handler that does not wait for a pump. -/
theorem setTask_of_free (ho : s.objects[i]? = some o) (hh : o.handler? pid = some h)
    (hphase : h.phase.awaited = none) (t : Task) : s.Lets X X (s.setTask i pid t) := by
  refine setTask (fun o₁ h₁ k ho₁ hh₁ heq => ?_) t
  rw [ho] at ho₁
  cases ho₁
  rw [hh] at hh₁
  cases hh₁
  rw [hphase] at heq
  cases heq

/-- `_teardown` in a task, from the state in which it is called. -/
theorem teardown {h₀ : Handler} (ho : s.objects[i]? = some o) (hh : o.handler? pid = some h₀)
    (hphase₀ : h₀.phase.awaited = none) (hphase : h.phase.awaited = none) (reply : Reply) :
    s.Lets X X (s.teardown i pid h reply) := by
  obtain ⟨s₁, hs₁, hcases⟩ := teardown_eq s i pid h reply
  have hset : s.Lets X X s₁ := hs₁ ▸ setTask_of_free ho hh hphase₀ _
  have hbegin := hset.trans (beginTeardown s₁ h.sid)
  -- the caller is still where it was
  have ho₁ : s₁.objects[i]? = some (o.setTask pid (.running { h with cancelled := false })) := by
    rw [hs₁]
    unfold EngineState.setTask
    simp only [List.getElem?_modify_eq, ho]
    rfl
  obtain ⟨o₂, ho₂, hlingers⟩ := lingers_begin s₁ h.sid ho₁
  obtain ⟨h₂, hh₂, hphase₂⟩ := hlingers pid _ (Session.handler?_setTask_self hh)
  have hfree : h₂.phase.awaited = none := hphase₂ ▸ hphase
  rcases hcases with ⟨hstage, heq⟩ | ⟨victim, stage, hstage, heq⟩
  · rw [heq]
    refine (hbegin.trans (setTask_of_free ho₂ hh₂ hfree _)).weaken fun k hk => ?_
    rw [hstage] at hk
    rcases hk with hk | ⟨p, hp⟩
    · exact hk
    · cases hp
  · rw [heq]
    rw [hstage] at hbegin
    exact hbegin.trans (waitTeardown ho₂ hh₂ hfree victim stage reply)

/-- `_teardown` goes on in a task. -/
theorem resumeTeardown (ho : s.objects[i]? = some o) (hh : o.handler? pid = some h)
    {victim : ℕ} {stage : Stage} {reply reply' : Reply}
    (hphase : h.phase = .teardown victim stage reply')
    (hres : s.resumeTeardown i pid h victim stage reply = some s') : s.Lets X X s' := by
  unfold EngineState.resumeTeardown at hres
  split at hres
  · cases hres
  · rename_i ov hov
    have hgoes : ∀ {res t}, ov.continueTeardown h.cancelled stage = some res →
        s.Lets X X ((s.put victim res.1).setTask i pid t) := by
      intro res t hcont
      obtain ⟨hshrinks, -, hshut⟩ := Session.shrinks_continueTeardown hcont
      have hlingers : ov.Lingers res.1 := .of_tasks (Session.continueTeardown_tasks hcont)
      refine (put hov hshrinks hlingers).trans (setTask (fun o₁ h₁ k ho₁ hh₁ heq => ?_) t)
      -- the wait that is over was for the pump of a session that is shut now
      have hwaits : h₁ = h := by
        unfold EngineState.put at ho₁
        simp only [List.getElem?_set] at ho₁
        split_ifs at ho₁ with hvi hlt
        · subst hvi
          cases ho₁
          rw [ho] at hov
          cases hov
          rw [Session.handler?_eq_some, Session.continueTeardown_tasks hcont,
            ← Session.handler?_eq_some, hh] at hh₁
          exact (Option.some.inj hh₁).symm
        · rw [ho] at ho₁
          cases ho₁
          rw [hh] at hh₁
          exact (Option.some.inj hh₁).symm
      rw [hwaits, hphase] at heq
      cases stage with
      | closed => cases heq
      | task p =>
        cases heq
        intro o₂ ho₂
        rw [getElem?_put_self hov] at ho₂
        cases ho₂
        exact hshut ⟨p, rfl⟩
    split at hres
    · cases hres
    · rename_i hcont
      cases hres
      exact hgoes hcont
    · rename_i hcont
      cases hres
      exact hgoes hcont

theorem sweep (s : EngineState) (sids : List String) :
    s.Lets (fun _ => False) (awaitedBy (s.sweep sids).reaper.current) (s.sweep sids) := by
  induction sids generalizing s with
  | nil => exact of_eq rfl rfl fun k hk => hk.elim
  | cons sid todo ih =>
    have hbegin := beginTeardown (X := fun _ => False) s sid
    unfold EngineState.sweep
    split
    · rename_i heq
      rw [heq] at hbegin
      refine (hbegin.weaken fun k hk => ?_).trans (ih _)
      rcases hk with hk | ⟨p, hp⟩
      · exact hk
      · cases hp
    · rename_i heq
      rw [heq] at hbegin
      exact hbegin.trans (of_eq rfl rfl fun k hk => hk.resolve_left id)

theorem resumeReaper {victim : ℕ} {stage : Stage} (hres : s.resumeReaper victim stage = some s') :
    s.Lets (awaitedBy (some (victim, stage))) (awaitedBy s'.reaper.current) s' := by
  unfold EngineState.resumeReaper at hres
  split at hres
  · cases hres
  · rename_i ov hov
    have hgoes : ∀ {res}, ov.continueTeardown false stage = some res →
        s.Lets (awaitedBy (some (victim, stage))) (fun _ => False) (s.put victim res.1) := by
      intro res hcont
      obtain ⟨hshrinks, -, hshut⟩ := Session.shrinks_continueTeardown hcont
      refine (put hov hshrinks (.of_tasks (Session.continueTeardown_tasks hcont))).drop
        fun k hk => ?_
      obtain ⟨p, heq⟩ := hk
      cases heq
      intro o₂ ho₂
      rw [getElem?_put_self hov] at ho₂
      cases ho₂
      exact hshut ⟨p, rfl⟩
    split at hres
    · cases hres
    · rename_i hcont
      cases hres
      exact (hgoes hcont).trans (sweep _ _)
    · rename_i hcont
      cases hres
      exact (hgoes hcont).trans (of_eq rfl rfl fun k hk => hk.elim)

end Lets

/-! ### What a step holds -/

theorem HeldBy.modify (hk : s.HeldBy X k) {f : Session → Session}
    (hf : ∀ o, s.objects[i]? = some o → o.Awaits k → (f o).Awaits k) :
    HeldBy X { s with objects := s.objects.modify i f } k := by
  rcases hk with hreg | ⟨j, o, ho, hawait⟩ | hk
  · exact .inl hreg
  · refine .inr (.inl ⟨j, if i = j then f o else o, ?_, ?_⟩)
    · rw [List.getElem?_modify, ho]
      rfl
    · split_ifs with hij
      · subst hij
        exact hf o ho hawait
      · exact hawait
  · exact .inr (.inr hk)

theorem HeldBy.put {o' : Session} (hk : s.HeldBy X k) (ho : s.objects[i]? = some o)
    (hl : o.Awaits k → o'.Awaits k) : (s.put i o').HeldBy X k := by
  unfold EngineState.put
  rw [List.set_eq_modify]
  refine hk.modify fun o₁ ho₁ => ?_
  rw [ho] at ho₁
  cases ho₁
  exact hl

/-- A request lets nothing go. -/
theorem HeldBy.arrive (hk : s.HeldBy X k) {uuid mode : String} {now : ℚ}
    {serve : Session → Session × Task} (hserve : Serves uuid sid serve) :
    (s.arrive uuid mode sid now serve).1.HeldBy X k := by
  cases hget : s.sessions.get? sid with
  | none =>
    rw [arrive_new hget]
    rcases hk with ⟨sid', hsid'⟩ | ⟨j, o, ho, hawait⟩ | hk
    · have hne : sid ≠ sid' := by
        rintro rfl
        rw [hget] at hsid'
        cases hsid'
      refine .inl ⟨sid', ?_⟩
      rw [Dict.get?_set, if_neg hne]
      exact hsid'
    · refine .inr (.inl ⟨j, o, ?_, hawait⟩)
      exact (List.getElem?_append_left (List.getElem?_eq_some_iff.1 ho).1).trans ho
    · exact .inr (.inr hk)
  | some i =>
    cases ho : s.objects[i]? with
    | none =>
      rw [arrive_lost hget ho]
      exact hk
    | some o =>
      rw [arrive_old hget ho]
      refine hk.put ho fun hawait => ?_
      obtain ⟨t, htasks⟩ : ∃ t,
          (Session.serve serve { o with lastSeen := now }).tasks = o.tasks ++ [t] := by
        rcases Serves.serve_cases serve { o with lastSeen := now } with ⟨-, heq⟩ | ⟨-, heq⟩
        · exact ⟨_, by rw [heq]⟩
        · exact ⟨_, by rw [heq]; exact congrArg (· ++ _) (hserve.tasks_eq _)⟩
      exact (Session.Lingers.of_append htasks).awaits hawait

/-- A stretch lets nothing go before `_teardown`. -/
theorem HeldBy.stretched (hk : s.HeldBy X k) {out : Outcome} (ho : s.objects[i]? = some o)
    (hh : o.handler? pid = some h) (hphase : h.phase.outside = true)
    (hstays : Stays h o.uuid o.closed o.tasks out) (t : Task) :
    (({ s.put i out.session with world := out.world } : EngineState).setTask i pid t).HeldBy X k := by
  have hlingers : o.Lingers out.session := by
    rcases hstays.tasks_eq with htasks | ⟨p, htasks, -⟩
    · exact .of_tasks htasks
    · exact .of_append htasks
  have hput : (s.put i out.session).HeldBy X k := hk.put ho hlingers.awaits
  refine HeldBy.modify (hput.congr rfl rfl) fun o₁ ho₁ hawait => hawait.setTask fun h₁ hh₁ heq => ?_
  -- the handler of the stretch waits for no pump
  rw [getElem?_put_self ho] at ho₁
  cases ho₁
  obtain ⟨h', hh', hsame⟩ := hlingers pid h hh
  rw [hh'] at hh₁
  cases hh₁
  rw [hsame, Phase.awaited_of_outside hphase] at heq
  cases heq

/-! ### The reaper -/

theorem arrive_reaper (s : EngineState) (uuid mode sid : String) (now : ℚ)
    (serve : Session → Session × Task) :
    (s.arrive uuid mode sid now serve).1.reaper = s.reaper := by
  unfold EngineState.arrive EngineState.getOrCreateSession
  cases s.sessions.get? sid with
  | none =>
    dsimp only
    split <;> rfl
  | some i =>
    dsimp only
    split <;> rfl

theorem beginTeardown_reaper (s : EngineState) (sid : String) :
    (s.beginTeardown sid).1.reaper = s.reaper := by
  unfold EngineState.beginTeardown
  split
  · rfl
  · split <;> rfl

theorem teardown_reaper (s : EngineState) (i pid : ℕ) (h : Handler) (reply : Reply) :
    (s.teardown i pid h reply).reaper = s.reaper := by
  obtain ⟨s₁, rfl, ⟨-, heq⟩ | ⟨victim, stage, -, heq⟩⟩ := teardown_eq s i pid h reply
  · rw [heq]
    exact beginTeardown_reaper _ _
  · rw [heq]
    exact beginTeardown_reaper _ _

theorem resumeTeardown_reaper {stage : Stage} {reply : Reply}
    (hres : s.resumeTeardown i pid h victim stage reply = some s') : s'.reaper = s.reaper := by
  unfold EngineState.resumeTeardown at hres
  split at hres
  · cases hres
  · split at hres <;> cases hres <;> rfl

end EngineState

/-! ### A step -/

variable {e : Engine} {s s' : EngineState} {l : Label} {k : ℕ} {o o' : Session}

theorem closing_of_closings {w : ℕ} (heq : o'.closings = o.closings) :
    o'.isClosing w = o.isClosing w := by
  rw [Session.isClosing_eq, heq, ← Session.isClosing_eq]

/-- A stretch that ends in `_teardown` opens no connection. -/
theorem closing_of_teardown {inp : Input} {m : Moment} {h : Handler} {world : World} {out : Outcome}
    {reply : Reply} (hout : proceed e inp m h world o = some out) (hnext : out.next = .teardown reply)
    {w : ℕ} (hw : o.isClosing w = true) : out.session.isClosing w = true := by
  rcases closings_or_connected hout with hkeeps | ⟨-, -, hstays⟩
  · rw [closing_of_closings hkeeps]
    exact hw
  · exact absurd hnext (hstays reply)

/-- A session that a stretch lets go is shut by the `_teardown` at its end. -/
theorem held_stretch {i pid : ℕ} {inp : Input} {m : Moment} {oi : Session} {h : Handler}
    {out : Outcome} (ho : s.objects[k]? = some o) (ho' : s'.objects[k]? = some o')
    (hheld : s.Held k) (hfree : ¬ s'.Held k) (hoi : s.objects[i]? = some oi)
    (hh : oi.handler? pid = some h) (hphase : h.phase.outside = true)
    (hout : proceed e inp m h s.world oi = some out) (heq : s.conclude i pid h out = s') :
    o'.Shut ∧ ∀ w, o.isClosing w = true → o'.isClosing w = true := by
  have hstays := proceed_stays hout
  have hgoes : ∀ t, s' = ({ s.put i out.session with world := out.world } : EngineState).setTask i
      pid t → s'.Held k := by
    rintro t rfl
    exact hheld.stretched hoi hh hphase hstays t
  unfold EngineState.conclude at heq
  dsimp only at heq
  split at heq
  · exact absurd (hgoes _ heq.symm) hfree
  · exact absurd (hgoes _ heq.symm) hfree
  · rename_i reply hnext
    -- the state behind the stretch, in which the task calls `_teardown`
    obtain ⟨sₜ, hsₜ⟩ : ∃ sₜ, sₜ = ({ s.put i out.session with world := out.world } : EngineState) :=
      ⟨_, rfl⟩
    rw [← hsₜ] at heq
    have hself : sₜ.objects[i]? = some out.session := by
      rw [hsₜ]
      exact EngineState.getElem?_put_self hoi _
    have hlingers : oi.Lingers out.session := by
      rcases hstays.tasks_eq with htasks | ⟨p, htasks, -⟩
      · exact .of_tasks htasks
      · exact .of_append htasks
    obtain ⟨h', hh', hsame⟩ := hlingers pid h hh
    have hwaits := Phase.awaited_of_outside hphase
    have hlets : sₜ.Lets (awaitedBy s.reaper.current) (awaitedBy s'.reaper.current) s' := by
      rw [← heq, EngineState.teardown_reaper, hsₜ]
      exact .teardown (hsₜ ▸ hself) hh' (by rw [hsame]; exact hwaits) hwaits reply
    have hk : sₜ.HeldBy (awaitedBy s.reaper.current) k := by
      rw [hsₜ]
      exact (hheld.put hoi hlingers.awaits).congr rfl rfl
    rcases hlets.shut k hk with hk' | hshut
    · exact absurd hk' hfree
    · refine ⟨hshut o' ho', fun w hw => ?_⟩
      by_cases hik : i = k
      · subst hik
        rw [ho] at hoi
        cases hoi
        exact (hlets.shrinks i _ o' hself ho').closing w (closing_of_teardown hout hnext hw)
      · refine (hlets.shrinks k o o' ?_ ho').closing w hw
        rw [hsₜ]
        exact (List.getElem?_set_ne hik).trans ho

/-- **A session that a step lets go** is shut, and nothing was opened for it. -/
theorem held_step (hstep : (machine e).step s l = some s') (ho : s.objects[k]? = some o)
    (ho' : s'.objects[k]? = some o') (hheld : s.Held k) (hfree : ¬ s'.Held k) :
    o'.Shut ∧ ∀ w, o.isClosing w = true → o'.isClosing w = true := by
  -- a step in which objects shrink only
  have hquits : ∀ {X}, s.HeldBy X k → s.Lets X (awaitedBy s'.reaper.current) s' →
      o'.Shut ∧ ∀ w, o.isClosing w = true → o'.isClosing w = true := by
    intro X hk hlets
    rcases hlets.shut k hk with hk' | hshut
    · exact absurd hk' hfree
    · exact ⟨hshut o' ho', (hlets.shrinks k o o' ho ho').closing⟩
  have harrives : ∀ {uuid mode sid now serve}, Serves uuid sid serve →
      (s.arrive uuid mode sid now serve).1.Held k := by
    intro uuid mode sid now serve hserve
    unfold EngineState.Held
    rw [EngineState.arrive_reaper]
    exact hheld.arrive hserve
  obtain ⟨res, hhap, heq⟩ := step_happens hstep
  cases hhap with
  | packetUp uuid sid seq now =>
    subst heq
    exact absurd (harrives (servePacketUp_serves uuid sid seq)) hfree
  | streamUp uuid sid now monotonic =>
    subst heq
    exact absurd (harrives (serveStreamUp_serves e.kind uuid sid monotonic)) hfree
  | downlink mode uuid sid now clock hcheck =>
    subst heq
    exact absurd (harrives (serveDownlink_serves uuid sid)) hfree
  | refused =>
    subst heq
    exact absurd hheld hfree
  | inTeardown i pid inp m hoi hh hphase hres =>
    subst heq
    refine hquits hheld ?_
    rw [EngineState.resumeTeardown_reaper hres]
    exact .resumeTeardown hoi hh hphase hres
  | stretch i pid inp m hoi hh hphase hout =>
    exact held_stretch ho ho' hheld hfree hoi hh hphase hout heq
  | lose i w hoi =>
    rename_i oi
    subst heq
    have hlingers : oi.Lingers (oi.close w) := .of_tasks rfl
    exact absurd (hheld.put hoi hlingers.awaits) hfree
  | reap now hidle =>
    subst heq
    unfold EngineState.Held at hheld
    rw [hidle] at hheld
    exact hquits (hheld.mono fun hk => by obtain ⟨p, hp⟩ := hk; cases hp) (.sweep s _)
  | sweep hbusy hres =>
    subst heq
    unfold EngineState.Held at hheld
    rw [hbusy] at hheld
    exact hquits hheld (.resumeReaper hres)
  | other accounts hashCache =>
    subst heq
    exact absurd (hheld.congr rfl rfl) hfree

end Xhttp

end RvgGateway
