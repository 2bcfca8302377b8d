import RvgGateway.Xhttp.Isolation
import RvgGateway.Xhttp.SessionStep
import RvgGateway.Xhttp.Sole

/-!
# What is left of a session that was removed

`_teardown` removes a session before it closes its connection, and the handlers of the session go on
with the record that they hold.  In between the session is held; behind that nothing of it should be
left open, and its handlers should come to their end.

* `EngineState.Tidy` : the open connections are those of sessions that are held.
* `EngineState.Caught` : no task ended with an exception that nobody catches.
* `Mute` : a handler of a session that is not held writes nothing.
* `Undisturbed` : no connect completes on a session that is not held or next to another one, no
  session is let go while a connection of it waits to be entered, and no packet of a session is
  counted behind its `connections.pop`.
* `mute_of_undisturbed` : **an undisturbed run is tidy, caught and mute.**
-/

namespace RvgGateway

namespace Xhttp

/-! ### The claim and its condition -/

/-- The open connections are those of sessions that are held. -/
def EngineState.Tidy (s : EngineState) : Prop :=
  ∀ (k : ℕ) (o : Session) (w : ℕ), s.objects[k]? = some o → o.isClosing w = false → s.Held k

/-- No task ended with an exception that nobody catches. -/
def EngineState.Caught (s : EngineState) : Prop :=
  ∀ (k : ℕ) (o : Session) (t : Task), s.objects[k]? = some o → t ∈ o.tasks → t ≠ .done .crashed

/-- A handler of a session that is not held writes nothing, and the state behind the step is tidy
and caught. -/
structure Mute (e : Engine) (s : EngineState) (l : Label) : Prop where
  mute : ∀ (k pid : ℕ) (inp : Input) (m : Moment) (uuid owner : String) (data : Bytes),
    l = .resume k pid inp m → ¬ s.Held k → .wrote uuid owner data ∈ emitted e s l → data = []
  tidy : ∀ s', (machine e).step s l = some s' → s'.Tidy
  caught : ∀ s', (machine e).step s l = some s' → s'.Caught

/-- Nothing gets between a session and its `_teardown`. -/
structure Undisturbed (e : Engine) (s : EngineState) (l : Label) : Prop extends OneAtATime s l where
  /-- A connect that completes finds the session held. -/
  held : ∀ (k pid : ℕ) (m : Moment) (o : Session) (h : Handler) (header : Relay.Parsed)
    (isTrojan : Bool), l = .resume k pid .go m → s.objects[k]? = some o →
      o.handler? pid = some h → h.phase = .connect header isTrojan → s.Held k
  /-- A session that is let go has no task that waits to enter an open connection. -/
  released : ∀ (k : ℕ) (o' : Session) (s' : EngineState), (machine e).step s l = some s' →
    s'.objects[k]? = some o' → s.Held k → ¬ s'.Held k →
      ∀ pid w, o'.Primes pid w → o'.isClosing w = true
  /-- No packet passes its gate when the entry of the session in `connections` is gone. -/
  count : ∀ (k pid : ℕ) (m : Moment) (o : Session) (h : Handler) (data : Bytes) (seq : ℤ),
    l = .resume k pid .go m → s.objects[k]? = some o → o.handler? pid = some h →
      h.phase = .meter data → h.role = .packetUp seq → o.connBytes = none →
        ((o.ensureGate e.kind h.uuid m.reading.monotonic).add data.length m.reading
          s.world.accounts).1 = false

/-! ### Connections -/

variable {e : Engine} {s s' : EngineState} {l : Label} {k : ℕ} {o o' : Session}

/-- The first stretch of a request opens and closes nothing. -/
theorem serve_closings {r : Request} (hr : l.request? e.kind = some r) (o : Session) :
    (o.serve r.serve).closings = o.closings := by
  unfold Session.closings
  rw [(serve_connections hr o).2.1]

/-- A step that completes no connect of the object opens nothing. -/
theorem closing_step (hstep : (machine e).step s l = some s') (ho : s.objects[k]? = some o)
    (ho' : s'.objects[k]? = some o')
    (hno : ∀ pid m h header isTrojan, l = .resume k pid .go m → o.handler? pid = some h →
      h.phase ≠ .connect header isTrojan) {w : ℕ} (hw : o.isClosing w = true) :
    o'.isClosing w = true := by
  obtain ⟨o₁, o₂, hstarts, htends, ho₂⟩ := object_step hstep ho
  rw [ho'] at ho₂
  cases ho₂
  refine (Session.Shrinks.follows htends).closing w ?_
  cases hstarts with
  | still => exact hw
  | serve hr =>
    rw [closing_of_closings (serve_closings hr _)]
    exact hw
  | stretch pid inp m hh hphase hout =>
    rename_i h out
    rcases closings_or_connected hout with hclosings | ⟨hinp, ⟨header, isTrojan, hphase⟩, -⟩
    · have hset : (out.session.setTask pid (out.next.left h)).closings = o.closings := hclosings
      rw [closing_of_closings hset]
      exact hw
    · subst hinp
      exact absurd hphase (hno pid m _ header isTrojan rfl hh)
  | lose v => exact (Session.isClosing_close o v w).2 (.inr hw)

/-- **A step keeps the engine tidy**, if nothing gets between and the sessions are sole behind it. -/
theorem tidy_step (hs : s.Tidy) (hl : Undisturbed e s l) (hstep : (machine e).step s l = some s')
    (hsole : s'.Sole) : s'.Tidy := by
  intro k o' w ho' hopen
  by_contra hfree
  cases ho : s.objects[k]? with
  | none =>
    -- a new object has no connection
    obtain ⟨r, hr, -, -, -, rfl⟩ := object_born hstep ho ho'
    rw [closing_of_closings (serve_closings hr _)] at hopen
    cases hopen
  | some o =>
    by_cases hheld : s.Held k
    · -- `_teardown` has closed the `writer`
      have hshut := (held_step hstep ho ho' hheld hfree).1
      rcases (hsole k o' ho').known w hopen with hwriter | ⟨pid, hprimes⟩
      · cases (hshut w hwriter).symm.trans hopen
      · cases (hl.released k o' s' hstep ho' hheld hfree pid w hprimes).symm.trans hopen
    · have hclosed : o.isClosing w = true := by
        by_contra hbefore
        exact hheld (hs k o w ho (by simpa using hbefore))
      rw [closing_step hstep ho ho' (fun pid m h header isTrojan hlabel hh hphase =>
        hheld (hl.held k pid m o h header isTrojan hlabel ho hh hphase)) hclosed] at hopen
      cases hopen

/-- What a handler writes when no connection of its session is open. -/
theorem mute_step (hs : s.Tidy) (hl : Undisturbed e s l) {pid : ℕ} {inp : Input} {m : Moment}
    {uuid owner : String} {data : Bytes} (hlabel : l = .resume k pid inp m) (hfree : ¬ s.Held k)
    (hmem : .wrote uuid owner data ∈ emitted e s l) : data = [] := by
  rcases emitted_cases hmem with ⟨-, _, _, heq⟩ | ⟨i, pid', inp', m', o, h, out, heq, ho, hh, hout, hev⟩
  · cases heq
  · subst hlabel
    cases heq
    cases proceed_effect hout with
    | plain _ _ silent => exact silent uuid owner data hev
    | wrote w hopen => exact absurd (hs k o w ho hopen) hfree
    | opened _ _ _ _ _ _ _ _ _ hopened =>
      obtain ⟨allowed, hevents⟩ := hopened
      rw [hevents] at hev
      cases List.mem_singleton.1 hev
    | crashed _ _ _ _ _ _ _ _ _ silent => exact silent uuid owner data hev
    | connected header isTrojan hphase hinp =>
      subst hinp
      exact absurd (hl.held k pid m o h header isTrojan rfl ho hh hphase) hfree
    | took _ _ _ _ _ _ _ _ _ silent => exact silent uuid owner data hev
    | put _ _ _ _ _ _ _ _ silent => exact silent uuid owner data hev

/-! ### Exceptions -/

/-- The task did not end with an exception that nobody catches, and is not about to. -/
def Task.Calm : Task → Prop
  | .done reply => reply ≠ .crashed
  | .running h => ∀ victim stage reply, h.phase = .teardown victim stage reply → reply ≠ .crashed

/-- All tasks are calm. -/
def Session.Calm (o : Session) : Prop := ∀ t ∈ o.tasks, t.Calm

theorem Task.calm_running {h : Handler} (hphase : h.phase.outside = true) : (Task.running h).Calm :=
  fun _ _ _ heq => absurd heq (Session.not_teardown hphase)

namespace Session.Calm

variable {pid : ℕ} {h : Handler}

theorem of_tasks (ho : o.Calm) (htasks : o'.tasks = o.tasks) : o'.Calm := by
  unfold Session.Calm at ho ⊢
  rwa [htasks]

theorem setTask (ho : o.Calm) {t : Task} (ht : t.Calm) : (o.setTask pid t).Calm := by
  intro t' hmem
  rcases List.mem_or_eq_of_mem_set hmem with hold | rfl
  · exact ho t' hold
  · exact ht

theorem append (ho : o.Calm) {t : Task} (ht : t.Calm) (htasks : o'.tasks = o.tasks ++ [t]) :
    o'.Calm := by
  intro t' hmem
  rw [htasks, List.mem_append, List.mem_singleton] at hmem
  rcases hmem with hold | rfl
  · exact ho t' hold
  · exact ht

/-- The handler of a calm object ends its `_teardown` with a reply. -/
theorem handler (ho : o.Calm) (hh : o.handler? pid = some h) : (Task.running h).Calm :=
  ho _ (List.mem_of_getElem? (Session.handler?_eq_some.1 hh))

theorem beginTeardown (ho : o.Calm) : o.beginTeardown.1.Calm := by
  unfold Session.beginTeardown
  dsimp only
  split
  · exact ho.of_tasks (Session.shut_tasks _)
  · split
    · exact ho.of_tasks (Session.shut_tasks _)
    · rename_i p _ hp hh
      have hcalm : (Task.running hp).Calm := ho.handler hh
      have hclosed : Session.Calm { o with closed := true } := ho
      exact hclosed.setTask hcalm

end Session.Calm

/-- All tasks of all objects are calm. -/
def EngineState.Calms (s : EngineState) : Prop :=
  ∀ (k : ℕ) (o : Session), s.objects[k]? = some o → o.Calm

namespace EngineState.Calms

variable {i pid : ℕ} {h : Handler}

theorem modify (hs : s.Calms) {f : Session → Session}
    (hf : ∀ o, s.objects[i]? = some o → (f o).Calm) :
    Calms { s with objects := s.objects.modify i f } := by
  intro k o' ho'
  simp only [List.getElem?_modify] at ho'
  obtain ⟨o, ho, rfl⟩ := Option.map_eq_some_iff.1 ho'
  split_ifs with hik
  · subst hik
    exact hf o ho
  · exact hs k o ho

theorem put (hs : s.Calms) (ho' : o'.Calm) : (s.put i o').Calms := by
  intro k o hk
  unfold EngineState.put at hk
  simp only [List.getElem?_set] at hk
  split_ifs at hk
  · cases hk
    exact ho'
  · exact hs k o hk

theorem setTask (hs : s.Calms) {t : Task} (ht : t.Calm) : (s.setTask i pid t).Calms :=
  hs.modify fun o ho => (hs i o ho).setTask ht

theorem beginTeardown (hs : s.Calms) (sid : String) : (s.beginTeardown sid).1.Calms := by
  unfold EngineState.beginTeardown
  split
  · exact hs
  · split
    · exact hs
    · rename_i o ho
      exact hs.put (hs _ o ho).beginTeardown

theorem waitTeardown (hs : s.Calms) {victim : ℕ} {stage : Stage} {reply : Reply}
    (hreply : reply ≠ .crashed) : (s.waitTeardown i pid victim stage reply).Calms := by
  refine hs.modify fun o ho => ?_
  split
  · exact hs i o ho
  · refine (hs i o ho).setTask fun _ _ _ heq => ?_
    cases heq
    exact hreply

/-- `_teardown` in a task, to end with a reply. -/
theorem teardown (hs : s.Calms) (hphase : h.phase.outside = true) {reply : Reply}
    (hreply : reply ≠ .crashed) : (s.teardown i pid h reply).Calms := by
  have hcall : (s.setTask i pid (.running { h with cancelled := false })).Calms :=
    hs.setTask (Task.calm_running hphase)
  obtain ⟨s₁, rfl, ⟨-, heq⟩ | ⟨victim, stage, -, heq⟩⟩ := EngineState.teardown_eq s i pid h reply
  · rw [heq]
    exact (hcall.beginTeardown h.sid).setTask hreply
  · rw [heq]
    exact (hcall.beginTeardown h.sid).waitTeardown hreply

theorem resumeTeardown (hs : s.Calms) {victim : ℕ} {stage : Stage} {reply : Reply}
    (hreply : reply ≠ .crashed) (hres : s.resumeTeardown i pid h victim stage reply = some s') :
    s'.Calms := by
  unfold EngineState.resumeTeardown at hres
  split at hres
  · cases hres
  · rename_i ov hov
    split at hres
    · cases hres
    · rename_i hcont
      cases hres
      exact (hs.put ((hs _ ov hov).of_tasks (Session.continueTeardown_tasks hcont))).setTask hreply
    · rename_i hcont
      cases hres
      refine (hs.put ((hs _ ov hov).of_tasks (Session.continueTeardown_tasks hcont))).setTask ?_
      intro _ _ _ heq
      cases heq
      exact hreply

theorem sweep (hs : s.Calms) (sids : List String) : (s.sweep sids).Calms := by
  induction sids generalizing s with
  | nil => exact hs
  | cons sid todo ih =>
    have hbegin := hs.beginTeardown sid
    unfold EngineState.sweep
    split
    · rename_i heq
      rw [heq] at hbegin
      exact ih hbegin
    · rename_i heq
      rw [heq] at hbegin
      exact hbegin

theorem resumeReaper (hs : s.Calms) {victim : ℕ} {stage : Stage}
    (hres : s.resumeReaper victim stage = some s') : s'.Calms := by
  unfold EngineState.resumeReaper at hres
  split at hres
  · cases hres
  · rename_i ov hov
    split at hres
    · cases hres
    · rename_i hcont
      cases hres
      exact (hs.put ((hs _ ov hov).of_tasks (Session.continueTeardown_tasks hcont))).sweep _
    · rename_i hcont
      cases hres
      exact hs.put ((hs _ ov hov).of_tasks (Session.continueTeardown_tasks hcont))

end EngineState.Calms

/-- The registered sessions have their entries in `connections`. -/
def EngineState.Entered (s : EngineState) : Prop :=
  ∀ (sid : String) (k : ℕ) (o : Session), s.sessions.get? sid = some k → s.objects[k]? = some o →
    o.connBytes ≠ none

/-- A request on a session that has its entry starts a task or ends with a reply. -/
theorem serve_calm {r : Request} (hr : l.request? e.kind = some r) (ho : o.Calm)
    (hconn : o.connBytes ≠ none) : (o.serve r.serve).Calm := by
  rcases Serves.serve_cases r.serve o with ⟨-, heq⟩ | ⟨-, heq⟩ <;> rw [heq]
  · exact ho.append (t := .done (.error 404 "session closed")) (by simp [Task.Calm]) rfl
  · cases l with
    | packetUp | downlink =>
      cases hr
      exact ho.append (Task.calm_running rfl) rfl
    | streamUp =>
      cases hr
      unfold serveStreamUp
      dsimp only
      split
      · rename_i hnone
        exact absurd hnone hconn
      · exact ho.append (Task.calm_running rfl) rfl
    | resume | lose | reap | sweep | other => cases hr

/-- A request leaves the tasks calm. -/
theorem EngineState.Calms.arrive (hs : s.Calms) (hentered : s.Entered) {r : Request}
    (hr : l.request? e.kind = some r) : (s.arrive r.uuid r.mode r.sid r.now r.serve).1.Calms := by
  cases hget : s.sessions.get? r.sid with
  | none =>
    rw [arrive_new hget]
    intro k o ho
    have hborn : ((Session.init r.uuid r.mode r.now).serve r.serve).Calm :=
      serve_calm hr (fun _ hmem => by cases hmem) (by simp [Session.init])
    simp only [List.getElem?_append] at ho
    split_ifs at ho
    · exact hs k o ho
    · rw [List.getElem?_singleton] at ho
      split_ifs at ho
      cases ho
      exact hborn
  | some i =>
    cases ho : s.objects[i]? with
    | none =>
      rw [arrive_lost hget ho]
      exact hs
    | some o =>
      rw [arrive_old hget ho]
      have hcalm : Session.Calm { o with lastSeen := r.now } := hs i o ho
      exact hs.put (serve_calm hr hcalm (hentered r.sid i o hget ho))

/-- A stretch of a handler whose session has its entry, or that is no packet, leaves the tasks
calm. -/
theorem EngineState.Calms.conclude (hs : s.Calms) (hl : Undisturbed e s l) {i pid : ℕ} {inp : Input}
    {m : Moment} {h : Handler} {out : Outcome} (hlabel : l = .resume i pid inp m)
    (ho : s.objects[i]? = some o) (hh : o.handler? pid = some h) (hphase : h.phase.outside = true)
    (hout : proceed e inp m h s.world o = some out) : (s.conclude i pid h out).Calms := by
  have hstays := proceed_stays hout
  have hsession : out.session.Calm := by
    rcases hstays.tasks_eq with htasks | ⟨p, htasks, -, -, hstart, -⟩
    · exact (hs i o ho).of_tasks htasks
    · exact (hs i o ho).append (Task.calm_running (by rw [hstart]; rfl)) htasks
  have hput : EngineState.Calms { s.put i out.session with world := out.world } := hs.put hsession
  -- no stretch ends with an exception
  have hends : out.next ≠ .ends .crashed ∧ out.next ≠ .teardown .crashed := by
    cases proceed_effect hout with
    | plain _ goes | wrote _ _ _ goes => exact ⟨goes.ends, goes.teardown⟩
    | opened _ _ _ _ _ _ _ _ hnext =>
      rw [hnext]
      exact ⟨by simp, by simp⟩
    | crashed data seq hmeter hinp hrole hconn hpass =>
      subst hinp
      rw [hl.count i pid m o h data seq hlabel ho hh hmeter hrole hconn] at hpass
      cases hpass
    | connected _ _ _ _ _ _ _ _ _ hne hstays => exact ⟨hne, hstays .crashed⟩
    | took item _ _ _ _ _ _ _ hnext =>
      rw [hnext]
      split_ifs <;> exact ⟨by simp, by simp⟩
    | put _ _ _ _ _ _ goes => exact ⟨goes.ends, goes.teardown⟩
  unfold EngineState.conclude
  dsimp only
  split
  · rename_i h' hnext
    exact hput.setTask (Task.calm_running (hstays.next h' hnext).2.2)
  · rename_i reply hnext
    exact hput.setTask fun heq => hends.1 (by rw [hnext, heq])
  · rename_i reply hnext
    exact hput.teardown hphase fun heq => hends.2 (by rw [hnext, heq])

theorem calms_step (hs : s.Calms) (hentered : s.Entered) (hl : Undisturbed e s l)
    (hstep : (machine e).step s l = some s') : s'.Calms := by
  obtain ⟨res, hhap, rfl⟩ := step_happens hstep
  cases hhap with
  | packetUp uuid sid seq now =>
    exact hs.arrive (e := e) hentered (l := .packetUp uuid sid seq now) rfl
  | streamUp uuid sid now monotonic =>
    exact hs.arrive (e := e) hentered (l := .streamUp uuid sid now monotonic) rfl
  | downlink mode uuid sid now clock hcheck =>
    exact hs.arrive (e := e) hentered (l := .downlink mode uuid sid now clock) rfl
  | refused => exact hs
  | inTeardown i pid inp m ho hh hphase hres =>
    exact hs.resumeTeardown ((hs i _ ho).handler hh _ _ _ hphase) hres
  | stretch i pid inp m ho hh hphase hout => exact hs.conclude hl rfl ho hh hphase hout
  | lose i w ho =>
    have hcalm := hs i _ ho
    exact hs.put hcalm
  | reap now hidle => exact hs.sweep _
  | sweep hbusy hres => exact hs.resumeReaper hres
  | other accounts hashCache => exact hs

/-- What a step does to a registered session leaves its entry in `connections`. -/
theorem Session.Acts.entered {world : World} {sid : String} (hacts : o.Acts e world sid k l o')
    (hconn : o.connBytes ≠ none) : o'.connBytes ≠ none := by
  cases hacts with
  | idle => exact hconn
  | packetUp uuid seq now =>
    rw [(serve_connections (e := e) (l := .packetUp uuid sid seq now) rfl _).2.2]
    exact hconn
  | streamUp uuid now monotonic =>
    rw [(serve_connections (e := e) (l := .streamUp uuid sid now monotonic) rfl _).2.2]
    exact hconn
  | downlink mode uuid now clock =>
    rw [(serve_connections (e := e) (l := .downlink mode uuid sid now clock) rfl _).2.2]
    exact hconn
  | stretch pid inp m hh hout =>
    intro hnone
    refine hconn ?_
    cases proceed_effect hout with
    | plain keeps | wrote _ _ keeps => exact keeps.ended.1 hnone
    | opened _ _ _ _ _ _ keeps => exact keeps.ended.1 hnone
    | crashed _ _ _ _ _ hconn => exact hconn
    | connected _ _ _ _ _ heq => exact heq ▸ hnone
    | took _ _ _ _ _ heq => exact heq ▸ hnone
    | put _ _ _ ended => exact ended.1 hnone
  | lose w => exact hconn

theorem entered_step (hwf : s.WellFormed) (hs : s.Entered)
    (hstep : (machine e).step s l = some s') : s'.Entered := by
  intro sid k o' hget' ho'
  cases hget : s.sessions.get? sid with
  | some i =>
    obtain ⟨o, ho, -⟩ := hwf.registered sid i hget
    obtain ⟨hsame, o₁, ho₁, hacts⟩ := session_step hwf hget ho hstep (by rw [hget']; simp)
    rw [hget'] at hsame
    cases hsame
    rw [ho'] at ho₁
    cases ho₁
    exact hacts.entered (hs sid k o hget ho)
  | none =>
    rcases session_born hwf hget hstep with ⟨hnone, -⟩ | ⟨i, o₁, hi, ho₁, uuid, mode, now, hacts⟩
    · rw [hget'] at hnone
      cases hnone
    · rw [hget'] at hi
      cases hi
      rw [ho'] at ho₁
      cases ho₁
      exact hacts.entered (by simp [Session.init])

/-! ### Runs -/

/-- What holds in the runs that nothing disturbs. -/
structure EngineState.Sane (s : EngineState) : Prop where
  wellFormed : s.WellFormed
  entered : s.Entered
  tidy : s.Tidy
  sole : s.Sole
  calms : s.Calms

theorem EngineState.Calms.caught (hs : s.Calms) : s.Caught := by
  rintro k o t ho hmem rfl
  exact hs k o ho _ hmem rfl

theorem sane_step (hs : s.Sane) (hl : Undisturbed e s l) (hstep : (machine e).step s l = some s') :
    s'.Sane where
  wellFormed := wellFormed_step hs.wellFormed hstep
  entered := entered_step hs.wellFormed hs.entered hstep
  tidy := tidy_step hs.tidy hl hstep (sole_step hs.sole hl.toOneAtATime hstep)
  sole := sole_step hs.sole hl.toOneAtATime hstep
  calms := calms_step hs.calms hs.entered hl hstep

theorem sane_init (world : World) : (EngineState.init world).Sane where
  wellFormed := .init world
  entered _ _ _ _ ho := by cases ho
  tidy _ _ _ ho := by cases ho
  sole _ _ ho := by cases ho
  calms _ _ ho := by cases ho

theorem mute_of_sane (hs : s.Sane) (hl : Undisturbed e s l) : Mute e s l where
  mute _ _ _ _ _ _ _ hlabel hfree hmem := mute_step hs.tidy hl hlabel hfree hmem
  tidy _ hstep := tidy_step hs.tidy hl hstep (sole_step hs.sole hl.toOneAtATime hstep)
  caught _ hstep := (calms_step hs.calms hs.entered hl hstep).caught

/-- **An undisturbed run is mute**: behind each of its steps the open connections are those of
sessions that are held and no task ended with an exception, and a handler of a session that is not
held writes nothing. -/
theorem mute_of_undisturbed (e : Engine) (world : World) (ls : List Label)
    (hls : (machine e).Along (Undisturbed e) (.init world) ls) :
    (machine e).Along (Mute e) (.init world) ls := by
  have hboth : (machine e).Along (fun s l => Mute e s l ∧ Undisturbed e s l) (.init world) ls := by
    rw [Machine.along_iff (fun _ _ _ hs hl hstep => sane_step hs hl hstep)
      (fun _ _ hs => and_iff_right_of_imp (mute_of_sane hs)) (sane_init world)]
    exact hls
  exact hboth.mono fun _ _ h => h.1

/-- Alice opens a connection, and the reaper removes her session. -/
def reapedSession : List Label :=
  [.packetUp "alice" "s" 0 0, .resume 0 0 (.data Relay.VlessHeader.localhost.encode) (momentAt 0),
    .resume 0 0 .go (momentAt 0), .resume 0 0 .go (momentAt 0), .reap 200]

/-- The session is removed, and its connection is open until the reaper goes on. -/
theorem removed_session_has_connection :
    ∃ s o, (machine ⟨.vless, id⟩).run (.init twoUsers) reapedSession = some s ∧
      s.objects[0]? = some o ∧ o.isClosing 0 = false ∧ ∀ sid, s.sessions.get? sid ≠ some 0 := by
  have hview : ((machine ⟨.vless, id⟩).run (.init twoUsers) reapedSession).map (fun s =>
      ((s.objects[0]?).map fun o => o.isClosing 0, s.sessions.keys)) = some (some false, []) := by
    decide +kernel
  obtain ⟨s, hs, heq⟩ := Option.map_eq_some_iff.1 hview
  obtain ⟨hobject, hkeys⟩ := Prod.mk.inj heq
  obtain ⟨o, ho, hopen⟩ := Option.map_eq_some_iff.1 hobject
  refine ⟨s, o, hs, ho, hopen, fun sid => ?_⟩
  have hnone : s.sessions.get? sid = none := by
    rw [Dict.get?_eq_none, hkeys]
    exact List.not_mem_nil
  rw [hnone]
  simp

/-- The object and the phase of a handler that goes on, and the object's entry in `connections`. -/
def goingOn (s : EngineState) : Label → Option (ℕ × Phase × Option ℕ)
  | .resume k pid .go _ =>
    (s.objects[k]?).bind fun o => (o.handler? pid).map fun h => (k, h.phase, o.connBytes)
  | _ => none

/-- The object is registered. -/
def registered (s : EngineState) (k : ℕ) : Bool :=
  s.sessions.keys.any fun sid => s.sessions.get? sid = some k

/-- No task of the object waits to enter a connection. -/
def primesNothing (o : Session) : Bool :=
  o.tasks.all fun t => t.handler?.all fun h => match h.phase with
    | .payload .. => false
    | _ => true

/-- A check of one step: a connect that completes finds its session registered, and no connection of
it, a packet that is counted finds its entry in `connections`, nothing fails, and connections that
wait to be entered are those of registered sessions. -/
def plainStep (e : Engine) (s : EngineState) (l : Label) : Bool :=
  (match goingOn s l with
    | some (k, .connect _ _, _) =>
      registered s k && (s.objects[k]?).all fun o => o.writers.all Writer.closing && primesNothing o
    | some (_, .meter _, connBytes) => connBytes.isSome
    | _ => true) &&
  (match l with
    | .resume _ _ .failed _ => false
    | _ => true) &&
  (((machine e).step s l).map fun s' => (List.range s'.objects.length).all fun k =>
    registered s' k || (s'.objects[k]?).all primesNothing).getD true

theorem held_of_registered (h : registered s k = true) : s.Held k := by
  obtain ⟨sid, -, hsid⟩ := List.any_eq_true.1 h
  exact .inl ⟨sid, by simpa using hsid⟩

theorem not_primes_of_primesNothing (h : primesNothing o = true) (pid w : ℕ) : ¬ o.Primes pid w := by
  rintro ⟨h₁, isTrojan, hh, hphase⟩
  have hnone := List.all_eq_true.1 h _ (List.mem_of_getElem? (Session.handler?_eq_some.1 hh))
  simp only [Task.handler?, hphase, Option.all_some] at hnone
  cases hnone

theorem undisturbed_of_plainStep (h : plainStep e s l = true) : Undisturbed e s l := by
  obtain ⟨hbefore, hbehind⟩ := Bool.and_eq_true_iff.1 h
  obtain ⟨hstretch, hfailed⟩ := Bool.and_eq_true_iff.1 hbefore
  refine ⟨⟨?_, ?_⟩, ?_, ?_, ?_⟩
  · rintro k pid m o h header isTrojan rfl ho hh hphase
    simp only [goingOn, ho, hh, hphase, Option.bind_some, Option.map_some, Option.all_some,
      Bool.and_eq_true] at hstretch
    obtain ⟨-, hclosing, hnothing⟩ := hstretch
    refine ⟨fun w => ?_, not_primes_of_primesNothing hnothing⟩
    unfold Session.isClosing
    cases hw : o.writers[w]? with
    | none => rfl
    | some c => exact List.all_eq_true.1 hclosing c (List.mem_of_getElem? hw)
  · rintro k pid m o w rfl
    cases hfailed
  · rintro k pid m o h header isTrojan rfl ho hh hphase
    simp only [goingOn, ho, hh, hphase, Option.bind_some, Option.map_some,
      Bool.and_eq_true] at hstretch
    exact held_of_registered hstretch.1
  · intro k o' s' hstep ho' _ hfree pid w hprimes
    rw [hstep] at hbehind
    have hlt := (List.getElem?_eq_some_iff.1 ho').1
    have hobject := List.all_eq_true.1 hbehind k (List.mem_range.2 hlt)
    rcases Bool.or_eq_true_iff.1 hobject with hreg | hnothing
    · exact absurd (held_of_registered hreg) hfree
    · rw [ho'] at hnothing
      exact absurd hprimes (not_primes_of_primesNothing hnothing pid w)
  · rintro k pid m o h data seq rfl ho hh hphase - hnone
    simp only [goingOn, ho, hh, hphase, hnone, Option.bind_some, Option.map_some] at hstretch
    cases hstretch

/-- Alice opens a connection with a payload and writes to it once more, and the reaper removes her
session and, when its pump has ended, closes the connection. -/
def closedSession : List Label :=
  [.packetUp "alice" "s" 0 0,
    .resume 0 0 (.data (Relay.VlessHeader.localhost.encode ++ [9])) (momentAt 0),
    .resume 0 0 .go (momentAt 0), .resume 0 0 .go (momentAt 0), .resume 0 0 .go (momentAt 0),
    .packetUp "alice" "s" 1 1, .resume 0 2 (.data [1, 2]) (momentAt 1), .resume 0 2 .go (momentAt 1),
    .reap 200, .resume 0 1 .go (momentAt 200), .sweep, .sweep]

/-- That run is mute, and its connection was written to and is closed. -/
theorem mute_of_undisturbed_closedSession :
    (machine ⟨.vless, id⟩).Along (Mute ⟨.vless, id⟩) (.init twoUsers) closedSession ∧
      ((machine ⟨.vless, id⟩).run (.init twoUsers) closedSession).map (fun s =>
        (s.sessions.keys, s.objects.map fun o => o.writers.map fun c => (c.written, c.closing))) =
          some ([], [[([9, 1, 2], true)]]) := by
  refine ⟨mute_of_undisturbed _ _ _ ?_, by decide +kernel⟩
  have hplain : (machine ⟨.vless, id⟩).Along (fun s l => plainStep ⟨.vless, id⟩ s l = true)
      (.init twoUsers) closedSession := by
    decide +kernel
  exact hplain.mono fun _ _ => undisturbed_of_plainStep

end Xhttp

end RvgGateway
