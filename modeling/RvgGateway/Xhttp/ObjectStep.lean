import RvgGateway.Xhttp.Registry

/-!
# What a step does to one session object

An object lives on when its session was torn down, in the hands of the tasks that hold it.  Whether
it is registered or not, a step first serves a request on it or does a stretch of one of its tasks,
and may then take it through `_teardown`.

* `Session.Starts` : what happens to an object first.
* `Session.Tends` : what `_teardown` does to an object at a time.
* `object_step`, `object_born` : **nothing else happens to an object, and none is made but by a
  request.**
-/

namespace RvgGateway

namespace Xhttp

/-- A request that is served on a session. -/
structure Request where
  uuid : String
  mode : String
  sid : String
  now : ℚ
  serve : Session → Session × Task

/-- The request of a step that lets one in. -/
def Label.request? (kind : Kind) : Label → Option Request
  | .packetUp uuid sid seq now => some ⟨uuid, "packet-up", sid, now, servePacketUp uuid sid seq⟩
  | .streamUp uuid sid now monotonic =>
    some ⟨uuid, "stream-up", sid, now, serveStreamUp kind uuid sid monotonic⟩
  | .downlink mode uuid sid now _ => some ⟨uuid, mode, sid, now, serveDownlink uuid sid⟩
  | _ => none

/-- What every request does first: it starts a task of its own. -/
theorem Label.request?_serves {kind : Kind} {l : Label} {r : Request}
    (hr : l.request? kind = some r) : Serves r.uuid r.sid r.serve := by
  cases l <;> cases hr
  · exact servePacketUp_serves _ _ _
  · exact serveStreamUp_serves _ _ _ _
  · exact serveDownlink_serves _ _

/-- The request is let in. -/
def Label.admitted (kind : Kind) (w : World) : Label → Bool
  | .downlink _ uuid _ _ clock => checkLink kind w clock uuid
  | _ => true

/-- The task of the object `k` that goes on. -/
def Label.actor (k : ℕ) : Label → Option ℕ
  | .resume i pid _ _ => if i = k then some pid else none
  | _ => none

/-- The task as its stretch leaves it. -/
def Next.left (h : Handler) : Next → Task
  | wait h' => .running h'
  | ends reply => .done reply
  -- it goes on in `_teardown`
  | teardown _ => .running { h with cancelled := false }

/-- What happens to the object `k` first. -/
inductive Session.Starts (e : Engine) (s : EngineState) (k : ℕ) : Label → Session → Session → Prop
  | still (l : Label) (o : Session) : Starts e s k l o o
  | serve {l : Label} {r : Request} (hr : l.request? e.kind = some r)
      (hin : l.admitted e.kind s.world = true) (hget : s.sessions.get? r.sid = some k) (o : Session) :
      Starts e s k l o ({ o with lastSeen := r.now }.serve r.serve)
  | stretch (pid : ℕ) (inp : Input) (m : Moment) {o : Session} {h : Handler} {out : Outcome}
      (hh : o.handler? pid = some h) (hphase : h.phase.outside = true)
      (hout : proceed e inp m h s.world o = some out) :
      Starts e s k (.resume k pid inp m) o (out.session.setTask pid (out.next.left h))
  | lose (w : ℕ) (o : Session) : Starts e s k (.lose k w) o (o.close w)

/-- One part of `_teardown`, of the object or by its task `actor`. -/
inductive Session.Tends (actor : Option ℕ) : Session → Session → Prop
  | begin (o : Session) : Tends actor o o.beginTeardown.1
  | continue {o : Session} {cancelled : Bool} {stage : Stage} {res : Session × Option Stage}
      (hres : o.continueTeardown cancelled stage = some res) : Tends actor o res.1
  | finish {pid : ℕ} (hpid : actor = some pid) (o : Session) (reply : Reply) :
      Tends actor o (o.setTask pid (.done reply))
  | park {pid : ℕ} (hpid : actor = some pid) {o : Session} {h h' : Handler} {victim : ℕ}
      {stage : Stage} {reply : Reply} (hh : o.handler? pid = some h) (hrole : h'.role = h.role)
      (hphase : h'.phase = .teardown victim stage reply) :
      Tends actor o (o.setTask pid (.running h'))

open Relation (ReflTransGen)

/-- What keeps to the work of `_teardown` on a session, and to that on its tasks, holds between the
session before it and the one behind it. -/
theorem Session.Tolerates.follows {R : Session → Session → Prop} (hR : Tolerates R)
    (hset : ∀ (o : Session) (pid : ℕ) (t : Task), R o (o.setTask pid t)) {actor : Option ℕ}
    {o o' : Session} (ht : ReflTransGen (Tends actor) o o') : R o o' := by
  induction ht with
  | refl => exact hR.refl o
  | tail _ htend ih =>
    refine hR.trans ih ?_
    cases htend with
    | begin => exact hR.beginTeardown (fun o pid _ _ => hset o pid _) _
    | «continue» hres => exact hR.continueTeardown hres
    | finish | park => exact hset _ _ _

/-- A field that nothing but the work on the tasks or on other fields changes. -/
theorem Session.tolerates_field {α : Type*} {f : Session → α}
    (hflag : ∀ o : Session, f { o with closed := true } = f o)
    (hclose : ∀ (o : Session) (w : ℕ), f (o.close w) = f o)
    (hfinalise : ∀ (o : Session) (downQ : List (Option Bytes)),
      f { o with connBytes := none, downQ } = f o) :
    Tolerates fun o o' => f o' = f o where
  refl _ := rfl
  trans h₁ h₂ := h₂.trans h₁
  flag := hflag
  close := hclose
  finalise o := by
    obtain ⟨downQ, heq⟩ := finalise_eq o
    rw [heq]
    exact hfinalise o downQ

theorem Session.tasks_tolerates : Tolerates fun o o' => o'.tasks = o.tasks :=
  tolerates_field (fun _ => rfl) (fun _ _ => rfl) fun _ _ => rfl

theorem Session.shut_tasks (o : Session) : o.shut.1.tasks = o.tasks := tasks_tolerates.shut o

/-- A task that was set and runs is the one that was set. -/
theorem Session.setTask_of_handler? {o : Session} {pid : ℕ} {t : Task} {h : Handler}
    (hh : (o.setTask pid t).handler? pid = some h) : t = .running h := by
  rw [Session.handler?_eq_some] at hh
  unfold Session.setTask at hh
  rw [List.getElem?_set_self'] at hh
  obtain ⟨_, -, heq⟩ := Option.map_eq_some_iff.1 hh
  exact heq

/-- The later parts of `_teardown` leave the tasks alone. -/
theorem Session.continueTeardown_tasks {o : Session} {cancelled : Bool} {stage : Stage}
    {res : Session × Option Stage} (hres : o.continueTeardown cancelled stage = some res) :
    res.1.tasks = o.tasks := tasks_tolerates.continueTeardown hres

namespace EngineState

/-- All objects are tended. -/
def Follows (actor : ℕ → Option ℕ) (s s' : EngineState) : Prop :=
  s'.objects.length = s.objects.length ∧ ∀ k o, s.objects[k]? = some o →
    ∃ o', s'.objects[k]? = some o' ∧ ReflTransGen (Session.Tends (actor k)) o o'

namespace Follows

variable {actor : ℕ → Option ℕ} {s s' s₁ s₂ : EngineState} {i pid : ℕ} {o : Session} {h : Handler}

theorem of_objects (hobjects : s'.objects = s.objects) : Follows actor s s' :=
  ⟨by rw [hobjects], fun _ o ho => ⟨o, hobjects ▸ ho, .refl⟩⟩

theorem trans (h₁ : Follows actor s s₁) (h₂ : Follows actor s₁ s₂) : Follows actor s s₂ := by
  refine ⟨h₂.1.trans h₁.1, fun k o ho => ?_⟩
  obtain ⟨o₁, ho₁, hgen₁⟩ := h₁.2 k o ho
  obtain ⟨o₂, ho₂, hgen₂⟩ := h₂.2 k o₁ ho₁
  exact ⟨o₂, ho₂, hgen₁.trans hgen₂⟩

/-- One object is tended. -/
theorem modify {f : Session → Session}
    (hf : ∀ o, s.objects[i]? = some o → ReflTransGen (Session.Tends (actor i)) o (f o)) :
    Follows actor s { s with objects := s.objects.modify i f } := by
  refine ⟨by simp, fun k o ho => ?_⟩
  by_cases hik : i = k
  · subst hik
    exact ⟨f o, by simp [ho], hf o ho⟩
  · exact ⟨o, by simp [ho, hik], .refl⟩

theorem put {o' : Session} (ho : s.objects[i]? = some o)
    (ht : ReflTransGen (Session.Tends (actor i)) o o') : Follows actor s (s.put i o') := by
  unfold EngineState.put
  rw [List.set_eq_modify]
  refine modify fun o₁ ho₁ => ?_
  rw [ho] at ho₁
  cases ho₁
  exact ht

theorem done (hactor : actor i = some pid) (reply : Reply) :
    Follows actor s (s.setTask i pid (.done reply)) :=
  modify fun o _ => .single (.finish hactor o reply)

theorem waitTeardown (hactor : actor i = some pid) {victim : ℕ} {stage : Stage} {reply : Reply} :
    Follows actor s (s.waitTeardown i pid victim stage reply) := by
  refine modify fun o _ => ?_
  split
  · exact .refl
  · rename_i hh
    exact .single (.park hactor hh rfl rfl)

theorem beginTeardown (actor : ℕ → Option ℕ) (s : EngineState) (sid : String) :
    Follows actor s (s.beginTeardown sid).1 := by
  unfold EngineState.beginTeardown
  split
  · exact of_objects rfl
  · split
    · exact of_objects rfl
    · rename_i o ho
      exact (put ho (.single (.begin o))).trans (of_objects rfl)

/-- `_teardown` in a task, from the state in which it is called. -/
theorem teardown (hactor : actor i = some pid) (h : Handler) (reply : Reply) :
    Follows actor (s.setTask i pid (.running { h with cancelled := false }))
      (s.teardown i pid h reply) := by
  unfold EngineState.teardown
  dsimp only
  have hbegin := beginTeardown actor (s.setTask i pid (.running { h with cancelled := false })) h.sid
  split
  · rename_i heq
    rw [heq] at hbegin
    exact hbegin.trans (done hactor reply)
  · rename_i heq
    rw [heq] at hbegin
    exact hbegin.trans (waitTeardown hactor)

theorem resumeTeardown (hactor : actor i = some pid) (ho : s.objects[i]? = some o)
    (hh : o.handler? pid = some h) {victim : ℕ} {stage : Stage} {reply : Reply}
    (hres : s.resumeTeardown i pid h victim stage reply = some s') : Follows actor s s' := by
  unfold EngineState.resumeTeardown at hres
  split at hres
  · cases hres
  · rename_i ov hov
    split at hres
    · cases hres
    · rename_i hcont
      cases hres
      exact (put hov (.single (.continue hcont))).trans (done hactor reply)
    · rename_i ov' stage' hcont
      cases hres
      have hput : Follows actor s (s.put victim ov') := put hov (.single (.continue hcont))
      refine hput.trans (modify fun o₁ ho₁ => ?_)
      -- the task that goes on is still there, whether its own session was torn down or another one
      have hh₁ : o₁.handler? pid = some h := by
        unfold EngineState.put at ho₁
        simp only [List.getElem?_set] at ho₁
        split_ifs at ho₁ with hij hlt
        · subst hij
          rw [hov] at ho
          cases ho
          cases ho₁
          rwa [Session.handler?_eq_some, Session.continueTeardown_tasks hcont,
            ← Session.handler?_eq_some]
        · rw [ho] at ho₁
          cases ho₁
          exact hh
      exact .single (.park hactor hh₁ rfl rfl)

theorem sweep (s : EngineState) (sids : List String) : Follows actor s (s.sweep sids) := by
  induction sids generalizing s with
  | nil => exact of_objects rfl
  | cons sid todo ih =>
    unfold EngineState.sweep
    have hbegin := beginTeardown actor s sid
    split
    · rename_i heq
      rw [heq] at hbegin
      exact hbegin.trans (ih _)
    · rename_i heq
      rw [heq] at hbegin
      exact hbegin.trans (of_objects rfl)

theorem resumeReaper {victim : ℕ} {stage : Stage} (hres : s.resumeReaper victim stage = some s') :
    Follows actor s s' := by
  unfold EngineState.resumeReaper at hres
  split at hres
  · cases hres
  · rename_i ov hov
    split at hres
    · cases hres
    · rename_i hcont
      cases hres
      exact (put hov (.single (.continue hcont))).trans (sweep _ _)
    · rename_i hcont
      cases hres
      exact (put hov (.single (.continue hcont))).trans (of_objects rfl)

end Follows

/-- The object of a stretch, right behind it. -/
theorem setTask_put {s : EngineState} {i : ℕ} {o : Session} (ho : s.objects[i]? = some o)
    (o' : Session) (world : World) (pid : ℕ) (t : Task) :
    (({ s.put i o' with world } : EngineState).setTask i pid t).objects[i]? =
      some (o'.setTask pid t) := by
  have hself := getElem?_put_self ho o'
  unfold EngineState.setTask
  simp only [List.getElem?_modify_eq]
  rw [hself]
  rfl

/-- A task that calls `_teardown` is in it afterwards, or done. -/
theorem torn_of_teardown {s : EngineState} {i pid : ℕ} {h h' : Handler} {reply : Reply}
    {o' : Session} (ho' : (s.teardown i pid h reply).objects[i]? = some o')
    (hh' : o'.handler? pid = some h') : h'.phase.outside = false := by
  obtain ⟨s₁, -, ⟨-, heq⟩ | ⟨victim, stage, -, heq⟩⟩ := teardown_eq s i pid h reply
  · rw [heq] at ho'
    unfold EngineState.setTask at ho'
    rw [List.getElem?_modify_eq] at ho'
    obtain ⟨o₁, -, rfl⟩ := Option.map_eq_some_iff.1 ho'
    cases Session.setTask_of_handler? hh'
  · rw [heq] at ho'
    unfold EngineState.waitTeardown at ho'
    rw [List.getElem?_modify_eq] at ho'
    obtain ⟨o₁, -, rfl⟩ := Option.map_eq_some_iff.1 ho'
    split at hh'
    · rename_i hnone
      rw [hnone] at hh'
      cases hh'
    · cases Session.setTask_of_handler? hh'
      rfl

/-- Behind a stretch the objects are tended. -/
theorem conclude_follows (actor : ℕ → Option ℕ) (s : EngineState) {i pid : ℕ} (h : Handler)
    (out : Outcome) (hactor : actor i = some pid) :
    Follows actor
      (({ s.put i out.session with world := out.world } : EngineState).setTask i pid
        (out.next.left h)) (s.conclude i pid h out) := by
  unfold conclude Next.left
  cases out.next with
  | wait h' => exact .of_objects rfl
  | ends reply => exact .of_objects rfl
  | teardown reply => exact .teardown hactor h _

end EngineState

variable {e : Engine} {s s' : EngineState} {l : Label} {k : ℕ} {o o' : Session}

/-- A request that arrives is served on an object, or makes one. -/
theorem arrive_object {r : Request} (hr : l.request? e.kind = some r)
    (hin : l.admitted e.kind s.world = true) (ho : s.objects[k]? = some o) :
    ∃ o₁, o.Starts e s k l o₁ ∧
      (s.arrive r.uuid r.mode r.sid r.now r.serve).1.objects[k]? = some o₁ := by
  have hlt := (List.getElem?_eq_some_iff.1 ho).1
  cases hget : s.sessions.get? r.sid with
  | none =>
    rw [arrive_new hget]
    exact ⟨o, .still l o, (List.getElem?_append_left hlt).trans ho⟩
  | some i =>
    cases hi : s.objects[i]? with
    | none =>
      rw [arrive_lost hget hi]
      exact ⟨o, .still l o, ho⟩
    | some oi =>
      rw [arrive_old hget hi]
      by_cases hik : i = k
      · subst hik
        rw [ho] at hi
        cases hi
        exact ⟨_, .serve hr hin hget o, EngineState.getElem?_put_self ho _⟩
      · exact ⟨o, .still l o, (List.getElem?_set_ne hik).trans ho⟩

/-- **What a step does to one session object**, registered or not. -/
theorem object_step (hstep : (machine e).step s l = some s') (ho : s.objects[k]? = some o) :
    ∃ o₁ o', o.Starts e s k l o₁ ∧ ReflTransGen (Session.Tends (l.actor k)) o₁ o' ∧
      s'.objects[k]? = some o' := by
  -- no stretch, and the objects are tended
  have htended : ∀ {s'' : EngineState}, EngineState.Follows (l.actor ·) s s'' →
      ∃ o₁ o', o.Starts e s k l o₁ ∧ ReflTransGen (Session.Tends (l.actor k)) o₁ o' ∧
        s''.objects[k]? = some o' := by
    intro s'' hfollows
    obtain ⟨o', ho', hgen⟩ := hfollows.2 k o ho
    exact ⟨o, o', .still l o, hgen, ho'⟩
  have harrives : ∀ r, l.request? e.kind = some r → l.admitted e.kind s.world = true →
      ∃ o₁ o', o.Starts e s k l o₁ ∧ ReflTransGen (Session.Tends (l.actor k)) o₁ o' ∧
        (s.arrive r.uuid r.mode r.sid r.now r.serve).1.objects[k]? = some o' := by
    intro r hr hin
    obtain ⟨o₁, hstarts, ho₁⟩ := arrive_object hr hin ho
    exact ⟨o₁, o₁, hstarts, .refl, ho₁⟩
  obtain ⟨res, hhap, rfl⟩ := step_happens hstep
  cases hhap with
  | packetUp uuid sid seq now => exact harrives _ rfl rfl
  | streamUp uuid sid now monotonic => exact harrives _ rfl rfl
  | downlink mode uuid sid now clock hcheck => exact harrives _ rfl hcheck
  | refused => exact htended (.of_objects rfl)
  | inTeardown i pid inp m ho' hh hphase hres =>
    exact htended (.resumeTeardown (if_pos rfl) ho' hh hres)
  | stretch i pid inp m ho' hh hphase hout =>
    rename_i oi h out
    have hfollows := EngineState.conclude_follows (fun k => Label.actor k (.resume i pid inp m)) s h
      out (if_pos rfl : Label.actor i (.resume i pid inp m) = some pid)
    by_cases hik : i = k
    · subst hik
      rw [ho] at ho'
      cases ho'
      obtain ⟨o', ho'', hgen⟩ := hfollows.2 i _ (EngineState.setTask_put ho _ _ _ _)
      exact ⟨_, o', .stretch pid inp m hh hphase hout, hgen, ho''⟩
    · have hother : (({ s.put i out.session with world := out.world } : EngineState).setTask i pid
          (out.next.left h)).objects[k]? = some o := by
        unfold EngineState.setTask EngineState.put
        simp [hik, List.getElem?_set_ne hik, ho]
      obtain ⟨o', ho'', hgen⟩ := hfollows.2 k _ hother
      exact ⟨o, o', .still _ o, hgen, ho''⟩
  | lose i w ho' =>
    by_cases hik : i = k
    · subst hik
      rw [ho] at ho'
      cases ho'
      exact ⟨_, _, .lose w o, .refl, EngineState.getElem?_put_self ho _⟩
    · exact ⟨o, o, .still _ o, .refl, (List.getElem?_set_ne hik).trans ho⟩
  | reap now hidle => exact htended (.sweep _ _)
  | sweep hbusy hres => exact htended (.resumeReaper hres)
  | other accounts hashCache => exact htended (.of_objects rfl)

/-- A task that goes on outside `_teardown` does a stretch. -/
theorem resume_conclude {pid : ℕ} {inp : Input} {m : Moment} {h : Handler}
    (hstep : (machine e).step s (.resume k pid inp m) = some s') (ho : s.objects[k]? = some o)
    (hh : o.handler? pid = some h) (hphase : h.phase.outside = true) :
    ∃ out, proceed e inp m h s.world o = some out ∧ s' = s.conclude k pid h out := by
  obtain ⟨res, hhap, rfl⟩ := step_happens hstep
  cases hhap with
  | inTeardown _ _ _ _ ho' hh' hphase' =>
    rw [ho] at ho'
    cases ho'
    rw [hh] at hh'
    cases hh'
    rw [hphase'] at hphase
    cases hphase
  | stretch i pid inp m ho' hh' hphase' hout =>
    rename_i o₁ h₁ out
    rw [ho] at ho'
    cases ho'
    rw [hh] at hh'
    cases hh'
    exact ⟨out, hout, rfl⟩

/-- What a task does to its own object when it goes on outside `_teardown`. -/
theorem object_resume {pid : ℕ} {inp : Input} {m : Moment} {h : Handler}
    (hstep : (machine e).step s (.resume k pid inp m) = some s') (ho : s.objects[k]? = some o)
    (hh : o.handler? pid = some h) (hphase : h.phase.outside = true) :
    ∃ out o', proceed e inp m h s.world o = some out ∧
      ReflTransGen (Session.Tends (some pid)) (out.session.setTask pid (out.next.left h)) o' ∧
      s'.objects[k]? = some o' := by
  obtain ⟨out, hout, rfl⟩ := resume_conclude hstep ho hh hphase
  have hfollows : EngineState.Follows (fun _ => some pid) _ (s.conclude k pid h out) :=
    EngineState.conclude_follows _ s h out rfl
  obtain ⟨o', ho', hgen⟩ := hfollows.2 k _ (EngineState.setTask_put ho _ _ _ _)
  exact ⟨out, o', hout, hgen, ho'⟩

/-- An object is made by the request that needs it. -/
theorem object_born (hstep : (machine e).step s l = some s') (ho : s.objects[k]? = none)
    (ho' : s'.objects[k]? = some o') :
    ∃ r, l.request? e.kind = some r ∧ l.admitted e.kind s.world = true ∧
      s.sessions.get? r.sid = none ∧ k = s.objects.length ∧
      o' = (Session.init r.uuid r.mode r.now).serve r.serve := by
  have hle := List.getElem?_eq_none_iff.1 ho
  have hlt := (List.getElem?_eq_some_iff.1 ho').1
  -- the other steps make none
  have hsame : s'.objects.length ≠ s.objects.length := by omega
  have harrives : ∀ r, l.request? e.kind = some r → l.admitted e.kind s.world = true →
      (s.arrive r.uuid r.mode r.sid r.now r.serve).1 = s' →
        ∃ r, l.request? e.kind = some r ∧ l.admitted e.kind s.world = true ∧
          s.sessions.get? r.sid = none ∧ k = s.objects.length ∧
          o' = (Session.init r.uuid r.mode r.now).serve r.serve := by
    intro r hr hin heq
    subst heq
    cases hget : s.sessions.get? r.sid with
    | none =>
      rw [arrive_new hget] at ho' hlt
      simp only [List.length_append, List.length_singleton] at hlt
      have hk : k = s.objects.length := by omega
      subst hk
      simp only [List.getElem?_concat_length, Option.some.injEq] at ho'
      exact ⟨r, hr, hin, hget, rfl, ho'.symm⟩
    | some i =>
      cases hi : s.objects[i]? with
      | none =>
        rw [arrive_lost hget hi] at hlt
        exact absurd (hlt.trans_le hle) (lt_irrefl _)
      | some oi =>
        rw [arrive_old hget hi] at hlt
        unfold EngineState.put at hlt
        simp only [List.length_set] at hlt
        omega
  obtain ⟨res, hhap, heq⟩ := step_happens hstep
  cases hhap with
  | packetUp uuid sid seq now => exact harrives _ rfl rfl heq
  | streamUp uuid sid now monotonic => exact harrives _ rfl rfl heq
  | downlink mode uuid sid now clock hcheck => exact harrives _ rfl hcheck heq
  | refused => subst heq; exact absurd rfl hsame
  | inTeardown i pid inp m hoi hh hphase hres =>
    subst heq
    have hfollows : EngineState.Follows (fun _ => some pid) s _ := .resumeTeardown rfl hoi hh hres
    exact absurd hfollows.1 hsame
  | stretch i pid inp m hoi hh hphase hout =>
    rename_i oi h out
    subst heq
    have hfollows : EngineState.Follows (fun _ => some pid) _ (s.conclude i pid h out) :=
      EngineState.conclude_follows _ s h out rfl
    refine absurd (hfollows.1.trans ?_) hsame
    simp [EngineState.setTask, EngineState.put]
  | lose i w hoi => subst heq; exact absurd (List.length_set ..) hsame
  | reap now hidle =>
    subst heq
    have hfollows : EngineState.Follows (fun _ => none) s _ := .sweep s (s.staleSessions now)
    exact absurd hfollows.1 hsame
  | sweep hbusy hres =>
    subst heq
    have hfollows : EngineState.Follows (fun _ => none) s _ := .resumeReaper hres
    exact absurd hfollows.1 hsame
  | other accounts hashCache => subst heq; exact absurd rfl hsame

/-- A task that calls `_teardown` is in it behind the step, or done. -/
theorem object_torn {pid : ℕ} {inp : Input} {m : Moment} {h h' : Handler} {out : Outcome}
    {reply : Reply} (hstep : (machine e).step s (.resume k pid inp m) = some s')
    (ho : s.objects[k]? = some o) (hh : o.handler? pid = some h) (hphase : h.phase.outside = true)
    (hout : proceed e inp m h s.world o = some out) (hnext : out.next = .teardown reply)
    (ho' : s'.objects[k]? = some o') (hh' : o'.handler? pid = some h') :
    h'.phase.outside = false := by
  obtain ⟨out₁, hout₁, rfl⟩ := resume_conclude hstep ho hh hphase
  rw [hout] at hout₁
  cases hout₁
  unfold EngineState.conclude at ho'
  dsimp only at ho'
  rw [hnext] at ho'
  exact EngineState.torn_of_teardown ho' hh'

/-- A task that goes on or ends without `_teardown` does only its stretch. -/
theorem object_stretch {pid : ℕ} {inp : Input} {m : Moment} {h : Handler} {out : Outcome} {t : Task}
    (hstep : (machine e).step s (.resume k pid inp m) = some s') (ho : s.objects[k]? = some o)
    (hh : o.handler? pid = some h) (hphase : h.phase.outside = true)
    (hout : proceed e inp m h s.world o = some out) (hnext : out.next.task? = some t) :
    s'.objects[k]? = some (out.session.setTask pid t) := by
  have hset : ∀ t : Task, (({ s.put k out.session with world := out.world } : EngineState).setTask k
      pid t).objects[k]? = some (out.session.setTask pid t) := EngineState.setTask_put ho _ _ _
  obtain ⟨out₁, hout₁, rfl⟩ := resume_conclude hstep ho hh hphase
  rw [hout] at hout₁
  cases hout₁
  unfold EngineState.conclude
  dsimp only
  split
  · rename_i heq
    rw [heq] at hnext
    cases hnext
    exact hset _
  · rename_i heq
    rw [heq] at hnext
    cases hnext
    exact hset _
  · rename_i heq
    rw [heq] at hnext
    cases hnext

end Xhttp

end RvgGateway
