import RvgGateway.Xhttp.Effect
import RvgGateway.Xhttp.Isolation
import RvgGateway.Xhttp.ObjectStep

/-!
# Does a download learn that its session has ended?

A download takes items out of `down_q` until it takes the end marker.  `_teardown` puts the marker
in last, with `put_nowait`, and swallows the error of a full queue.  The downloads of a session are
followed here with a record of what they took; a session has one.

* `Signalled` : behind the data of a session that was torn down stands the end marker, or it was
  taken; no download of it waits at an empty queue.
* `Heard` : a `_teardown` that comes to its end finds room for the marker, and no pump puts data
  behind the marker.
* `signalled_iff_heard` : **every state of a run is signalled exactly when its steps are heard.**
-/

namespace RvgGateway

namespace Xhttp

/-! ### The engine with its downloads -/

/-- An engine, and what its downloads took. -/
structure Downloads where
  engine : EngineState
  /-- The objects that a download was let in for. -/
  served : List ℕ
  /-- The objects whose end marker was taken. -/
  received : List ℕ

namespace Downloads

/-- An engine without sessions. -/
def init (world : World) : Downloads := ⟨.init world, [], []⟩

/-- The object that a `GET` is served on. -/
def servedBy (e : Engine) (s : EngineState) : Label → Option ℕ
  | .downlink _ uuid sid _ clock =>
    if checkLink e.kind s.world clock uuid then
      some ((s.sessions.get? sid).getD s.objects.length)
    else none
  | _ => none

/-- The object whose end marker is taken. -/
def markerOf (s : EngineState) : Label → Option ℕ
  | .resume k pid .go _ =>
    match s.objects[k]? with
    | none => none
    | some o =>
      match (o.handler? pid).map fun h => (h.role, h.phase), o.downQ with
      | some (Role.downlink, Phase.input), none :: _ => some k
      | _, _ => none
  | _ => none

end Downloads

open Downloads (servedBy markerOf)

/-- The engine, with at most one download for each session. -/
def downloadMachine (e : Engine) : Machine Downloads Label where
  step s l :=
    if ∃ k ∈ servedBy e s.engine l, k ∈ s.served then none
    else ((machine e).step s.engine l).map fun engine =>
      { engine
        served := (servedBy e s.engine l).toList ++ s.served
        received := (markerOf s.engine l).toList ++ s.received }

/-! ### The claim and its condition -/

/-- The `_teardown` of the object has come to its end. -/
def Session.Ended (o : Session) : Prop := o.connBytes = none

instance (o : Session) : Decidable o.Ended := inferInstanceAs (Decidable (_ = _))

/-- If the session has ended, then the end marker is at the end of its queue, unless the download
took it, and no download of it waits at an empty queue. -/
def Session.Signals (received : Prop) (o : Session) : Prop :=
  o.Ended → (o.downQ.getLast? = some none ∨ received) ∧
    ∀ pid h, o.handler? pid = some h → h.role = .downlink → o.downQ ≠ []

/-- All sessions that have ended are signalled. -/
def Downloads.Signalled (s : Downloads) : Prop :=
  ∀ (k : ℕ) (o : Session), s.engine.objects[k]? = some o → o.Signals (k ∈ s.received)

/-- A `_teardown` that comes to its end finds room in the queue, and no pump puts data behind an end
marker that was not taken. -/
def Heard (e : Engine) (s : Downloads) (l : Label) : Prop :=
  (∀ (k : ℕ) (o o' : Session) (s' : EngineState), s.engine.objects[k]? = some o → ¬ o.Ended →
    (machine e).step s.engine l = some s' → s'.objects[k]? = some o' → o'.Ended →
      o.downQ.length < downlinkQueueMax) ∧
  ∀ (k pid : ℕ) (inp : Input) (m : Moment) (o : Session) (h : Handler), l = .resume k pid inp m →
    s.engine.objects[k]? = some o → o.handler? pid = some h → o.Ended → k ∉ s.received →
      ¬ Puts inp m h s.engine.world o

/-! ### Session objects -/

/-- What is always so of the object `k`: before its end there is no end marker, and it has at most
one download, which is gone when it took the marker. -/
structure Session.Tuned (served received : Prop) (o : Session) : Prop where
  unmarked : ¬ o.Ended → none ∉ o.downQ ∧ ¬ received
  unserved : ¬ served → ∀ pid h, o.handler? pid = some h → h.role ≠ .downlink
  single : ∀ pid pid' h h', o.handler? pid = some h → o.handler? pid' = some h' →
    h.role = .downlink → h'.role = .downlink → pid = pid'
  done : received → served ∧ ∀ pid h, o.handler? pid = some h → h.role ≠ .downlink

/-- What `_teardown` does to the queue: nothing, or it ends with an attempt to put the marker. -/
def Session.Closes (o o' : Session) : Prop :=
  (o'.Ended ↔ o.Ended) ∧ o'.downQ = o.downQ ∨
    o'.Ended ∧ ((o.downQ.length < downlinkQueueMax ∧
        ∃ n, o'.downQ = o.downQ ++ List.replicate (n + 1) none) ∨
      downlinkQueueMax ≤ o.downQ.length ∧ o'.downQ = o.downQ)

namespace Session

variable {o o₁ o₂ o' : Session}

theorem Closes.refl (o : Session) : o.Closes o := .inl ⟨Iff.rfl, rfl⟩

theorem Closes.trans (h₁ : o.Closes o₁) (h₂ : o₁.Closes o₂) : o.Closes o₂ := by
  rcases h₁ with ⟨hended₁, hqueue₁⟩ | ⟨hended₁, hqueue₁⟩
  · unfold Closes at h₂ ⊢
    rwa [hended₁, hqueue₁] at h₂
  · rcases h₂ with ⟨hended₂, hqueue₂⟩ | ⟨hended₂, hqueue₂⟩
    · exact .inr ⟨hended₂.2 hended₁, by rwa [hqueue₂]⟩
    · refine .inr ⟨hended₂, ?_⟩
      rcases hqueue₁ with ⟨hroom, n, hqueue₁⟩ | ⟨hfull, hqueue₁⟩
      · rcases hqueue₂ with ⟨-, m, hqueue₂⟩ | ⟨-, hqueue₂⟩
        · refine .inl ⟨hroom, n + 1 + m, ?_⟩
          rw [hqueue₂, hqueue₁, List.append_assoc, List.replicate_append_replicate]
          rfl
        · exact .inl ⟨hroom, n, hqueue₂.trans hqueue₁⟩
      · rcases hqueue₂ with ⟨hroom, -⟩ | ⟨-, hqueue₂⟩
        · rw [hqueue₁] at hroom
          omega
        · exact .inr ⟨hfull, hqueue₂.trans hqueue₁⟩

theorem closes_finalise (o : Session) : o.Closes o.finalise := by
  unfold finalise putNowait
  dsimp only
  split
  · rename_i hroom
    exact .inr ⟨rfl, .inl ⟨hroom, 0, rfl⟩⟩
  · rename_i hfull
    exact .inr ⟨rfl, .inr ⟨Nat.not_lt.1 hfull, rfl⟩⟩

theorem closes_tolerates : Tolerates Closes where
  refl := .refl
  trans := .trans
  flag _ := .inl ⟨Iff.rfl, rfl⟩
  close _ _ := .inl ⟨Iff.rfl, rfl⟩
  finalise := closes_finalise

/-- `_teardown` does nothing else to the queue. -/
theorem Closes.follows {actor : Option ℕ} (ht : Relation.ReflTransGen (Tends actor) o o') :
    o.Closes o' :=
  closes_tolerates.follows (fun _ _ _ => .inl ⟨Iff.rfl, rfl⟩) ht

end Session

/-! ### What a step does to a queue -/

variable {e : Engine} {o o₁ o' : Session}

/-- No download is added. -/
def Session.NoDownload (o o' : Session) : Prop :=
  ∀ pid h', o'.handler? pid = some h' → h'.role = .downlink →
    ∃ h, o.handler? pid = some h ∧ h.role = .downlink

namespace Session.NoDownload

theorem refl (o : Session) : o.NoDownload o := fun _ h hh hrole => ⟨h, hh, hrole⟩

theorem trans (h₁ : o.NoDownload o₁) (h₂ : o₁.NoDownload o') : o.NoDownload o' := by
  intro pid h' hh' hrole'
  obtain ⟨h, hh, hrole⟩ := h₂ pid h' hh' hrole'
  exact h₁ pid h hh hrole

theorem of_tended (ht : o.Tended o') : o.NoDownload o' := by
  intro pid h' hh' hrole'
  obtain ⟨h, hh, -, -, hrole, -⟩ := ht.handler_of pid h' hh'
  exact ⟨h, hh, hrole ▸ hrole'⟩

theorem tends {actor : Option ℕ} (ht : Session.Tends actor o o') : o.NoDownload o' := by
  cases ht with
  | begin => exact of_tended (.beginTeardown o)
  | «continue» hres => exact of_tended (.continueTeardown hres)
  | finish =>
    intro pid' h' hh' hrole'
    rcases handler?_of_setTask hh' with ⟨-, heq⟩ | hold
    · cases heq
    · exact ⟨h', hold, hrole'⟩
  | park hpid hh hrole =>
    rename_i h₀ _ _ _ _ _
    intro pid' h' hh' hrole'
    rcases handler?_of_setTask hh' with ⟨heq, htask⟩ | hold
    · cases htask
      exact ⟨h₀, heq ▸ hh, hrole ▸ hrole'⟩
    · exact ⟨h', hold, hrole'⟩

theorem follows {actor : Option ℕ} (ht : Relation.ReflTransGen (Session.Tends actor) o o') :
    o.NoDownload o' := by
  induction ht with
  | refl => exact refl o
  | tail _ htend ih => exact ih.trans (tends htend)

end Session.NoDownload

theorem Role.kind_eq_downlink {r : Role} : r.kind = .downlink ↔ r = .downlink := by
  cases r <;> simp [Role.kind]

/-- A stretch adds no download: the pump that it starts is none, and its handler stays what it is. -/
theorem noDownload_stretch {inp : Input} {m : Moment} {h : Handler} {world : World} {out : Outcome}
    {pid : ℕ} (hh : o.handler? pid = some h) (hout : proceed e inp m h world o = some out)
    (hwait : ∀ h', out.next = .wait h' → h'.role = .downlink → h.role = .downlink) :
    o.NoDownload (out.session.setTask pid (out.next.left h)) := by
  intro pid' h' hh' hrole'
  rcases Session.handler?_of_setTask hh' with ⟨rfl, htask⟩ | hold
  · cases hnext : out.next with
    | wait h₁ =>
      rw [hnext] at htask
      cases htask
      exact ⟨h, hh, hwait h' hnext hrole'⟩
    | ends reply =>
      rw [hnext] at htask
      cases htask
    | teardown reply =>
      rw [hnext] at htask
      cases htask
      exact ⟨h, hh, hrole'⟩
  · rcases (proceed_stays hout).tasks_eq with htasks | ⟨p, htasks, -, -, -, w, gate, first, hpump⟩
    · refine ⟨h', ?_, hrole'⟩
      unfold Session.handler? at hold ⊢
      rwa [htasks] at hold
    · rcases Session.handler?_of_append htasks (Session.handler?_eq_some.1 hold) with heq | hold
      · cases heq
        rw [hpump] at hrole'
        cases hrole'
      · exact ⟨h', hold, hrole'⟩

theorem handler_kind {h h' : Handler} (hkind : h'.role.kind = h.role.kind)
    (hrole' : h'.role = .downlink) : h.role = .downlink := by
  rw [← Role.kind_eq_downlink, ← hkind, hrole']
  rfl

/-! ### What a step does to a queue -/

/-- What a step does to an object that there was before, seen from its queue and its downloads. -/
inductive Session.Moves (e : Engine) (s : EngineState) (k : ℕ) (l : Label) (o o' : Session) : Prop
  | closes (hmarker : markerOf s l ≠ some k) (hcloses : o.Closes o') (hdown : o.NoDownload o')
  /-- A download is let in. -/
  | serve (hmarker : markerOf s l ≠ some k) (hserved : servedBy e s l = some k)
      (hcloses : o.Closes o')
      (hdown : ∀ pid h', o'.handler? pid = some h' → h'.role = .downlink →
        pid = o.tasks.length ∨ ∃ h, o.handler? pid = some h ∧ h.role = .downlink)
  /-- The download takes an item, and is gone behind the end marker. -/
  | took (pid : ℕ) (h : Handler) (item : Option Bytes) (hh : o.handler? pid = some h)
      (hrole : h.role = .downlink) (hmarker : markerOf s l = some k ↔ item = none)
      (hended : o'.Ended ↔ o.Ended) (downQ : o.downQ = item :: o'.downQ) (hdown : o.NoDownload o')
      (hgone : item = none → o'.handler? pid = none)
  /-- The pump puts data. -/
  | put (pid : ℕ) (inp : Input) (m : Moment) (h : Handler) (data : Bytes)
      (hl : l = .resume k pid inp m) (hh : o.handler? pid = some h) (hputs : Puts inp m h s.world o)
      (hmarker : markerOf s l ≠ some k) (hended : o'.Ended ↔ o.Ended)
      (downQ : o'.downQ = o.downQ ++ [some data]) (hdown : o.NoDownload o')

section Moves

variable {s s' : EngineState} {k : ℕ} {l : Label}

/-- The end marker is taken by a download. -/
theorem markerOf_some (hmarker : markerOf s l = some k) :
    ∃ pid m o h rest, l = .resume k pid .go m ∧ s.objects[k]? = some o ∧ o.handler? pid = some h ∧
      h.role = .downlink ∧ h.phase = .input ∧ o.downQ = none :: rest := by
  unfold markerOf at hmarker
  split at hmarker
  · rename_i i pid m
    split at hmarker
    · cases hmarker
    · rename_i o ho
      split at hmarker
      · rename_i rest hhandler hqueue
        cases hmarker
        obtain ⟨h, hh, heq⟩ := Option.map_eq_some_iff.1 hhandler
        obtain ⟨hrole, hphase⟩ := Prod.mk.injEq .. ▸ heq
        exact ⟨pid, m, o, h, rest, rfl, ho, hh, hrole, hphase, hqueue⟩
      · cases hmarker
  · cases hmarker

theorem markerOf_eq {pid : ℕ} {m : Moment} {h : Handler} {rest : List (Option Bytes)}
    (ho : s.objects[k]? = some o) (hh : o.handler? pid = some h) (hrole : h.role = .downlink)
    (hphase : h.phase = .input) (hqueue : o.downQ = none :: rest) :
    markerOf s (.resume k pid .go m) = some k := by
  unfold markerOf
  simp only [ho, hh, hqueue, Option.map_some, hrole, hphase]

/-- The first stretch of a request leaves the queue alone, and adds one task. -/
theorem serve_download {r : Request} (hr : l.request? e.kind = some r)
    (hin : l.admitted e.kind s.world = true) (o : Session) :
    ((o.serve r.serve).Ended ↔ o.Ended) ∧ (o.serve r.serve).downQ = o.downQ ∧
      ∃ t, (o.serve r.serve).tasks = o.tasks ++ [t] ∧ ∀ h, t = .running h → h.role = .downlink →
        servedBy e s l = some ((s.sessions.get? r.sid).getD s.objects.length) := by
  rcases Serves.serve_cases r.serve o with ⟨-, heq⟩ | ⟨-, heq⟩
  · rw [heq]
    exact ⟨Iff.rfl, rfl, _, rfl, fun h htask => (by cases htask)⟩
  · rw [heq]
    cases l with
    | packetUp uuid sid seq now =>
      cases hr
      refine ⟨Iff.rfl, rfl, _, rfl, fun h htask hrole => ?_⟩
      cases htask
      cases hrole
    | streamUp uuid sid now monotonic =>
      cases hr
      unfold serveStreamUp
      dsimp only
      split
      · exact ⟨Iff.rfl, rfl, _, rfl, fun h htask => (by cases htask)⟩
      · refine ⟨Iff.rfl, rfl, _, rfl, fun h htask hrole => ?_⟩
        cases htask
        cases hrole
    | downlink mode uuid sid now clock =>
      cases hr
      refine ⟨Iff.rfl, rfl, _, rfl, fun h _ _ => ?_⟩
      have hcheck : checkLink e.kind s.world clock uuid = true := hin
      unfold servedBy
      simp only [hcheck, if_true]
    | resume | lose | reap | sweep | other => cases hr

/-- A request that is served on the object. -/
theorem moves_serve {r : Request} {actor : Option ℕ} (hr : l.request? e.kind = some r)
    (hin : l.admitted e.kind s.world = true) (hget : s.sessions.get? r.sid = some k)
    (ht : Relation.ReflTransGen (Session.Tends actor) ({ o with lastSeen := r.now }.serve r.serve)
      o') : o.Moves e s k l o' := by
  have hmarker : markerOf s l ≠ some k := by
    intro hmarker
    obtain ⟨pid, m, -, -, -, rfl, -⟩ := markerOf_some hmarker
    cases hr
  obtain ⟨hended, hqueue, t, htasks, htask⟩ := serve_download hr hin { o with lastSeen := r.now }
  rw [hget] at htask
  have hcloses : o.Closes o' := by
    refine Session.Closes.trans (.inl ⟨hended, hqueue⟩) (Session.Closes.follows ht)
  have hdown := Session.NoDownload.follows ht
  by_cases hserved : servedBy e s l = some k
  · refine .serve hmarker hserved hcloses fun pid h' hh' hrole' => ?_
    obtain ⟨h, hh, hrole⟩ := hdown pid h' hh' hrole'
    rw [Session.handler?_eq_some, htasks, List.getElem?_append] at hh
    split_ifs at hh with hlt
    · exact .inr ⟨h, Session.handler?_eq_some.2 hh, hrole⟩
    · have hbound : pid - o.tasks.length < 1 := (List.getElem?_eq_some_iff.1 hh).1
      have hge : o.tasks.length ≤ pid := Nat.not_lt.1 hlt
      exact .inl (by omega)
  · refine .closes hmarker hcloses fun pid h' hh' hrole' => ?_
    obtain ⟨h, hh, hrole⟩ := hdown pid h' hh' hrole'
    rw [Session.handler?_eq_some] at hh
    rcases Session.handler?_of_append htasks hh with heq | hold
    · exact absurd (htask h heq hrole) hserved
    · exact ⟨h, hold, hrole⟩

/-- A stretch of a task of the object. -/
theorem moves_stretch {pid : ℕ} {inp : Input} {m : Moment} {h : Handler} {out : Outcome}
    (hmarker : markerOf s (.resume k pid inp m) ≠ some k)
    (hstep : (machine e).step s (.resume k pid inp m) = some s') (ho : s.objects[k]? = some o)
    (hh : o.handler? pid = some h) (hphase : h.phase.outside = true)
    (hout : proceed e inp m h s.world o = some out)
    (ht : Relation.ReflTransGen (Session.Tends (some pid)) (out.session.setTask pid (out.next.left h))
      o') (ho' : s'.objects[k]? = some o') : o.Moves e s k (.resume k pid inp m) o' := by
  -- a handler that goes on as what it is, on the same queue
  have hsame : (out.session.connBytes = none ↔ o.connBytes = none) → out.session.downQ = o.downQ →
      (∀ h', out.next = .wait h' → h'.role.kind = h.role.kind) →
      o.Moves e s k (.resume k pid inp m) o' := by
    intro hended hqueue hwait
    have hcloses : o.Closes (out.session.setTask pid (out.next.left h)) := .inl ⟨hended, hqueue⟩
    have hdown := noDownload_stretch hh hout fun h' hnext => handler_kind (hwait h' hnext)
    exact .closes hmarker (hcloses.trans (.follows ht)) (hdown.trans (.follows ht))
  -- a handler that does not call `_teardown`
  have hexact : ∀ t, out.next.task? = some t → o' = out.session.setTask pid t := by
    intro t htask
    have hstretch := object_stretch hstep ho hh hphase hout htask
    rw [ho'] at hstretch
    exact Option.some.inj hstretch
  cases proceed_effect hout with
  | plain keeps goes silent =>
    exact hsame keeps.ended keeps.downQ fun h' hnext => (goes.wait h' hnext).1
  | wrote w hopen keeps goes =>
    exact hsame keeps.ended keeps.downQ fun h' hnext => (goes.wait h' hnext).1
  | opened data header isTrojan _ _ _ keeps _ hnext =>
    refine hsame keeps.ended keeps.downQ fun h' hnext' => ?_
    rw [hnext] at hnext'
    cases hnext'
    rfl
  | crashed data seq _ _ _ _ _ keeps hnext =>
    refine hsame keeps.ended keeps.downQ fun h' hnext' => ?_
    rw [hnext] at hnext'
    cases hnext'
  | connected header isTrojan _ _ _ hconn downQ _ hwait =>
    exact hsame (by rw [hconn]) downQ hwait
  | took item hrole hinput hinp _ hconn downQ _ hnext =>
    subst hinp
    have hdown := noDownload_stretch hh hout fun _ _ _ => hrole
    cases item with
    | none => exact absurd (markerOf_eq ho hh hrole hinput downQ) hmarker
    | some data =>
      rw [if_neg (by simp)] at hnext
      obtain rfl := hexact (.running h) (by rw [hnext]; rfl)
      rw [hnext] at hdown
      exact .took pid h (some data) hh hrole (by simp [hmarker])
        (by unfold Session.Ended; rw [← hconn]; rfl) downQ hdown (by simp)
  | put data hputs _ ended downQ _ goes hwait =>
    obtain ⟨h', hnext⟩ := hwait
    have hdown := noDownload_stretch hh hout fun h' hnext => handler_kind (goes.wait h' hnext).1
    obtain rfl := hexact (.running h') (by rw [hnext]; rfl)
    rw [hnext] at hdown
    exact .put pid inp m h data rfl hh hputs hmarker ended downQ hdown

/-- The download takes the end marker. -/
theorem moves_marker (hmarker : markerOf s l = some k) (hstep : (machine e).step s l = some s')
    (ho : s.objects[k]? = some o) : ∃ o', s'.objects[k]? = some o' ∧ o.Moves e s k l o' := by
  obtain ⟨pid, m, o₀, h, rest, rfl, ho₀, hh, hrole, hphase, hqueue⟩ := markerOf_some hmarker
  rw [ho] at ho₀
  cases ho₀
  have hout : proceed e .go m h s.world o =
      some ⟨s.world, { o with downQ := rest }, .ends .ok, []⟩ := by
    unfold proceed proceedDownlink
    simp only [hrole, hphase, hqueue]
  have hlt : pid < o.tasks.length :=
    (List.getElem?_eq_some_iff.1 (Session.handler?_eq_some.1 hh)).1
  have hgone :
      Session.handler? (Session.setTask { o with downQ := rest } pid (.done .ok)) pid = none := by
    unfold Session.handler? Session.setTask
    simp [hlt, Task.handler?]
  refine ⟨_, object_stretch hstep ho hh (by rw [hphase]; rfl) hout rfl, ?_⟩
  have hdown := noDownload_stretch hh hout fun _ _ _ => hrole
  exact .took pid h none hh hrole (by simp [hmarker]) Iff.rfl hqueue hdown fun _ => hgone

/-- **What a step does to the queue** of an object. -/
theorem object_moves (hstep : (machine e).step s l = some s') (ho : s.objects[k]? = some o) :
    ∃ o', s'.objects[k]? = some o' ∧ o.Moves e s k l o' := by
  by_cases hmarker : markerOf s l = some k
  · exact moves_marker hmarker hstep ho
  · obtain ⟨o₁, o', hstarts, ht, ho'⟩ := object_step hstep ho
    refine ⟨o', ho', ?_⟩
    cases hstarts with
    | still => exact .closes hmarker (.follows ht) (.follows ht)
    | serve hr hin hget => exact moves_serve hr hin hget ht
    | stretch pid inp m hh hphase hout =>
      rw [show Label.actor k (.resume k pid inp m) = some pid from if_pos rfl] at ht
      exact moves_stretch hmarker hstep ho hh hphase hout ht ho'
    | lose w =>
      have hcloses : o.Closes (o.close w) := .inl ⟨Iff.rfl, rfl⟩
      have hdown : o.NoDownload (o.close w) := .of_tended (.close o w)
      exact .closes hmarker (hcloses.trans (.follows ht)) (hdown.trans (.follows ht))

end Moves

/-! ### Runs -/

variable {s s' : Downloads} {l : Label} {k : ℕ}

/-- A step of the engine, and what it adds to the records. -/
theorem download_step (hstep : (downloadMachine e).step s l = some s') :
    (machine e).step s.engine l = some s'.engine ∧
      (∀ k, k ∈ s'.served ↔ servedBy e s.engine l = some k ∨ k ∈ s.served) ∧
      (∀ k, k ∈ s'.received ↔ markerOf s.engine l = some k ∨ k ∈ s.received) ∧
      ∀ k, servedBy e s.engine l = some k → k ∉ s.served := by
  unfold downloadMachine at hstep
  dsimp only at hstep
  split at hstep
  · cases hstep
  · rename_i hfree
    obtain ⟨engine, hengine, rfl⟩ := Option.map_eq_some_iff.1 hstep
    exact ⟨hengine, fun k => by simp, fun k => by simp, fun k hk hmem => hfree ⟨k, hk, hmem⟩⟩

/-- All objects are tuned, and the records name objects. -/
structure Downloads.Sound (s : Downloads) : Prop where
  wellFormed : s.engine.WellFormed
  tuned : ∀ (k : ℕ) (o : Session), s.engine.objects[k]? = some o →
    o.Tuned (k ∈ s.served) (k ∈ s.received)
  served_lt : ∀ k ∈ s.served, k < s.engine.objects.length
  received_served : ∀ k ∈ s.received, k ∈ s.served

theorem Downloads.Sound.init (world : World) : (Downloads.init world).Sound where
  wellFormed := .init world
  tuned k o ho := by cases ho
  served_lt k hk := by cases hk
  received_served k hk := by cases hk

section Tuned

variable {served received served' received' : Prop}

/-- No download is added, and the end marker is not taken. -/
theorem Session.Tuned.mono (ho : o.Tuned served received) (hdown : o.NoDownload o')
    (hserved : served → served') (hreceived : received' ↔ received)
    (hunmarked : ¬ o'.Ended → none ∉ o'.downQ ∧ ¬ o.Ended) : o'.Tuned served' received' where
  unmarked hended := by
    obtain ⟨hmark, hended⟩ := hunmarked hended
    exact ⟨hmark, fun hrec => (ho.unmarked hended).2 (hreceived.1 hrec)⟩
  unserved hnot pid h' hh' hrole' := by
    obtain ⟨h, hh, hrole⟩ := hdown pid h' hh' hrole'
    exact ho.unserved (fun hs => hnot (hserved hs)) pid h hh hrole
  single pid₁ pid₂ h₁' h₂' hh₁' hh₂' hrole₁' hrole₂' := by
    obtain ⟨h₁, hh₁, hrole₁⟩ := hdown pid₁ h₁' hh₁' hrole₁'
    obtain ⟨h₂, hh₂, hrole₂⟩ := hdown pid₂ h₂' hh₂' hrole₂'
    exact ho.single pid₁ pid₂ h₁ h₂ hh₁ hh₂ hrole₁ hrole₂
  done hrec := by
    obtain ⟨hs, hnone⟩ := ho.done (hreceived.1 hrec)
    refine ⟨hserved hs, fun pid h' hh' hrole' => ?_⟩
    obtain ⟨h, hh, hrole⟩ := hdown pid h' hh' hrole'
    exact hnone pid h hh hrole

/-- Before the end `_teardown` puts no marker. -/
theorem Session.Tuned.closes (ho : o.Tuned served received) (hcloses : o.Closes o')
    (hended : ¬ o'.Ended) : none ∉ o'.downQ ∧ ¬ o.Ended := by
  rcases hcloses with ⟨hiff, hqueue⟩ | ⟨hend, -⟩
  · have hopen : ¬ o.Ended := fun h => hended (hiff.2 h)
    rw [hqueue]
    exact ⟨(ho.unmarked hopen).1, hopen⟩
  · exact absurd hend hended

/-- A step keeps an object tuned. -/
theorem Session.Tuned.moves {s : EngineState} (ho : o.Tuned served received)
    (hmoves : o.Moves e s k l o') (hserved : served' ↔ servedBy e s l = some k ∨ served)
    (hreceived : received' ↔ markerOf s l = some k ∨ received)
    (hfree : servedBy e s l = some k → ¬ served) : o'.Tuned served' received' := by
  -- the end marker is not taken
  have hkeep : markerOf s l ≠ some k → (received' ↔ received) := fun hmarker => by
    rw [hreceived, or_iff_right hmarker]
  cases hmoves with
  | closes hmarker hcloses hdown =>
    exact ho.mono hdown (fun h => hserved.2 (.inr h)) (hkeep hmarker) (ho.closes hcloses)
  | serve hmarker hlet hcloses hdown =>
    have hnone := ho.unserved (hfree hlet)
    -- the new download is the only one
    have hnew : ∀ pid h', o'.handler? pid = some h' → h'.role = .downlink →
        pid = o.tasks.length := by
      intro pid h' hh' hrole'
      rcases hdown pid h' hh' hrole' with hpid | ⟨h, hh, hrole⟩
      · exact hpid
      · exact absurd hrole (hnone pid h hh)
    refine ⟨fun hended => ?_, fun hnot => absurd (hserved.2 (.inl hlet)) hnot,
      fun pid₁ pid₂ h₁ h₂ hh₁ hh₂ hrole₁ hrole₂ => ?_, fun hrec => ?_⟩
    · obtain ⟨hmark, hopen⟩ := ho.closes hcloses hended
      exact ⟨hmark, fun hrec => (ho.unmarked hopen).2 ((hkeep hmarker).1 hrec)⟩
    · exact (hnew pid₁ h₁ hh₁ hrole₁).trans (hnew pid₂ h₂ hh₂ hrole₂).symm
    · exact absurd (ho.done ((hkeep hmarker).1 hrec)).1 (hfree hlet)
  | took pid h item hh hrole hmarker hended downQ hdown hgone =>
    cases item with
    | some data =>
      refine ho.mono hdown (fun hs => hserved.2 (.inr hs)) (hkeep (by simp [hmarker])) fun hopen => ?_
      have hopen₀ : ¬ o.Ended := fun hend => hopen (hended.2 hend)
      have hmark := (ho.unmarked hopen₀).1
      rw [downQ] at hmark
      exact ⟨fun hmem => hmark (List.mem_cons_of_mem _ hmem), hopen₀⟩
    | none =>
      have hs : served := by
        by_contra hnot
        exact ho.unserved hnot pid h hh hrole
      have hend : o.Ended := by
        by_contra hopen
        refine (ho.unmarked hopen).1 ?_
        rw [downQ]
        exact List.mem_cons_self
      -- the download was the only one
      have hnone : ∀ pid' h', o'.handler? pid' = some h' → h'.role ≠ .downlink := by
        intro pid' h' hh' hrole'
        obtain ⟨h₀, hh₀, hrole₀⟩ := hdown pid' h' hh' hrole'
        have hpid := ho.single pid' pid h₀ h hh₀ hh hrole₀ hrole
        rw [hpid, hgone rfl] at hh'
        cases hh'
      exact ⟨fun hopen => absurd (hended.2 hend) hopen, fun _ => hnone,
        fun pid₁ _ h₁ _ hh₁ _ hrole₁ _ => absurd hrole₁ (hnone pid₁ h₁ hh₁),
        fun _ => ⟨hserved.2 (.inr hs), hnone⟩⟩
  | put pid inp m h data _ _ _ hmarker hended downQ hdown =>
    refine ho.mono hdown (fun hs => hserved.2 (.inr hs)) (hkeep hmarker) fun hopen => ?_
    have hopen₀ : ¬ o.Ended := fun hend => hopen (hended.2 hend)
    refine ⟨?_, hopen₀⟩
    rw [downQ, List.mem_append]
    rintro (hmem | hmem)
    · exact (ho.unmarked hopen₀).1 hmem
    · cases List.mem_singleton.1 hmem

end Tuned

/-- A new object has not ended, and its download is the one that it was made for. -/
theorem tuned_born {s s' : EngineState} (hstep : (machine e).step s l = some s')
    (ho : s.objects[k]? = none) (ho' : s'.objects[k]? = some o') :
    ¬ o'.Ended ∧ o'.Tuned (servedBy e s l = some k) False := by
  obtain ⟨r, hr, hin, hget, rfl, rfl⟩ := object_born hstep ho ho'
  obtain ⟨hended, hqueue, t, htasks, htask⟩ :=
    serve_download hr hin (Session.init r.uuid r.mode r.now)
  rw [hget] at htask
  have hopen : ¬ ((Session.init r.uuid r.mode r.now).serve r.serve).Ended := by
    rw [hended]
    exact fun h => (by cases h)
  -- it has one task
  have hfirst : ∀ {pid : ℕ} {h : Handler},
      ((Session.init r.uuid r.mode r.now).serve r.serve).handler? pid = some h →
        pid = 0 ∧ t = .running h := by
    intro pid h hh
    rw [Session.handler?_eq_some, htasks] at hh
    change [t][pid]? = _ at hh
    cases pid with
    | zero => exact ⟨rfl, by simpa using hh⟩
    | succ n => cases hh
  refine ⟨hopen, fun _ => ⟨?_, fun h => h⟩, fun hnot pid h hh hrole => ?_,
    fun pid₁ pid₂ h₁ h₂ hh₁ hh₂ _ _ => ?_, fun hrec => hrec.elim⟩
  · rw [hqueue]
    exact List.not_mem_nil
  · exact hnot (htask h (hfirst hh).2 hrole)
  · exact (hfirst hh₁).1.trans (hfirst hh₂).1.symm

/-- The object that a `GET` is served on is there afterwards. -/
theorem servedBy_lt {s s' : EngineState} (hs : s.WellFormed)
    (hstep : (machine e).step s l = some s') (hserved : servedBy e s l = some k) :
    k < s'.objects.length := by
  unfold servedBy at hserved
  split at hserved
  · rename_i mode uuid sid now clock
    split at hserved
    · rename_i hcheck
      cases hserved
      have hs' : s' = (s.arrive uuid mode sid now (serveDownlink uuid sid)).1 := by
        have hnext : (machine e).step s (.downlink mode uuid sid now clock) =
            some (s.arrive uuid mode sid now (serveDownlink uuid sid)).1 := by
          unfold machine EngineState.next
          simp only [hcheck, if_true, Option.map_some]
        rw [hnext] at hstep
        exact (Option.some.inj hstep).symm
      cases hget : s.sessions.get? sid with
      | none =>
        rw [hs', arrive_new hget]
        simp
      | some i =>
        obtain ⟨o', ho', -⟩ := object_moves hstep (List.getElem?_eq_getElem (hs.lt_length hget))
        exact (List.getElem?_eq_some_iff.1 ho').1
    · cases hserved
  · cases hserved

/-- A step keeps the records sound. -/
theorem Downloads.Sound.step (hs : s.Sound) (hstep : (downloadMachine e).step s l = some s') :
    s'.Sound := by
  obtain ⟨hengine, hserved, hreceived, hfree⟩ := download_step hstep
  have hlen : ∀ k, k < s.engine.objects.length → k < s'.engine.objects.length := by
    intro k hk
    obtain ⟨o', ho', -⟩ := object_moves hengine (List.getElem?_eq_getElem hk)
    exact (List.getElem?_eq_some_iff.1 ho').1
  refine ⟨wellFormed_step hs.wellFormed hengine, fun k o' ho' => ?_, fun k hk => ?_, fun k hk => ?_⟩
  · cases ho : s.engine.objects[k]? with
    | some o =>
      obtain ⟨o₁, ho₁, hmoves⟩ := object_moves hengine ho
      rw [ho'] at ho₁
      cases ho₁
      exact (hs.tuned k o ho).moves hmoves (hserved k) (hreceived k) (hfree k)
    | none =>
      obtain ⟨-, htuned⟩ := tuned_born hengine ho ho'
      have hle := List.getElem?_eq_none_iff.1 ho
      -- the records do not name it yet
      have hnot : k ∉ s.served := fun hk => absurd (hs.served_lt k hk) (Nat.not_lt.2 hle)
      have hmarker : markerOf s.engine l ≠ some k := by
        intro hmarker
        obtain ⟨-, -, o, -, -, -, ho₁, -⟩ := markerOf_some hmarker
        rw [ho] at ho₁
        cases ho₁
      have hs' : (k ∈ s'.served) = (servedBy e s.engine l = some k) := by
        rw [hserved, or_iff_left hnot]
      have hr' : (k ∈ s'.received) = False := by
        rw [hreceived, eq_iff_iff, iff_false, not_or]
        exact ⟨hmarker, fun hk => hnot (hs.received_served k hk)⟩
      rw [hs', hr']
      exact htuned
  · rcases (hserved k).1 hk with hnew | hold
    · exact servedBy_lt hs.wellFormed hengine hnew
    · exact hlen k (hs.served_lt k hold)
  · rcases (hreceived k).1 hk with hnew | hold
    · obtain ⟨pid, -, o, h, -, -, ho, hh, hrole, -⟩ := markerOf_some hnew
      refine (hserved k).2 (.inr ?_)
      by_contra hnot
      exact (hs.tuned k o ho).unserved hnot pid h hh hrole
    · exact (hserved k).2 (.inr (hs.received_served k hold))

/-! ### Signals -/

section Signals

variable {received received' : Prop}

/-- An end that finds room is marked. -/
theorem Session.Closes.signals (hcloses : o.Closes o')
    (hroom : ¬ o.Ended → o'.Ended → o.downQ.length < downlinkQueueMax) (hended' : o'.Ended) :
    o'.downQ.getLast? = some none ∨ o.Ended ∧ o'.downQ = o.downQ := by
  rcases hcloses with ⟨hended, hqueue⟩ | ⟨-, ⟨-, n, hqueue⟩ | ⟨hfull, hqueue⟩⟩
  · exact .inr ⟨hended.1 hended', hqueue⟩
  · refine .inl ?_
    rw [hqueue, List.replicate_succ', ← List.append_assoc, List.getLast?_concat]
  · by_cases hended : o.Ended
    · exact .inr ⟨hended, hqueue⟩
    · exact absurd (hroom hended hended') (Nat.not_lt.2 hfull)

/-- An end that finds no room is not marked. -/
theorem Session.Closes.room {served : Prop} (hcloses : o.Closes o') (ho : o.Tuned served received)
    (hsignal : o'.Signals received) (hended : ¬ o.Ended) (hended' : o'.Ended) :
    o.downQ.length < downlinkQueueMax := by
  rcases hcloses with ⟨hiff, -⟩ | ⟨-, ⟨hroom, -⟩ | ⟨-, hqueue⟩⟩
  · exact absurd (hiff.1 hended') hended
  · exact hroom
  · obtain ⟨hmark, hrec⟩ := ho.unmarked hended
    rcases (hsignal hended').1 with hlast | htaken
    · rw [hqueue] at hlast
      exact absurd (List.mem_of_getLast? hlast) hmark
    · exact absurd htaken hrec

/-- A download that is let in on a session which has ended finds the end marker, and so do those
before. -/
theorem Session.Signals.moves {s : EngineState} {served : Prop} (hsignal : o.Signals received)
    (ho : o.Tuned served received) (hmoves : o.Moves e s k l o')
    (hreceived : received' ↔ markerOf s l = some k ∨ received)
    (hfree : servedBy e s l = some k → ¬ served)
    (hroom : ¬ o.Ended → o'.Ended → o.downQ.length < downlinkQueueMax)
    (hquiet : ∀ pid inp m h, l = .resume k pid inp m → o.handler? pid = some h → o.Ended →
      ¬ received → ¬ Puts inp m h s.world o) : o'.Signals received' := by
  intro hended'
  cases hmoves with
  | closes hmarker hcloses hdown =>
    rcases hcloses.signals hroom hended' with hlast | ⟨hended, hqueue⟩
    · refine ⟨.inl hlast, fun pid h' _ _ hnil => ?_⟩
      rw [hnil] at hlast
      cases hlast
    · obtain ⟨hmark, hwait⟩ := hsignal hended
      rw [hqueue]
      refine ⟨hmark.imp_right fun hrec => hreceived.2 (.inr hrec), fun pid h' hh' hrole' => ?_⟩
      obtain ⟨h, hh, hrole⟩ := hdown pid h' hh' hrole'
      exact hwait pid h hh hrole
  | serve hmarker hlet hcloses hdown =>
    have hlast : o'.downQ.getLast? = some none := by
      rcases hcloses.signals hroom hended' with hlast | ⟨hended, hqueue⟩
      · exact hlast
      · rw [hqueue]
        rcases (hsignal hended).1 with hlast | hrec
        · exact hlast
        · exact absurd (ho.done hrec).1 (hfree hlet)
    refine ⟨.inl hlast, fun pid h' _ _ hnil => ?_⟩
    rw [hnil] at hlast
    cases hlast
  | took pid h item hh hrole hmarker hended downQ hdown hgone =>
    cases item with
    | none =>
      refine ⟨.inr (hreceived.2 (.inl (hmarker.2 rfl))), fun pid' h' hh' hrole' => ?_⟩
      obtain ⟨h₀, hh₀, hrole₀⟩ := hdown pid' h' hh' hrole'
      rw [ho.single pid' pid h₀ h hh₀ hh hrole₀ hrole, hgone rfl] at hh'
      cases hh'
    | some data =>
      -- the download is there, so the marker is still to come
      have hlast : o'.downQ.getLast? = some none := by
        rcases (hsignal (hended.1 hended')).1 with hlast | hrec
        · rw [downQ] at hlast
          cases hrest : o'.downQ with
          | nil =>
            rw [hrest] at hlast
            cases hlast
          | cons item rest =>
            rwa [hrest, List.getLast?_cons_cons] at hlast
        · exact absurd hrole ((ho.done hrec).2 pid h hh)
      refine ⟨.inl hlast, fun pid' h' _ _ hnil => ?_⟩
      rw [hnil] at hlast
      cases hlast
  | put pid inp m h data hl hh hputs hmarker hended downQ hdown =>
    have hrec : received := by
      by_contra hrec
      exact hquiet pid inp m h hl hh (hended.1 hended') hrec hputs
    refine ⟨.inr (hreceived.2 (.inr hrec)), fun pid' h' hh' hrole' => ?_⟩
    obtain ⟨h₀, hh₀, hrole₀⟩ := hdown pid' h' hh' hrole'
    exact absurd hrole₀ ((ho.done hrec).2 pid' h₀ hh₀)

/-- Data that a pump puts behind the end marker stays behind it. -/
theorem Session.Signals.quiet {s s' : EngineState} {pid : ℕ} {inp : Input} {m : Moment}
    {h : Handler} (hstep : (machine e).step s (.resume k pid inp m) = some s')
    (ho : s.objects[k]? = some o) (ho' : s'.objects[k]? = some o')
    (hh : o.handler? pid = some h) (hsignal : o'.Signals received') (hended : o.Ended)
    (hreceived : received' ↔ markerOf s (.resume k pid inp m) = some k ∨ received)
    (hputs : Puts inp m h s.world o) : received := by
  obtain ⟨out, data, h', hout, hqueue, hsame, hnext⟩ := proceed_puts hputs (e := e)
  obtain ⟨w, gate, first, data', hrole, -, rfl, -, hphase⟩ := hputs
  have houtside : h.phase.outside = true := by
    rcases hphase with hphase | ⟨hphase, -⟩ <;> rw [hphase] <;> rfl
  have hset := object_stretch hstep ho hh houtside hout (t := .running h') (by rw [hnext]; rfl)
  rw [ho'] at hset
  cases hset
  rcases (hsignal (hsame.2 hended)).1 with hlast | hrec
  · change out.session.downQ.getLast? = _ at hlast
    rw [hqueue, List.getLast?_concat] at hlast
    cases hlast
  · rcases hreceived.1 hrec with hmarker | hrec
    · -- a pump takes no marker
      obtain ⟨pid', m', o₁, h₁, rest, hl, ho₁, hh₁, hrole₁, -⟩ := markerOf_some hmarker
      cases hl
      rw [ho] at ho₁
      cases ho₁
      rw [hh] at hh₁
      cases hh₁
      rw [hrole] at hrole₁
      cases hrole₁
    · exact hrec

end Signals

/-- **A step from a signalled state** leads to a signalled one exactly when it is heard. -/
theorem signalled_step (hs : s.Sound) (hsignal : s.Signalled)
    (hstep : (downloadMachine e).step s l = some s') : s'.Signalled ↔ Heard e s l := by
  obtain ⟨hengine, -, hreceived, hfree⟩ := download_step hstep
  constructor
  · intro hsignal'
    refine ⟨fun k o o' t ho hended ht ho' hended' => ?_,
      fun k pid inp m o h hl ho hh hended hrec hputs => ?_⟩
    · rw [hengine] at ht
      cases ht
      obtain ⟨o₁, ho₁, hmoves⟩ := object_moves hengine ho
      rw [ho'] at ho₁
      cases ho₁
      have htuned := hs.tuned k o ho
      have hkeep : markerOf s.engine l ≠ some k → o'.Signals (k ∈ s.received) := fun hmarker h => by
        have hend := hsignal' k o' ho' h
        rwa [hreceived, or_iff_right hmarker] at hend
      cases hmoves with
      | closes hmarker hcloses => exact hcloses.room htuned (hkeep hmarker) hended hended'
      | serve hmarker _ hcloses => exact hcloses.room htuned (hkeep hmarker) hended hended'
      | took _ _ _ _ _ _ hiff => exact absurd (hiff.1 hended') hended
      | put _ _ _ _ _ _ _ _ _ hiff => exact absurd (hiff.1 hended') hended
    · subst hl
      obtain ⟨o', ho', -⟩ := object_moves hengine ho
      exact hrec ((hsignal' k o' ho').quiet hengine ho ho' hh hended (hreceived k) hputs)
  · rintro ⟨hroom, hquiet⟩ k o' ho'
    cases ho : s.engine.objects[k]? with
    | none => exact fun hended' => absurd hended' (tuned_born hengine ho ho').1
    | some o =>
      obtain ⟨o₁, ho₁, hmoves⟩ := object_moves hengine ho
      rw [ho'] at ho₁
      cases ho₁
      refine (hsignal k o ho).moves (hs.tuned k o ho) hmoves (hreceived k) (hfree k) ?_ ?_
      · exact fun hended hended' => hroom k o o' s'.engine ho hended hengine ho' hended'
      · exact fun pid inp m h hl hh hended hrec => hquiet k pid inp m o h hl ho hh hended hrec

theorem signalled_init (world : World) : (Downloads.init world).Signalled := by
  intro k o ho
  cases ho

/-- **A run is signalled** exactly when its steps are heard. -/
theorem signalled_iff_heard (e : Engine) (world : World) (ls : List Label) {s : Downloads}
    (hrun : (downloadMachine e).run (.init world) ls = some s) :
    (∀ ms t, ms <+: ls → (downloadMachine e).run (.init world) ms = some t → t.Signalled) ↔
      (downloadMachine e).Along (Heard e) (.init world) ls := by
  -- the runs keep the records sound in any case
  have hsound : ∀ ms t, (downloadMachine e).run (.init world) ms = some t → t.Sound :=
    fun ms t ht => Machine.run_invariant (fun _ _ _ hs hstep => hs.step hstep) ht (.init world)
  rw [← Machine.invariant_iff_along (I := fun s => s.Sound ∧ s.Signalled) ?_ hrun
    ⟨.init world, signalled_init world⟩]
  · refine forall₄_congr fun ms t hms ht => ?_
    exact (and_iff_right (hsound ms t ht)).symm
  · rintro s l s' ⟨hs, hsignal⟩ hstep
    rw [and_iff_right (hs.step hstep)]
    exact signalled_step hs hsignal hstep

/-- Alice's first packet opens a connection, and her `GET` waits for the download. -/
def openDownload : List Label :=
  [.packetUp "alice" "s" 0 0, .downlink "packet-up" "alice" "s" 0 ⟨0, 0⟩,
    .resume 0 0 (.data Relay.VlessHeader.localhost.encode) (momentAt 0), .resume 0 0 .go (momentAt 0),
    .resume 0 0 .go (momentAt 0), .resume 0 2 .go (momentAt 0)]

/-- A check of one step: all queues have room, and no pump of a session goes on that has ended and
whose end marker was not taken. -/
def roomyStep (s : Downloads) (l : Label) : Bool :=
  (s.engine.objects.all fun o => o.downQ.length < downlinkQueueMax) &&
  match l with
  | .resume k pid _ _ =>
    match ((s.engine.objects[k]?).bind fun o => (o.handler? pid).map fun h =>
        (h.role.kind, o.connBytes) : Option (RoleKind × Option ℕ)) with
    | some (.pump, none) => s.received.contains k
    | _ => true
  | _ => true

theorem heard_of_roomyStep {e : Engine} {s : Downloads} {l : Label} (h : roomyStep s l = true) :
    Heard e s l := by
  obtain ⟨hroom, hpump⟩ := Bool.and_eq_true_iff.1 h
  refine ⟨fun k o o' s' ho _ _ _ _ => ?_, ?_⟩
  · exact of_decide_eq_true (List.all_eq_true.1 hroom o (List.mem_of_getElem? ho))
  · rintro k pid inp m o h rfl ho hh hended hrec ⟨w, gate, first, data, hrole, -⟩
    have hconn : o.connBytes = none := hended
    simp only [ho, hh, hrole, hconn, Role.kind, Option.bind_some, Option.map_some] at hpump
    exact hrec (List.contains_iff_mem.1 hpump)

/-- The target sends two bytes. -/
def twoBytes : List Label :=
  [.resume 0 2 (.data [42]) (momentAt 0), .resume 0 2 .go (momentAt 0),
    .resume 0 2 (.data [43]) (momentAt 0), .resume 0 2 .go (momentAt 0)]

/-- The target closes, and the pump tears the session down. -/
def targetCloses : List Label :=
  [.resume 0 2 .lost (momentAt 0), .resume 0 2 .go (momentAt 0), .resume 0 2 .go (momentAt 0)]

/-- The download takes so many items out of the queue. -/
def takeItems (n : ℕ) : List Label := List.replicate n (.resume 0 1 .go (momentAt 0))

/-- The download of two bytes is signalled throughout: its session ends, and it takes the two bytes
and the end marker. -/
theorem signalled_iff_heard_twoBytes :
    ∃ s, (downloadMachine ⟨.vless, id⟩).run (.init twoUsers)
        (openDownload ++ twoBytes ++ targetCloses ++ takeItems 3) = some s ∧
      (∃ o, s.engine.objects[0]? = some o ∧ o.Ended ∧ 0 ∈ s.received) ∧
      ∀ ms t, ms <+: openDownload ++ twoBytes ++ targetCloses ++ takeItems 3 →
        (downloadMachine ⟨.vless, id⟩).run (.init twoUsers) ms = some t → t.Signalled := by
  have hview : ((downloadMachine ⟨.vless, id⟩).run (.init twoUsers)
      (openDownload ++ twoBytes ++ targetCloses ++ takeItems 3)).map
        (fun s => ((s.engine.objects[0]?).map Session.connBytes, s.received)) =
          some (some none, [0]) := by
    decide +kernel
  obtain ⟨s, hs, heq⟩ := Option.map_eq_some_iff.1 hview
  obtain ⟨hobject, hreceived⟩ := Prod.mk.inj heq
  obtain ⟨o, ho, hended⟩ := Option.map_eq_some_iff.1 hobject
  have hroomy : (downloadMachine ⟨.vless, id⟩).Along (fun s l => roomyStep s l = true)
      (.init twoUsers) (openDownload ++ twoBytes ++ targetCloses ++ takeItems 3) := by
    decide +kernel
  refine ⟨s, hs, ⟨o, ho, hended, by rw [hreceived]; exact List.mem_singleton_self 0⟩, ?_⟩
  exact (signalled_iff_heard _ _ _ hs).2 (hroomy.mono fun _ _ => heard_of_roomyStep)

/-- The target sends a byte for each place in the queue. -/
def fillQueue : List Label :=
  (List.replicate downlinkQueueMax
    [.resume 0 2 (.data [42]) (momentAt 0), .resume 0 2 .go (momentAt 0)]).flatten

/-- The end marker finds the queue full, and the download waits at an empty queue for ever. -/
theorem full_queue_drops_marker :
    ∃ s, (downloadMachine ⟨.vless, id⟩).run (.init twoUsers)
      (openDownload ++ fillQueue ++ targetCloses ++ takeItems downlinkQueueMax) = some s ∧
        ¬ s.Signalled := by
  have hview : ((downloadMachine ⟨.vless, id⟩).run (.init twoUsers)
      (openDownload ++ fillQueue ++ targetCloses ++ takeItems downlinkQueueMax)).map
        (fun s => (s.engine.objects[0]?).map fun o =>
          (o.connBytes, o.downQ.length, (o.handler? 1).map fun h => h.role.kind)) =
            some (some (none, 0, some .downlink)) := by
    decide +kernel
  obtain ⟨s, hs, hobject⟩ := Option.map_eq_some_iff.1 hview
  obtain ⟨o, ho, heq⟩ := Option.map_eq_some_iff.1 hobject
  obtain ⟨hended, hqueue, hdown⟩ : o.connBytes = none ∧ o.downQ.length = 0 ∧
      (o.handler? 1).map (fun h => h.role.kind) = some .downlink := by
    simpa only [Prod.mk.injEq] using heq
  obtain ⟨h, hh, hrole⟩ := Option.map_eq_some_iff.1 hdown
  refine ⟨s, hs, fun hsignal => ?_⟩
  have hwaits := (hsignal 0 o ho hended).2 1 h hh (Role.kind_eq_downlink.1 hrole)
  exact hwaits (List.length_eq_zero_iff.1 hqueue)

end Xhttp

end RvgGateway
