import Mathlib.Algebra.Order.Field.Rat
import RvgGateway.Xhttp.Charging
import RvgGateway.Xhttp.Held
import RvgGateway.Xhttp.SessionStep

/-!
# Whose session does `_teardown` remove?

`_teardown(session_id)` takes out of `xhttp_sessions` whatever is registered under the identifier
when it runs.  An upload or a pump of a session that was removed before can still come to it, and
the reaper comes to it long after it looked at the clock.

* `Rightful` : a task removes the session that it works for, and the reaper one that is idle beyond
  its timeout at that moment.
* `Unhurried` : no session is made under an identifier for which an upload or a pump of an earlier
  session may still call `_teardown`, and none that the reaper is going to remove is used.
* `rightful_of_unhurried` : **every removal of an unhurried run is rightful.**
-/

namespace RvgGateway

namespace Xhttp

open Relation (ReflTransGen)

/-! ### The engine with its clock -/

/-- A step, with what `time.time()` is when it is made. -/
structure Stamped where
  time : ℚ
  label : Label

/-- An engine, and the time of its last step. -/
structure Clocked where
  engine : EngineState
  time : ℚ

namespace Clocked

/-- An engine without sessions. -/
def init (world : World) : Clocked := ⟨.init world, 0⟩

end Clocked

/-- What the step reads of the clock. -/
def Label.time? : Label → Option ℚ
  | .packetUp _ _ _ now | .streamUp _ _ now _ | .downlink _ _ _ now _ | .reap now => some now
  | .resume _ _ _ m => some m.now
  | .lose .. | .sweep | .other .. => none

/-- The engine with its clock. -/
def clockedMachine (e : Engine) : Machine Clocked Stamped where
  step s l :=
    if ∀ now ∈ l.label.time?, now = l.time then
      ((machine e).step s.engine l.label).map fun engine => ⟨engine, l.time⟩
    else none

/-! ### The claim and its condition -/

/-- A task that removes a session is one of the session's own, and the reaper removes one that is
idle beyond its timeout. -/
def Rightful (e : Engine) (s : Clocked) (l : Stamped) : Prop :=
  ∀ s' sid k, (clockedMachine e).step s l = some s' → s.engine.sessions.get? sid = some k →
    s'.engine.sessions.get? sid = none →
      match l.label with
      | .resume i _ _ _ => i = k
      | _ => ∃ o, s.engine.objects[k]? = some o ∧ o.stale l.time = true

/-- The task may still call `_teardown`: an upload or a pump that is not in it. -/
def Handler.mayTearDown (h : Handler) : Bool :=
  match h.role with
  | .downlink => false
  | _ => h.phase.outside

/-- The task moves `last_seen` or sets `tcp_open` when it goes on. -/
def Handler.refreshes (h : Handler) (inp : Input) : Bool :=
  match h.role, h.phase, inp with
  | .streamUp _, .input, .data data => data ≠ []
  | .downlink, .input, .go => true
  | .packetUp _, phase, .go | .streamUp _, phase, .go => phase.succeeds
  | _, _, _ => false

/-- No upload and no pump may still call `_teardown` for the identifier. -/
def EngineState.Forgotten (s : EngineState) (sid : String) : Prop :=
  ∀ o ∈ s.objects, ∀ t ∈ o.tasks, ∀ h ∈ t.handler?, h.sid = sid → h.mayTearDown = false

/-- The object is not registered under an identifier that the reaper still has to tear down. -/
def EngineState.Unlisted (s : EngineState) (i : ℕ) : Prop :=
  ∀ sid ∈ s.reaper.todo, s.sessions.get? sid ≠ some i

/-- A request finds its identifier not listed by the reaper and, if it needs a new session,
forgotten. -/
def EngineState.Admits (kind : Kind) (s : EngineState) (l : Label) : Prop :=
  ∀ r ∈ l.request? kind, l.admitted kind s.world = true →
    r.sid ∉ s.reaper.todo ∧ (s.sessions.get? r.sid = none → s.Forgotten r.sid)

/-- A task that refreshes its session finds it not listed by the reaper. -/
def EngineState.Uses (s : EngineState) : Label → Prop
  | .resume i pid inp _ => ∀ o ∈ s.objects[i]?, ∀ h ∈ o.handler? pid, h.refreshes inp = true →
      s.Unlisted i
  | _ => True

/-- The clock is not set back, and nothing is used behind the back of a `_teardown` that is to
come. -/
structure Unhurried (e : Engine) (s : Clocked) (l : Stamped) : Prop where
  clock : s.time ≤ l.time
  admits : s.engine.Admits e.kind l.label
  uses : s.engine.Uses l.label

instance (s : EngineState) (sid : String) : Decidable (s.Forgotten sid) :=
  inferInstanceAs (Decidable (∀ o ∈ s.objects, ∀ t ∈ o.tasks, ∀ h ∈ t.handler?, _ → _))

instance (s : EngineState) (i : ℕ) : Decidable (s.Unlisted i) :=
  inferInstanceAs (Decidable (∀ sid ∈ s.reaper.todo, _))

instance (kind : Kind) (s : EngineState) (l : Label) : Decidable (s.Admits kind l) :=
  inferInstanceAs (Decidable (∀ r ∈ l.request? kind, _ → _ ∧ (_ → _)))

instance (s : EngineState) (l : Label) : Decidable (s.Uses l) :=
  match l with
  | .resume i pid inp _ => inferInstanceAs (Decidable (∀ o ∈ s.objects[i]?, ∀ h ∈ o.handler? pid,
      h.refreshes inp = true → s.Unlisted i))
  | .packetUp .. | .streamUp .. | .downlink .. | .lose .. | .reap _ | .sweep | .other .. =>
    inferInstanceAs (Decidable True)

instance (e : Engine) (s : Clocked) (l : Stamped) : Decidable (Unhurried e s l) :=
  decidable_of_iff (s.time ≤ l.time ∧ s.engine.Admits e.kind l.label ∧ s.engine.Uses l.label)
    ⟨fun ⟨hclock, hadmits, huses⟩ => ⟨hclock, hadmits, huses⟩,
      fun h => ⟨h.clock, h.admits, h.uses⟩⟩

/-! ### What moves `last_seen` -/

/-- `last_seen` and `tcp_open` are the same. -/
def Session.Unseen (o o' : Session) : Prop := o'.lastSeen = o.lastSeen ∧ o'.tcpOpen = o.tcpOpen

namespace Session

variable {o o₁ o' : Session} {t t' : ℚ}

theorem Unseen.trans (h₁ : o.Unseen o₁) (h₂ : o₁.Unseen o') : o.Unseen o' :=
  ⟨h₂.1.trans h₁.1, h₂.2.trans h₁.2⟩

theorem Unseen.stale_eq (h : o.Unseen o') (t : ℚ) : o'.stale t = o.stale t := by
  unfold stale
  rw [h.1, h.2]

/-- A session that is idle beyond its timeout stays so. -/
theorem stale_mono (hle : t ≤ t') (ho : o.stale t = true) : o.stale t' = true := by
  unfold stale at ho ⊢
  rw [decide_eq_true_eq] at ho ⊢
  exact ho.trans_le (sub_le_sub_right hle _)

theorem unseen_tolerates : Tolerates Unseen where
  refl _ := ⟨rfl, rfl⟩
  trans := .trans
  flag _ := ⟨rfl, rfl⟩
  close _ _ := ⟨rfl, rfl⟩
  finalise o := by
    obtain ⟨downQ, heq⟩ := finalise_eq o
    rw [heq]
    exact ⟨rfl, rfl⟩

/-- `_teardown` is no use of the session. -/
theorem unseen_follows {actor : Option ℕ} (ht : ReflTransGen (Tends actor) o o') : o.Unseen o' :=
  unseen_tolerates.follows (fun _ _ _ => ⟨rfl, rfl⟩) ht

end Session

section Stretch

variable {e : Engine} {inp : Input} {m : Moment} {h : Handler} {world : World} {o : Session}
  {out : Outcome}

theorem unseen_flushGate : o.Unseen (flushGate m world o).2 := by
  unfold flushGate
  split <;> exact ⟨rfl, rfl⟩

theorem unseen_abandon (reply : Reply) : o.Unseen (abandon m h world o reply).session := by
  unfold abandon
  split
  · exact unseen_flushGate
  · exact ⟨rfl, rfl⟩

theorem unseen_fail : o.Unseen (fail m h world o).session := by
  unfold fail
  split <;> exact unseen_abandon _

theorem unseen_openTcp (chunk : Bytes) : o.Unseen (openTcp e m h world o chunk).session := by
  unfold openTcp
  split
  · exact unseen_fail
  · exact ⟨rfl, rfl⟩

theorem unseen_writePacket (w : ℕ) (seq : ℤ) (data : Bytes) :
    o.Unseen (writePacket m h world o w seq data).session := by
  unfold writePacket
  split
  · split
    · exact unseen_fail
    · exact (finishPacket_session m h world _ _).1 ▸ ⟨rfl, rfl⟩
  · exact (finishPacket_session m h world _ _).1 ▸ ⟨rfl, rfl⟩

theorem unseen_upload (data : Bytes) : o.Unseen (upload e m h world o data).session := by
  unfold upload
  split
  · split
    · exact ⟨rfl, rfl⟩
    · rename_i bytes _
      have hcount : o.Unseen { o with connBytes := some (bytes + data.length) } := ⟨rfl, rfl⟩
      unfold putPacket
      split
      · split
        · exact hcount.trans (unseen_openTcp data)
        · exact ⟨rfl, rfl⟩
      · exact hcount.trans (unseen_writePacket _ _ data)
  · have hcount : o.Unseen { o with connBytes := o.connBytes.map (· + data.length) } := ⟨rfl, rfl⟩
    unfold putChunk
    split
    · exact hcount.trans (unseen_openTcp data)
    · split
      · exact hcount.trans unseen_fail
      · exact ⟨rfl, rfl⟩
  · exact ⟨rfl, rfl⟩

theorem unseen_meterUpload (data : Bytes) :
    o.Unseen (meterUpload e m h world o data).session := by
  unfold meterUpload
  dsimp only
  split
  · exact Session.Unseen.trans ⟨rfl, rfl⟩ (unseen_upload data)
  · exact Session.Unseen.trans ⟨rfl, rfl⟩ (unseen_abandon _)

theorem unseen_putData (data : Bytes) : o.Unseen (putData h world o data).session := by
  unfold putData
  split <;> exact ⟨rfl, rfl⟩

/-- An upload behind its input refreshes its session only by a connection. -/
theorem unseen_proceedUpload (hquiet : inp = .go → h.phase.succeeds = false)
    (hout : proceedUpload e inp m h world o = some out) : o.Unseen out.session := by
  unfold proceedUpload at hout
  split at hout
  case h_1 =>
    cases hout
    exact unseen_meterUpload _
  case h_2 header isTrojan hphase =>
    cases hout
    have hpayload : header.payload ≠ [] := by
      have hfalse := hquiet rfl
      rw [hphase] at hfalse
      simpa [Phase.succeeds] using hfalse
    unfold connected
    rw [if_neg hpayload]
    exact ⟨rfl, rfl⟩
  case h_3 hphase =>
    have hfalse := hquiet rfl
    rw [hphase] at hfalse
    cases hfalse
  case h_4 | h_5 | h_6 =>
    cases hout
    exact unseen_fail
  case h_7 => split at hout <;> cases hout <;> exact ⟨rfl, rfl⟩
  case h_8 => cases hout

theorem unseen_proceedPump {w : ℕ} {gate : Quota.Gate} {first : Bool}
    (hout : proceedPump e inp m h world o w gate first = some out) : o.Unseen out.session := by
  unfold proceedPump at hout
  split at hout
  case h_6 => split at hout <;> cases hout <;> exact ⟨rfl, rfl⟩
  case h_8 =>
    cases hout
    unfold meterPump
    dsimp only
    split
    · exact Session.Unseen.trans ⟨rfl, rfl⟩ (unseen_putData _)
    · exact ⟨rfl, rfl⟩
  case h_9 =>
    cases hout
    exact unseen_putData _
  case h_10 => cases hout
  all_goals
    cases hout
    exact ⟨rfl, rfl⟩

/-- **A stretch that does not refresh its session** leaves `last_seen` and `tcp_open` alone. -/
theorem unseen_proceed (hquiet : h.refreshes inp = false)
    (hout : proceed e inp m h world o = some out) : o.Unseen out.session := by
  unfold Handler.refreshes at hquiet
  unfold proceed at hout
  split at hout
  · rename_i seq hrole
    rw [hrole] at hquiet
    unfold proceedPacketUp at hout
    split at hout
    · split at hout <;> cases hout <;> exact ⟨rfl, rfl⟩
    · cases hout
      exact ⟨rfl, rfl⟩
    · refine unseen_proceedUpload ?_ hout
      rintro rfl
      exact hquiet
  · rename_i writer hrole
    rw [hrole] at hquiet
    unfold proceedStreamUp at hout
    split at hout
    · rename_i data hphase
      split_ifs at hout with hempty
      · cases hout
        exact ⟨rfl, rfl⟩
      · rw [hphase] at hquiet
        simp [hempty] at hquiet
    · cases hout
      exact unseen_flushGate
    · cases hout
      exact unseen_fail
    · refine unseen_proceedUpload ?_ hout
      rintro rfl
      cases hphase : h.phase <;> rw [hphase] at hquiet <;> exact hquiet
  · rename_i hrole
    rw [hrole] at hquiet
    unfold proceedDownlink at hout
    split at hout
    · rename_i hphase
      rw [hphase] at hquiet
      cases hquiet
    · cases hout
      exact ⟨rfl, rfl⟩
    · cases hout
  · exact unseen_proceedPump hout

end Stretch

/-! ### Tasks that may call `_teardown` -/

theorem mayTearDown_iff {h : Handler} :
    h.mayTearDown = true ↔ h.role ≠ .downlink ∧ h.phase.outside = true := by
  unfold Handler.mayTearDown
  cases h.role <;> simp

/-- What of the tasks of `o'` may call `_teardown` comes from tasks of `o` for the same identifier
that may. -/
def Session.Stems (o o' : Session) : Prop :=
  ∀ pid h', o'.handler? pid = some h' → h'.mayTearDown = true →
    ∃ pid h, o.handler? pid = some h ∧ h.mayTearDown = true ∧ h.sid = h'.sid

namespace Session.Stems

variable {o o₁ o' : Session}

theorem trans (h₁ : o.Stems o₁) (h₂ : o₁.Stems o') : o.Stems o' := by
  intro pid h' hh' hmay
  obtain ⟨pid₁, h₁', hh₁, hmay₁, hsid₁⟩ := h₂ pid h' hh' hmay
  obtain ⟨pid₀, h, hh, hmay₀, hsid⟩ := h₁ pid₁ h₁' hh₁ hmay₁
  exact ⟨pid₀, h, hh, hmay₀, hsid.trans hsid₁⟩

theorem of_tended (ht : o.Tended o') : o.Stems o' := by
  intro pid h' hh' hmay
  obtain ⟨h, hh, -, hsid, hrole, hphase⟩ := ht.handler_of pid h' hh'
  refine ⟨pid, h, hh, ?_, hsid.symm⟩
  rw [mayTearDown_iff] at hmay ⊢
  rwa [← hrole, ← hphase]

theorem setTask {pid : ℕ} {t : Task} (ht : ∀ h', t = .running h' → h'.mayTearDown = true →
    ∃ pid h, o.handler? pid = some h ∧ h.mayTearDown = true ∧ h.sid = h'.sid)
    (ho : o.Stems o') : o.Stems (o'.setTask pid t) := by
  intro pid' h' hh' hmay
  obtain ⟨-, heq⟩ | hold := handler?_of_setTask hh'
  · exact ht h' heq hmay
  · exact ho pid' h' hold hmay

theorem refl (o : Session) : o.Stems o := fun pid h hh hmay => ⟨pid, h, hh, hmay, rfl⟩

/-- A task that goes on in `_teardown` does not call it again. -/
theorem tends {actor : Option ℕ} (ht : Session.Tends actor o o') : o.Stems o' := by
  cases ht with
  | begin => exact of_tended (.beginTeardown o)
  | «continue» hres => exact of_tended (.continueTeardown hres)
  | finish => exact (refl o).setTask fun _ heq => by cases heq
  | park _ hh _ hphase =>
    refine (refl o).setTask fun h' heq hmay => ?_
    cases heq
    have houtside := (mayTearDown_iff.1 hmay).2
    rw [hphase] at houtside
    cases houtside

theorem follows {actor : Option ℕ} (ht : ReflTransGen (Session.Tends actor) o o') :
    o.Stems o' := by
  induction ht with
  | refl => exact refl o
  | tail _ htend ih => exact ih.trans (tends htend)

end Session.Stems

/-- A download goes on or ends, and starts nothing. -/
theorem proceed_downlink {e : Engine} {inp : Input} {m : Moment} {h : Handler} {world : World}
    {o : Session} {out : Outcome} (hrole : h.role = .downlink)
    (hout : proceed e inp m h world o = some out) :
    out.session.tasks = o.tasks ∧ (out.next = .wait h ∨ ∃ reply, out.next = .ends reply) := by
  unfold proceed at hout
  rw [hrole] at hout
  dsimp only at hout
  unfold proceedDownlink at hout
  split at hout
  · split at hout <;> cases hout
    · exact ⟨rfl, .inr ⟨_, rfl⟩⟩
    · exact ⟨rfl, .inl rfl⟩
  · cases hout
    exact ⟨rfl, .inr ⟨_, rfl⟩⟩
  · cases hout

/-- A stretch hands the identifier of its task on, to the task itself and to the pump that it
starts. -/
theorem stems_stretch {e : Engine} {pid : ℕ} {inp : Input} {m : Moment} {h : Handler}
    {world : World} {o : Session} {out : Outcome} (hh : o.handler? pid = some h)
    (hphase : h.phase.outside = true) (hout : proceed e inp m h world o = some out) :
    o.Stems (out.session.setTask pid (out.next.left h)) := by
  have hstays := proceed_stays hout
  by_cases hrole : h.role = .downlink
  · obtain ⟨htasks, hnext⟩ := proceed_downlink hrole hout
    refine Session.Stems.setTask (fun h' heq hmay => ?_)
      (.of_tended (.of_tasks hstays.uuid_eq htasks))
    obtain hwait | ⟨reply, hends⟩ := hnext
    · rw [hwait] at heq
      cases heq
      exact absurd hrole (mayTearDown_iff.1 hmay).1
    · rw [hends] at heq
      cases heq
  · have hself : ∀ {h' : Handler}, h'.sid = h.sid →
        ∃ pid h, o.handler? pid = some h ∧ h.mayTearDown = true ∧ h.sid = h'.sid :=
      fun hsid => ⟨pid, h, hh, mayTearDown_iff.2 ⟨hrole, hphase⟩, hsid.symm⟩
    have hsession : o.Stems out.session := by
      intro pid' h' hh' hmay
      obtain htasks | ⟨p, htasks, -, hsid, -⟩ := hstays.tasks_eq
      · exact Session.Stems.of_tended (.of_tasks hstays.uuid_eq htasks) pid' h' hh' hmay
      · obtain heq | hold := Session.handler?_of_append htasks (Session.handler?_eq_some.1 hh')
        · cases heq
          exact hself hsid
        · exact ⟨pid', h', hold, hmay, rfl⟩
    refine hsession.setTask fun h' heq _ => ?_
    cases hnext : out.next with
    | wait h₁ =>
      rw [hnext] at heq
      cases heq
      exact hself (hstays.next h' hnext).2.1
    | ends reply =>
      rw [hnext] at heq
      cases heq
    | teardown reply =>
      rw [hnext] at heq
      cases heq
      exact hself rfl

section Runs

variable {e : Engine} {s s' : EngineState} {l : Label} {k : ℕ} {o o' : Session}

/-- A task that may call `_teardown` behind a step stems from one before, or from the request that
the step lets in. -/
theorem mayTearDown_step (hstep : (machine e).step s l = some s') (ho : s.objects[k]? = some o)
    (ho' : s'.objects[k]? = some o') {pid : ℕ} {h' : Handler} (hh' : o'.handler? pid = some h')
    (hmay : h'.mayTearDown = true) :
    (∃ pid h, o.handler? pid = some h ∧ h.mayTearDown = true ∧ h.sid = h'.sid) ∨
      ∃ r, l.request? e.kind = some r ∧ l.admitted e.kind s.world = true ∧
        s.sessions.get? r.sid = some k ∧ r.sid = h'.sid := by
  obtain ⟨o₁, o₂, hstarts, htends, ho₂⟩ := object_step hstep ho
  rw [ho'] at ho₂
  cases ho₂
  obtain ⟨pid₁, h₁, hh₁, hmay₁, hsid₁⟩ := Session.Stems.follows htends pid h' hh' hmay
  cases hstarts with
  | still => exact .inl ⟨pid₁, h₁, hh₁, hmay₁, hsid₁⟩
  | serve hr hin hget =>
    rename_i r
    obtain ⟨-, hsid, -⟩ | hold := (Label.request?_serves hr).handler?_of_serve hh₁
    · exact .inr ⟨r, hr, hin, hget, hsid.symm.trans hsid₁⟩
    · exact .inl ⟨pid₁, h₁, hold, hmay₁, hsid₁⟩
  | stretch pid₀ inp m hh hphase hout =>
    obtain ⟨pid₂, h₂, hh₂, hmay₂, hsid₂⟩ := stems_stretch hh hphase hout pid₁ h₁ hh₁ hmay₁
    exact .inl ⟨pid₂, h₂, hh₂, hmay₂, hsid₂.trans hsid₁⟩
  | lose w => exact .inl ⟨pid₁, h₁, hh₁, hmay₁, hsid₁⟩

/-- A step that neither serves a request on an object nor refreshes it. -/
theorem unseen_step (hstep : (machine e).step s l = some s') (ho : s.objects[k]? = some o)
    (ho' : s'.objects[k]? = some o')
    (hserve : ∀ r, l.request? e.kind = some r → l.admitted e.kind s.world = true →
      s.sessions.get? r.sid ≠ some k)
    (huse : ∀ pid inp m h, l = .resume k pid inp m → o.handler? pid = some h →
      h.refreshes inp = false) : o.Unseen o' := by
  obtain ⟨o₁, o₂, hstarts, htends, ho₂⟩ := object_step hstep ho
  rw [ho'] at ho₂
  cases ho₂
  refine Session.Unseen.trans ?_ (Session.unseen_follows htends)
  cases hstarts with
  | still => exact ⟨rfl, rfl⟩
  | serve hr hin hget => exact absurd hget (hserve _ hr hin)
  | stretch pid inp m hh hphase hout => exact unseen_proceed (huse pid inp m _ rfl hh) hout
  | lose w => exact ⟨rfl, rfl⟩

/-! ### What a step registers and removes -/

/-- A session is registered by the request that needs it. -/
theorem registered_by_request {sid : String} (hs : s.WellFormed)
    (hget : s.sessions.get? sid = none) (hstep : (machine e).step s l = some s')
    (hget' : s'.sessions.get? sid = some k) :
    ∃ r, l.request? e.kind = some r ∧ l.admitted e.kind s.world = true ∧ r.sid = sid ∧
      k = s.objects.length := by
  have harrives : ∀ r, l.request? e.kind = some r → l.admitted e.kind s.world = true →
      (s.arrive r.uuid r.mode r.sid r.now r.serve).1 = s' →
        ∃ r, l.request? e.kind = some r ∧ l.admitted e.kind s.world = true ∧ r.sid = sid ∧
          k = s.objects.length := by
    intro r hr hin heq
    have hborn := arrive_born hs hget r.uuid r.mode r.sid r.now r.serve
    rw [heq] at hborn
    split_ifs at hborn with hsid
    · rw [hget'] at hborn
      exact ⟨r, hr, hin, hsid, Option.some.inj hborn.1⟩
    · rw [hget'] at hborn
      cases hborn
  have hnever : s'.sessions.get? sid ≠ none := by simp [hget']
  obtain ⟨res, hhap, heq⟩ := step_happens hstep
  cases hhap with
  | packetUp uuid sid' seq now => exact harrives _ rfl rfl heq
  | streamUp uuid sid' now monotonic => exact harrives _ rfl rfl heq
  | downlink mode uuid sid' now clock hcheck => exact harrives _ rfl hcheck heq
  | refused | lose | other => subst heq; exact absurd hget hnever
  | inTeardown i pid inp m ho hh hphase hres =>
    subst heq
    exact absurd (EngineState.resumeTeardown_none hget hres) hnever
  | stretch i pid inp m ho hh hphase hout =>
    subst heq
    exact absurd (EngineState.conclude_none hs hget ho hh hphase (proceed_stays hout)) hnever
  | reap now => subst heq; exact absurd (EngineState.sweep_none hs hget _) hnever
  | sweep hbusy hres =>
    subst heq
    exact absurd (EngineState.resumeReaper_none hs hget hbusy hres) hnever

theorem arrive_keeps {sid uuid mode sid' : String} {now : ℚ} {serve : Session → Session × Task}
    (hget : s.sessions.get? sid = some k) :
    (s.arrive uuid mode sid' now serve).1.sessions.get? sid = some k := by
  cases hget' : s.sessions.get? sid' with
  | none =>
    rw [arrive_new hget']
    have hne : sid' ≠ sid := by
      rintro rfl
      rw [hget] at hget'
      cases hget'
    exact (Dict.get?_set_ne _ _ hne).trans hget
  | some i =>
    cases ho : s.objects[i]? with
    | none =>
      rw [arrive_lost hget' ho]
      exact hget
    | some oi =>
      rw [arrive_old hget' ho]
      exact hget

/-- The reaper removes only what is on its list. -/
theorem sweep_keeps {sid : String} {sids : List String} (hs : s.WellFormed)
    (hget : s.sessions.get? sid = some k) (hnot : sid ∉ sids) :
    (s.sweep sids).sessions.get? sid = some k := by
  induction sids generalizing s with
  | nil => exact hget
  | cons sid' todo ih =>
    rw [List.mem_cons, not_or] at hnot
    obtain ⟨hne, htodo⟩ := hnot
    have hbegin : (s.beginTeardown sid').1.sessions.get? sid = some k := by
      rw [EngineState.beginTeardown_sessions hs, if_neg (Ne.symm hne)]
      exact hget
    have hwf := (hs.beginTeardown sid').1
    unfold EngineState.sweep
    split
    · rename_i heq
      rw [heq] at hbegin hwf
      exact ih hwf hbegin htodo
    · rename_i heq
      rw [heq] at hbegin
      exact hbegin

/-- What is left of the list of the reaper. -/
theorem sweep_todo (s : EngineState) {sid : String} {sids : List String}
    (hmem : sid ∈ (s.sweep sids).reaper.todo) : sid ∈ sids := by
  induction sids generalizing s with
  | nil => exact hmem
  | cons sid' todo ih =>
    unfold EngineState.sweep at hmem
    split at hmem
    · exact List.mem_cons_of_mem _ (ih _ hmem)
    · exact List.mem_cons_of_mem _ hmem

/-- The reaper lists what it finds stale, and nothing else is ever listed. -/
theorem todo_step {sid : String} (hstep : (machine e).step s l = some s')
    (hmem : sid ∈ s'.reaper.todo) :
    sid ∈ s.reaper.todo ∨ ∃ now, l = .reap now ∧ sid ∈ s.staleSessions now := by
  obtain ⟨res, hhap, rfl⟩ := step_happens hstep
  cases hhap with
  | packetUp | streamUp | downlink =>
    rw [EngineState.arrive_reaper] at hmem
    exact .inl hmem
  | refused | lose | other => exact .inl hmem
  | inTeardown i pid inp m ho hh hphase hres =>
    rw [EngineState.resumeTeardown_reaper hres] at hmem
    exact .inl hmem
  | stretch i pid inp m ho hh hphase hout =>
    rename_i out
    unfold EngineState.conclude at hmem
    dsimp only at hmem
    split at hmem
    · exact .inl hmem
    · exact .inl hmem
    · rw [EngineState.teardown_reaper] at hmem
      exact .inl hmem
  | reap now hidle => exact .inr ⟨now, rfl, sweep_todo s hmem⟩
  | sweep hbusy hres =>
    unfold EngineState.resumeReaper at hres
    split at hres
    · cases hres
    · split at hres
      · cases hres
      · cases hres
        exact .inl (sweep_todo _ hmem)
      · cases hres
        exact .inl hmem

/-- Who removes a session. -/
theorem removed_by {sid : String} (hs : s.WellFormed) (hget : s.sessions.get? sid = some k)
    (hstep : (machine e).step s l = some s') (hnone : s'.sessions.get? sid = none) :
    (∃ i pid inp m o h, l = .resume i pid inp m ∧ s.objects[i]? = some o ∧
        o.handler? pid = some h ∧ h.mayTearDown = true ∧ h.sid = sid) ∨
      (∃ now, l = .reap now ∧ sid ∈ s.staleSessions now) ∨
        l = .sweep ∧ sid ∈ s.reaper.todo := by
  have hkept : ∀ {v : ℕ}, s'.sessions.get? sid ≠ some v := by simp [hnone]
  obtain ⟨res, hhap, rfl⟩ := step_happens hstep
  cases hhap with
  | packetUp | streamUp | downlink => exact absurd (arrive_keeps hget) hkept
  | refused | lose | other => exact absurd hget hkept
  | inTeardown i pid inp m ho hh hphase hres =>
    have hspares := EngineState.resumeTeardown_spares hs hget ho hh hphase hres
    exact absurd (hspares.1.trans hget) hkept
  | stretch i pid inp m ho hh hphase hout =>
    rename_i o h out
    have hstays := proceed_stays hout
    have hsid : ∀ sid, s.sessions.get? sid = some i → h.sid = sid := fun sid hget =>
      ((hs.live hget ho).2 pid h hh).1
    have hput := hs.stretched ho hh hstays
    unfold EngineState.conclude at hnone hkept
    dsimp only at hnone hkept
    cases hnext : out.next with
    | wait h' =>
      rw [hnext] at hkept
      exact absurd hget hkept
    | ends reply =>
      rw [hnext] at hkept
      exact absurd hget hkept
    | teardown reply =>
      rw [hnext] at hnone
      dsimp only at hnone
      rw [EngineState.teardown_sessions hput hphase hsid] at hnone
      split_ifs at hnone with heq
      · refine .inl ⟨i, pid, inp, m, o, h, rfl, ho, hh, mayTearDown_iff.2 ⟨fun hrole => ?_, hphase⟩,
          heq⟩
        obtain ⟨-, hwait | ⟨reply', hends⟩⟩ := proceed_downlink hrole hout
        · rw [hwait] at hnext
          cases hnext
        · rw [hends] at hnext
          cases hnext
      · exact absurd hget (by rw [show s.sessions.get? sid = none from hnone]; simp)
  | reap now hidle =>
    by_contra hnot
    exact hkept (sweep_keeps hs hget fun hmem => hnot (.inr (.inl ⟨now, rfl, hmem⟩)))
  | sweep hbusy hres =>
    by_contra hnot
    have htodo : sid ∉ s.reaper.todo := fun hmem => hnot (.inr (.inr ⟨rfl, hmem⟩))
    have hvictim := hs.reaper _ _ hbusy
    unfold EngineState.resumeReaper at hres
    split at hres
    · cases hres
    · rename_i ov hov
      split at hres
      · cases hres
      · rename_i hcont
        cases hres
        exact hkept (sweep_keeps (hs.put_gone hov hvictim (.continueTeardown hcont)) hget htodo)
      · cases hres
        exact hkept hget

end Runs

/-! ### Unhurried runs -/

/-- What an unhurried run keeps. -/
structure Clocked.Sound (s : Clocked) : Prop where
  wellFormed : s.engine.WellFormed
  /-- The identifier of a task that may call `_teardown` is registered for its own session, or not
  at all. -/
  own : ∀ (i : ℕ) (o : Session) (pid : ℕ) (h : Handler) (k : ℕ), s.engine.objects[i]? = some o →
    o.handler? pid = some h → h.mayTearDown = true → s.engine.sessions.get? h.sid = some k → i = k
  /-- A session that the reaper has listed is idle. -/
  listed : ∀ (sid : String) (k : ℕ) (o : Session), sid ∈ s.engine.reaper.todo →
    s.engine.sessions.get? sid = some k → s.engine.objects[k]? = some o → o.stale s.time = true

section Unhurried

variable {e : Engine} {s s' : Clocked} {l : Stamped}

theorem clocked_step (hstep : (clockedMachine e).step s l = some s') :
    (machine e).step s.engine l.label = some s'.engine ∧ s'.time = l.time ∧
      ∀ now, l.label.time? = some now → now = l.time := by
  unfold clockedMachine at hstep
  dsimp only at hstep
  split_ifs at hstep with htime
  obtain ⟨engine, hengine, rfl⟩ := Option.map_eq_some_iff.1 hstep
  exact ⟨hengine, rfl, fun now hnow => htime now hnow⟩

theorem stale_of_listed {s : EngineState} {sid : String} {now : ℚ} {k : ℕ} {o : Session}
    (hmem : sid ∈ s.staleSessions now) (hget : s.sessions.get? sid = some k)
    (ho : s.objects[k]? = some o) : o.stale now = true := by
  have hstale := (List.mem_filter.1 hmem).2
  simpa [hget, ho] using hstale

theorem not_mayTearDown_of_forgotten {s : EngineState} {sid : String} (hs : s.Forgotten sid)
    {i pid : ℕ} {o : Session} {h : Handler} (ho : s.objects[i]? = some o)
    (hh : o.handler? pid = some h) (hsid : h.sid = sid) : h.mayTearDown = false :=
  hs o (List.mem_of_getElem? ho) _ (List.mem_of_getElem? (Session.handler?_eq_some.1 hh)) h rfl hsid

theorem own_step (hs : s.Sound) (hl : Unhurried e s l)
    (hstep : (clockedMachine e).step s l = some s') {i pid k : ℕ} {o' : Session} {h' : Handler}
    (ho' : s'.engine.objects[i]? = some o') (hh' : o'.handler? pid = some h')
    (hmay : h'.mayTearDown = true) (hget' : s'.engine.sessions.get? h'.sid = some k) : i = k := by
  obtain ⟨hengine, -, -⟩ := clocked_step hstep
  cases ho : s.engine.objects[i]? with
  | none =>
    obtain ⟨r, hr, -, hget, rfl, rfl⟩ := object_born hengine ho ho'
    have hsid : h'.sid = r.sid := by
      obtain ⟨-, hsid, -⟩ | hold := (Label.request?_serves hr).handler?_of_serve hh'
      · exact hsid
      · cases hold
    rw [hsid] at hget'
    obtain ⟨-, -, -, -, rfl⟩ := registered_by_request hs.wellFormed hget hengine hget'
    rfl
  | some o =>
    have horigin := mayTearDown_step hengine ho ho' hh' hmay
    cases hget : s.engine.sessions.get? h'.sid with
    | none =>
      -- the identifier is registered in this step, and so nobody may call `_teardown` for it
      obtain ⟨r, hr, hin, hsid, -⟩ := registered_by_request hs.wellFormed hget hengine hget'
      have hforgotten := (hl.admits r hr hin).2 (hsid ▸ hget)
      obtain ⟨pid₀, h, hh, hmay₀, hsid₀⟩ | ⟨r', hr', -, hget₀, hsid'⟩ := horigin
      · have hfalse := not_mayTearDown_of_forgotten hforgotten ho hh (hsid₀.trans hsid.symm)
        rw [hmay₀] at hfalse
        cases hfalse
      · rw [hsid', hget] at hget₀
        cases hget₀
    | some k₀ =>
      obtain ⟨o₀, ho₀, -⟩ := hs.wellFormed.registered _ k₀ hget
      have hkept := (session_step hs.wellFormed hget ho₀ hengine (by simp [hget'])).1
      rw [hget'] at hkept
      cases hkept
      obtain ⟨pid₀, h, hh, hmay₀, hsid₀⟩ | ⟨r', -, -, hget₀, hsid'⟩ := horigin
      · exact hs.own i o pid₀ h k ho hh hmay₀ (hsid₀ ▸ hget)
      · rw [hsid', hget] at hget₀
        exact (Option.some.inj hget₀).symm

theorem listed_step (hs : s.Sound) (hl : Unhurried e s l)
    (hstep : (clockedMachine e).step s l = some s') {sid : String} {k : ℕ} {o' : Session}
    (hmem' : sid ∈ s'.engine.reaper.todo) (hget' : s'.engine.sessions.get? sid = some k)
    (ho' : s'.engine.objects[k]? = some o') : o'.stale s'.time = true := by
  obtain ⟨hengine, htime, hnow⟩ := clocked_step hstep
  have hlisted := todo_step hengine hmem'
  -- neither a request for the session nor a task of it moves the clock of the session
  have hrequest : ∀ r, l.label.request? e.kind = some r →
      l.label.admitted e.kind s.engine.world = true → r.sid ≠ sid := by
    rintro r hr hin rfl
    obtain hmem | ⟨now, heq, -⟩ := hlisted
    · exact (hl.admits r hr hin).1 hmem
    · rw [heq] at hr
      cases hr
  have hget : s.engine.sessions.get? sid = some k := by
    cases hget : s.engine.sessions.get? sid with
    | none =>
      obtain ⟨r, hr, hin, hsid, -⟩ := registered_by_request hs.wellFormed hget hengine hget'
      exact absurd hsid (hrequest r hr hin)
    | some k₀ =>
      obtain ⟨o₀, ho₀, -⟩ := hs.wellFormed.registered _ k₀ hget
      have hkept := (session_step hs.wellFormed hget ho₀ hengine (by simp [hget'])).1
      rw [hget'] at hkept
      exact hkept.symm
  obtain ⟨o, ho, -⟩ := hs.wellFormed.registered _ k hget
  have hstale : o.stale l.time = true := by
    obtain hmem | ⟨now, heq, hmem⟩ := hlisted
    · exact Session.stale_mono hl.clock (hs.listed sid k o hmem hget ho)
    · rw [← hnow now (by rw [heq]; rfl)]
      exact stale_of_listed hmem hget ho
  have hunseen : o.Unseen o' := by
    refine unseen_step hengine ho ho' (fun r hr hin hget₀ => ?_) fun pid inp m h heq hh => ?_
    · exact hrequest r hr hin (hs.wellFormed.distinct _ _ _ hget₀ hget)
    · obtain hmem | ⟨now, heq', -⟩ := hlisted
      · have huses := hl.uses
        rw [heq] at huses
        by_contra hrefreshes
        exact huses o ho h hh (by simpa using hrefreshes) sid hmem hget
      · rw [heq] at heq'
        cases heq'
  rw [htime, hunseen.stale_eq]
  exact hstale

/-- **An unhurried step keeps the tasks to their own sessions and the list of the reaper idle.** -/
theorem Clocked.Sound.step (hs : s.Sound) (hl : Unhurried e s l)
    (hstep : (clockedMachine e).step s l = some s') : s'.Sound where
  wellFormed := wellFormed_step hs.wellFormed (clocked_step hstep).1
  own _ _ _ _ _ ho' hh' hmay hget' := own_step hs hl hstep ho' hh' hmay hget'
  listed _ _ _ hmem' hget' ho' := listed_step hs hl hstep hmem' hget' ho'

theorem Clocked.Sound.init (world : World) : (Clocked.init world).Sound where
  wellFormed := .init world
  own _ _ _ _ _ ho := by cases ho
  listed _ _ _ hmem := by cases hmem

/-- What an unhurried step removes is removed for its own sake. -/
theorem Clocked.Sound.rightful (hs : s.Sound) (hl : Unhurried e s l) : Rightful e s l := by
  intro s' sid k hstep hget hnone
  obtain ⟨hengine, -, hnow⟩ := clocked_step hstep
  obtain ⟨o, ho, -⟩ := hs.wellFormed.registered _ k hget
  obtain ⟨i, pid, inp, m, oi, h, heq, hoi, hh, hmay, hsid⟩ | ⟨now, heq, hmem⟩ | ⟨heq, hmem⟩ :=
    removed_by hs.wellFormed hget hengine hnone
  · rw [heq]
    exact hs.own i oi pid h k hoi hh hmay (hsid ▸ hget)
  · rw [heq, ← hnow now (by rw [heq]; rfl)]
    exact ⟨o, ho, stale_of_listed hmem hget ho⟩
  · rw [heq]
    exact ⟨o, ho, Session.stale_mono hl.clock (hs.listed sid k o hmem hget ho)⟩

/-- **Every removal of an unhurried run is rightful.** -/
theorem rightful_of_unhurried (e : Engine) (world : World) (ls : List Stamped)
    (hls : (clockedMachine e).Along (Unhurried e) (.init world) ls) :
    (clockedMachine e).Along (Rightful e) (.init world) ls := by
  have hboth : (clockedMachine e).Along (fun s l => Rightful e s l ∧ Unhurried e s l) (.init world)
      ls := by
    rw [Machine.along_iff (I := Clocked.Sound) (fun _ _ _ hs hl hstep => hs.step hl hstep)
      (fun _ _ hs => and_iff_right_of_imp hs.rightful) (.init world)]
    exact hls
  exact hboth.mono fun _ _ h => h.1

end Unhurried

/-! ### A session that is removed for its predecessor -/

/-- A `POST` opens a connection, and the reaper comes to the session when it is idle. -/
def reapedWithPump : List Stamped :=
  [⟨0, .packetUp "alice" "s" 0 0⟩,
    ⟨0, .resume 0 0 (.data Relay.VlessHeader.localhost.encode) (momentAt 0)⟩,
    ⟨0, .resume 0 0 .go (momentAt 0)⟩, ⟨0, .resume 0 0 .go (momentAt 0)⟩,
    ⟨0, .resume 0 1 .go (momentAt 0)⟩, ⟨200, .reap 200⟩]

/-- The pump that was cancelled ends before the client comes back. -/
def reapedInPeace : List Stamped :=
  reapedWithPump ++ [⟨200, .resume 0 1 .go (momentAt 200)⟩, ⟨200, .packetUp "alice" "s" 0 200⟩]

theorem rightful_of_unhurried_reapedInPeace :
    (clockedMachine ⟨.vless, id⟩).Along (Rightful ⟨.vless, id⟩) (.init emptyWorld) reapedInPeace :=
  rightful_of_unhurried _ _ _ (by decide +kernel)

/-- The client comes back first. -/
def reusedSession : List Stamped := reapedWithPump ++ [⟨200, .packetUp "alice" "s" 0 200⟩]

/-- The pump of the first session removes the second one. -/
theorem pump_removes_successor : ∃ s s',
    (clockedMachine ⟨.vless, id⟩).run (.init emptyWorld) reusedSession = some s ∧
      (clockedMachine ⟨.vless, id⟩).step s ⟨200, .resume 0 1 .go (momentAt 200)⟩ = some s' ∧
      s.engine.sessions.get? "s" = some 1 ∧ s'.engine.sessions.get? "s" = none ∧
      ¬ Rightful ⟨.vless, id⟩ s ⟨200, .resume 0 1 .go (momentAt 200)⟩ := by
  have hview : ((clockedMachine ⟨.vless, id⟩).run (.init emptyWorld) reusedSession).map (fun s =>
      (s.engine.sessions.get? "s",
        ((clockedMachine ⟨.vless, id⟩).step s ⟨200, .resume 0 1 .go (momentAt 200)⟩).map fun s' =>
          s'.engine.sessions.get? "s")) = some (some 1, some none) := by decide +kernel
  obtain ⟨s, hs, hview⟩ := Option.map_eq_some_iff.1 hview
  obtain ⟨hget, hstep⟩ := Prod.mk.inj hview
  obtain ⟨s', hstep, hnone⟩ := Option.map_eq_some_iff.1 hstep
  refine ⟨s, s', hs, hstep, hget, hnone, fun hrightful => ?_⟩
  have heq : 0 = 1 := hrightful s' "s" 1 hstep hget hnone
  cases heq

end Xhttp

end RvgGateway
