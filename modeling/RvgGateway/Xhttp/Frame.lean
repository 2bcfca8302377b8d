import RvgGateway.Xhttp.Engine

/-!
# What a step of the XHTTP engine leaves alone

The facts about single steps that the results about the engine share.

* `Stays` : what a stretch of a handler can do to its session and to itself, and `proceed_stays`.
* `Session.Tended` : what `_teardown` and the environment can do to a session object.
-/

namespace RvgGateway

namespace Xhttp

/-! ### Tasks -/

namespace Session

theorem handler?_eq_some {o : Session} {pid : ℕ} {h : Handler} :
    o.handler? pid = some h ↔ o.tasks[pid]? = some (.running h) := by
  unfold handler?
  cases ht : o.tasks[pid]? with
  | none => simp
  | some t => cases t <;> simp [Task.handler?]

/-- After a task is set, its handlers are the new one and the others. -/
theorem handler?_of_setTask {o : Session} {pid pid' : ℕ} {t : Task} {h : Handler}
    (hh : (o.setTask pid t).handler? pid' = some h) :
    (pid' = pid ∧ t = .running h) ∨ o.handler? pid' = some h := by
  rw [handler?_eq_some, setTask] at hh
  simp only [List.getElem?_set] at hh
  split_ifs at hh with heq hlt
  · cases hh
    exact .inl ⟨heq.symm, rfl⟩
  · exact .inr (handler?_eq_some.2 hh)

theorem handler?_of_append {o : Session} {ts : List Task} {t : Task} {pid : ℕ} {h : Handler}
    (hts : ts = o.tasks ++ [t]) (hh : ts[pid]? = some (.running h)) :
    t = .running h ∨ o.handler? pid = some h := by
  rw [hts, List.getElem?_append] at hh
  split_ifs at hh
  · exact .inr (handler?_eq_some.2 hh)
  · obtain ⟨hlt, hget⟩ := List.getElem?_eq_some_iff.1 hh
    exact .inl (by simpa using hget)

end Session

/-! ### One stretch -/

/-- The wait is not in `_teardown`. -/
def Phase.outside : Phase → Bool
  | .teardown .. => false
  | _ => true

/-- What a stretch of `h`, on a session with these fields, can do. -/
structure Stays (h : Handler) (uuid : String) (closed : Bool) (tasks : List Task)
    (out : Outcome) : Prop where
  uuid_eq : out.session.uuid = uuid
  closed_eq : out.session.closed = closed
  /-- It can start a pump … -/
  tasks_eq : out.session.tasks = tasks ∨ ∃ p : Handler, out.session.tasks = tasks ++ [.running p] ∧
    p.uuid = h.uuid ∧ p.sid = h.sid ∧ p.phase = .start ∧ ∃ w gate first, p.role = .pump w gate first
  /-- … and wait again, … -/
  next : ∀ h', out.next = .wait h' →
    h'.uuid = h.uuid ∧ h'.sid = h.sid ∧ h'.phase.outside = true
  /-- … and its events are its own. -/
  events : ∀ ev ∈ out.events, (∃ a, ev = .opened h.uuid a) ∨ (∃ d, ev = .wrote h.uuid uuid d) ∨
    ∃ d, ev = .delivered h.uuid uuid d

section Stays

variable (e : Engine) (m : Moment) (h : Handler) (world : World) (o : Session)

theorem stays_wait {h' : Handler} {events : List Event}
    (hwait : h'.uuid = h.uuid ∧ h'.sid = h.sid ∧ h'.phase.outside = true)
    (hev : ∀ ev ∈ events, (∃ a, ev = .opened h.uuid a) ∨ (∃ d, ev = .wrote h.uuid o.uuid d) ∨
      ∃ d, ev = .delivered h.uuid o.uuid d) :
    Stays h o.uuid o.closed o.tasks ⟨world, o, .wait h', events⟩ where
  uuid_eq := rfl
  closed_eq := rfl
  tasks_eq := .inl rfl
  next h'' heq := by cases heq; exact hwait
  events := hev

theorem stays_ends (reply : Reply) : Stays h o.uuid o.closed o.tasks ⟨world, o, .ends reply, []⟩ where
  uuid_eq := rfl
  closed_eq := rfl
  tasks_eq := .inl rfl
  next _ heq := by cases heq
  events _ hev := by cases hev

theorem stays_teardown (reply : Reply) :
    Stays h o.uuid o.closed o.tasks ⟨world, o, .teardown reply, []⟩ where
  uuid_eq := rfl
  closed_eq := rfl
  tasks_eq := .inl rfl
  next _ heq := by cases heq
  events _ hev := by cases hev

theorem flushGate_stays : (flushGate m world o).2.uuid = o.uuid ∧
    (flushGate m world o).2.closed = o.closed ∧ (flushGate m world o).2.tasks = o.tasks := by
  unfold flushGate
  cases o.gate <;> exact ⟨rfl, rfl, rfl⟩

theorem abandon_stays (reply : Reply) :
    Stays h o.uuid o.closed o.tasks (abandon m h world o reply) := by
  unfold abandon
  split
  · obtain ⟨hu, hc, ht⟩ := flushGate_stays m world o
    rw [← hu, ← hc, ← ht]
    exact stays_teardown h _ _ reply
  · exact stays_teardown h _ _ reply

theorem fail_stays : Stays h o.uuid o.closed o.tasks (fail m h world o) := by
  unfold fail
  split <;> exact abandon_stays m h world o _

theorem openTcp_stays (chunk : Bytes) :
    Stays h o.uuid o.closed o.tasks (openTcp e m h world o chunk) := by
  unfold openTcp
  rcases readHeader e h.uuid world chunk with ⟨_ | ⟨header, isTrojan⟩, world'⟩
  · exact fail_stays m h world' o
  · refine stays_wait h world' o ⟨rfl, rfl, rfl⟩ fun ev hev => ?_
    exact .inl ⟨_, List.mem_singleton.1 hev⟩

theorem finishPacket_stays {events : List Event}
    (hev : ∀ ev ∈ events, ∃ d, ev = .wrote h.uuid o.uuid d) :
    Stays h o.uuid o.closed o.tasks (finishPacket m h world o events) := by
  unfold finishPacket
  split
  · exact stays_wait h world o ⟨rfl, rfl, rfl⟩ fun ev hmem => .inr (.inl (hev ev hmem))
  · refine ⟨rfl, rfl, .inl rfl, fun h' heq => ?_, fun ev hmem => .inr (.inl (hev ev hmem))⟩
    cases heq

theorem writePacket_stays (w : ℕ) (seq : ℤ) (data : Bytes) :
    Stays h o.uuid o.closed o.tasks (writePacket m h world o w seq data) := by
  unfold writePacket
  split
  · split
    · exact fail_stays m h world o
    · generalize Reorder.drain (seq + 1) o.seqBuf = res
      obtain ⟨nxt, seqBuf, more⟩ := res
      refine finishPacket_stays m h world
        { o.write w (data ++ more) with seqBuf, nextSeq := nxt } fun ev hev => ?_
      exact ⟨_, List.mem_singleton.1 hev⟩
  · exact finishPacket_stays m h world { o with seqBuf := o.seqBuf.set seq data } (by simp)

theorem putPacket_stays (seq : ℤ) (data : Bytes) :
    Stays h o.uuid o.closed o.tasks (putPacket e m h world o seq data) := by
  unfold putPacket
  split
  · split
    · exact openTcp_stays e m h world o data
    · exact stays_ends h world { o with seqBuf := o.seqBuf.set seq data } .buffered
  · exact writePacket_stays m h world o _ seq data

theorem putChunk_stays (writer : Option ℕ) (data : Bytes) :
    Stays h o.uuid o.closed o.tasks (putChunk e m h world o writer data) := by
  unfold putChunk
  split
  · exact openTcp_stays e m h world o data
  · split
    · exact fail_stays m h world o
    · refine stays_wait h world (o.write _ data) ⟨rfl, rfl, ?_⟩ fun ev hev => ?_
      · cases m.full <;> rfl
      · exact .inr (.inl ⟨_, List.mem_singleton.1 hev⟩)

theorem upload_stays (data : Bytes) :
    Stays h o.uuid o.closed o.tasks (upload e m h world o data) := by
  unfold upload
  split
  · split
    · exact stays_ends h world o .crashed
    · exact putPacket_stays e m h world { o with connBytes := some _ } _ data
  · exact putChunk_stays e m h world { o with connBytes := o.connBytes.map _ } _ data
  · exact stays_ends h world o .none

theorem meterUpload_stays (data : Bytes) :
    Stays h o.uuid o.closed o.tasks (meterUpload e m h world o data) := by
  unfold meterUpload
  dsimp only
  split
  · exact upload_stays e m h _ { o with gate := some _ } data
  · exact abandon_stays m h _ { o with gate := some _ } _

theorem fail_tasks : (fail m h world o).session.tasks = o.tasks := by
  unfold fail abandon
  split <;> split <;> first | rfl | exact (flushGate_stays m world o).2.2

theorem afterOpen_stays (w : ℕ) : Stays h o.uuid o.closed o.tasks (afterOpen m h world o w) := by
  unfold afterOpen
  split
  · exact stays_wait h world o ⟨rfl, rfl, rfl⟩ (by simp)
  · split
    · rename_i seqBuf _
      exact fail_stays m h world { o with seqBuf }
    · refine ⟨rfl, rfl, .inl rfl, fun h' heq => ?_, fun ev hev => ?_⟩
      · cases heq
      · exact .inr (.inl ⟨_, List.mem_singleton.1 hev⟩)

theorem afterOpen_tasks (w : ℕ) : (afterOpen m h world o w).session.tasks = o.tasks := by
  unfold afterOpen
  split
  · rfl
  · split
    · exact fail_tasks m h world { o with seqBuf := _ }
    · rfl

theorem finishOpen_stays (w : ℕ) (isTrojan : Bool) :
    Stays h o.uuid o.closed o.tasks (finishOpen e m h world o w isTrojan) := by
  have hafter := afterOpen_stays m h world (enterTcp e m h o w isTrojan) w
  have htasks := afterOpen_tasks m h world (enterTcp e m h o w isTrojan) w
  exact ⟨hafter.uuid_eq, hafter.closed_eq, .inr ⟨_, htasks, rfl, rfl, rfl, _, _, _, rfl⟩,
    hafter.next, hafter.events⟩

theorem endPump_stays (gate : Quota.Gate) :
    Stays h o.uuid o.closed o.tasks (endPump m gate world o) := stays_teardown h _ o _

theorem putData_stays (data : Bytes) : Stays h o.uuid o.closed o.tasks (putData h world o data) := by
  unfold putData
  split
  · exact stays_wait h world { o with downQ := o.downQ ++ [some data] } ⟨rfl, rfl, rfl⟩ (by simp)
  · exact stays_wait h world o ⟨rfl, rfl, rfl⟩ (by simp)

theorem meterPump_stays (w : ℕ) (gate : Quota.Gate) (first : Bool) (data : Bytes) :
    Stays h o.uuid o.closed o.tasks (meterPump m h world o w gate first data) := by
  unfold meterPump
  generalize gate.add data.length m.reading world.accounts = res
  obtain ⟨ok, gate, accounts⟩ := res
  dsimp only
  split
  · -- the pump that goes on differs from `h` in its role only
    have hput := putData_stays { h with role := .pump w gate false } { world with accounts }
      { o with connBytes := o.connBytes.map (· + data.length) }
      (if first then [0, 0] ++ data else data)
    exact ⟨hput.uuid_eq, hput.closed_eq, hput.tasks_eq, hput.next, hput.events⟩
  · exact endPump_stays m h _ o _

theorem connected_stays (header : Relay.Parsed) (isTrojan : Bool) :
    Stays h o.uuid o.closed o.tasks (connected e m h world o header isTrojan) := by
  unfold connected
  dsimp only
  split
  · exact finishOpen_stays e m h world { o with writers := o.writers ++ _ } _ isTrojan
  · refine stays_wait h world { o with writers := o.writers ++ _ } ⟨rfl, rfl, rfl⟩ fun ev hev => ?_
    exact .inr (.inl ⟨_, List.mem_singleton.1 hev⟩)

variable {e m h world o} {inp : Input} {out : Outcome}

theorem proceedUpload_stays (hout : proceedUpload e inp m h world o = some out) :
    Stays h o.uuid o.closed o.tasks out := by
  unfold proceedUpload at hout
  split at hout
  case h_1 => cases hout; exact meterUpload_stays e m h world o _
  case h_2 => cases hout; exact connected_stays e m h world o _ _
  case h_3 => cases hout; exact finishOpen_stays e m h world o _ _
  case h_4 | h_5 | h_6 => cases hout; exact fail_stays m h world o
  case h_7 =>
    split at hout
    · cases hout; exact stays_wait h world o ⟨rfl, rfl, rfl⟩ (by simp)
    · cases hout; exact stays_ends h world o .ok
  case h_8 => cases hout

/-- **A stretch of a handler** leaves its session's user and the other tasks alone. -/
theorem proceed_stays (hout : proceed e inp m h world o = some out) :
    Stays h o.uuid o.closed o.tasks out := by
  unfold proceed at hout
  split at hout
  · -- `packet_up_upload`
    unfold proceedPacketUp at hout
    split at hout
    · split at hout
      · cases hout; exact stays_ends h world o .ok
      · cases hout
        exact stays_wait h world { o with gate := some _ } ⟨rfl, rfl, rfl⟩ (by simp)
    · cases hout; exact stays_ends h world o .aborted
    · exact proceedUpload_stays hout
  · -- `stream_up_upload`
    unfold proceedStreamUp at hout
    split at hout
    · rename_i data hphase
      split at hout
      · cases hout
        exact stays_wait h world o ⟨rfl, rfl, by rw [hphase]; rfl⟩ (by simp)
      · cases hout
        exact stays_wait h world { o with lastSeen := m.now } ⟨rfl, rfl, rfl⟩ (by simp)
    · cases hout
      obtain ⟨hu, hc, ht⟩ := flushGate_stays m world o
      have hends := stays_ends h (flushGate m world o).1 (flushGate m world o).2 .ok
      rw [hu, hc, ht] at hends
      exact hends
    · cases hout; exact fail_stays m h world o
    · exact proceedUpload_stays hout
  · -- `_downstream_gen`
    unfold proceedDownlink at hout
    split at hout
    · rename_i hphase
      split at hout
      · cases hout
      · rename_i downQ _
        cases hout
        exact stays_ends h world { o with downQ } .ok
      · rename_i data downQ _
        cases hout
        refine stays_wait h world { o with downQ, lastSeen := m.now }
          ⟨rfl, rfl, by rw [hphase]; rfl⟩ fun ev hev => ?_
        exact .inr (.inr ⟨_, List.mem_singleton.1 hev⟩)
    · cases hout; exact stays_ends h world o .none
    · cases hout
  · -- `_pump_tcp_to_queue`
    unfold proceedPump at hout
    split at hout
    case h_1 => cases hout; exact stays_ends h world o .none
    case h_2 => cases hout; exact stays_wait h world o ⟨rfl, rfl, rfl⟩ (by simp)
    case h_3 | h_4 | h_5 => cases hout; exact endPump_stays m h world o _
    case h_6 =>
      split at hout
      · cases hout; exact endPump_stays m h world o _
      · cases hout; exact stays_wait h world o ⟨rfl, rfl, rfl⟩ (by simp)
    case h_7 => cases hout; exact endPump_stays m h world o _
    case h_8 => cases hout; exact meterPump_stays m h world o _ _ _ _
    case h_9 => cases hout; exact putData_stays h world o _
    case h_10 => cases hout

end Stays

/-! ### `_teardown` and the environment -/

namespace Session

/-- The work of `_teardown` on the flags, the connections and the queue of a session keeps to `R`. -/
structure Tolerates (R : Session → Session → Prop) : Prop where
  refl : ∀ o, R o o
  trans : ∀ {o₁ o₂ o₃}, R o₁ o₂ → R o₂ o₃ → R o₁ o₃
  flag : ∀ o : Session, R o { o with closed := true }
  close : ∀ o w, R o (o.close w)
  finalise : ∀ o, R o o.finalise

theorem finalise_eq (o : Session) : ∃ downQ, o.finalise = { o with connBytes := none, downQ } := by
  unfold finalise putNowait
  split
  · exact ⟨_, rfl⟩
  · exact ⟨o.downQ, rfl⟩

namespace Tolerates

variable {R : Session → Session → Prop} {o : Session}

theorem shut (hR : Tolerates R) (o : Session) : R o o.shut.1 := by
  unfold Session.shut
  split
  · exact hR.finalise o
  · exact hR.close o _

/-- The first part of `_teardown`, if the cancelling of the pump keeps to `R` as well. -/
theorem beginTeardown (hR : Tolerates R) (hcancel : ∀ (o : Session) (pid : ℕ) (h : Handler),
    o.handler? pid = some h → R o (o.cancel pid h)) (o : Session) : R o o.beginTeardown.1 := by
  unfold Session.beginTeardown
  dsimp only
  split
  · exact hR.trans (hR.flag o) (hR.shut _)
  · split
    · exact hR.trans (hR.flag o) (hR.shut _)
    · rename_i hh
      exact hR.trans (hR.flag o) (hcancel _ _ _ hh)

/-- The later parts of `_teardown`. -/
theorem continueTeardown (hR : Tolerates R) {cancelled : Bool} {stage : Stage}
    {res : Session × Option Stage} (hres : o.continueTeardown cancelled stage = some res) :
    R o res.1 := by
  unfold Session.continueTeardown at hres
  split at hres
  · split at hres
    · cases hres
      exact hR.shut o
    · cases hres
  · cases hres
    split
    · exact hR.refl o
    · exact hR.finalise o

end Tolerates

end Session

/-- `o'` is `o` after work on its flags, its connections and its queue: the user is the same, and so
are the tasks, apart from their being cancelled. -/
structure Session.Tended (o o' : Session) : Prop where
  uuid_eq : o'.uuid = o.uuid
  handler_of : ∀ pid h', o'.handler? pid = some h' → ∃ h, o.handler? pid = some h ∧
    h'.uuid = h.uuid ∧ h'.sid = h.sid ∧ h'.role = h.role ∧ h'.phase = h.phase

namespace Session.Tended

theorem of_tasks {o o' : Session} (huuid : o'.uuid = o.uuid) (htasks : o'.tasks = o.tasks) :
    o.Tended o' where
  uuid_eq := huuid
  handler_of pid h' hh' := by
    have hsame : o'.handler? pid = o.handler? pid := by unfold handler?; rw [htasks]
    exact ⟨h', hsame ▸ hh', rfl, rfl, rfl, rfl⟩

theorem trans {o₁ o₂ o₃ : Session} (h₁ : o₁.Tended o₂) (h₂ : o₂.Tended o₃) : o₁.Tended o₃ where
  uuid_eq := h₂.uuid_eq.trans h₁.uuid_eq
  handler_of pid h' hh' := by
    obtain ⟨h, hh, hu, hs, hr, hp⟩ := h₂.handler_of pid h' hh'
    obtain ⟨h₀, hh₀, hu₀, hs₀, hr₀, hp₀⟩ := h₁.handler_of pid h hh
    exact ⟨h₀, hh₀, hu.trans hu₀, hs.trans hs₀, hr.trans hr₀, hp.trans hp₀⟩

theorem close (o : Session) (w : ℕ) : o.Tended (o.close w) := of_tasks rfl rfl

theorem finalise (o : Session) : o.Tended o.finalise := by
  obtain ⟨downQ, heq⟩ := finalise_eq o
  rw [heq]
  exact of_tasks rfl rfl

theorem cancel {o : Session} {pid : ℕ} {h : Handler} (hh : o.handler? pid = some h) :
    o.Tended (o.cancel pid h) where
  uuid_eq := rfl
  handler_of pid' h' hh' := by
    rcases handler?_of_setTask hh' with ⟨rfl, heq⟩ | hold
    · cases heq
      exact ⟨h, hh, rfl, rfl, rfl, rfl⟩
    · exact ⟨h', hold, rfl, rfl, rfl, rfl⟩

theorem tolerates : Tolerates Tended where
  refl _ := of_tasks rfl rfl
  trans := trans
  flag _ := of_tasks rfl rfl
  close := close
  finalise := finalise

theorem beginTeardown (o : Session) : o.Tended o.beginTeardown.1 :=
  tolerates.beginTeardown (fun _ _ _ hh => cancel hh) o

theorem continueTeardown {o : Session} {cancelled : Bool} {stage : Stage}
    {res : Session × Option Stage} (hres : o.continueTeardown cancelled stage = some res) :
    o.Tended res.1 := tolerates.continueTeardown hres

end Session.Tended

/-! ### Steps -/

/-- What the first stretch of a request does: it starts a task of the request. -/
structure Serves (uuid sid : String) (serve : Session → Session × Task) : Prop where
  uuid_eq : ∀ o, (serve o).1.uuid = o.uuid
  closed_eq : ∀ o, (serve o).1.closed = o.closed
  tasks_eq : ∀ o, (serve o).1.tasks = o.tasks
  task : ∀ o h, (serve o).2 = .running h → h.uuid = uuid ∧ h.sid = sid ∧ h.phase = .input

namespace Serves

variable {uuid sid : String} {serve : Session → Session × Task} {o : Session}

theorem serve_cases (serve : Session → Session × Task) (o : Session) :
    (o.closed = true ∧
      o.serve serve = { o with tasks := o.tasks ++ [.done (.error 404 "session closed")] }) ∨
    (o.closed = false ∧
      o.serve serve = { (serve o).1 with tasks := (serve o).1.tasks ++ [(serve o).2] }) := by
  unfold Session.serve
  cases hc : o.closed with
  | true => exact .inl ⟨rfl, rfl⟩
  | false => exact .inr ⟨rfl, rfl⟩

theorem serve_uuid (hserve : Serves uuid sid serve) : (o.serve serve).uuid = o.uuid := by
  rcases serve_cases serve o with ⟨-, heq⟩ | ⟨-, heq⟩ <;> rw [heq]
  exact hserve.uuid_eq o

theorem serve_closed (hserve : Serves uuid sid serve) : (o.serve serve).closed = o.closed := by
  rcases serve_cases serve o with ⟨-, heq⟩ | ⟨-, heq⟩ <;> rw [heq]
  exact hserve.closed_eq o

/-- The tasks of a session after a request was served: its own, and those before. -/
theorem handler?_of_serve (hserve : Serves uuid sid serve) {pid : ℕ} {h : Handler}
    (hh : (o.serve serve).handler? pid = some h) :
    (h.uuid = uuid ∧ h.sid = sid ∧ h.phase = .input) ∨ o.handler? pid = some h := by
  rw [Session.handler?_eq_some] at hh
  rcases serve_cases serve o with ⟨-, heq⟩ | ⟨-, heq⟩ <;> rw [heq] at hh
  · rcases Session.handler?_of_append rfl hh with htask | hold
    · cases htask
    · exact .inr hold
  · rcases Session.handler?_of_append (o := o) (by rw [hserve.tasks_eq o]) hh with htask | hold
    · exact .inl (hserve.task o h htask)
    · exact .inr hold

end Serves

theorem servePacketUp_serves (uuid sid : String) (seq : ℤ) :
    Serves uuid sid (servePacketUp uuid sid seq) where
  uuid_eq _ := rfl
  closed_eq _ := rfl
  tasks_eq _ := rfl
  task _ _ heq := by cases heq; exact ⟨rfl, rfl, rfl⟩

theorem serveDownlink_serves (uuid sid : String) : Serves uuid sid (serveDownlink uuid sid) where
  uuid_eq _ := rfl
  closed_eq _ := rfl
  tasks_eq _ := rfl
  task _ _ heq := by cases heq; exact ⟨rfl, rfl, rfl⟩

theorem serveStreamUp_serves (kind : Kind) (uuid sid : String) (monotonic : ℚ) :
    Serves uuid sid (serveStreamUp kind uuid sid monotonic) := by
  have hcases : ∀ o : Session, serveStreamUp kind uuid sid monotonic o =
      ({ o with gate := some (o.ensureGate kind uuid monotonic) }, .done .crashed) ∨
      serveStreamUp kind uuid sid monotonic o =
        ({ o with gate := some (o.ensureGate kind uuid monotonic) },
          newTask uuid sid (.streamUp o.writer)) := by
    intro o
    unfold serveStreamUp
    dsimp only
    split
    · exact .inl rfl
    · exact .inr rfl
  refine ⟨fun o => ?_, fun o => ?_, fun o => ?_, fun o h heq => ?_⟩
  · rcases hcases o with ho | ho <;> rw [ho]
  · rcases hcases o with ho | ho <;> rw [ho]
  · rcases hcases o with ho | ho <;> rw [ho]
  · rcases hcases o with ho | ho <;> (rw [ho] at heq; cases heq)
    exact ⟨rfl, rfl, rfl⟩

section Arrive

variable {s : EngineState} {uuid mode sid : String} {now : ℚ} {serve : Session → Session × Task}

/-- A request under a new identifier creates its session. -/
theorem arrive_new (hget : s.sessions.get? sid = none) :
    s.arrive uuid mode sid now serve =
      ({ s with
          sessions := s.sessions.set sid s.objects.length
          objects := s.objects ++ [(Session.init uuid mode now).serve serve] },
        [.got uuid uuid]) := by
  unfold EngineState.arrive EngineState.getOrCreateSession
  simp only [hget, List.getElem?_concat_length, EngineState.put]
  rw [List.set_append_right _ _ le_rfl, Nat.sub_self]
  rfl

/-- A request under a registered identifier gets the session there is. -/
theorem arrive_old {i : ℕ} {o : Session} (hget : s.sessions.get? sid = some i)
    (ho : s.objects[i]? = some o) :
    s.arrive uuid mode sid now serve =
      (s.put i ({ o with lastSeen := now }.serve serve), [.got uuid o.uuid]) := by
  have hlt := (List.getElem?_eq_some_iff.1 ho).1
  unfold EngineState.arrive EngineState.getOrCreateSession
  simp only [hget, List.getElem?_modify_eq, ho, EngineState.put]
  rw [List.modify_eq_set_getElem?, ho]
  simp

/-- The identifier is registered for no object; `WellFormed` excludes it. -/
theorem arrive_lost {i : ℕ} (hget : s.sessions.get? sid = some i) (ho : s.objects[i]? = none) :
    s.arrive uuid mode sid now serve = (s, []) := by
  unfold EngineState.arrive EngineState.getOrCreateSession
  simp only [hget, List.getElem?_modify_eq, ho]
  rw [List.modify_eq_set_getElem?, ho]
  rfl

/-- The event of an arrival. -/
theorem arrive_events {ev : Event} (hev : ev ∈ (s.arrive uuid mode sid now serve).2) :
    ∃ owner, ev = .got uuid owner := by
  cases hget : s.sessions.get? sid with
  | none =>
    rw [arrive_new hget] at hev
    exact ⟨uuid, List.mem_singleton.1 hev⟩
  | some i =>
    cases ho : s.objects[i]? with
    | none => rw [arrive_lost hget ho] at hev; cases hev
    | some o =>
      rw [arrive_old hget ho] at hev
      exact ⟨o.uuid, List.mem_singleton.1 hev⟩

end Arrive

/-- How a task goes on: in `_teardown`, or with a stretch. -/
theorem resume_cases {e : Engine} {s : EngineState} {i pid : ℕ} {inp : Input} {m : Moment}
    {res : EngineState × List Event} (hres : s.resume e i pid inp m = some res) :
    ∃ o h, s.objects[i]? = some o ∧ o.handler? pid = some h ∧
      ((∃ victim stage reply, h.phase = .teardown victim stage reply ∧
          s.resumeTeardown i pid h victim stage reply = some res.1 ∧ res.2 = []) ∨
        h.phase.outside = true ∧ ∃ out, proceed e inp m h s.world o = some out ∧
          res = (s.conclude i pid h out, out.events)) := by
  unfold EngineState.resume at hres
  cases ho : s.objects[i]? with
  | none => simp [ho] at hres
  | some o =>
    cases hh : o.handler? pid with
    | none => simp [ho, hh] at hres
    | some h =>
      simp only [ho, hh] at hres
      refine ⟨o, h, rfl, hh, ?_⟩
      split at hres
      · rename_i victim stage reply hphase
        split at hres
        · obtain ⟨s', hs', rfl⟩ := Option.map_eq_some_iff.1 hres
          exact .inl ⟨victim, stage, reply, hphase, hs', rfl⟩
        · cases hres
      · rename_i hphase
        obtain ⟨out, hout, rfl⟩ := Option.map_eq_some_iff.1 hres
        refine .inr ⟨?_, out, hout, rfl⟩
        cases hp : h.phase with
        | teardown victim stage reply => exact absurd hp (hphase victim stage reply)
        | _ => rfl

/-- What can happen in a step, with the state after it and the events. -/
inductive EngineState.Happens (e : Engine) (s : EngineState) :
    Label → EngineState × List Event → Prop
  | packetUp (uuid sid : String) (seq : ℤ) (now : ℚ) :
      Happens e s (.packetUp uuid sid seq now)
        (s.arrive uuid "packet-up" sid now (servePacketUp uuid sid seq))
  | streamUp (uuid sid : String) (now monotonic : ℚ) :
      Happens e s (.streamUp uuid sid now monotonic)
        (s.arrive uuid "stream-up" sid now (serveStreamUp e.kind uuid sid monotonic))
  | downlink (mode uuid sid : String) (now : ℚ) (clock : Clock)
      (hcheck : checkLink e.kind s.world clock uuid = true) :
      Happens e s (.downlink mode uuid sid now clock)
        (s.arrive uuid mode sid now (serveDownlink uuid sid))
  | refused (mode uuid sid : String) (now : ℚ) (clock : Clock) :
      Happens e s (.downlink mode uuid sid now clock) (s, [])
  | inTeardown (i pid : ℕ) (inp : Input) (m : Moment) {o : Session} {h : Handler} {victim : ℕ}
      {stage : Stage} {reply : Reply} {s' : EngineState} (ho : s.objects[i]? = some o)
      (hh : o.handler? pid = some h) (hphase : h.phase = .teardown victim stage reply)
      (hs : s.resumeTeardown i pid h victim stage reply = some s') :
      Happens e s (.resume i pid inp m) (s', [])
  | stretch (i pid : ℕ) (inp : Input) (m : Moment) {o : Session} {h : Handler} {out : Outcome}
      (ho : s.objects[i]? = some o) (hh : o.handler? pid = some h)
      (hphase : h.phase.outside = true) (hout : proceed e inp m h s.world o = some out) :
      Happens e s (.resume i pid inp m) (s.conclude i pid h out, out.events)
  | lose (i w : ℕ) {o : Session} (ho : s.objects[i]? = some o) :
      Happens e s (.lose i w) (s.put i (o.close w), [])
  | reap (now : ℚ) (hidle : s.reaper.current = none) :
      Happens e s (.reap now) (s.sweep (s.staleSessions now), [])
  | sweep {victim : ℕ} {stage : Stage} {s' : EngineState}
      (hbusy : s.reaper.current = some (victim, stage))
      (hs : s.resumeReaper victim stage = some s') : Happens e s .sweep (s', [])
  | other (accounts : Accounts) (hashCache : Trojan.HashCache) :
      Happens e s (.other accounts hashCache) ({ s with world := ⟨accounts, hashCache⟩ }, [])

/-- A step is one of these. -/
theorem EngineState.next_happens {e : Engine} {s : EngineState} {l : Label}
    {res : EngineState × List Event} (hnext : s.next e l = some res) : s.Happens e l res := by
  cases l with
  | packetUp uuid sid seq now => cases hnext; exact .packetUp uuid sid seq now
  | streamUp uuid sid now monotonic => cases hnext; exact .streamUp uuid sid now monotonic
  | downlink mode uuid sid now clock =>
    rw [EngineState.next] at hnext
    split at hnext
    · rename_i hcheck
      cases hnext
      exact .downlink mode uuid sid now clock hcheck
    · cases hnext
      exact .refused mode uuid sid now clock
  | resume i pid inp m =>
    obtain ⟨o, h, ho, hh, ⟨victim, stage, reply, hphase, hs, hnil⟩ | ⟨hphase, out, hout, rfl⟩⟩ :=
      resume_cases hnext
    · obtain ⟨s', events⟩ := res
      cases hnil
      exact .inTeardown i pid inp m ho hh hphase hs
    · exact .stretch i pid inp m ho hh hphase hout
  | lose i w =>
    obtain ⟨o, ho, rfl⟩ := Option.map_eq_some_iff.1 hnext
    exact .lose i w ho
  | reap now =>
    rw [EngineState.next] at hnext
    split at hnext
    · rename_i hreaper
      cases hnext
      exact .reap now (by rw [hreaper])
    · cases hnext
  | sweep =>
    rw [EngineState.next] at hnext
    split at hnext
    · cases hnext
    · rename_i victim stage hbusy
      obtain ⟨s', hs, rfl⟩ := Option.map_eq_some_iff.1 hnext
      exact .sweep hbusy hs
  | other accounts hashCache => cases hnext; exact .other accounts hashCache

theorem step_happens {e : Engine} {s s' : EngineState} {l : Label}
    (hstep : (machine e).step s l = some s') : ∃ res, s.Happens e l res ∧ res.1 = s' := by
  obtain ⟨res, hnext, hs⟩ := Option.map_eq_some_iff.1 hstep
  exact ⟨res, EngineState.next_happens hnext, hs⟩

/-! ### Events -/

/-- A request arrives. -/
def Label.arrives : Label → Bool
  | .packetUp .. | .streamUp .. | .downlink .. => true
  | _ => false

/-- An event of a step comes from an arrival or from a stretch of a handler. -/
theorem emitted_cases {e : Engine} {s : EngineState} {l : Label} {ev : Event}
    (hev : ev ∈ emitted e s l) :
    (l.arrives = true ∧ ∃ uuid owner, ev = .got uuid owner) ∨
    ∃ i pid inp m o h out, l = .resume i pid inp m ∧ s.objects[i]? = some o ∧
      o.handler? pid = some h ∧ proceed e inp m h s.world o = some out ∧ ev ∈ out.events := by
  unfold emitted at hev
  cases hnext : s.next e l with
  | none => simp [hnext] at hev
  | some res =>
    simp only [hnext, Option.map_some, Option.getD_some] at hev
    cases EngineState.next_happens hnext with
    | packetUp | streamUp | downlink => exact .inl ⟨rfl, _, arrive_events hev⟩
    | stretch i pid inp m ho hh hphase hout =>
      exact .inr ⟨i, pid, inp, m, _, _, _, rfl, ho, hh, hout, hev⟩
    | refused | inTeardown | lose | reap | sweep | other => cases hev

end Xhttp

end RvgGateway
