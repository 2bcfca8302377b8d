import RvgGateway.Xhttp.Held

/-!
# The open connection of a session

`_teardown` closes the connection in `sess["writer"]` and no other.  `_open_tcp_for_session` enters a
connection there behind the drain of the payload that came with the header, and does not look whether
the session has a connection already.

* `Session.Primes` : a task waits for that drain.
* `Session.Sole` : only the last connection may be open, and the session or a task that primes it
  knows it.
* `Connects` : what a stretch does to the connections, and `proceed_connects` : every stretch.
* `OneAtATime` : no connect completes next to another connection, and no drain fails on an open one.
* `sole_step` : **then the sessions stay sole.**
-/

namespace RvgGateway

namespace Xhttp

/-- The task `pid` waits for the drain behind the payload of its header, on the connection `w`. -/
def Session.Primes (o : Session) (pid w : ℕ) : Prop :=
  ∃ h isTrojan, o.handler? pid = some h ∧ h.phase = .payload w isTrojan

/-- Only the last connection may be open, and it is the `writer`, or a task primes it. -/
structure Session.Sole (o : Session) : Prop where
  last : ∀ w, o.isClosing w = false → w + 1 = o.writers.length
  primed : ∀ pid w, o.Primes pid w → w + 1 = o.writers.length
  known : ∀ w, o.isClosing w = false → o.writer = some w ∨ ∃ pid, o.Primes pid w

/-! ### What a stretch does to the connections -/

section Stretch

variable {e : Engine} {inp : Input} {m : Moment} {h : Handler} {world : World} {o : Session}
  {out : Outcome}

theorem flushGate_writer : (flushGate m world o).2.writer = o.writer := by
  unfold flushGate
  split <;> rfl

theorem abandon_writer (reply : Reply) : (abandon m h world o reply).session.writer = o.writer := by
  unfold abandon
  split
  · exact flushGate_writer
  · rfl

theorem fail_writer : (fail m h world o).session.writer = o.writer := by
  unfold fail
  split <;> exact abandon_writer _

theorem fail_ne_wait (h' : Handler) : (fail m h world o).next ≠ .wait h' := by
  unfold fail
  split <;> rw [(abandon_outcome m h world o _).2] <;> simp

theorem openTcp_writer (chunk : Bytes) : (openTcp e m h world o chunk).session.writer = o.writer := by
  unfold openTcp
  split
  · exact fail_writer
  · rfl

theorem finishPacket_writer (events : List Event) :
    (finishPacket m h world o events).session.writer = o.writer := by
  rw [(finishPacket_session m h world o events).1]

theorem writePacket_writer (w : ℕ) (seq : ℤ) (data : Bytes) :
    (writePacket m h world o w seq data).session.writer = o.writer := by
  unfold writePacket
  split_ifs
  · exact fail_writer
  · exact (finishPacket_writer _).trans rfl
  · exact (finishPacket_writer _).trans rfl

theorem putPacket_writer (seq : ℤ) (data : Bytes) :
    (putPacket e m h world o seq data).session.writer = o.writer := by
  unfold putPacket
  split
  · split_ifs
    · exact openTcp_writer data
    · rfl
  · exact writePacket_writer _ seq data

theorem putChunk_writer (writer : Option ℕ) (data : Bytes) :
    (putChunk e m h world o writer data).session.writer = o.writer := by
  unfold putChunk
  split
  · exact openTcp_writer data
  · split
    · exact fail_writer
    · rfl

theorem meterUpload_writer (data : Bytes) :
    (meterUpload e m h world o data).session.writer = o.writer := by
  unfold meterUpload
  dsimp only
  split
  · unfold upload
    split
    · split
      · rfl
      · exact putPacket_writer _ data
    · exact putChunk_writer _ data
    · rfl
  · exact abandon_writer _

theorem putData_writer (h' : Handler) (data : Bytes) :
    (putData h' world o data).session.writer = o.writer := by
  unfold putData
  split <;> rfl

theorem proceedPump_writer {w : ℕ} {gate : Quota.Gate} {first : Bool}
    (hout : proceedPump e inp m h world o w gate first = some out) :
    out.session.writer = o.writer := by
  unfold proceedPump at hout
  split at hout
  case h_6 => split at hout <;> (cases hout; rfl)
  case h_8 =>
    cases hout
    unfold meterPump
    dsimp only
    split
    · exact putData_writer _ _
    · rfl
  case h_9 => cases hout; exact putData_writer h _
  case h_10 => cases hout
  all_goals cases hout; rfl

/-- A stretch that is not about to open a connection leaves the `writer` alone. -/
theorem proceed_writer (hout : proceed e inp m h world o = some out)
    (hphase : h.phase.opening = false) : out.session.writer = o.writer := by
  have hupload : proceedUpload e inp m h world o = some out → out.session.writer = o.writer := by
    intro hup
    unfold proceedUpload at hup
    split at hup
    case h_1 => cases hup; exact meterUpload_writer _
    case h_2 heq | h_3 heq => rw [heq] at hphase; cases hphase
    case h_4 | h_5 | h_6 => cases hup; exact fail_writer
    case h_7 => split at hup <;> (cases hup; rfl)
    case h_8 => cases hup
  unfold proceed at hout
  split at hout
  · unfold proceedPacketUp at hout
    split at hout
    · split_ifs at hout <;> (cases hout; rfl)
    · cases hout; rfl
    · exact hupload hout
  · unfold proceedStreamUp at hout
    split at hout
    · split_ifs at hout <;> (cases hout; rfl)
    · cases hout; exact flushGate_writer
    · cases hout; exact fail_writer
    · exact hupload hout
  · unfold proceedDownlink at hout
    split at hout
    · split at hout <;> cases hout <;> rfl
    · cases hout; rfl
    · cases hout
  · exact proceedPump_writer hout

/-- A handler that opens a connection is an upload behind its gate. -/
theorem proceed_opening (hout : proceed e inp m h world o = some out)
    (hphase : h.phase.opening = true) : proceedUpload e inp m h world o = some out := by
  unfold proceed at hout
  split at hout
  · unfold proceedPacketUp at hout
    split at hout
    case h_1 heq | h_2 heq => rw [heq] at hphase; cases hphase
    case h_3 => exact hout
  · unfold proceedStreamUp at hout
    split at hout
    case h_1 heq | h_2 heq | h_3 heq => rw [heq] at hphase; cases hphase
    case h_4 => exact hout
  · unfold proceedDownlink at hout
    split at hout
    case h_1 heq | h_2 heq => rw [heq] at hphase; cases hphase
    case h_3 => cases hout
  · unfold proceedPump at hout
    split at hout
    case h_10 => cases hout
    all_goals rename_i heq; rw [heq] at hphase; cases hphase

theorem finishOpen_next {w : ℕ} {isTrojan : Bool} {h' : Handler}
    (hnext : (finishOpen e m h world o w isTrojan).next = .wait h') : h'.phase.opening = false := by
  unfold finishOpen afterOpen at hnext
  split at hnext
  · cases hnext
    rfl
  · split at hnext
    · exact absurd hnext (fail_ne_wait h')
    · cases hnext

theorem finishOpen_writer {w : ℕ} {isTrojan : Bool} :
    (finishOpen e m h world o w isTrojan).session.writer = some w := by
  unfold finishOpen afterOpen
  split
  · rfl
  · split
    · exact fail_writer
    · rfl

/-- What a stretch does to the connections. -/
inductive Connects (inp : Input) (h : Handler) (o : Session) (out : Outcome) : Prop
  | kept (writer : out.session.writer = o.writer) (closings : out.session.closings = o.closings)
      (hnext : ∀ h', out.next = .wait h' → ∀ w isTrojan, h'.phase ≠ .payload w isTrojan)
      (hfailed : ∀ w isTrojan, h.phase = .payload w isTrojan → inp = .failed)
  /-- A new connection, on which the payload of the header is written. -/
  | primed (header : Relay.Parsed) (isTrojan : Bool) (hphase : h.phase = .connect header isTrojan)
      (hinp : inp = .go) (writer : out.session.writer = o.writer)
      (closings : out.session.closings = o.closings ++ [false])
      (hnext : out.next = .wait { h with phase := .payload o.writers.length isTrojan })
  /-- A new connection without such a payload. -/
  | connected (header : Relay.Parsed) (isTrojan : Bool)
      (hphase : h.phase = .connect header isTrojan) (hinp : inp = .go)
      (writer : out.session.writer = some o.writers.length)
      (closings : out.session.closings = o.closings ++ [false])
      (hnext : ∀ h', out.next = .wait h' → ∀ w isTrojan, h'.phase ≠ .payload w isTrojan)
      (hstays : ∀ reply, out.next ≠ .teardown reply)
  /-- The payload has drained. -/
  | entered (w : ℕ) (isTrojan : Bool) (hphase : h.phase = .payload w isTrojan)
      (writer : out.session.writer = some w) (closings : out.session.closings = o.closings)
      (hnext : ∀ h', out.next = .wait h' → ∀ w isTrojan, h'.phase ≠ .payload w isTrojan)
      (hstays : o.isClosing w = false → ∀ reply, out.next ≠ .teardown reply)

theorem not_payload_of_opening {phase : Phase} (hopening : phase.opening = false) (w : ℕ)
    (isTrojan : Bool) : phase ≠ .payload w isTrojan := by
  rintro rfl
  cases hopening

/-- A connect that completes. -/
theorem connected_connects {header : Relay.Parsed} {isTrojan : Bool}
    (hphase : h.phase = .connect header isTrojan) :
    Connects .go h o (connected e m h world o header isTrojan) := by
  have hclosings : ∀ c : Writer, c.closing = false →
      Session.closings { o with writers := o.writers ++ [c] } = o.closings ++ [false] := by
    intro c hc
    unfold Session.closings
    rw [List.map_append, List.map_singleton, hc]
  unfold connected
  dsimp only
  split
  · have hopen : Session.isClosing { o with writers := o.writers ++
        [⟨header.address, header.port, header.payload, false⟩] } o.writers.length = false := by
      unfold Session.isClosing
      rw [List.getElem?_concat_length]
      rfl
    obtain ⟨-, -, -, hclose, -, -, hstays⟩ := finishOpen_open e m h world _ isTrojan hopen
    exact .connected header isTrojan hphase rfl finishOpen_writer (hclose.trans (hclosings _ rfl))
      (fun h' hnext => not_payload_of_opening (finishOpen_next hnext)) hstays
  · exact .primed header isTrojan hphase rfl rfl (hclosings _ rfl) rfl

/-- **Every stretch** does one of these things. -/
theorem proceed_connects (hout : proceed e inp m h world o = some out) : Connects inp h o out := by
  have hkeeps : (∀ header isTrojan, h.phase = .connect header isTrojan → inp ≠ .go) →
      out.session.closings = o.closings := fun hno =>
    (closings_or_connected hout).resolve_right fun ⟨hinp, ⟨header, isTrojan, hphase⟩, _⟩ =>
      hno header isTrojan hphase hinp
  have hfails : ∀ {world' : World}, out = fail m h world' o → inp = .failed → Connects inp h o out := by
    intro world' heq hinp
    refine .kept (heq ▸ fail_writer) (hkeeps fun _ _ _ => by rw [hinp]; simp) ?_ fun _ _ _ => hinp
    intro h' hnext
    exact absurd (heq ▸ hnext) (fail_ne_wait h')
  cases hopening : h.phase.opening with
  | false =>
    refine .kept (proceed_writer hout hopening) (hkeeps fun _ _ heq => ?_) (fun h' hnext => ?_)
      fun w isTrojan heq => absurd heq (not_payload_of_opening hopening w isTrojan)
    · rw [heq] at hopening
      cases hopening
    · cases proceed_effect hout with
      | plain _ goes | wrote _ _ _ goes => exact not_payload_of_opening (goes.wait h' hnext).2
      | opened _ _ _ _ _ _ _ _ heq =>
        rw [heq] at hnext
        cases hnext
        simp
      | crashed _ _ _ _ _ _ _ _ heq =>
        rw [heq] at hnext
        cases hnext
      | connected _ _ heq =>
        rw [heq] at hopening
        cases hopening
      | took _ _ _ _ _ _ _ _ heq =>
        rw [heq] at hnext
        split_ifs at hnext
        cases hnext
        exact not_payload_of_opening hopening
      | put _ _ _ _ _ _ goes => exact not_payload_of_opening (goes.wait h' hnext).2
  | true =>
    have hup := proceed_opening hout hopening
    unfold proceedUpload at hup
    split at hup
    case h_1 heq | h_6 heq | h_7 heq => rw [heq] at hopening; cases hopening
    case h_2 header isTrojan hphase =>
      cases hup
      exact connected_connects hphase
    case h_3 w isTrojan hphase =>
      cases hup
      refine .entered w isTrojan hphase finishOpen_writer (hkeeps fun _ _ heq => ?_)
        (fun h' hnext => not_payload_of_opening (finishOpen_next hnext))
        fun hopen => (finishOpen_open e m h world o isTrojan hopen).2.2.2.2.2.2
      rw [hphase] at heq
      cases heq
    case h_4 | h_5 =>
      cases hup
      exact hfails rfl rfl
    case h_8 => cases hup

end Stretch

/-! ### What `_teardown` does to them -/

namespace Session

variable {o o₁ o' : Session} {actor : Option ℕ} {pid pid' w : ℕ} {h : Handler}

theorem primes_of_tasks (htasks : o'.tasks = o.tasks) : o'.Primes pid w ↔ o.Primes pid w := by
  unfold Primes handler?
  rw [htasks]

theorem primes_setTask_ne (hne : pid' ≠ pid) (t : Task) :
    (o.setTask pid t).Primes pid' w ↔ o.Primes pid' w := by
  unfold Primes
  simp only [handler?_eq_some, setTask, List.getElem?_set_ne hne.symm]

theorem Primes.of_setTask {h' : Handler} (hprimes : (o.setTask pid (.running h')).Primes pid w) :
    ∃ isTrojan, h'.phase = .payload w isTrojan := by
  obtain ⟨h₁, isTrojan, hh, hphase⟩ := hprimes
  cases setTask_of_handler? hh
  exact ⟨isTrojan, hphase⟩

/-- `o'` is `o` behind the work of `_teardown`: no connection is opened, and only the task that goes
on leaves its drain. -/
structure Winds (actor : Option ℕ) (o o' : Session) : Prop where
  shrinks : o.Shrinks o'
  length : o'.writers.length = o.writers.length
  back : ∀ pid w, o'.Primes pid w → o.Primes pid w
  forth : ∀ pid w, o.Primes pid w → actor ≠ some pid → o'.Primes pid w

theorem Winds.of_tasks (hshrinks : o.Shrinks o') (hlength : o'.writers.length = o.writers.length)
    (htasks : o'.tasks = o.tasks) : Winds actor o o' :=
  ⟨hshrinks, hlength, fun _ _ => (primes_of_tasks htasks).1,
    fun _ _ hprimes _ => (primes_of_tasks htasks).2 hprimes⟩

theorem winds_tolerates (actor : Option ℕ) : Tolerates (Winds actor) where
  refl o := .of_tasks (.refl o) rfl rfl
  trans h₁ h₂ := ⟨h₁.shrinks.trans h₂.shrinks, h₂.length.trans h₁.length,
    fun pid w hprimes => h₁.back pid w (h₂.back pid w hprimes),
    fun pid w hprimes hactor => h₂.forth pid w (h₁.forth pid w hprimes hactor) hactor⟩
  flag o := .of_tasks ⟨rfl, fun _ hw => hw⟩ rfl rfl
  close o w := .of_tasks (shrinks_close o w) (List.length_modify _ _ _) rfl
  finalise o := by
    obtain ⟨downQ, heq⟩ := finalise_eq o
    rw [heq]
    exact .of_tasks ⟨rfl, fun _ hw => hw⟩ rfl rfl

/-- A pump that is cancelled does not leave its wait by that. -/
theorem winds_cancel (hh : o.handler? pid = some h) : Winds actor o (o.cancel pid h) := by
  refine ⟨⟨rfl, fun _ hw => hw⟩, rfl, fun pid' w hprimes => ?_, fun pid' w hprimes _ => ?_⟩
  · by_cases hpid : pid' = pid
    · subst hpid
      obtain ⟨isTrojan, hphase⟩ := hprimes.of_setTask
      exact ⟨h, isTrojan, hh, hphase⟩
    · exact (primes_setTask_ne hpid _).1 hprimes
  · by_cases hpid : pid' = pid
    · subst hpid
      obtain ⟨h₁, isTrojan, hh₁, hphase⟩ := hprimes
      cases hh.symm.trans hh₁
      exact ⟨_, isTrojan, handler?_setTask_self hh, hphase⟩
    · exact (primes_setTask_ne hpid _).2 hprimes

/-- The task that goes on is done, or waits in `_teardown`. -/
theorem winds_setTask (hpid : actor = some pid) {t : Task}
    (ht : ∀ h', t = .running h' → h'.phase.outside = false) : Winds actor o (o.setTask pid t) := by
  refine ⟨⟨rfl, fun _ hw => hw⟩, rfl, fun pid' w hprimes => ?_, fun pid' w hprimes hactor => ?_⟩
  · by_cases hne : pid' = pid
    · subst hne
      obtain ⟨h', isTrojan, hh', hphase⟩ := hprimes
      have houtside := ht h' (setTask_of_handler? hh')
      rw [hphase] at houtside
      cases houtside
    · exact (primes_setTask_ne hne _).1 hprimes
  · have hne : pid' ≠ pid := by
      rintro rfl
      exact hactor hpid
    exact (primes_setTask_ne hne _).2 hprimes

theorem winds_follows (ht : Relation.ReflTransGen (Tends actor) o o') : Winds actor o o' := by
  induction ht with
  | refl => exact (winds_tolerates actor).refl o
  | tail _ htend ih =>
    refine (winds_tolerates actor).trans ih ?_
    cases htend with
    | begin => exact (winds_tolerates actor).beginTeardown (fun _ _ _ => winds_cancel) _
    | «continue» hres => exact (winds_tolerates actor).continueTeardown hres
    | finish hpid => exact winds_setTask hpid fun _ heq => (by cases heq)
    | park hpid _ _ hphase =>
      refine winds_setTask hpid fun _ heq => ?_
      cases heq
      rw [hphase]
      rfl

/-- `_teardown` keeps a session sole, if the task that goes on primes no open connection. -/
theorem Sole.winds (ho : o.Sole) (hwinds : Winds actor o o')
    (hactor : ∀ pid w, actor = some pid → o.Primes pid w → o.isClosing w = true) : o'.Sole := by
  have hopen : ∀ w, o'.isClosing w = false → o.isClosing w = false := by
    intro w hw
    by_contra hclosing
    rw [hwinds.shrinks.closing w (by simpa using hclosing)] at hw
    cases hw
  refine ⟨fun w hw => hwinds.length ▸ ho.last w (hopen w hw),
    fun pid w hprimes => hwinds.length ▸ ho.primed pid w (hwinds.back pid w hprimes), fun w hw => ?_⟩
  rcases ho.known w (hopen w hw) with hwriter | ⟨pid, hprimes⟩
  · exact .inl (hwinds.shrinks.writer.trans hwriter)
  · refine .inr ⟨pid, hwinds.forth pid w hprimes fun hpid => ?_⟩
    cases (hopen w hw).symm.trans (hactor pid w hpid hprimes)

end Session

/-! ### Steps -/

section Step

variable {e : Engine} {s s' : EngineState} {l : Label} {k pid : ℕ} {inp : Input} {m : Moment}
  {h : Handler} {world : World} {o : Session} {out : Outcome}

theorem Session.length_closings (o : Session) : o.closings.length = o.writers.length :=
  List.length_map _

/-- A session with the same connections is sole, if what is open is still known. -/
theorem Session.Sole.of_closings {o₁ : Session} (ho : o.Sole) (hclosings : o₁.closings = o.closings)
    (hprimes : ∀ pid w, o₁.Primes pid w → o.Primes pid w)
    (hknown : ∀ w, o.isClosing w = false → o₁.writer = some w ∨ ∃ pid, o₁.Primes pid w) :
    o₁.Sole := by
  have hlength : o₁.writers.length = o.writers.length := by
    rw [← Session.length_closings, hclosings, Session.length_closings]
  have hopen : ∀ w, o₁.isClosing w = o.isClosing w := fun w => by
    rw [Session.isClosing_eq, hclosings, ← Session.isClosing_eq]
  refine ⟨fun w hw => ?_, fun pid w hw => ?_, fun w hw => hknown w ((hopen w).symm.trans hw)⟩
  · exact (ho.last w ((hopen w).symm.trans hw)).trans hlength.symm
  · exact (ho.primed pid w (hprimes pid w hw)).trans hlength.symm

/-- A session with a new connection next to closing ones is sole, if the new one is known. -/
theorem Session.sole_of_connected {o₁ : Session} (hclosings : o₁.closings = o.closings ++ [false])
    (hclosed : ∀ w, o.isClosing w = true)
    (hprimes : ∀ pid w, o₁.Primes pid w → w = o.writers.length)
    (hknown : o₁.writer = some o.writers.length ∨ ∃ pid, o₁.Primes pid o.writers.length) :
    o₁.Sole := by
  have hlength : o₁.writers.length = o.writers.length + 1 := by
    rw [← Session.length_closings, hclosings, List.length_append, Session.length_closings,
      List.length_singleton]
  have hopen : ∀ w, o₁.isClosing w = false → w = o.writers.length := by
    intro w hw
    by_contra hne
    rw [Session.isClosing_eq, hclosings] at hw
    rcases lt_or_gt_of_ne hne with hlt | hgt
    · rw [List.getElem?_append_left (by rwa [Session.length_closings]),
        ← Session.isClosing_eq, hclosed] at hw
      cases hw
    · have hlen : (o.closings ++ [false]).length ≤ w := by
        rw [List.length_append, List.length_singleton, Session.length_closings]
        omega
      rw [List.getElem?_eq_none hlen] at hw
      cases hw
  refine ⟨fun w hw => ?_, fun pid w hw => ?_, fun w hw => ?_⟩
  · rw [hopen w hw, hlength]
  · rw [hprimes pid w hw, hlength]
  · rw [hopen w hw]
    exact hknown

/-- The tasks of the others prime what they primed. -/
theorem primes_stretch {pid' w : ℕ} (hout : proceed e inp m h world o = some out)
    (hne : pid' ≠ pid) : (out.session.setTask pid (out.next.left h)).Primes pid' w ↔
      o.Primes pid' w := by
  rw [Session.primes_setTask_ne hne]
  rcases (proceed_stays hout).tasks_eq with htasks | ⟨p, htasks, -, -, hstart, -⟩
  · exact Session.primes_of_tasks htasks
  · constructor
    · rintro ⟨h', isTrojan, hh', hphase⟩
      rcases Session.handler?_of_append htasks (Session.handler?_eq_some.1 hh') with heq | hh
      · cases heq
        rw [hstart] at hphase
        cases hphase
      · exact ⟨h', isTrojan, hh, hphase⟩
    · rintro ⟨h', isTrojan, hh', hphase⟩
      obtain ⟨h'', hh'', hsame⟩ := Session.Lingers.of_append htasks pid' h' hh'
      exact ⟨h'', isTrojan, hh'', hsame.trans hphase⟩

/-- The task primes a connection behind its stretch. -/
theorem primes_self {w : ℕ} (hprimes : (out.session.setTask pid (out.next.left h)).Primes pid w) :
    (∃ h' isTrojan, out.next = .wait h' ∧ h'.phase = .payload w isTrojan) ∨
      ∃ reply isTrojan, out.next = .teardown reply ∧ h.phase = .payload w isTrojan := by
  unfold Next.left at hprimes
  cases hnext : out.next with
  | wait h' =>
    rw [hnext] at hprimes
    obtain ⟨isTrojan, hphase⟩ := hprimes.of_setTask
    exact .inl ⟨h', isTrojan, rfl, hphase⟩
  | ends reply =>
    rw [hnext] at hprimes
    obtain ⟨h', -, hh', -⟩ := hprimes
    cases Session.setTask_of_handler? hh'
  | teardown reply =>
    rw [hnext] at hprimes
    obtain ⟨isTrojan, hphase⟩ := hprimes.of_setTask
    exact .inr ⟨reply, isTrojan, rfl, hphase⟩

/-- **A stretch keeps its session sole**, if it completes no connect next to another connection and
no drain fails on an open one; and when it goes on in `_teardown`, its task primes no open one. -/
theorem Session.Sole.stretch (ho : o.Sole) (hh : o.handler? pid = some h)
    (hout : proceed e inp m h world o = some out)
    (hfirst : ∀ header isTrojan, h.phase = .connect header isTrojan → inp = .go →
      (∀ w, o.isClosing w = true) ∧ ∀ pid' w, ¬ o.Primes pid' w)
    (hdrain : ∀ w isTrojan, h.phase = .payload w isTrojan → inp = .failed → o.isClosing w = true) :
    (out.session.setTask pid (out.next.left h)).Sole ∧
      ((∃ reply, out.next = .teardown reply) → ∀ w,
        (out.session.setTask pid (out.next.left h)).Primes pid w →
          (out.session.setTask pid (out.next.left h)).isClosing w = true) := by
  set o₁ := out.session.setTask pid (out.next.left h) with ho₁
  have hothers : ∀ {pid' w}, pid' ≠ pid → (o₁.Primes pid' w ↔ o.Primes pid' w) :=
    fun hne => primes_stretch hout hne
  -- what the task primes behind the stretch it primed before, or it was a connect
  have hback : (∀ h', out.next = .wait h' → ∀ w isTrojan, h'.phase ≠ .payload w isTrojan) →
      ∀ pid' w, o₁.Primes pid' w → o.Primes pid' w := by
    intro hnext pid' w hprimes
    by_cases hne : pid' = pid
    · subst hne
      rcases primes_self hprimes with ⟨h', isTrojan, hwait, hphase⟩ | ⟨-, isTrojan, -, hphase⟩
      · exact absurd hphase (hnext h' hwait w isTrojan)
      · exact ⟨h, isTrojan, hh, hphase⟩
    · exact (hothers hne).1 hprimes
  have hown : ∀ {w}, o.Primes pid w → ∃ isTrojan, h.phase = .payload w isTrojan := by
    rintro w ⟨h', isTrojan, hh', hphase⟩
    cases hh.symm.trans hh'
    exact ⟨isTrojan, hphase⟩
  have hsame : out.session.closings = o.closings → ∀ w, o₁.isClosing w = o.isClosing w :=
    fun hclosings w => by
      rw [Session.isClosing_eq, show o₁.closings = o.closings from hclosings, ← Session.isClosing_eq]
  cases proceed_connects hout with
  | kept writer closings hnext hfailed =>
    have hshut : ∀ w, o.Primes pid w → o.isClosing w = true := fun w hprimes => by
      obtain ⟨isTrojan, hphase⟩ := hown hprimes
      exact hdrain w isTrojan hphase (hfailed w isTrojan hphase)
    refine ⟨ho.of_closings closings (hback hnext) fun w hw => ?_, fun _ w hprimes => ?_⟩
    · rcases ho.known w hw with hwriter | ⟨pid', hprimes⟩
      · exact .inl (writer.trans hwriter)
      · refine .inr ⟨pid', (hothers ?_).2 hprimes⟩
        rintro rfl
        cases (hshut w hprimes).symm.trans hw
    · exact (hsame closings w).trans (hshut w (hback hnext pid w hprimes))
  | primed header isTrojan hphase hinp writer closings hnext =>
    obtain ⟨hclosed, hnone⟩ := hfirst header isTrojan hphase hinp
    refine ⟨Session.sole_of_connected closings hclosed (fun pid' w hprimes => ?_) (.inr ⟨pid, ?_⟩),
      fun ⟨reply, hteardown⟩ => by cases hnext.symm.trans hteardown⟩
    · by_cases hne : pid' = pid
      · subst hne
        rcases primes_self hprimes with ⟨h', _, hwait, hphase'⟩ | ⟨reply, -, hteardown, -⟩
        · cases hnext.symm.trans hwait
          cases hphase'
          rfl
        · cases hnext.symm.trans hteardown
      · exact absurd ((hothers hne).1 hprimes) (hnone pid' w)
    · obtain ⟨h', hh', -⟩ : ∃ h', out.session.handler? pid = some h' ∧ h'.phase = h.phase := by
        rcases (proceed_stays hout).tasks_eq with htasks | ⟨p, htasks, -⟩
        · exact Session.Lingers.of_tasks htasks pid h hh
        · exact Session.Lingers.of_append htasks pid h hh
      rw [ho₁, hnext]
      exact ⟨_, isTrojan, Session.handler?_setTask_self hh', rfl⟩
  | connected header isTrojan hphase hinp writer closings hnext hstays =>
    obtain ⟨hclosed, hnone⟩ := hfirst header isTrojan hphase hinp
    refine ⟨Session.sole_of_connected closings hclosed (fun pid' w hprimes => ?_) (.inl writer),
      fun ⟨reply, hteardown⟩ => absurd hteardown (hstays reply)⟩
    exact absurd (hback hnext pid' w hprimes) (hnone pid' w)
  | entered w isTrojan hphase writer closings hnext hstays =>
    have hlast := ho.primed pid w ⟨h, isTrojan, hh, hphase⟩
    refine ⟨ho.of_closings closings (hback hnext) fun v hv => .inl ?_,
      fun ⟨reply, hteardown⟩ v hprimes => ?_⟩
    · have hv' := ho.last v hv
      rw [show v = w by omega]
      exact writer
    · obtain ⟨isTrojan', hphase'⟩ := hown (hback hnext pid v hprimes)
      cases hphase.symm.trans hphase'
      by_contra hopen
      rw [Bool.not_eq_true, hsame closings] at hopen
      exact hstays hopen reply hteardown

/-- Connections are opened one at a time, and the drain behind the first payload fails only on a
connection that is closing. -/
structure OneAtATime (s : EngineState) (l : Label) : Prop where
  /-- A connect that completes finds no connection open, and no other task in that drain. -/
  connect : ∀ (k pid : ℕ) (m : Moment) (o : Session) (h : Handler) (header : Relay.Parsed)
    (isTrojan : Bool), l = .resume k pid .go m → s.objects[k]? = some o →
      o.handler? pid = some h → h.phase = .connect header isTrojan →
        (∀ w, o.isClosing w = true) ∧ ∀ pid' w, ¬ o.Primes pid' w
  drain : ∀ (k pid : ℕ) (m : Moment) (o : Session) (w : ℕ), l = .resume k pid .failed m →
    s.objects[k]? = some o → o.Primes pid w → o.isClosing w = true

/-- All sessions are sole. -/
def EngineState.Sole (s : EngineState) : Prop :=
  ∀ (k : ℕ) (o : Session), s.objects[k]? = some o → o.Sole

/-- A session that has not opened a connection yet. -/
theorem Session.sole_init (uuid mode : String) (now : ℚ) : (Session.init uuid mode now).Sole where
  last w hw := by cases hw
  primed pid w := by rintro ⟨h, -, hh, -⟩; cases hh
  known w hw := by cases hw

theorem Session.Sole.congr {o' : Session} (ho : o.Sole) (hwriter : o'.writer = o.writer)
    (hwriters : o'.writers = o.writers) (hprimes : ∀ pid w, o'.Primes pid w ↔ o.Primes pid w) :
    o'.Sole := by
  have hclosing : ∀ w, o'.isClosing w = o.isClosing w := fun w => by
    unfold Session.isClosing
    rw [hwriters]
  refine ⟨fun w hw => ?_, fun pid w hw => ?_, fun w hw => ?_⟩
  · rw [hwriters]
    exact ho.last w ((hclosing w).symm.trans hw)
  · rw [hwriters]
    exact ho.primed pid w ((hprimes pid w).1 hw)
  · simp only [hwriter, hprimes]
    exact ho.known w ((hclosing w).symm.trans hw)

/-- The first stretch of a request touches no connection, and no entry of `connections`. -/
theorem serve_connections {r : Request} (hr : l.request? e.kind = some r) (o : Session) :
    (o.serve r.serve).writer = o.writer ∧ (o.serve r.serve).writers = o.writers ∧
      (o.serve r.serve).connBytes = o.connBytes := by
  rcases Serves.serve_cases r.serve o with ⟨-, heq⟩ | ⟨-, heq⟩ <;> rw [heq]
  · exact ⟨rfl, rfl, rfl⟩
  · cases l with
    | packetUp | downlink =>
      cases hr
      exact ⟨rfl, rfl, rfl⟩
    | streamUp =>
      cases hr
      unfold serveStreamUp
      dsimp only
      split <;> exact ⟨rfl, rfl, rfl⟩
    | resume | lose | reap | sweep | other => cases hr

theorem Session.Sole.serve {r : Request} (ho : o.Sole) (hr : l.request? e.kind = some r) :
    (o.serve r.serve).Sole := by
  have hserves := Label.request?_serves hr
  obtain ⟨hwriter, hwriters, -⟩ := serve_connections hr o
  refine ho.congr hwriter hwriters fun pid w => ⟨?_, ?_⟩
  · rintro ⟨h, isTrojan, hh, hphase⟩
    rcases hserves.handler?_of_serve hh with ⟨-, -, hinput⟩ | hold
    · cases hinput.symm.trans hphase
    · exact ⟨h, isTrojan, hold, hphase⟩
  · rintro ⟨h, isTrojan, hh, hphase⟩
    obtain ⟨t, htasks⟩ : ∃ t, (o.serve r.serve).tasks = o.tasks ++ [t] := by
      rcases Serves.serve_cases r.serve o with ⟨-, heq⟩ | ⟨-, heq⟩ <;> rw [heq]
      · exact ⟨_, rfl⟩
      · exact ⟨_, congrArg (· ++ [_]) (hserves.tasks_eq o)⟩
    obtain ⟨h', hh', hsame⟩ := Session.Lingers.of_append htasks pid h hh
    exact ⟨h', isTrojan, hh', hsame.trans hphase⟩

theorem Label.actor_eq_some (hactor : l.actor k = some pid) : ∃ inp m, l = .resume k pid inp m := by
  cases l with
  | resume i pid' inp m =>
    by_cases hik : i = k
    · subst hik
      cases (if_pos rfl : Label.actor i (.resume i pid' inp m) = some pid').symm.trans hactor
      exact ⟨inp, m, rfl⟩
    · cases (if_neg hik : Label.actor k (.resume i pid' inp m) = none).symm.trans hactor
  | packetUp | streamUp | downlink | lose | reap | sweep | other => cases hactor

/-- **A step keeps the sessions sole**, if connections are opened one at a time. -/
theorem sole_step (hs : s.Sole) (hl : OneAtATime s l) (hstep : (machine e).step s l = some s') :
    s'.Sole := by
  intro k o' ho'
  cases ho : s.objects[k]? with
  | none =>
    obtain ⟨r, hr, -, -, -, rfl⟩ := object_born hstep ho ho'
    exact (Session.sole_init _ _ _).serve hr
  | some o =>
    have hold := hs k o ho
    by_cases hact : ∃ pid inp m h, l = .resume k pid inp m ∧ o.handler? pid = some h ∧
        h.phase.outside = true
    · obtain ⟨pid, inp, m, h, rfl, hh, hphase⟩ := hact
      obtain ⟨out, hout, rfl⟩ := resume_conclude hstep ho hh hphase
      obtain ⟨hsole, hleaves⟩ := hold.stretch hh hout
        (fun header isTrojan hconnect hinp =>
          hl.connect k pid m o h header isTrojan (hinp ▸ rfl) ho hh hconnect)
        (fun w isTrojan hpayload hinp =>
          hl.drain k pid m o w (hinp ▸ rfl) ho ⟨h, isTrojan, hh, hpayload⟩)
      by_cases hteardown : ∃ reply, out.next = .teardown reply
      · -- the task goes on in `_teardown`
        obtain ⟨o₁, ho₁, htends⟩ := (EngineState.conclude_follows
          (fun i => Label.actor i (.resume k pid inp m)) s h out (if_pos rfl)).2 k _
            (EngineState.setTask_put ho out.session out.world pid (out.next.left h))
        cases ho'.symm.trans ho₁
        refine hsole.winds (Session.winds_follows htends) fun pid' w hpid hprimes => ?_
        obtain ⟨_, _, heq⟩ := Label.actor_eq_some hpid
        cases heq
        exact hleaves hteardown w hprimes
      · have hnext : out.next.task? = some (out.next.left h) := by
          cases hnext : out.next with
          | wait | ends => rfl
          | teardown reply => exact absurd ⟨reply, hnext⟩ hteardown
        cases ho'.symm.trans (object_stretch hstep ho hh hphase hout hnext)
        exact hsole
    · obtain ⟨o₁, o₂, hstarts, htends, ho₂⟩ := object_step hstep ho
      cases ho'.symm.trans ho₂
      have hwinds := Session.winds_follows htends
      have hnone : ∀ pid w, l.actor k = some pid → ¬ o.Primes pid w := by
        rintro pid w hpid ⟨h, isTrojan, hh, hphase⟩
        obtain ⟨inp, m, rfl⟩ := Label.actor_eq_some hpid
        exact hact ⟨pid, inp, m, h, rfl, hh, by rw [hphase]; rfl⟩
      cases hstarts with
      | still => exact hold.winds hwinds fun pid w hpid hprimes => absurd hprimes (hnone pid w hpid)
      | @serve _ r hr =>
        have hseen : Session.Sole { o with lastSeen := r.now } :=
          hold.congr rfl rfl fun _ _ => Iff.rfl
        refine (hseen.serve hr).winds hwinds fun pid w hpid => ?_
        obtain ⟨_, _, rfl⟩ := Label.actor_eq_some hpid
        cases hr
      | stretch pid inp m hh hphase hout => exact absurd ⟨pid, inp, m, _, rfl, hh, hphase⟩ hact
      | lose v =>
        have hclosed : (o.close v).Sole := hold.winds ((Session.winds_tolerates none).close o v)
          fun _ _ hpid => by cases hpid
        exact hclosed.winds hwinds fun _ _ hpid => by cases hpid

end Step

end Xhttp

end RvgGateway
