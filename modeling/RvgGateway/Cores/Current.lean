import RvgGateway.Cores.Sync

/-!
# The configuration that a core runs

`_sync_cores` writes the configuration of a core to a file that all its calls share, and leaves the
process alone when it runs and the hash of the file is the one in `_core_cfg_hash`.  A process reads the
file when it starts.  As in `Cores.Sync`, a configuration is identified with its md5 hash.

Here is the machine of `Cores.Sync`, with the links, the file and the configurations that the processes
were started with.

* `servingMachine` : the links change, and the runs of `_sync_cores` go on, in any order.
* `Serves` : what a core runs.
* `Serial` : a run does not look at the links while another one is behind its look.
* `Lasting` : nothing fails.
* `serves_last_seen` : **after runs that do not overlap, a core runs the configuration of the links as
  the last run saw them**, unless something has failed since.
* `late_turn` : of two runs that overlap, the one that saw the older links can have the last word.
-/

namespace RvgGateway

namespace Cores

/-- A core, with what it runs. -/
structure Serving where
  core : Core
  /-- The configuration for the links as they are, if there are any for the core. -/
  wanted : Option String
  /-- `config.json`. -/
  file : Option String
  /-- The configuration that each process has read. -/
  started : Dict ℕ String
  /-- What the last run has seen, while nothing has failed behind it; no step reads it. -/
  goal : Option (Option String)
  deriving DecidableEq

/-- What happens. -/
inductive ServingEvent where
  /-- The links change. -/
  | links (wanted : Option String)
  | core (l : Label)
  deriving DecidableEq

namespace Serving

/-- A fresh server. -/
def init : Serving := ⟨.init, none, none, ∅, none⟩

variable (s : Serving)

/-- A run waits for the process to end. -/
def stopping (proc : ℕ) : Bool :=
  s.core.runs.entries.any fun e =>
    match e.2 with
    | .stopping p _ => p = proc
    | _ => false

/-- A run that gets the lock sees the links as they are. -/
def sees : Label → Bool
  | .snapshot _ config => config = s.wanted
  | _ => true

/-- What a step of the core changes around it. -/
def after (core : Core) : Label → Serving
  | .snapshot _ config => { s with core, goal := some config }
  | .turn r written =>
    match s.core.runs.get? r with
    | some (.turn (some config)) =>
      if written then { s with core, file := some config } else { s with core, goal := none }
    | _ => { s with core }
  | .installed _ ok => { s with core, goal := if ok then s.goal else none }
  | .spawn _ ok =>
    if ok then { s with core, started := s.started.set s.core.procs (s.file.getD "") }
    else { s with core, goal := none }
  | .exit proc => { s with core, goal := if s.stopping proc then s.goal else none }
  | _ => { s with core }

end Serving

/-- The links, and the runs for one core. -/
def servingMachine : Machine Serving ServingEvent where
  step s
    | .links wanted => some { s with wanted }
    | .core l => if s.sees l then (machine.step s.core l).map fun core => s.after core l else none

/-! ### The property and the condition -/

/-- A core runs a configuration: one process, the one in `_state`, which was started with it; or no
process. -/
def Serves (s : Serving) : Option String → Prop
  | none => s.core.alive = []
  | some config =>
    ∃ proc, s.core.state = some proc ∧ s.core.alive = [proc] ∧ s.started.get? proc = some config

/-- No run is behind its look at the links. -/
def Idle (s : Serving) : Prop := ∀ r phase, s.core.runs.get? r = some phase → phase = .locking

/-- A run does not look at the links while another one is behind its look, and a process that is killed
is gone before anything else happens. -/
def Serial (s : Serving) : ServingEvent → Prop
  | .core (.snapshot r _) =>
    ∀ r' phase, s.core.runs.get? r' = some phase → r' ≠ r → phase = .locking
  | .core (.kill _ gone) => gone = true
  | _ => True

/-- No run looks at the links, and nothing fails. -/
def Lasting (s : Serving) : ServingEvent → Prop
  | .core (.snapshot _ _) => False
  | .core (.turn r written) => written = true ∨ s.core.runs.get? r = some (.turn none)
  | .core (.installed _ ok) => ok = true
  | .core (.spawn _ ok) => ok = true
  | .core (.exit proc) => s.stopping proc = true
  | _ => True

instance (s : Serving) (r : ℕ) :
    Decidable (∀ r' phase, s.core.runs.get? r' = some phase → r' ≠ r → phase = .locking) :=
  decidable_of_iff (∀ e ∈ s.core.runs.entries, e.1 ≠ r → e.2 = .locking)
    ⟨fun h r' phase hr' => h (r', phase) (Dict.get?_eq_some.1 hr'),
      fun h e he => h e.1 e.2 (Dict.get?_eq_some.2 he)⟩

instance (s : Serving) : Decidable (Idle s) :=
  decidable_of_iff (∀ e ∈ s.core.runs.entries, e.2 = .locking)
    ⟨fun h r phase hr => h (r, phase) (Dict.get?_eq_some.1 hr),
      fun h e he => h e.1 e.2 (Dict.get?_eq_some.2 he)⟩

instance (s : Serving) : (e : ServingEvent) → Decidable (Serial s e)
  | .links _ => .isTrue trivial
  | .core (.snapshot r _) => inferInstanceAs (Decidable (∀ r' phase,
      s.core.runs.get? r' = some phase → r' ≠ r → phase = .locking))
  | .core (.kill _ gone) => inferInstanceAs (Decidable (gone = true))
  | .core (.call _) => .isTrue trivial
  | .core (.turn _ _) => .isTrue trivial
  | .core (.installed _ _) => .isTrue trivial
  | .core (.stopped _) => .isTrue trivial
  | .core (.spawn _ _) => .isTrue trivial
  | .core (.settled _) => .isTrue trivial
  | .core (.exit _) => .isTrue trivial

instance (s : Serving) : (e : ServingEvent) → Decidable (Lasting s e)
  | .links _ => .isTrue trivial
  | .core (.snapshot _ _) => .isFalse id
  | .core (.turn r written) =>
    inferInstanceAs (Decidable (written = true ∨ s.core.runs.get? r = some (.turn none)))
  | .core (.installed _ ok) => inferInstanceAs (Decidable (ok = true))
  | .core (.spawn _ ok) => inferInstanceAs (Decidable (ok = true))
  | .core (.exit proc) => inferInstanceAs (Decidable (s.stopping proc = true))
  | .core (.call _) => .isTrue trivial
  | .core (.stopped _) => .isTrue trivial
  | .core (.kill _ _) => .isTrue trivial
  | .core (.settled _) => .isTrue trivial

/-! ### The invariant -/

namespace Serving

/-- The last run saw this, or something has failed behind it. -/
def GoalIs (s : Serving) (config : Option String) : Prop := ∀ g, s.goal = some g → g = config

/-- What is known of a run. -/
def PhaseFine (s : Serving) : Phase → Prop
  | .locking => True
  | .turn config => s.GoalIs config
  | .installing config => s.file = some config ∧ s.GoalIs (some config)
  | .stopping _ config => (∀ text, config = some text → s.file = some text) ∧ s.GoalIs config
  | .freeing config => s.file = some config ∧ s.GoalIs (some config)
  | .starting proc config =>
    s.GoalIs (some config) ∧ s.started.get? proc = some config ∧
      (s.goal ≠ none → proc ∈ s.core.alive)

/-- What serial runs keep to. -/
structure Inv (s : Serving) : Prop where
  core : s.core.Inv
  /-- One run is behind its look at the links. -/
  alone : ∀ r r' phase phase', s.core.runs.get? r = some phase → s.core.runs.get? r' = some phase' →
    phase ≠ .locking → phase' ≠ .locking → r = r'
  /-- The hash is that of the configuration which the process in `_state` has read. -/
  honest : ∀ proc, s.core.state = some proc →
    ∃ config, s.core.cfgHash = some config ∧ s.started.get? proc = some config
  phase : ∀ r phase, s.core.runs.get? r = some phase → s.PhaseFine phase
  idle : Idle s → ∀ config, s.goal = some config → Serves s config

section Steps

variable {s s' : Serving} {r : ℕ}

/-- A run takes its next phase, or ends, while the other runs wait for the lock. -/
theorem inv_of_phase {next : Option Phase} (hcore : s'.core.Inv)
    (hruns : ∀ r', s'.core.runs.get? r' = if r = r' then next else s.core.runs.get? r')
    (hothers : ∀ r' phase, s.core.runs.get? r' = some phase → r' ≠ r → phase = .locking)
    (hhonest : ∀ proc, s'.core.state = some proc →
      ∃ config, s'.core.cfgHash = some config ∧ s'.started.get? proc = some config)
    (hnext : ∀ phase, next = some phase → phase ≠ .locking ∧ s'.PhaseFine phase)
    (hend : next = none → ∀ config, s'.goal = some config → Serves s' config) : s'.Inv := by
  have hphases : ∀ r' phase, s'.core.runs.get? r' = some phase →
      (r' = r ∧ next = some phase) ∨ (r' ≠ r ∧ phase = .locking) := by
    intro r' phase hr'
    rw [hruns] at hr'
    split_ifs at hr' with heq
    · exact .inl ⟨heq.symm, hr'⟩
    · exact .inr ⟨Ne.symm heq, hothers r' phase hr' (Ne.symm heq)⟩
  refine ⟨hcore, fun r₁ r₂ phase₁ phase₂ h₁ h₂ hne₁ hne₂ => ?_, hhonest, fun r' phase hr' => ?_,
    fun hidle config hgoal => ?_⟩
  · obtain ⟨rfl, -⟩ | ⟨-, hlocking⟩ := hphases r₁ phase₁ h₁
    · obtain ⟨rfl, -⟩ | ⟨-, hlocking⟩ := hphases r₂ phase₂ h₂
      · rfl
      · exact absurd hlocking hne₂
    · exact absurd hlocking hne₁
  · obtain ⟨-, hphase⟩ | ⟨-, rfl⟩ := hphases r' phase hr'
    · exact (hnext phase hphase).2
    · trivial
  · refine hend (Option.eq_none_iff_forall_ne_some.2 fun phase hphase => ?_) config hgoal
    exact (hnext phase hphase).1 (hidle r phase (by rw [hruns, if_pos rfl, hphase]))

/-- The other runs wait for the lock. -/
theorem Inv.others (h : s.Inv) {phase : Phase} (hr : s.core.runs.get? r = some phase)
    (hphase : phase ≠ .locking) :
    ∀ r' phase, s.core.runs.get? r' = some phase → r' ≠ r → phase = .locking := by
  intro r' phase' hr' hne
  by_contra hlocking
  exact hne (h.alone r' r phase' phase hr' hr hlocking hphase)

/-- No other run replaces the process. -/
theorem Inv.exclusive (h : s.Inv) {phase : Phase} (hr : s.core.runs.get? r = some phase)
    (hphase : phase ≠ .locking) :
    ∀ r' phase, s.core.runs.get? r' = some phase → r' ≠ r → phase.replacing = false := by
  intro r' phase' hr' hne
  rw [h.others hr hphase r' phase' hr' hne]
  rfl

/-- What `stop_core` does. -/
theorem stopCore_spec (core : Core) (r : ℕ) (config : Option String) :
    ∃ next, (core.stopCore r config).state = none ∧ (core.stopCore r config).alive = core.alive ∧
      (∀ r', (core.stopCore r config).runs.get? r' = if r = r' then next else core.runs.get? r') ∧
      ((∃ proc, core.state = some proc ∧ proc ∈ core.alive ∧ next = some (.stopping proc config)) ∨
        (∀ proc, core.state = some proc → proc ∉ core.alive) ∧ next = config.map .freeing) := by
  unfold Core.stopCore
  cases hstate : core.state with
  | none =>
    refine ⟨config.map .freeing, ?_, ?_, fun r' => Core.get?_put r r' _,
      .inr ⟨fun _ h => (by cases h), rfl⟩⟩
    · rw [Core.proceed, Core.put_state, hstate]
    · rw [Core.proceed, Core.put_alive]
  | some proc =>
    dsimp only
    split_ifs with halive
    · exact ⟨some (.stopping proc config), Core.put_state _ _, Core.put_alive _ _,
        fun r' => Core.get?_put r r' _, .inl ⟨proc, rfl, halive, rfl⟩⟩
    · refine ⟨config.map .freeing, Core.put_state _ _, Core.put_alive _ _,
        fun r' => Core.get?_put r r' _, .inr ⟨?_, rfl⟩⟩
      intro p hp
      cases hp
      exact halive

/-- Steps of a run that serial runs allow are exclusive. -/
theorem Inv.exclusive_step (h : s.Inv) {l : Label} (hserial : Serial s (.core l)) {core : Core}
    (hcore : machine.step s.core l = some core) : Exclusive s.core l := by
  cases core_turn hcore with
  | installed hr => exact h.exclusive hr (by simp)
  | killed => exact hserial
  | called | looked | takes | notInstalled | stopped | notStarted | started | settled | exited =>
    trivial

/-- With at most one process alive, it is the one that is. -/
theorem alive_eq_singleton {alive : List ℕ} (hone : alive.length ≤ 1) {proc : ℕ}
    (h : proc ∈ alive) : alive = [proc] := by
  obtain ⟨p, rfl⟩ := List.length_eq_one_iff.1 (le_antisymm hone (List.length_pos_of_mem h))
  rw [List.mem_singleton.1 h]

/-- The process that runs when a run has nothing to do. -/
theorem Inv.running (h : s.Inv) (hrun : s.core.isRunning = true) :
    ∃ proc config, s.core.state = some proc ∧ s.core.alive = [proc] ∧
      s.core.cfgHash = some config ∧ s.started.get? proc = some config := by
  obtain ⟨proc, hstate, halive⟩ := (Option.any_eq_true _ _).1 hrun
  obtain ⟨config, hhash, hstarted⟩ := h.honest proc hstate
  exact ⟨proc, config, hstate, alive_eq_singleton h.core.one (by simpa using halive), hhash, hstarted⟩

/-- Without a process in `_state` that lives, and without a run that replaces it, there is none. -/
theorem Inv.alive_eq_nil (h : s.Inv)
    (hnone : ∀ r phase, s.core.runs.get? r = some phase → phase.replacing = false)
    (hdead : ∀ proc, s.core.state = some proc → proc ∉ s.core.alive) : s.core.alive = [] :=
  List.eq_nil_iff_forall_not_mem.2 fun proc hproc =>
    hdead proc (h.core.in_state hnone proc hproc) hproc

/-- No run replaces the process while one waits for its turn. -/
theorem Inv.none_replaces (h : s.Inv) {phase : Phase} (hr : s.core.runs.get? r = some phase)
    (hphase : phase ≠ .locking) (hidle : phase.replacing = false) :
    ∀ r' phase, s.core.runs.get? r' = some phase → phase.replacing = false := by
  intro r' phase' hr'
  by_cases hne : r' = r
  · exact Core.idle_of_phase hr hidle phase' (hne ▸ hr')
  · exact h.exclusive hr hphase r' phase' hr' hne

/-- `stop_core` is called with a configuration that is in the file, or without one. -/
theorem Inv.stopCore (h : s.Inv) {phase : Phase} (hr : s.core.runs.get? r = some phase)
    (hphase : phase ≠ .locking) (hidle : phase.replacing = false) (config : Option String)
    (hfile : ∀ text, config = some text → s.file = some text) (hgoal : s.GoalIs config)
    (hcore : (s.core.stopCore r config).Inv) :
    ({ s with core := s.core.stopCore r config } : Serving).Inv := by
  obtain ⟨next, hstate, halive, hruns, hnext⟩ := stopCore_spec s.core r config
  refine inv_of_phase hcore hruns (h.others hr hphase) (fun proc hproc => ?_) (fun phase' hphase' => ?_)
    fun hend config' hconfig => ?_
  · rw [hstate] at hproc
    cases hproc
  · obtain ⟨proc, -, -, rfl⟩ | ⟨-, rfl⟩ := hnext
    · cases hphase'
      exact ⟨by simp, hfile, hgoal⟩
    · obtain ⟨text, rfl, rfl⟩ := Option.map_eq_some_iff.1 hphase'
      exact ⟨by simp, hfile text rfl, hgoal⟩
  · obtain ⟨proc, -, -, rfl⟩ | ⟨hdead, rfl⟩ := hnext
    · cases hend
    · obtain rfl := Option.map_eq_none_iff.1 hend
      obtain rfl := hgoal config' hconfig
      change (s.core.stopCore r none).alive = []
      rw [halive]
      exact h.alive_eq_nil (h.none_replaces hr hphase hidle) hdead

/-- The turn of a core without links. -/
theorem Inv.turn_none (h : s.Inv) (hr : s.core.runs.get? r = some (.turn none)) (written : Bool)
    (hcore : (s.core.takeTurn r written none).Inv) :
    ({ s with core := s.core.takeTurn r written none } : Serving).Inv := by
  have hgoal : s.GoalIs none := h.phase r _ hr
  rw [Core.takeTurn] at hcore ⊢
  split_ifs at hcore ⊢ with hrun
  · exact h.stopCore hr (by simp) rfl none (fun _ htext => by cases htext) hgoal hcore
  · refine inv_of_phase hcore (fun r' => Core.get?_put r r' none) (h.others hr (by simp)) ?_
      (fun _ hphase => by cases hphase) fun _ config hconfig => ?_
    · rw [Core.put_state]
      exact h.honest
    · obtain rfl := hgoal config hconfig
      change (s.core.put r none).alive = []
      rw [Core.put_alive]
      refine h.alive_eq_nil (h.none_replaces hr (by simp) rfl) fun proc hproc halive => hrun ?_
      rw [Core.isRunning, hproc]
      simpa using halive

/-- The turn of a core with links. -/
theorem Inv.turn_some (h : s.Inv) {config : String}
    (hr : s.core.runs.get? r = some (.turn (some config)))
    (hcore : (s.core.takeTurn r true (some config)).Inv) :
    ({ s with core := s.core.takeTurn r true (some config), file := some config } : Serving).Inv := by
  have hgoal : s.GoalIs (some config) := h.phase r _ hr
  rw [Core.takeTurn] at hcore ⊢
  simp only [Bool.not_true, Bool.false_eq_true, if_false] at hcore ⊢
  split_ifs at hcore ⊢ with hsame
  · obtain ⟨hrun, hhash⟩ : s.core.isRunning = true ∧ s.core.cfgHash = some config := by
      simpa using hsame
    refine inv_of_phase hcore (fun r' => Core.get?_put r r' none) (h.others hr (by simp)) ?_
      (fun _ hphase => by cases hphase) fun _ goal hg => ?_
    · exact h.honest
    · obtain rfl := hgoal goal hg
      obtain ⟨proc, text, hstate, halive, htext, hstarted⟩ := h.running hrun
      obtain rfl : config = text := Option.some.inj (hhash.symm.trans htext)
      exact ⟨proc, hstate, halive, hstarted⟩
  · refine inv_of_phase hcore (fun r' => Core.get?_put r r' (some (.installing config)))
      (h.others hr (by simp)) h.honest (fun phase hphase => ?_) fun hend => by cases hend
    cases hphase
    exact ⟨by simp, rfl, hgoal⟩

/-- A run gives up. -/
theorem Inv.fails (h : s.Inv) {phase : Phase} (hr : s.core.runs.get? r = some phase)
    (hphase : phase ≠ .locking) (hcore : (s.core.put r none).Inv) :
    ({ s with core := s.core.put r none, goal := none } : Serving).Inv := by
  refine inv_of_phase hcore (fun r' => Core.get?_put r r' none) (h.others hr hphase) ?_
    (fun _ hphase => by cases hphase) fun _ goal hg => by cases hg
  exact h.honest

/-- A run is called. -/
theorem Inv.call (h : s.Inv) (hr : s.core.runs.get? r = none)
    (hcore : (s.core.put r (some .locking)).Inv) :
    ({ s with core := s.core.put r (some .locking) } : Serving).Inv := by
  have hphases : ∀ r' phase, (s.core.put r (some .locking)).runs.get? r' = some phase →
      phase = .locking ∨ s.core.runs.get? r' = some phase := by
    intro r' phase hr'
    rw [Core.get?_put] at hr'
    split_ifs at hr' with heq
    · exact .inl (Option.some.inj hr').symm
    · exact .inr hr'
  refine ⟨hcore, fun r₁ r₂ phase₁ phase₂ h₁ h₂ hne₁ hne₂ => ?_, h.honest, fun r' phase hr' => ?_,
    fun hidle => h.idle fun r' phase hr' => ?_⟩
  · exact h.alone r₁ r₂ phase₁ phase₂ ((hphases r₁ phase₁ h₁).resolve_left hne₁)
      ((hphases r₂ phase₂ h₂).resolve_left hne₂) hne₁ hne₂
  · obtain rfl | hr' := hphases r' phase hr'
    · trivial
    · exact h.phase r' phase hr'
  · refine hidle r' phase ?_
    rw [Core.get?_put, if_neg, hr']
    rintro rfl
    rw [hr] at hr'
    cases hr'

/-- A run sees the links. -/
theorem Inv.snapshot (h : s.Inv) (config : Option String)
    (hothers : ∀ r' phase, s.core.runs.get? r' = some phase → r' ≠ r → phase = .locking)
    (hcore : (s.core.put r (some (.turn config))).Inv) :
    ({ s with core := s.core.put r (some (.turn config)), goal := some config } : Serving).Inv := by
  refine inv_of_phase hcore (fun r' => Core.get?_put r r' (some (.turn config))) hothers h.honest
    (fun phase hphase => ?_) fun hend => by cases hend
  cases hphase
  exact ⟨by simp, fun g hg => (Option.some.inj hg).symm⟩

/-- The process has ended, and no other one is left. -/
theorem Inv.proceed (h : s.Inv) {proc : ℕ} {config : Option String}
    (hr : s.core.runs.get? r = some (.stopping proc config)) {alive : List ℕ} (hnil : alive = [])
    (hcore : ({ s.core with alive := alive }.proceed r config).Inv) :
    ({ s with core := { s.core with alive := alive }.proceed r config } : Serving).Inv := by
  obtain ⟨hfile, hgoal⟩ := h.phase r _ hr
  refine inv_of_phase hcore (fun r' => Core.get?_put r r' (config.map .freeing))
    (h.others hr (by simp)) (fun proc' hproc => ?_) (fun phase hphase => ?_) fun hend goal hg => ?_
  · simp only [Core.proceed, Core.put_state] at hproc
    rw [h.core.empty r _ hr rfl] at hproc
    cases hproc
  · obtain ⟨text, rfl, rfl⟩ := Option.map_eq_some_iff.1 hphase
    exact ⟨by simp, hfile text rfl, hgoal⟩
  · obtain rfl := Option.map_eq_none_iff.1 hend
    obtain rfl := hgoal goal hg
    simp only [Serves, Core.proceed, Core.put_alive]
    exact hnil

/-- A process starts, and reads the file. -/
theorem Inv.spawn (h : s.Inv) {config : String}
    (hr : s.core.runs.get? r = some (.freeing config))
    (hcore : ({ s.core with alive := s.core.procs :: s.core.alive, procs := s.core.procs + 1 }.put r
      (some (.starting s.core.procs config))).Inv) :
    ({ s with
        core := { s.core with alive := s.core.procs :: s.core.alive, procs := s.core.procs + 1 }.put r
          (some (.starting s.core.procs config))
        started := s.started.set s.core.procs (s.file.getD "") } : Serving).Inv := by
  obtain ⟨hfile, hgoal⟩ := h.phase r _ hr
  refine inv_of_phase hcore (fun r' => Core.get?_put r r' _) (h.others hr (by simp))
    (fun proc hproc => ?_) (fun phase hphase => ?_) fun hend => by cases hend
  · simp only [Core.put_state] at hproc
    rw [h.core.empty r _ hr rfl] at hproc
    cases hproc
  · cases hphase
    refine ⟨by simp, hgoal, ?_, fun _ => List.mem_cons_self⟩
    rw [Dict.get?_set, if_pos rfl, hfile]
    rfl

/-- The end of `start_core`. -/
theorem Inv.settle (h : s.Inv) {proc : ℕ} {config : String}
    (hr : s.core.runs.get? r = some (.starting proc config))
    (hcore : (s.core.settle r proc config).Inv) :
    ({ s with core := s.core.settle r proc config } : Serving).Inv := by
  obtain ⟨hgoal, hstarted, hlives⟩ := h.phase r _ hr
  rw [Core.settle] at hcore ⊢
  split_ifs at hcore ⊢ with halive
  · refine inv_of_phase hcore (fun r' => Core.get?_put r r' none) (h.others hr (by simp))
      (fun p hp => ?_) (fun _ hphase => by cases hphase) fun _ goal hg => ?_
    · cases hp
      exact ⟨config, rfl, hstarted⟩
    · obtain rfl := hgoal goal hg
      exact ⟨proc, rfl, alive_eq_singleton h.core.one halive, hstarted⟩
  · refine inv_of_phase hcore (fun r' => Core.get?_put r r' none) (h.others hr (by simp)) h.honest
      (fun _ hphase => by cases hphase) fun _ goal hg => absurd (hlives ?_) halive
    change s.goal = some goal at hg
    rw [hg]
    exact Option.some_ne_none goal

theorem stopping_eq_true {proc : ℕ} (hstopping : s.stopping proc = true) :
    ∃ r config, s.core.runs.get? r = some (.stopping proc config) := by
  obtain ⟨⟨r, phase⟩, hmem, hphase⟩ := List.any_eq_true.1 hstopping
  have hr := Dict.get?_eq_some.2 hmem
  cases phase with
  | stopping p config =>
    obtain rfl : p = proc := by simpa using hphase
    exact ⟨r, config, hr⟩
  | locking | turn | installing | freeing | starting => cases hphase

/-- A process ends. -/
theorem Inv.exit (h : s.Inv) (proc : ℕ)
    (hcore : ({ s.core with alive := s.core.alive.erase proc } : Core).Inv) :
    ({ s with
        core := { s.core with alive := s.core.alive.erase proc }
        goal := if s.stopping proc then s.goal else none } : Serving).Inv := by
  by_cases hstopping : s.stopping proc = true
  · obtain ⟨r, config, hr⟩ := stopping_eq_true hstopping
    rw [if_pos hstopping]
    refine ⟨hcore, h.alone, h.honest, fun r' phase hr' => ?_, fun hidle => ?_⟩
    · have hphase := h.phase r' phase hr'
      cases phase with
      | starting p text =>
        obtain rfl := h.alone r r' _ _ hr hr' (by simp) (by simp)
        cases hr.symm.trans hr'
      | locking | turn | installing | stopping | freeing => exact hphase
    · cases hidle r _ hr
  · rw [if_neg hstopping]
    refine ⟨hcore, h.alone, h.honest, fun r' phase hr' => ?_, fun _ goal hg => by cases hg⟩
    have hphase := h.phase r' phase hr'
    cases phase with
    | locking => trivial
    | turn config => exact fun g hg => by cases hg
    | installing config => exact ⟨hphase.1, fun g hg => by cases hg⟩
    | stopping p config => exact ⟨hphase.1, fun g hg => by cases hg⟩
    | freeing config => exact ⟨hphase.1, fun g hg => by cases hg⟩
    | starting p config => exact ⟨fun _ hg => (by cases hg), hphase.2.1, fun hne => absurd rfl hne⟩

theorem servingMachine_core {l : Label} (hstep : servingMachine.step s (.core l) = some s') :
    s.sees l = true ∧ ∃ core, machine.step s.core l = some core ∧ s' = s.after core l := by
  simp only [servingMachine] at hstep
  split_ifs at hstep with hsees
  obtain ⟨core, hcore, rfl⟩ := Option.map_eq_some_iff.1 hstep
  exact ⟨hsees, core, hcore, rfl⟩

theorem Inv.step_core (h : s.Inv) {l : Label} (hserial : Serial s (.core l)) {core : Core}
    (hstep : machine.step s.core l = some core) : (s.after core l).Inv := by
  have hcore := h.core.step (h.exclusive_step hserial hstep) hstep
  cases core_turn hstep with
  | called hr => exact h.call hr hcore
  | looked config hr => exact h.snapshot config hserial hcore
  | @takes r config written hr =>
    simp only [Serving.after, hr]
    cases config with
    | none => exact h.turn_none hr written hcore
    | some config =>
      cases written with
      | false => exact h.fails hr (by simp) hcore
      | true => exact h.turn_some hr hcore
  | notInstalled hr => exact h.fails hr (by simp) hcore
  | @installed r config hr =>
    obtain ⟨hfile, hgoal⟩ := h.phase _ _ hr
    exact h.stopCore hr (by simp) rfl (some config) (fun _ htext => htext ▸ hfile) hgoal hcore
  | stopped hr hdead =>
    refine h.proceed hr (h.core.none_alive hr rfl fun p hp heq => ?_) hcore
    cases heq
    exact hdead hp
  | killed gone hr halive =>
    obtain rfl : gone = true := hserial
    exact h.proceed hr (Core.erase_eq_nil h.core.one halive) hcore
  | notStarted hr => exact h.fails hr (by simp) hcore
  | started hr => exact h.spawn hr hcore
  | settled hr => exact h.settle hr hcore
  | exited halive => exact h.exit _ hcore

theorem Inv.step (h : s.Inv) {e : ServingEvent} (hserial : Serial s e)
    (hstep : servingMachine.step s e = some s') : s'.Inv := by
  cases e with
  | links wanted =>
    cases hstep
    exact ⟨h.core, h.alone, h.honest, h.phase, h.idle⟩
  | core l =>
    obtain ⟨-, core, hcore, rfl⟩ := servingMachine_core hstep
    exact h.step_core hserial hcore

theorem inv_init : Serving.init.Inv where
  core := Core.inv_init
  alone := fun _ _ _ _ hr => by cases hr
  honest := fun _ hstate => by cases hstate
  phase := fun _ _ hr => by cases hr
  idle := fun _ _ hgoal => by cases hgoal

end Steps

end Serving

/-! ### Runs -/

theorem goal_eq_of_lasting {s s' : Serving} {e : ServingEvent} (hlasting : Lasting s e)
    (hstep : servingMachine.step s e = some s') : s'.goal = s.goal := by
  cases e with
  | links wanted =>
    cases hstep
    rfl
  | core l =>
    obtain ⟨-, core, -, rfl⟩ := Serving.servingMachine_core hstep
    cases l with
    | snapshot r config => exact hlasting.elim
    | turn r written =>
      simp only [Serving.after]
      split
      · rename_i config hr
        obtain rfl : written = true := hlasting.resolve_right fun hnone => by
          rw [hr] at hnone
          cases hnone
        rfl
      · rfl
    | installed r ok => exact if_pos hlasting
    | spawn r ok =>
      obtain rfl : ok = true := hlasting
      rfl
    | exit proc => exact if_pos hlasting
    | call | stopped | kill | settled => rfl

/-- What a core runs after runs that do not overlap: the configuration of the links that the last
look has seen, when nothing has failed behind it. -/
theorem serves_last_seen (pre post : List ServingEvent) (r : ℕ) (config : Option String)
    (hserial : servingMachine.Along Serial .init (pre ++ .core (.snapshot r config) :: post))
    (s t : Serving) (hseen : servingMachine.run .init (pre ++ [.core (.snapshot r config)]) = some s)
    (hrun : servingMachine.run s post = some t) (hlasting : servingMachine.Along Lasting s post)
    (hidle : Idle t) : Serves t config := by
  have hwhole : servingMachine.run .init (pre ++ .core (.snapshot r config) :: post) = some t := by
    rw [List.append_cons, Machine.run_append]
    exact ⟨s, hseen, hrun⟩
  have hinv : t.Inv := Machine.run_invariant_along (fun _ _ _ h he hstep => h.step he hstep) hwhole
    hserial Serving.inv_init
  have hgoal : s.goal = some config := by
    obtain ⟨u, -, hlast⟩ := Machine.run_append.1 hseen
    obtain ⟨_, hlast, hs⟩ := Machine.run_cons.1 hlast
    cases hs
    obtain ⟨-, core, -, rfl⟩ := Serving.servingMachine_core hlast
    rfl
  refine hinv.idle hidle config ?_
  exact Machine.run_invariant_along (I := fun s => s.goal = some config)
    (fun _ _ _ h he hstep => (goal_eq_of_lasting he hstep).trans h) hrun hlasting hgoal

/-- A run that starts the core, and the look of the next one at the links. -/
def startThenLook : List ServingEvent :=
  [.links (some "a"), .core (.call 0), .core (.snapshot 0 (some "a")), .core (.turn 0 true),
    .core (.installed 0 true), .core (.spawn 0 true), .core (.settled 0), .links (some "b"),
    .core (.call 1)]

/-- The rest of the next run, which replaces the process. -/
def replacement : List ServingEvent :=
  [.core (.turn 1 true), .core (.installed 1 true), .core (.exit 0), .core (.stopped 1),
    .core (.spawn 1 true), .core (.settled 1)]

theorem serves_last_seen_replacement : ∃ s t,
    servingMachine.run .init (startThenLook ++ [.core (.snapshot 1 (some "b"))]) = some s ∧
      servingMachine.run s replacement = some t ∧ Serves t (some "b") := by
  refine ⟨_, _, rfl, rfl, ?_⟩
  exact serves_last_seen startThenLook replacement 1 (some "b") (by decide) _ _ rfl rfl (by decide)
    (by decide)

/-- Two runs: while the first one is busy with the other core, a link changes and the second one has
its turn. -/
def overtaken : List ServingEvent :=
  [.core (.call 0), .links (some "a"), .core (.snapshot 0 (some "a")), .links (some "b"),
    .core (.call 1)]

/-- The second run starts the process, and then the first one has its turn. -/
def overtaking : List ServingEvent :=
  [.core (.turn 1 true), .core (.installed 1 true), .core (.spawn 1 true), .core (.settled 1),
    .core (.turn 0 true), .core (.installed 0 true), .core (.exit 0), .core (.stopped 0),
    .core (.spawn 0 true), .core (.settled 0)]

/-- The older links have the last word, although nothing has failed. -/
theorem late_turn : ¬ ∀ (pre post : List ServingEvent) (r : ℕ) (config : Option String)
    (s t : Serving), servingMachine.run .init (pre ++ [.core (.snapshot r config)]) = some s →
      servingMachine.run s post = some t → servingMachine.Along Lasting s post → Idle t →
        Serves t config := by
  intro h
  obtain ⟨proc, hstate, -, hstarted⟩ :=
    h overtaken overtaking 1 (some "b") _ _ rfl rfl (by decide) (by decide)
  cases hstate
  revert hstarted
  decide

end Cores

end RvgGateway
