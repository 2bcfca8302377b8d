import RvgGateway.Lib.Dict
import RvgGateway.Lib.Machine

/-!
# The process of an external core

`_sync_cores` brings the processes of xray and sing-box in line with the links.  Every change to a
link spawns a run of it.  A run goes through `start_core`, which stops the process that `_state` has,
waits, starts a process, waits and only then enters it in `_state`; there is no lock.

* `machine` : the runs for one core, with one label for each step between suspensions.
* `Cores.Single` : there is at most one process, and between the calls `_state` has it.
* `Exclusive` : a run does not begin to stop and start while another one is at it, and a process that
  is killed is gone.
* `single_of_exclusive` : **a run of such steps keeps to one process.**
-/

namespace RvgGateway

namespace Cores

/-- Where a run of `_sync_cores` is suspended.  A configuration is identified with its md5 hash, as
`_core_cfg_hash` does. -/
inductive Phase where
  /-- In front of `LINKS_LOCK`. -/
  | locking
  /-- Behind the lock, with the configuration for the links it found, if there are any.  The other
  core may have its turn first. -/
  | turn (config : Option String)
  /-- `start_core` in `ensure_installed`. -/
  | installing (config : String)
  /-- `stop_core` has told the process to end; behind it `start_core` goes on with a configuration. -/
  | stopping (proc : ℕ) (config : Option String)
  /-- `start_core` waits for the ports of the configuration. -/
  | freeing (config : String)
  /-- `start_core` has started the process and waits whether it stays. -/
  | starting (proc : ℕ) (config : String)
  deriving DecidableEq

/-- In `start_core` or `stop_core`. -/
def Phase.inProgress : Phase → Bool
  | .locking => false
  | .turn _ => false
  | _ => true

/-- Between the moment when `stop_core` empties `_state` and the end of the call. -/
def Phase.replacing : Phase → Bool
  | .stopping _ _ => true
  | .freeing _ => true
  | .starting _ _ => true
  | _ => false

/-- The process that the run has in hand. -/
def Phase.proc? : Phase → Option ℕ
  | .stopping proc _ => some proc
  | .starting proc _ => some proc
  | _ => none

/-- One core. -/
structure Core where
  /-- The process of `_state[name]`. -/
  state : Option ℕ
  /-- `_core_cfg_hash[name]`. -/
  cfgHash : Option String
  /-- The processes that have not ended. -/
  alive : List ℕ
  /-- The number of processes started so far. -/
  procs : ℕ
  /-- The runs of `_sync_cores` that have not ended. -/
  runs : Dict ℕ Phase
  deriving DecidableEq

/-- The core of a fresh server. -/
def Core.init : Core := ⟨none, none, [], 0, ∅⟩

/-- What happens. -/
inductive Label where
  /-- `_sync_cores` is called. -/
  | call (run : ℕ)
  /-- The run has the lock and sees the links. -/
  | snapshot (run : ℕ) (config : Option String)
  /-- It is the core's turn; the configuration can be written, or not. -/
  | turn (run : ℕ) (written : Bool)
  /-- `ensure_installed` returns or raises. -/
  | installed (run : ℕ) (ok : Bool)
  /-- `stop_core` sees that the process has ended. -/
  | stopped (run : ℕ)
  /-- `stop_core` has waited for six seconds and kills the process, for whose end it does not wait. -/
  | kill (run : ℕ) (gone : Bool)
  /-- `start_core` goes on to start the process, which fails or not. -/
  | spawn (run : ℕ) (ok : Bool)
  /-- The wait of `start_core` for its process is over. -/
  | settled (run : ℕ)
  /-- A process ends. -/
  | exit (proc : ℕ)
  deriving DecidableEq

namespace Core

variable (s : Core)

/-- The run goes on in a phase, or ends. -/
def put (r : ℕ) (phase : Option Phase) : Core :=
  match phase with
  | some phase => { s with runs := s.runs.set r phase }
  | none => { s with runs := s.runs.erase r }

/-- `is_running`. -/
def isRunning : Bool := s.state.any s.alive.contains

/-- Behind `stop_core`: on in `start_core`, or the end. -/
def proceed (r : ℕ) (config : Option String) : Core := s.put r (config.map .freeing)

/-- `stop_core`, up to its suspension. -/
def stopCore (r : ℕ) (config : Option String) : Core :=
  match s.state with
  | none => s.proceed r config
  | some proc =>
    if proc ∈ s.alive then { s with state := none }.put r (some (.stopping proc config))
    else { s with state := none }.proceed r config

/-- The turn of the core in `_sync_cores`, up to its suspension. -/
def takeTurn (r : ℕ) (written : Bool) : Option String → Core
  | none => if s.isRunning then s.stopCore r none else s.put r none
  | some config =>
    if !written then s.put r none
    else if s.isRunning && s.cfgHash = some config then s.put r none
    else s.put r (some (.installing config))

/-- The end of `start_core`: a process that has ended is an error. -/
def settle (r proc : ℕ) (config : String) : Core :=
  if proc ∈ s.alive then { s with state := some proc, cfgHash := some config }.put r none
  else s.put r none

end Core

/-- The steps of the runs for one core, in any order. -/
def machine : Machine Core Label where
  step s
    | .call r => if s.runs.contains r then none else some (s.put r (some .locking))
    | .snapshot r config =>
      match s.runs.get? r with
      | some .locking => some (s.put r (some (.turn config)))
      | _ => none
    | .turn r written =>
      match s.runs.get? r with
      | some (.turn config) => some (s.takeTurn r written config)
      | _ => none
    | .installed r ok =>
      match s.runs.get? r with
      | some (.installing config) => some (if ok then s.stopCore r (some config) else s.put r none)
      | _ => none
    | .stopped r =>
      match s.runs.get? r with
      | some (.stopping proc config) => if proc ∈ s.alive then none else some (s.proceed r config)
      | _ => none
    | .kill r gone =>
      match s.runs.get? r with
      | some (.stopping proc config) =>
        if proc ∈ s.alive then
          some ({ s with alive := if gone then s.alive.erase proc else s.alive }.proceed r config)
        else none
      | _ => none
    | .spawn r ok =>
      match s.runs.get? r with
      | some (.freeing config) =>
        some (if ok then
          { s with alive := s.procs :: s.alive, procs := s.procs + 1 }.put r
            (some (.starting s.procs config))
        else s.put r none)
      | _ => none
    | .settled r =>
      match s.runs.get? r with
      | some (.starting proc config) => some (s.settle r proc config)
      | _ => none
    | .exit proc => if proc ∈ s.alive then some { s with alive := s.alive.erase proc } else none

/-! ### What a step does -/

/-- A step, by what it does. -/
inductive CoreTurn (s : Core) : Label → Core → Prop
  | called {r : ℕ} (hr : s.runs.get? r = none) :
    CoreTurn s (.call r) (s.put r (some .locking))
  | looked {r : ℕ} (config : Option String) (hr : s.runs.get? r = some .locking) :
    CoreTurn s (.snapshot r config) (s.put r (some (.turn config)))
  | takes {r : ℕ} {config : Option String} (written : Bool)
    (hr : s.runs.get? r = some (.turn config)) :
    CoreTurn s (.turn r written) (s.takeTurn r written config)
  | notInstalled {r : ℕ} {config : String} (hr : s.runs.get? r = some (.installing config)) :
    CoreTurn s (.installed r false) (s.put r none)
  | installed {r : ℕ} {config : String} (hr : s.runs.get? r = some (.installing config)) :
    CoreTurn s (.installed r true) (s.stopCore r (some config))
  | stopped {r proc : ℕ} {config : Option String}
    (hr : s.runs.get? r = some (.stopping proc config)) (hdead : proc ∉ s.alive) :
    CoreTurn s (.stopped r) (s.proceed r config)
  | killed {r proc : ℕ} {config : Option String} (gone : Bool)
    (hr : s.runs.get? r = some (.stopping proc config)) (halive : proc ∈ s.alive) :
    CoreTurn s (.kill r gone)
      ({ s with alive := if gone then s.alive.erase proc else s.alive }.proceed r config)
  | notStarted {r : ℕ} {config : String} (hr : s.runs.get? r = some (.freeing config)) :
    CoreTurn s (.spawn r false) (s.put r none)
  | started {r : ℕ} {config : String} (hr : s.runs.get? r = some (.freeing config)) :
    CoreTurn s (.spawn r true)
      ({ s with alive := s.procs :: s.alive, procs := s.procs + 1 }.put r
        (some (.starting s.procs config)))
  | settled {r proc : ℕ} {config : String} (hr : s.runs.get? r = some (.starting proc config)) :
    CoreTurn s (.settled r) (s.settle r proc config)
  | exited {proc : ℕ} (halive : proc ∈ s.alive) :
    CoreTurn s (.exit proc) { s with alive := s.alive.erase proc }

theorem core_turn {s s' : Core} {l : Label} (h : machine.step s l = some s') : CoreTurn s l s' := by
  cases l with
  | call r =>
    simp only [machine] at h
    split_ifs at h with hr
    cases h
    exact .called (by simpa [Dict.contains] using hr)
  | snapshot r config =>
    simp only [machine] at h
    split at h <;> cases h
    exact .looked config ‹_›
  | turn r written =>
    simp only [machine] at h
    split at h <;> cases h
    exact .takes written ‹_›
  | installed r ok =>
    simp only [machine] at h
    split at h <;> cases h
    cases ok with
    | false => exact .notInstalled ‹_›
    | true => exact .installed ‹_›
  | stopped r =>
    simp only [machine] at h
    split at h
    · split_ifs at h with halive
      cases h
      exact .stopped ‹_› halive
    · cases h
  | kill r gone =>
    simp only [machine] at h
    split at h
    · rename_i proc config hr
      by_cases halive : proc ∈ s.alive
      · rw [if_pos halive] at h
        cases h
        exact .killed gone hr halive
      · rw [if_neg halive] at h
        cases h
    · cases h
  | spawn r ok =>
    simp only [machine] at h
    split at h <;> cases h
    cases ok with
    | false => exact .notStarted ‹_›
    | true => exact .started ‹_›
  | settled r =>
    simp only [machine] at h
    split at h <;> cases h
    exact .settled ‹_›
  | exit proc =>
    simp only [machine] at h
    split_ifs at h with halive
    cases h
    exact .exited halive

/-! ### The property and the condition -/

/-- There is at most one process, and between the calls it is the one in `_state`. -/
structure Core.Single (s : Core) : Prop where
  one : s.alive.length ≤ 1
  recorded : (∀ r phase, s.runs.get? r = some phase → phase.inProgress = false) →
    ∀ proc ∈ s.alive, s.state = some proc

/-- A run does not begin to replace the process while another one is at it, and a process that is
killed is gone before anything else happens. -/
def Exclusive (s : Core) : Label → Prop
  | .installed r true => ∀ r' phase, s.runs.get? r' = some phase → r' ≠ r → phase.replacing = false
  | .kill _ gone => gone = true
  | _ => True

instance (s : Core) : (l : Label) → Decidable (Exclusive s l)
  | .installed r true =>
    decidable_of_iff (∀ e ∈ s.runs.entries, e.1 ≠ r → e.2.replacing = false)
      ⟨fun h r' phase hr' => h (r', phase) (Dict.get?_eq_some.1 hr'),
        fun h e he => h e.1 e.2 (Dict.get?_eq_some.2 he)⟩
  | .kill _ gone => inferInstanceAs (Decidable (gone = true))
  | .installed _ false => .isTrue trivial
  | .call _ => .isTrue trivial
  | .snapshot _ _ => .isTrue trivial
  | .turn _ _ => .isTrue trivial
  | .stopped _ => .isTrue trivial
  | .spawn _ _ => .isTrue trivial
  | .settled _ => .isTrue trivial
  | .exit _ => .isTrue trivial

/-! ### The invariant -/

/-- What the runs keep to. -/
structure Core.Inv (s : Core) : Prop where
  /-- One run at a time replaces the process. -/
  alone : ∀ r r' phase phase', s.runs.get? r = some phase → s.runs.get? r' = some phase' →
    phase.replacing = true → phase'.replacing = true → r = r'
  /-- Meanwhile `_state` is empty. -/
  empty : ∀ r phase, s.runs.get? r = some phase → phase.replacing = true → s.state = none
  /-- A process is in `_state` or in the hands of a run. -/
  owned : ∀ proc ∈ s.alive, s.state = some proc ∨
    ∃ r phase, s.runs.get? r = some phase ∧ phase.proc? = some proc
  one : s.alive.length ≤ 1

namespace Core

variable {s : Core}

theorem replacing_of_proc {phase : Phase} {proc : ℕ} (h : phase.proc? = some proc) :
    phase.replacing = true := by
  cases phase <;> first | rfl | cases h

theorem get?_put (r r' : ℕ) (phase : Option Phase) :
    (s.put r phase).runs.get? r' = if r = r' then phase else s.runs.get? r' := by
  cases phase with
  | none => exact Dict.get?_erase s.runs r r'
  | some phase => exact Dict.get?_set s.runs r r' phase

@[simp] theorem put_state (r : ℕ) (phase : Option Phase) : (s.put r phase).state = s.state := by
  cases phase <;> rfl

@[simp] theorem put_alive (r : ℕ) (phase : Option Phase) : (s.put r phase).alive = s.alive := by
  cases phase <;> rfl

/-- While a run replaces the process, no other process is alive than the one in its hands. -/
theorem Inv.in_hand (h : s.Inv) {r : ℕ} {phase : Phase} (hr : s.runs.get? r = some phase)
    (hrep : phase.replacing = true) : ∀ proc ∈ s.alive, phase.proc? = some proc := by
  intro proc hproc
  cases h.owned proc hproc with
  | inl hstate =>
    rw [h.empty r phase hr hrep] at hstate
    cases hstate
  | inr howned =>
    obtain ⟨r', phase', hr', hproc'⟩ := howned
    obtain rfl := h.alone r r' phase phase' hr hr' hrep (replacing_of_proc hproc')
    cases hr.symm.trans hr'
    exact hproc'

/-- A run gets a phase while no other run replaces the process. -/
theorem inv_put {r : ℕ}
    (hothers : ∀ r' phase, s.runs.get? r' = some phase → r' ≠ r → phase.replacing = false)
    {next : Option Phase}
    (hempty : ∀ phase, next = some phase → phase.replacing = true → s.state = none)
    (howned : ∀ proc ∈ s.alive, s.state = some proc ∨
      ∃ phase, next = some phase ∧ phase.proc? = some proc)
    (hone : s.alive.length ≤ 1) : (s.put r next).Inv := by
  have hrep : ∀ r' phase, (s.put r next).runs.get? r' = some phase → phase.replacing = true →
      r = r' ∧ next = some phase := by
    intro r' phase hr' hrep
    rw [get?_put] at hr'
    split_ifs at hr' with heq
    · exact ⟨heq, hr'⟩
    · rw [hothers r' phase hr' (Ne.symm heq)] at hrep
      cases hrep
  refine ⟨fun r₁ r₂ phase₁ phase₂ h₁ h₂ hrep₁ hrep₂ => ?_, fun r' phase hr' hp => ?_,
    fun proc hproc => ?_, by rwa [put_alive]⟩
  · exact (hrep r₁ phase₁ h₁ hrep₁).1.symm.trans (hrep r₂ phase₂ h₂ hrep₂).1
  · rw [put_state]
    exact hempty phase (hrep r' phase hr' hp).2 hp
  · rw [put_alive] at hproc
    rw [put_state]
    refine (howned proc hproc).imp_right ?_
    rintro ⟨phase, hnext, hphase⟩
    exact ⟨r, phase, by rw [get?_put, if_pos rfl, hnext], hphase⟩

/-- A run that does not replace the process goes on without touching it. -/
theorem Inv.idle (h : s.Inv) {r : ℕ}
    (hold : ∀ phase, s.runs.get? r = some phase → phase.replacing = false) {next : Option Phase}
    (hnext : ∀ phase, next = some phase → phase.replacing = false) : (s.put r next).Inv := by
  have hback : ∀ r' phase, (s.put r next).runs.get? r' = some phase → phase.replacing = true →
      s.runs.get? r' = some phase := by
    intro r' phase hr' hrep
    rw [get?_put] at hr'
    split_ifs at hr' with heq
    · rw [hnext phase hr'] at hrep
      cases hrep
    · exact hr'
  refine ⟨fun r₁ r₂ phase₁ phase₂ h₁ h₂ hrep₁ hrep₂ => ?_, fun r' phase hr' hrep => ?_,
    fun proc hproc => ?_, by rw [put_alive]; exact h.one⟩
  · exact h.alone r₁ r₂ phase₁ phase₂ (hback r₁ phase₁ h₁ hrep₁) (hback r₂ phase₂ h₂ hrep₂) hrep₁
      hrep₂
  · rw [put_state]
    exact h.empty r' phase (hback r' phase hr' hrep) hrep
  · rw [put_alive] at hproc
    rw [put_state]
    refine (h.owned proc hproc).imp_right ?_
    rintro ⟨r', phase, hr', hphase⟩
    have hne : r ≠ r' := by
      rintro rfl
      have hrep := replacing_of_proc hphase
      rw [hold phase hr'] at hrep
      cases hrep
    exact ⟨r', phase, by rw [get?_put, if_neg hne, hr'], hphase⟩

/-- The run that replaces the process goes on, with what is alive in its hands. -/
theorem Inv.move (h : s.Inv) {r : ℕ} {phase : Phase} (hr : s.runs.get? r = some phase)
    (hrep : phase.replacing = true) {alive : List ℕ} (procs : ℕ) {next : Option Phase}
    (howned : ∀ proc ∈ alive, ∃ phase, next = some phase ∧ phase.proc? = some proc)
    (hone : alive.length ≤ 1) : ({ s with alive := alive, procs := procs }.put r next).Inv := by
  refine inv_put (fun r' phase' hr' hne => ?_) (fun _ _ _ => h.empty r phase hr hrep)
    (fun proc hproc => .inr (howned proc hproc)) hone
  cases hrep' : phase'.replacing with
  | false => rfl
  | true => exact absurd (h.alone r r' phase phase' hr hr' hrep hrep').symm hne

/-- The run that replaces the process goes on, and no process is left. -/
theorem Inv.clear (h : s.Inv) {r : ℕ} {phase : Phase} (hr : s.runs.get? r = some phase)
    (hrep : phase.replacing = true) {alive : List ℕ} (hnil : alive = []) (next : Option Phase) :
    ({ s with alive := alive }.put r next).Inv := by
  refine h.move hr hrep s.procs (fun p hp => ?_) (by rw [hnil]; exact Nat.zero_le 1)
  rw [hnil] at hp
  cases hp

/-- When no run replaces the process, `_state` has it. -/
theorem Inv.in_state (h : s.Inv)
    (hnone : ∀ r phase, s.runs.get? r = some phase → phase.replacing = false) :
    ∀ proc ∈ s.alive, s.state = some proc := by
  intro proc hproc
  refine (h.owned proc hproc).resolve_right ?_
  rintro ⟨r, phase, hr, hphase⟩
  have hrep := replacing_of_proc hphase
  rw [hnone r phase hr] at hrep
  cases hrep

/-- `stop_core` while no run replaces the process. -/
theorem Inv.stopCore (h : s.Inv) {r : ℕ} (config : Option String)
    (hnone : ∀ r phase, s.runs.get? r = some phase → phase.replacing = false) :
    (s.stopCore r config).Inv := by
  have hin := h.in_state hnone
  have hempty : ∀ proc, s.state = some proc → proc ∉ s.alive → s.alive = [] := by
    intro proc hstate hdead
    refine List.eq_nil_iff_forall_not_mem.2 fun p hp => hdead ?_
    have hp' := hin p hp
    rw [hstate] at hp'
    exact Option.some.inj hp' ▸ hp
  unfold Core.stopCore
  cases hstate : s.state with
  | none =>
    refine inv_put (fun r' phase hr' _ => hnone r' phase hr') (fun _ _ _ => hstate)
      (fun proc hproc => .inl (hin proc hproc)) h.one
  | some proc =>
    simp only
    split_ifs with halive
    · refine inv_put (s := { s with state := none }) (fun r' phase hr' _ => hnone r' phase hr')
        (fun _ _ _ => rfl) (fun p hp => .inr ⟨_, rfl, ?_⟩) h.one
      have hp' := hin p hp
      rw [hstate] at hp'
      exact hp'
    · refine inv_put (s := { s with state := none }) (fun r' phase hr' _ => hnone r' phase hr')
        (fun _ _ _ => rfl) (fun p hp => ?_) h.one
      change p ∈ s.alive at hp
      rw [hempty proc hstate halive] at hp
      cases hp

/-- A process that is running is in `_state`, so no run replaces it. -/
theorem Inv.of_isRunning (h : s.Inv) (hrun : s.isRunning = true) :
    ∀ r phase, s.runs.get? r = some phase → phase.replacing = false := by
  intro r phase hr
  cases hrep : phase.replacing with
  | false => rfl
  | true =>
    rw [isRunning, h.empty r phase hr hrep] at hrun
    cases hrun

/-- What is alive when a run has no process in its hands but replaces one. -/
theorem Inv.none_alive (h : s.Inv) {r : ℕ} {phase : Phase} (hr : s.runs.get? r = some phase)
    (hrep : phase.replacing = true) (hproc : ∀ proc ∈ s.alive, phase.proc? ≠ some proc) :
    s.alive = [] :=
  List.eq_nil_iff_forall_not_mem.2 fun p hp => hproc p hp (h.in_hand hr hrep p hp)

/-- With at most one process alive, none is left when one has ended. -/
theorem erase_eq_nil {alive : List ℕ} (hone : alive.length ≤ 1) {proc : ℕ} (h : proc ∈ alive) :
    alive.erase proc = [] := by
  have hlen := List.length_erase_of_mem h
  exact List.eq_nil_of_length_eq_zero (by omega)

theorem Inv.takeTurn (h : s.Inv) {r : ℕ}
    (hold : ∀ phase, s.runs.get? r = some phase → phase.replacing = false) (written : Bool)
    (config : Option String) : (s.takeTurn r written config).Inv := by
  have hend : (s.put r none).Inv := h.idle hold fun _ hnext => by cases hnext
  cases config with
  | none =>
    rw [Core.takeTurn]
    split_ifs with hrun
    · exact h.stopCore none (h.of_isRunning hrun)
    · exact hend
  | some config =>
    rw [Core.takeTurn]
    split_ifs
    · exact hend
    · exact hend
    · refine h.idle hold fun phase hnext => ?_
      cases hnext
      rfl

/-- The end of a call of `start_core`. -/
theorem Inv.settle (h : s.Inv) {r proc : ℕ} {config : String}
    (hr : s.runs.get? r = some (.starting proc config)) : (s.settle r proc config).Inv := by
  have hhand := h.in_hand hr rfl
  unfold Core.settle
  split_ifs with halive
  · refine inv_put (s := { s with state := some proc, cfgHash := some config })
      (fun r' phase hr' hne => ?_) (fun _ hnext => by cases hnext)
      (fun p hp => .inl (hhand p hp)) h.one
    cases hrep : phase.replacing with
    | false => rfl
    | true => exact absurd (h.alone r r' _ phase hr hr' rfl hrep).symm hne
  · have hnil : s.alive = [] := h.none_alive hr rfl fun p hp heq => by
      cases heq
      exact halive hp
    exact h.clear hr rfl hnil none

/-- A process ends, and no other one is left. -/
theorem Inv.exit (h : s.Inv) {proc : ℕ} (hproc : proc ∈ s.alive) :
    ({ s with alive := s.alive.erase proc } : Core).Inv := by
  have hnil := erase_eq_nil h.one hproc
  refine ⟨h.alone, h.empty, fun p hp => ?_, ?_⟩
  · change p ∈ s.alive.erase proc at hp
    rw [hnil] at hp
    cases hp
  · change (s.alive.erase proc).length ≤ 1
    rw [hnil]
    exact Nat.zero_le 1

/-- `start_core` goes on to start its process when no other one is alive. -/
theorem Inv.spawn (h : s.Inv) {r : ℕ} {config : String}
    (hr : s.runs.get? r = some (.freeing config)) :
    ({ s with alive := s.procs :: s.alive, procs := s.procs + 1 }.put r
      (some (.starting s.procs config))).Inv := by
  have hnil : s.alive = [] := h.none_alive hr rfl fun p hp heq => by cases heq
  refine h.move hr rfl (s.procs + 1) (fun p hp => ⟨_, rfl, ?_⟩) (by rw [hnil]; exact le_refl 1)
  rw [hnil, List.mem_singleton] at hp
  exact congrArg some hp.symm

/-- What the phase of a run says of all phases it has. -/
theorem idle_of_phase {r : ℕ} {phase : Phase} (hr : s.runs.get? r = some phase)
    (hidle : phase.replacing = false) :
    ∀ phase, s.runs.get? r = some phase → phase.replacing = false := by
  intro phase' hphase
  cases hr.symm.trans hphase
  exact hidle

theorem Inv.step (h : s.Inv) {l : Label} (hex : Exclusive s l) {s' : Core}
    (hstep : machine.step s l = some s') : s'.Inv := by
  cases core_turn hstep with
  | called hr =>
    refine h.idle (fun phase hphase => ?_) fun phase hnext => ?_
    · cases hr.symm.trans hphase
    · cases hnext
      rfl
  | looked config hr =>
    refine h.idle (idle_of_phase hr rfl) fun phase hnext => ?_
    cases hnext
    rfl
  | takes written hr => exact h.takeTurn (idle_of_phase hr rfl) written _
  | notInstalled hr => exact h.idle (idle_of_phase hr rfl) fun _ hnext => by cases hnext
  | @installed r config hr =>
    refine h.stopCore _ fun r' phase hr' => ?_
    by_cases hne : r' = r
    · exact idle_of_phase hr rfl phase (hne ▸ hr')
    · exact hex r' phase hr' hne
  | stopped hr hdead =>
    have hnil : s.alive = [] := h.none_alive hr rfl fun p hp heq => by
      cases heq
      exact hdead hp
    exact h.clear hr rfl hnil _
  | killed gone hr halive =>
    obtain rfl : gone = true := hex
    exact h.clear hr rfl (erase_eq_nil h.one halive) _
  | notStarted hr =>
    have hnil : s.alive = [] := h.none_alive hr rfl fun p hp heq => by cases heq
    exact h.clear hr rfl hnil none
  | started hr => exact h.spawn hr
  | settled hr => exact h.settle hr
  | exited halive => exact h.exit halive

theorem inv_init : Core.init.Inv where
  alone := fun _ _ _ _ hr => by cases hr
  empty := fun _ _ hr => by cases hr
  owned := fun _ hproc => by cases hproc
  one := Nat.zero_le 1

theorem Inv.single (h : s.Inv) : s.Single where
  one := h.one
  recorded := fun hidle => h.in_state fun r phase hr => by
    have hphase := hidle r phase hr
    cases phase <;> first | rfl | cases hphase

end Core

/-! ### Runs -/

/-- One process per core, in every run without overlapping replacements. -/
theorem single_of_exclusive (ls : List Label) (hex : machine.Along Exclusive .init ls) (s : Core)
    (hrun : machine.run .init ls = some s) : s.Single := by
  have hinv : s.Inv := Machine.run_invariant_along (fun _ _ _ h hl hstep => h.step hl hstep) hrun hex
    Core.inv_init
  exact hinv.single

/-- A run of `_sync_cores` that starts the process, and one that stops it again. -/
def startAndStop : List Label :=
  [.call 0, .snapshot 0 (some "a"), .turn 0 true, .installed 0 true, .spawn 0 true, .settled 0,
    .call 1, .snapshot 1 none, .turn 1 true, .exit 0, .stopped 1]

theorem single_of_exclusive_startAndStop : ∃ s, machine.run .init startAndStop = some s ∧
    s.Single := by
  exact ⟨_, rfl, single_of_exclusive startAndStop (by decide) _ rfl⟩

/-- Two runs, of which the second passes `stop_core` before the first has entered its process. -/
def overlapping : List Label :=
  [.call 0, .snapshot 0 (some "a"), .turn 0 true, .call 1, .snapshot 1 (some "b"), .turn 1 true,
    .installed 0 true, .spawn 0 true, .installed 1 true, .spawn 1 true, .settled 0, .settled 1]

/-- Two links are created at once, and two processes run. -/
theorem overlapping_runs_start_twice : ¬ ∀ ls s, machine.run .init ls = some s → s.Single := by
  intro h
  have hone := (h overlapping _ rfl).one
  revert hone
  decide

end Cores

end RvgGateway
