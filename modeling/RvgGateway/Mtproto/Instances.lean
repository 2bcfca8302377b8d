import Mathlib.Data.Finset.Basic
import RvgGateway.Lib.Dict
import RvgGateway.Lib.Machine

/-!
# The MTProto instances and their ports

Every MTProto link has a proxy process of its own, on a port of its own.  `_instances` has the
running instances and `_used_ports` the ports that may not be given away.  Three kinds of tasks
write them: `start_instance`, which holds `_instances_lock` over all its suspension points,
`stop_instance`, which pops its entry under the lock and gives the port back afterwards, and a
`_watch_process` for every started process, which gets to the lock some time after the process has
ended.

* `Books` : the two tables, and the operations of the three tasks on them.
* `machine` : the tasks with the queue of the lock, one label for each step between suspensions.
* `Wf` : what holds in any order of the steps; in particular no two entries share a port.
* `noLeak_step` : a step leaks a port exactly when it registers a process over an old entry.
* `exact_iff_fresh` : **the bookkeeping is exact exactly when no step has done that.**
* `restart_leaks_port` : a restart that overtakes the watcher of a dead process does it.
-/

namespace RvgGateway

namespace Mtproto

/-- What the bookkeeping knows of an instance. -/
structure Instance where
  /-- The process, numbered in the order of creation. -/
  proc : ℕ
  port : ℤ
  deriving DecidableEq, Repr

/-- `_instances` and `_used_ports`. -/
structure Books where
  instances : Dict String Instance
  usedPorts : Finset ℤ
  /-- The ports of the `stop_instance` calls that are past their `pop` and before their
  `discard`. -/
  stopping : List ℤ

namespace Books

/-- The end of `start_instance`: the process is up on its port. -/
def register (b : Books) (uuid : String) (inst : Instance) : Books where
  instances := b.instances.set uuid inst
  usedPorts := insert inst.port b.usedPorts
  stopping := b.stopping

/-- `stop_instance` up to the release of the lock. -/
def pop (b : Books) (uuid : String) : Books :=
  match b.instances.get? uuid with
  | none => b
  | some inst =>
    { b with instances := b.instances.erase uuid, stopping := inst.port :: b.stopping }

/-- `stop_instance` once the lock is released. -/
def discard (b : Books) (port : ℤ) : Books :=
  { b with usedPorts := b.usedPorts.erase port, stopping := b.stopping.erase port }

/-- `_watch_process` under the lock: only the entry of its own process is removed. -/
def watched (b : Books) (uuid : String) (proc : ℕ) : Books :=
  match b.instances.get? uuid with
  | none => b
  | some cur =>
    if cur.proc = proc then
      { b with instances := b.instances.erase uuid, usedPorts := b.usedPorts.erase cur.port }
    else b

end Books

/-! ### allocate_port_async -/

/-- `PORT_RETRY_ATTEMPTS`. -/
def portRetryAttempts : ℕ := 20

/-- `MTPROTO_PORT_RANGE_START` and `MTPROTO_PORT_RANGE_END`, which the environment sets. -/
structure PortRange where
  start : ℤ := 8500
  stop : ℤ := 8600

/-- The ports of the range, in order. -/
def PortRange.ports (r : PortRange) : List ℤ :=
  (List.range (r.stop - r.start).toNat).map fun i => r.start + i

/-- Where `allocate_port_async` goes between two suspensions. -/
inductive Allocation
  | port (p : ℤ)
  /-- Sleep for `PORT_RETRY_DELAY`, with so many attempts left. -/
  | sleep (tries : ℕ)
  | none

/-- `allocate_port_async` up to its next suspension, with `tries` attempts at the preferred port
left.  `free` is what `_port_free` says at this moment. -/
def allocatePort (r : PortRange) (used : Finset ℤ) (free : ℤ → Bool) (force : Bool) :
    Option ℤ → ℕ → Allocation
  | some preferred, tries + 1 =>
    if preferred ∉ used ∧ free preferred then .port preferred else .sleep tries
  | some _, 0 => if force then .none else scan
  | none, _ => scan
where
  /-- The loop over the range. -/
  scan : Allocation :=
    match r.ports.find? fun p => p ∉ used ∧ free p with
    | some p => .port p
    | none => .none

/-! ### The tasks and the lock -/

/-- The tasks that wait for `_instances_lock`. -/
inductive Task
  | start (uuid : String) (preferred : Option ℤ) (force : Bool)
  | stop (uuid : String)
  | watch (uuid : String) (proc : ℕ)

/-- Where a `start_instance` that holds the lock is suspended. -/
inductive Stage
  /-- In `ensure_binary` or `_ensure_backend_conf`. -/
  | preparing
  /-- In `allocate_port_async`. -/
  | allocating (tries : ℕ)
  /-- After the allocation, with so many launch modes left to try. -/
  | launching (port : ℤ) (modes : ℕ)

/-- The `start_instance` that holds the lock. -/
structure Starting where
  uuid : String
  preferred : Option ℤ
  force : Bool
  stage : Stage

/-- The module and its tasks. -/
structure State where
  books : Books
  /-- The holder of `_instances_lock`.  The other two kinds of tasks do not suspend under it. -/
  lock : Option Starting
  /-- The tasks in front of the lock, in order of arrival. -/
  queue : List Task
  /-- The `_watch_process` tasks whose process has not ended for them. -/
  watchers : List (String × ℕ)
  /-- The processes with a `returncode`. -/
  exited : List ℕ
  /-- The number of processes that came up so far. -/
  procs : ℕ

/-- A freshly imported module. -/
def State.init : State := ⟨⟨∅, ∅, []⟩, none, [], [], [], 0⟩

/-- A step of a task from one suspension to the next, or of its environment. -/
inductive Label
  /-- `start_instance` is called. -/
  | start (uuid : String) (preferred : Option ℤ) (force : Bool)
  /-- `stop_instance` is called. -/
  | stop (uuid : String)
  /-- A process ends, by itself or because it is told to. -/
  | exit (proc : ℕ)
  /-- `proc.wait()` returns in a `_watch_process`. -/
  | wake (uuid : String) (proc : ℕ)
  /-- The first task in the queue gets the lock. -/
  | enter
  /-- The binary and the configuration are there, or not. -/
  | prepared (ok : Bool) (free : ℤ → Bool)
  /-- A sleep of `allocate_port_async` is over. -/
  | retry (free : ℤ → Bool)
  /-- A launched process is still up after `STARTUP_VERIFY_DELAY`, or did not get there. -/
  | launched (up : Bool)
  /-- An exception leaves `start_instance` at one of its suspension points. -/
  | raise
  /-- A `stop_instance` discards its port. -/
  | discard (port : ℤ)

/-- The number of ways in which `start_instance` launches the binary. -/
def launchModes : ℕ := 2

/-- `start_instance` goes on with what `allocate_port_async` says. -/
def State.allocated (s : State) (call : Starting) : Allocation → State
  | .port p => { s with lock := some { call with stage := .launching p launchModes } }
  | .sleep tries => { s with lock := some { call with stage := .allocating tries } }
  | .none => { s with lock := none }

/-- A task gets the lock. -/
def State.enter (s : State) : Task → State
  | .start uuid preferred force =>
    match s.books.instances.get? uuid with
    | some existing =>
      if existing.proc ∈ s.exited then
        { s with lock := some ⟨uuid, preferred, force, .preparing⟩ }
      else s
    | none => { s with lock := some ⟨uuid, preferred, force, .preparing⟩ }
  | .stop uuid => { s with books := s.books.pop uuid }
  | .watch uuid proc => { s with books := s.books.watched uuid proc }

/-- The `start_instance` that holds the lock has launched a process. -/
def State.launched (s : State) (call : Starting) (port : ℤ) : ℕ → Bool → State
  | _, true =>
    { s with
      books := s.books.register call.uuid ⟨s.procs, port⟩
      lock := none
      watchers := s.watchers ++ [(call.uuid, s.procs)]
      procs := s.procs + 1 }
  | modes + 2, false => { s with lock := some { call with stage := .launching port (modes + 1) } }
  | _, false =>
    { s with
      books := { s.books with usedPorts := s.books.usedPorts.erase port }
      lock := none }

/-- The steps of the module. -/
def machine (r : PortRange) : Machine State Label where
  step s
    | .start uuid preferred force => some { s with queue := s.queue ++ [.start uuid preferred force] }
    | .stop uuid => some { s with queue := s.queue ++ [.stop uuid] }
    | .exit proc =>
      if proc < s.procs ∧ proc ∉ s.exited then some { s with exited := proc :: s.exited } else none
    | .wake uuid proc =>
      if (uuid, proc) ∈ s.watchers ∧ proc ∈ s.exited then
        some { s with
          watchers := s.watchers.erase (uuid, proc)
          queue := s.queue ++ [.watch uuid proc] }
      else none
    | .enter =>
      match s.lock, s.queue with
      | none, task :: queue => some (State.enter { s with queue := queue } task)
      | _, _ => none
    | .prepared ok free =>
      match s.lock with
      | some ⟨uuid, preferred, force, .preparing⟩ =>
        if ok then
          some (s.allocated ⟨uuid, preferred, force, .preparing⟩
            (allocatePort r s.books.usedPorts free force preferred portRetryAttempts))
        else some { s with lock := none }
      | _ => none
    | .retry free =>
      match s.lock with
      | some ⟨uuid, preferred, force, .allocating tries⟩ =>
        some (s.allocated ⟨uuid, preferred, force, .allocating tries⟩
          (allocatePort r s.books.usedPorts free force preferred tries))
      | _ => none
    | .launched up =>
      match s.lock with
      | some ⟨uuid, preferred, force, .launching port modes⟩ =>
        some (s.launched ⟨uuid, preferred, force, .launching port modes⟩ port modes up)
      | _ => none
    | .raise => s.lock.map fun _ => { s with lock := none }
    | .discard port =>
      if port ∈ s.books.stopping then some { s with books := s.books.discard port } else none

/-! ### The properties -/

/-- The port `p` is the port of an entry. -/
def Books.Entered (b : Books) (p : ℤ) : Prop := ∃ u i, b.instances.get? u = some i ∧ i.port = p

/-- The used ports are those of the entries, and no two entries share one. -/
structure Books.Exact (b : Books) : Prop where
  used : ∀ p, p ∈ b.usedPorts ↔ b.Entered p
  distinct : ∀ u v i j, b.instances.get? u = some i → b.instances.get? v = some j →
    i.port = j.port → u = v

/-- The lock is free and no `stop_instance` is between its `pop` and its `discard`. -/
def State.Quiet (s : State) : Prop := s.lock = none ∧ s.books.stopping = []

/-- A process that comes up finds no entry under its uuid. -/
def Fresh (s : State) : Label → Prop
  | .launched true => ∀ call, s.lock = some call → s.books.instances.get? call.uuid = none
  | _ => True

instance (s : State) : DecidablePred (Fresh s)
  | .launched true =>
    inferInstanceAs (Decidable (∀ call ∈ s.lock, s.books.instances.get? call.uuid = none))
  | .launched false | .start .. | .stop _ | .exit _ | .wake .. | .enter | .prepared .. | .retry _
  | .raise | .discard _ => isTrue trivial

/-! ### What the operations do to the books -/

namespace Books

variable {b : Books} {p : ℤ}

/-- The port `p` is taken: by an entry, or by a `stop_instance` that will discard it. -/
def Held (b : Books) (p : ℤ) : Prop := b.Entered p ∨ p ∈ b.stopping

/-- What holds in any order of the operations. -/
structure Wf (b : Books) : Prop where
  held : ∀ p, b.Held p → p ∈ b.usedPorts
  distinct : ∀ u v i j, b.instances.get? u = some i → b.instances.get? v = some j →
    i.port = j.port → u = v
  apart : ∀ p, b.Entered p → p ∉ b.stopping
  nodup : b.stopping.Nodup

/-- No port is used without being taken. -/
def NoLeak (b : Books) : Prop := ∀ p ∈ b.usedPorts, b.Held p

/-- Between the calls, a book without a leak is exact. -/
theorem Wf.exact_iff (hb : b.Wf) (hs : b.stopping = []) : b.Exact ↔ b.NoLeak := by
  have hheld : ∀ p, b.Held p ↔ b.Entered p := by intro p; simp [Held, hs]
  constructor
  · intro h p hp
    exact .inl ((h.used p).1 hp)
  · intro h
    refine ⟨fun p => ⟨fun hp => (hheld p).1 (h p hp), fun hp => hb.held p (.inl hp)⟩, hb.distinct⟩

/-- The entries that are left when one is erased. -/
theorem entered_erase (hb : b.Wf) {uuid : String} {inst : Instance}
    (hi : b.instances.get? uuid = some inst) (used : Finset ℤ) (stopping : List ℤ) :
    (Books.mk (b.instances.erase uuid) used stopping).Entered p ↔ b.Entered p ∧ p ≠ inst.port := by
  constructor
  · rintro ⟨u, i, hu, rfl⟩
    rw [Dict.get?_erase] at hu
    split_ifs at hu with hne
    exact ⟨⟨u, i, hu, rfl⟩, fun hp => hne (hb.distinct _ _ _ _ hi hu hp.symm)⟩
  · rintro ⟨⟨u, i, hu, rfl⟩, hne⟩
    have huuid : uuid ≠ u := by
      rintro rfl
      rw [hi] at hu
      exact hne (by rw [Option.some.inj hu])
    exact ⟨u, i, by rw [Dict.get?_erase_ne _ huuid, hu], rfl⟩

theorem distinct_erase (hb : b.Wf) (uuid : String) :
    ∀ u v i j, (b.instances.erase uuid).get? u = some i → (b.instances.erase uuid).get? v = some j →
      i.port = j.port → u = v := by
  intro u v i j hu hv
  rw [Dict.get?_erase] at hu hv
  split_ifs at hu hv
  exact hb.distinct u v i j hu hv

/-- `pop` moves a port from the entries to the stopping calls. -/
theorem pop_wf (hb : b.Wf) (uuid : String) :
    (b.pop uuid).Wf ∧ ((b.pop uuid).NoLeak ↔ b.NoLeak) ∧ (b.pop uuid).usedPorts = b.usedPorts := by
  cases hi : b.instances.get? uuid with
  | none => simpa [pop, hi] using hb
  | some inst =>
    have hpop : b.pop uuid =
        ⟨b.instances.erase uuid, b.usedPorts, inst.port :: b.stopping⟩ := by simp [pop, hi]
    have hentry : b.Entered inst.port := ⟨uuid, inst, hi, rfl⟩
    have hheld : ∀ p, (b.pop uuid).Held p ↔ b.Held p := by
      intro p
      rw [hpop, Held, entered_erase hb hi, List.mem_cons, Held]
      by_cases hp : p = inst.port
      · simp [hp, hentry]
      · simp [hp]
    have hused : (b.pop uuid).usedPorts = b.usedPorts := by rw [hpop]
    refine ⟨⟨fun p hp => ?_, ?_, fun p hp => ?_, ?_⟩, ?_, hused⟩
    · rw [hused]
      exact hb.held p ((hheld p).1 hp)
    · rw [hpop]
      exact distinct_erase hb uuid
    · rw [hpop, entered_erase hb hi] at hp
      rw [hpop, List.mem_cons, not_or]
      exact ⟨hp.2, hb.apart p hp.1⟩
    · rw [hpop]
      exact List.nodup_cons.2 ⟨hb.apart _ hentry, hb.nodup⟩
    · simp only [NoLeak, hused, hheld]

/-- `discard` frees the port of a stopping call. -/
theorem discard_wf (hb : b.Wf) {port : ℤ} (hport : port ∈ b.stopping) :
    (b.discard port).Wf ∧ ((b.discard port).NoLeak ↔ b.NoLeak) := by
  have hent : ∀ p, (b.discard port).Entered p ↔ b.Entered p := fun p => Iff.rfl
  have hne : ∀ p, b.Entered p → p ≠ port := by
    rintro p hp rfl
    exact hb.apart p hp hport
  have hheld : ∀ p, (b.discard port).Held p ↔ b.Held p ∧ p ≠ port := by
    intro p
    rw [Held, hent, discard, hb.nodup.mem_erase_iff, Held]
    constructor
    · rintro (h | h)
      · exact ⟨.inl h, hne p h⟩
      · exact ⟨.inr h.2, h.1⟩
    · rintro ⟨h | h, hp⟩
      · exact .inl h
      · exact .inr ⟨hp, h⟩
  have hused : ∀ p, p ∈ (b.discard port).usedPorts ↔ p ∈ b.usedPorts ∧ p ≠ port := by
    intro p
    rw [discard, Finset.mem_erase, and_comm]
  refine ⟨⟨fun p hp => ?_, hb.distinct, fun p hp hs => ?_, hb.nodup.erase _⟩, ?_⟩
  · rw [hheld] at hp
    exact (hused p).2 ⟨hb.held p hp.1, hp.2⟩
  · exact hb.apart p hp (List.mem_of_mem_erase hs)
  · constructor
    · intro h p hp
      by_cases hpp : p = port
      · exact .inr (hpp ▸ hport)
      · exact ((hheld p).1 (h p ((hused p).2 ⟨hp, hpp⟩))).1
    · intro h p hp
      obtain ⟨hp, hpp⟩ := (hused p).1 hp
      exact (hheld p).2 ⟨h p hp, hpp⟩

/-- `_watch_process` frees the port of the entry that it removes. -/
theorem watched_wf (hb : b.Wf) (uuid : String) (proc : ℕ) :
    (b.watched uuid proc).Wf ∧ ((b.watched uuid proc).NoLeak ↔ b.NoLeak) ∧
      (b.watched uuid proc).usedPorts ⊆ b.usedPorts := by
  cases hi : b.instances.get? uuid with
  | none => simpa [watched, hi] using hb
  | some cur =>
    by_cases hproc : cur.proc = proc
    · have heq : b.watched uuid proc =
          ⟨b.instances.erase uuid, b.usedPorts.erase cur.port, b.stopping⟩ := by
        simp [watched, hi, hproc]
      have hentry : b.Entered cur.port := ⟨uuid, cur, hi, rfl⟩
      have hheld : ∀ p, (b.watched uuid proc).Held p ↔ b.Held p ∧ p ≠ cur.port := by
        intro p
        rw [heq, Held, entered_erase hb hi, Held, or_and_right]
        refine or_congr_right (iff_self_and.2 ?_)
        rintro hs rfl
        exact hb.apart _ hentry hs
      have hused : ∀ p, p ∈ (b.watched uuid proc).usedPorts ↔ p ∈ b.usedPorts ∧ p ≠ cur.port := by
        intro p
        rw [heq, Finset.mem_erase, and_comm]
      refine ⟨⟨fun p hp => ?_, ?_, fun p hp => ?_, ?_⟩, ⟨fun h p hp => ?_, fun h p hp => ?_⟩,
        fun p hp => ((hused p).1 hp).1⟩
      · rw [hheld] at hp
        exact (hused p).2 ⟨hb.held p hp.1, hp.2⟩
      · rw [heq]
        exact distinct_erase hb uuid
      · rw [heq, entered_erase hb hi] at hp
        rw [heq]
        exact hb.apart p hp.1
      · rw [heq]
        exact hb.nodup
      · by_cases hpp : p = cur.port
        · exact .inl (hpp ▸ hentry)
        · exact ((hheld p).1 (h p ((hused p).2 ⟨hp, hpp⟩))).1
      · obtain ⟨hp, hpp⟩ := (hused p).1 hp
        exact (hheld p).2 ⟨h p hp, hpp⟩
    · simpa [watched, hi, hproc] using hb

theorem get?_register (b : Books) (uuid : String) (inst : Instance) (u : String) (i : Instance) :
    (b.register uuid inst).instances.get? u = some i ↔
      (u = uuid ∧ i = inst) ∨ (u ≠ uuid ∧ b.instances.get? u = some i) := by
  rw [register, Dict.get?_set]
  by_cases hu : uuid = u
  · subst hu
    simp [eq_comm]
  · simp [hu, Ne.symm hu]

theorem entered_register (b : Books) (uuid : String) (inst : Instance) (p : ℤ) :
    (b.register uuid inst).Entered p ↔
      p = inst.port ∨ ∃ u i, u ≠ uuid ∧ b.instances.get? u = some i ∧ i.port = p := by
  constructor
  · rintro ⟨u, i, hu, rfl⟩
    rcases (get?_register b uuid inst u i).1 hu with ⟨-, rfl⟩ | ⟨hne, hu⟩
    · exact .inl rfl
    · exact .inr ⟨u, i, hne, hu, rfl⟩
  · rintro (rfl | ⟨u, i, hne, hu, rfl⟩)
    · exact ⟨uuid, inst, (get?_register _ _ _ _ _).2 (.inl ⟨rfl, rfl⟩), rfl⟩
    · exact ⟨u, i, (get?_register _ _ _ _ _).2 (.inr ⟨hne, hu⟩), rfl⟩

theorem mem_usedPorts_register (b : Books) (uuid : String) (inst : Instance) (p : ℤ) :
    p ∈ (b.register uuid inst).usedPorts ↔ p = inst.port ∨ p ∈ b.usedPorts := by
  rw [register, Finset.mem_insert]

/-- An entry does not have a port that nobody uses. -/
theorem port_ne_of_unused (hb : b.Wf) (hport : p ∉ b.usedPorts) {u : String} {i : Instance}
    (hu : b.instances.get? u = some i) : i.port ≠ p := by
  rintro rfl
  exact hport (hb.held _ (.inl ⟨u, i, hu, rfl⟩))

section Register

variable {uuid : String} {inst : Instance}

theorem wf_register (hb : b.Wf) (hport : inst.port ∉ b.usedPorts) :
    (b.register uuid inst).Wf := by
  refine ⟨?_, ?_, ?_, hb.nodup⟩
  · rintro p (hp | hp)
    · rcases (entered_register _ _ _ p).1 hp with rfl | ⟨u, i, -, hu, rfl⟩
      · exact (mem_usedPorts_register ..).2 (.inl rfl)
      · exact (mem_usedPorts_register ..).2 (.inr (hb.held _ (.inl ⟨u, i, hu, rfl⟩)))
    · exact (mem_usedPorts_register ..).2 (.inr (hb.held p (.inr hp)))
  · intro u v i j hu hv hp
    rcases (get?_register _ _ _ u i).1 hu with ⟨rfl, rfl⟩ | ⟨-, hu'⟩ <;>
      rcases (get?_register _ _ _ v j).1 hv with ⟨rfl, rfl⟩ | ⟨-, hv'⟩
    · rfl
    · exact absurd hp.symm (port_ne_of_unused hb hport hv')
    · exact absurd hp (port_ne_of_unused hb hport hu')
    · exact hb.distinct u v i j hu' hv' hp
  · intro p hp hs
    rcases (entered_register _ _ _ p).1 hp with rfl | ⟨u, i, -, hu, rfl⟩
    · exact hport (hb.held _ (.inr hs))
    · exact hb.apart _ ⟨u, i, hu, rfl⟩ hs

/-- The port of an entry that `register` replaces stays used, and no other entry can have it. -/
theorem none_of_noLeak_register (hb : b.Wf) (hport : inst.port ∉ b.usedPorts)
    (h : (b.register uuid inst).NoLeak) : b.instances.get? uuid = none := by
  refine Option.eq_none_iff_forall_ne_some.2 fun old hold => ?_
  have hentry : b.Entered old.port := ⟨uuid, old, hold, rfl⟩
  rcases h old.port ((mem_usedPorts_register ..).2 (.inr (hb.held _ (.inl hentry)))) with he | hs
  · rcases (entered_register _ _ _ _).1 he with hp | ⟨u, i, hne, hu, hp⟩
    · exact port_ne_of_unused hb hport hold hp
    · exact hne (hb.distinct _ _ _ _ hu hold hp)
  · exact hb.apart _ hentry hs

theorem noLeak_register (hb : b.Wf) (hport : inst.port ∉ b.usedPorts) :
    (b.register uuid inst).NoLeak ↔ b.NoLeak ∧ b.instances.get? uuid = none := by
  constructor
  · intro h
    refine ⟨fun p hp => ?_, none_of_noLeak_register hb hport h⟩
    rcases h p ((mem_usedPorts_register ..).2 (.inr hp)) with he | hs
    · rcases (entered_register _ _ _ p).1 he with rfl | ⟨u, i, -, hu, rfl⟩
      · exact absurd hp hport
      · exact .inl ⟨u, i, hu, rfl⟩
    · exact .inr hs
  · rintro ⟨h, hnone⟩ p hp
    rcases (mem_usedPorts_register ..).1 hp with rfl | hp
    · exact .inl ((entered_register ..).2 (.inl rfl))
    · rcases h p hp with ⟨u, i, hu, rfl⟩ | hs
      · refine .inl ((entered_register ..).2 (.inr ⟨u, i, ?_, hu, rfl⟩))
        rintro rfl
        rw [hnone] at hu
        cases hu
      · exact .inr hs

end Register

/-- `register` takes a port that nobody uses; the port of an entry that it replaces leaks. -/
theorem register_wf (hb : b.Wf) (uuid : String) {inst : Instance}
    (hport : inst.port ∉ b.usedPorts) :
    (b.register uuid inst).Wf ∧
      ((b.register uuid inst).NoLeak ↔ b.NoLeak ∧ b.instances.get? uuid = none) :=
  ⟨wf_register hb hport, noLeak_register hb hport⟩

end Books

/-! ### Steps and runs -/

/-- The port that the holder of the lock is about to take. -/
def Stage.port? : Stage → Option ℤ
  | .launching port _ => some port
  | _ => none

/-- What holds in every reachable state: the books are well formed, and a port that was allocated is
not used by anybody yet. -/
structure State.Wf (s : State) : Prop where
  books : s.books.Wf
  unused : ∀ call p, s.lock = some call → call.stage.port? = some p → p ∉ s.books.usedPorts

theorem State.init_wf : State.init.Wf where
  books := {
    held := by rintro p (⟨u, i, hu, -⟩ | hp) <;> cases ‹_›
    distinct := by rintro u v i j hu; cases hu
    apart := by rintro p ⟨u, i, hu, -⟩; cases hu
    nodup := List.nodup_nil }
  unused := by rintro call p hl; cases hl

theorem scan_eq_port {r : PortRange} {used : Finset ℤ} {free : ℤ → Bool} {p : ℤ}
    (h : allocatePort.scan r used free = .port p) : p ∉ used := by
  unfold allocatePort.scan at h
  split at h
  · rename_i q hq
    cases h
    have hfound := List.find?_some hq
    simp only [decide_eq_true_eq] at hfound
    exact hfound.1
  · cases h

/-- `allocate_port_async` returns a port that is not used. -/
theorem allocatePort_eq_port {r : PortRange} {used : Finset ℤ} {free : ℤ → Bool} {force : Bool}
    {preferred : Option ℤ} {tries : ℕ} {p : ℤ}
    (h : allocatePort r used free force preferred tries = .port p) : p ∉ used := by
  cases preferred with
  | none => exact scan_eq_port h
  | some preferred =>
    cases tries with
    | zero =>
      simp only [allocatePort] at h
      split at h
      · cases h
      · exact scan_eq_port h
    | succ tries =>
      simp only [allocatePort] at h
      split at h
      · rename_i hp
        cases h
        exact hp.1
      · cases h

section Step

variable {r : PortRange} {s t : State} {l : Label}

/-- A step that leaves the books and lets nobody new take a port. -/
theorem State.Wf.frame (hs : s.Wf) (hbooks : t.books = s.books)
    (hlock : t.lock = s.lock ∨ t.lock = none ∨
      ∃ call, t.lock = some call ∧ ∀ p, call.stage.port? = some p → p ∉ s.books.usedPorts) :
    t.Wf ∧ (t.books.NoLeak ↔ s.books.NoLeak) := by
  refine ⟨⟨hbooks ▸ hs.books, fun call p hl hp => ?_⟩, by rw [hbooks]⟩
  rw [hbooks]
  rcases hlock with h | h | ⟨call', h, hfree⟩
  · exact hs.unused call p (h ▸ hl) hp
  · rw [h] at hl
    cases hl
  · rw [h] at hl
    cases hl
    exact hfree p hp

/-- What `allocate_port_async` says lets nobody take a used port. -/
theorem State.Wf.allocated (hs : s.Wf) (call : Starting) {a : Allocation}
    (ha : ∀ p, a = .port p → p ∉ s.books.usedPorts) :
    (s.allocated call a).Wf ∧ ((s.allocated call a).books.NoLeak ↔ s.books.NoLeak) := by
  cases a with
  | port p =>
    refine hs.frame rfl (.inr (.inr ⟨_, rfl, fun q hq => ?_⟩))
    cases hq
    exact ha p rfl
  | sleep tries => exact hs.frame rfl (.inr (.inr ⟨_, rfl, fun q hq => by cases hq⟩))
  | none => exact hs.frame rfl (.inr (.inl rfl))

/-- A task that gets the lock leaks nothing. -/
theorem State.Wf.enter (hs : s.Wf) (hlock : s.lock = none) (task : Task) :
    (s.enter task).Wf ∧ ((s.enter task).books.NoLeak ↔ s.books.NoLeak) := by
  have hnobody : ∀ {t : State}, t.lock = s.lock → ∀ call p, t.lock = some call →
      call.stage.port? = some p → p ∉ t.books.usedPorts := by
    intro t ht call p hl
    rw [ht, hlock] at hl
    cases hl
  have hprepare : ∀ uuid preferred force,
      ∃ call, some (Starting.mk uuid preferred force .preparing) = some call ∧
        ∀ p, call.stage.port? = some p → p ∉ s.books.usedPorts :=
    fun _ _ _ => ⟨_, rfl, fun q hq => by cases hq⟩
  cases task with
  | start uuid preferred force =>
    simp only [State.enter]
    split
    · split
      · exact hs.frame rfl (.inr (.inr (hprepare _ _ _)))
      · exact hs.frame rfl (.inl rfl)
    · exact hs.frame rfl (.inr (.inr (hprepare _ _ _)))
  | stop uuid =>
    obtain ⟨hwf, hleak, -⟩ := Books.pop_wf hs.books uuid
    exact ⟨⟨hwf, hnobody rfl⟩, hleak⟩
  | watch uuid proc =>
    obtain ⟨hwf, hleak, -⟩ := Books.watched_wf hs.books uuid proc
    exact ⟨⟨hwf, hnobody rfl⟩, hleak⟩

/-- A launch leaks a port exactly when the process comes up over an old entry. -/
theorem State.Wf.launched (hs : s.Wf) {call : Starting} {port : ℤ} {modes : ℕ}
    (hlock : s.lock = some call) (hstage : call.stage = .launching port modes) (up : Bool) :
    (s.launched call port modes up).Wf ∧
      ((s.launched call port modes up).books.NoLeak ↔
        s.books.NoLeak ∧ Fresh s (.launched up)) := by
  have hport : port ∉ s.books.usedPorts := hs.unused call port hlock (by rw [hstage]; rfl)
  cases up with
  | true =>
    have hport' : (Instance.mk s.procs port).port ∉ s.books.usedPorts := hport
    obtain ⟨hwf, hleak⟩ := Books.register_wf hs.books call.uuid hport'
    have hbooks : (s.launched call port modes true).books =
        s.books.register call.uuid ⟨s.procs, port⟩ := by cases modes <;> rfl
    have hfree : (s.launched call port modes true).lock = none := by cases modes <;> rfl
    refine ⟨⟨hbooks ▸ hwf, fun call p hl => ?_⟩, ?_⟩
    · rw [hfree] at hl
      cases hl
    · rw [hbooks, hleak]
      simp [Fresh, hlock]
  | false =>
    have hkeep : { s.books with usedPorts := s.books.usedPorts.erase port } = s.books := by
      rw [Finset.erase_eq_of_notMem hport]
    simp only [Fresh, and_true]
    -- with two modes left the other one is tried, with one or none the call gives up
    rcases modes with _ | _ | modes
    · exact hs.frame hkeep (.inr (.inl rfl))
    · exact hs.frame hkeep (.inr (.inl rfl))
    · refine hs.frame rfl (.inr (.inr ⟨_, rfl, fun q hq => ?_⟩))
      cases hq
      exact hport

/-- **One step**: the state stays well formed, and a port leaks exactly when a process is registered
over an old entry. -/
theorem noLeak_step (hs : s.Wf) (h : (machine r).step s l = some t) :
    t.Wf ∧ (t.books.NoLeak ↔ s.books.NoLeak ∧ Fresh s l) := by
  -- every step but a successful launch is fresh, so only leaks are to be compared
  have hfresh : ∀ {l : Label} {t : State}, Fresh s l →
      t.Wf ∧ (t.books.NoLeak ↔ s.books.NoLeak) →
      t.Wf ∧ (t.books.NoLeak ↔ s.books.NoLeak ∧ Fresh s l) :=
    fun hl ht => ⟨ht.1, ht.2.trans (iff_self_and.2 fun _ => hl)⟩
  cases l with
  | launched up =>
    simp only [machine] at h
    split at h
    · rename_i uuid preferred force port modes hlock
      cases h
      exact hs.launched hlock rfl up
    · cases h
  | start uuid preferred force =>
    cases h
    exact hfresh trivial (hs.frame rfl (.inl rfl))
  | stop uuid =>
    cases h
    exact hfresh trivial (hs.frame rfl (.inl rfl))
  | exit proc =>
    simp only [machine] at h
    split at h
    · cases h
      exact hfresh trivial (hs.frame rfl (.inl rfl))
    · cases h
  | wake uuid proc =>
    simp only [machine] at h
    split at h
    · cases h
      exact hfresh trivial (hs.frame rfl (.inl rfl))
    · cases h
  | enter =>
    simp only [machine] at h
    split at h
    · rename_i task queue hlock hqueue
      cases h
      have hs' : (State.mk s.books s.lock queue s.watchers s.exited s.procs).Wf :=
        ⟨hs.books, hs.unused⟩
      exact hfresh trivial (hs'.enter hlock task)
    · cases h
  | prepared ok free =>
    simp only [machine] at h
    split at h
    · split at h
      · cases h
        exact hfresh trivial (hs.allocated _ fun p hp => allocatePort_eq_port hp)
      · cases h
        exact hfresh trivial (hs.frame rfl (.inr (.inl rfl)))
    · cases h
  | retry free =>
    simp only [machine] at h
    split at h
    · cases h
      exact hfresh trivial (hs.allocated _ fun p hp => allocatePort_eq_port hp)
    · cases h
  | raise =>
    obtain ⟨call, -, rfl⟩ := Option.map_eq_some_iff.1 h
    exact hfresh trivial (hs.frame rfl (.inr (.inl rfl)))
  | discard port =>
    simp only [machine] at h
    split at h
    · rename_i hport
      cases h
      obtain ⟨hwf, hleak⟩ := Books.discard_wf hs.books hport
      refine hfresh trivial ⟨⟨hwf, fun call p hl hp hused => ?_⟩, hleak⟩
      exact hs.unused call p hl hp (Finset.mem_of_mem_erase hused)
    · cases h

end Step

/-- **The bookkeeping is exact, whenever nobody is under way, exactly when every process that came
up so far found no entry under its uuid.** -/
theorem exact_iff_fresh (r : PortRange) {ls : List Label} {t : State}
    (h : (machine r).run State.init ls = some t) (hquiet : t.Quiet) :
    t.books.Exact ↔ (machine r).Along Fresh State.init ls := by
  have hrun := Machine.run_iff_along (Q := fun s => s.books.NoLeak)
    (fun s l t hs ht => noLeak_step hs ht) h State.init_wf
  have hnone : State.init.books.NoLeak := by
    intro p hp
    cases hp
  rw [hrun.1.books.exact_iff hquiet.2, hrun.2]
  exact and_iff_right hnone

/-- `a` and `b` are started.  The process of `a` dies, its watcher removes the entry, and `a` is
started again on its old port; then `b` is stopped. -/
def diesAndStops : List Label :=
  let free : ℤ → Bool := fun _ => true
  [.start "a" none false, .enter, .prepared true free, .launched true,
    .start "b" none false, .enter, .prepared true free, .launched false, .launched true,
    .exit 0, .wake "a" 0, .enter,
    .start "a" (some 8500) false, .enter, .prepared true free, .launched true,
    .stop "b", .enter, .discard 8501, .exit 1, .wake "b" 1, .enter]

/-- Behind all that the new process of `a` is the only one in the books. -/
theorem exact_iff_fresh_diesAndStops : ∃ t, (machine {}).run State.init diesAndStops = some t ∧
    t.books.instances.entries = [("a", ⟨2, 8500⟩)] ∧ t.books.Exact := by
  have hview : ((machine {}).run State.init diesAndStops).map
      (fun t => (t.lock.isNone, t.books.stopping, t.books.instances.entries)) =
        some (true, [], [("a", ⟨2, 8500⟩)]) := by
    decide +kernel
  obtain ⟨t, ht, heq⟩ := Option.map_eq_some_iff.1 hview
  simp only [Prod.mk.injEq, Option.isNone_iff_eq_none] at heq
  obtain ⟨hlock, hstopping, hentries⟩ := heq
  have hfresh : (machine {}).Along Fresh State.init diesAndStops := by decide +kernel
  exact ⟨t, ht, hentries, (exact_iff_fresh {} ht ⟨hlock, hstopping⟩).2 hfresh⟩

/-- The process of `a` dies while `b` is being started, after `start_instance` has been called for
`a` once more.  The watcher of the dead process is behind that call in the queue: it finds the entry
of the new process, and port 8500 stays used for ever. -/
theorem restart_leaks_port :
    ¬ ∀ ls t, (machine {}).run State.init ls = some t → t.Quiet → t.books.Exact := by
  let free : ℤ → Bool := fun _ => true
  let ls : List Label :=
    [.start "a" none false, .enter, .prepared true free, .launched true,
      .start "b" none false, .enter, .start "a" none false, .exit 0, .wake "a" 0,
      .prepared false free, .enter, .prepared true free, .launched true, .enter]
  intro h
  obtain ⟨t, ht⟩ := Option.isSome_iff_exists.1
    (by decide +kernel : ((machine {}).run State.init ls).isSome = true)
  have hend : ((machine {}).run State.init ls).map (fun t => (t.lock.isNone, t.books.stopping,
      t.books.instances.entries, decide (8500 ∈ t.books.usedPorts))) =
        some (true, [], [("a", ⟨1, 8501⟩)], true) := by
    decide +kernel
  rw [ht, Option.map_some, Option.some.injEq] at hend
  simp only [Prod.mk.injEq, Option.isNone_iff_eq_none, decide_eq_true_eq] at hend
  obtain ⟨hlock, hstopping, hentries, hused⟩ := hend
  obtain ⟨u, i, hu, hport⟩ := ((h ls t ht ⟨hlock, hstopping⟩).used 8500).1 hused
  have hmem := Dict.get?_eq_some.1 hu
  rw [hentries, List.mem_singleton, Prod.mk.injEq] at hmem
  rw [hmem.2] at hport
  cases hport

end Mtproto

end RvgGateway
