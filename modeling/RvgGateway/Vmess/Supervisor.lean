import RvgGateway.Lib.Machine

/-!
# The supervisor of a VMess tunnel

The loop at the end of `handle_vmess_stream` in `protocol/vmess/tunnel.py`.  It waits for the two
relay tasks with `asyncio.wait({t1, t2}, FIRST_COMPLETED)`, which returns at once when one of the
tasks has finished already.  After an end of file from the client it goes around once more and waits
for the same two tasks.

* `Supervisor.next_wake` : what one turn of the loop does.
* `neverSpins_iff` : no call of `wait` is made with a finished task exactly when the supervisor
  never wakes to a client that has ended and a target that has not.
* `spins` : once it does, it can turn as often as it likes before the target ends.
-/

namespace RvgGateway

namespace Vmess

/-- How a relay task finishes. -/
inductive TaskResult where
  | eof
  | closed
  | reset
  | quota
  /-- An exception that the task does not catch. -/
  | raised (exc : String)
  deriving DecidableEq

/-- The supervisor and its tasks. -/
structure Supervisor where
  /-- `client_to_target`, when it has finished. -/
  t1 : Option TaskResult
  /-- `target_to_client`, when it has finished. -/
  t2 : Option TaskResult
  /-- The supervisor is suspended in `asyncio.wait`. -/
  waiting : Bool
  /-- For each call of `asyncio.wait`, the latest first: which tasks had finished.  No step reads
  it. -/
  calls : List (Bool × Bool)
  /-- How often the body of the loop was run; no step reads it. -/
  bodies : ℕ
  deriving DecidableEq

/-- What happens. -/
inductive SupervisorEvent where
  | finish1 (r : TaskResult)
  | finish2 (r : TaskResult)
  /-- `asyncio.wait` returns. -/
  | wake
  /-- The tunnel is cancelled. -/
  | cancel
  deriving DecidableEq

namespace Supervisor

/-- `asyncio.wait({t1, t2}, return_when=asyncio.FIRST_COMPLETED)`. -/
def wait (s : Supervisor) : Supervisor :=
  { s with waiting := true, calls := (s.t1.isSome, s.t2.isSome) :: s.calls }

/-- The loop is left; `finally` cancels what has not finished. -/
def leave (s : Supervisor) : Supervisor := { s with waiting := false }

/-- The tasks are created and the loop begins. -/
def start : Supervisor := wait ⟨none, none, false, [], 0⟩

/-- The body of the loop behind `wait`, and the next `wait`. -/
def body (s : Supervisor) : Supervisor :=
  if s.t2.isSome then s.leave
  else
    match s.t1 with
    | some (.raised _) => s.leave
    | some .closed => s.leave
    | some .quota => s.leave
    | some .reset => s.leave
    | some .eof => s.wait
    | none => s.wait

/-- From one suspension to the next. -/
def next (s : Supervisor) : SupervisorEvent → Option Supervisor
  | .finish1 r => if s.waiting ∧ s.t1 = none then some { s with t1 := some r } else none
  | .finish2 r => if s.waiting ∧ s.t2 = none then some { s with t2 := some r } else none
  | .wake =>
    if s.waiting ∧ (s.t1.isSome ∨ s.t2.isSome) then some { s with bodies := s.bodies + 1 }.body
    else none
  | .cancel => if s.waiting then some s.leave else none

/-- The number of tasks that have finished. -/
def completions (s : Supervisor) : ℕ := s.t1.toList.length + s.t2.toList.length

end Supervisor

/-- The supervisor and its tasks as a machine. -/
def supervisorMachine : Machine Supervisor SupervisorEvent where
  step := Supervisor.next

namespace Supervisor

/-- The loop never spins: each call of `wait` is made with both tasks unfinished, and its body runs
at most once for each task that finishes. -/
structure NeverSpins (s : Supervisor) : Prop where
  fresh : ∀ call ∈ s.calls, call = (false, false)
  bodies_le : s.bodies ≤ s.completions

/-- The supervisor does not wake to a client that has ended and a target that has not. -/
def NoHalfClosed (s : Supervisor) : SupervisorEvent → Prop
  | .wake => ¬ (s.t1 = some .eof ∧ s.t2 = none)
  | _ => True

/-! ### One turn -/

variable {s s' : Supervisor} {e : SupervisorEvent}

/-- A turn of the loop leaves it, unless the client alone has ended: then it calls `wait` again. -/
theorem next_wake (h : s.next .wake = some s') :
    s.waiting = true ∧ (s.t1.isSome ∨ s.t2.isSome) ∧ s'.bodies = s.bodies + 1 ∧
      s'.t1 = s.t1 ∧ s'.t2 = s.t2 ∧
      ((¬ (s.t1 = some .eof ∧ s.t2 = none) ∧ s'.waiting = false ∧ s'.calls = s.calls) ∨
        (s.t1 = some .eof ∧ s.t2 = none ∧ s'.waiting = true ∧
          s'.calls = (true, false) :: s.calls)) := by
  simp only [next] at h
  split_ifs at h with hready
  obtain ⟨hwaiting, hdone⟩ := hready
  cases h
  refine ⟨hwaiting, hdone, ?_⟩
  unfold body
  cases h2 : s.t2 with
  | some r => simp [leave]
  | none =>
    cases h1 : s.t1 with
    | none => simp [h1, h2] at hdone
    | some r =>
      cases r with
      | eof => simp [wait]
      | closed => simp [leave]
      | reset => simp [leave]
      | quota => simp [leave]
      | raised exc => simp [leave]

/-- Where the loop is in a run: behind its first call of `wait` it has made one call for each turn,
but for the turn that left it, and all of these were made with a finished task. -/
structure Turns (s : Supervisor) : Prop where
  calls : ∃ stale : List (Bool × Bool), s.calls = stale ++ [(false, false)] ∧
    (∀ call ∈ stale, call ≠ (false, false)) ∧ s.bodies ≤ stale.length + 1 ∧
    (s.waiting = true → s.bodies ≤ stale.length)
  completed : 0 < s.bodies → 0 < s.completions

theorem completions_pos (h : s.t1.isSome ∨ s.t2.isSome) : 0 < s.completions := by
  unfold completions
  rcases h with h | h
  · obtain ⟨r, hr⟩ := Option.isSome_iff_exists.1 h
    rw [hr, Option.toList_some, List.length_singleton]
    omega
  · obtain ⟨r, hr⟩ := Option.isSome_iff_exists.1 h
    rw [hr, Option.toList_some, List.length_singleton]
    omega

theorem turns_start : Turns start :=
  ⟨⟨[], rfl, fun _ hcall => absurd hcall List.not_mem_nil, Nat.zero_le _, fun _ => le_rfl⟩,
    fun hbodies => absurd hbodies (Nat.lt_irrefl 0)⟩

/-- Without a stale call there was one turn at most. -/
theorem Turns.neverSpins (hs : s.Turns) (hfresh : ∀ call ∈ s.calls, call = (false, false)) :
    s.NeverSpins := by
  obtain ⟨stale, hcalls, hstale, hbodies, -⟩ := hs.calls
  have hnil : stale = [] := by
    refine List.eq_nil_iff_forall_not_mem.2 fun call hcall => hstale call hcall (hfresh call ?_)
    rw [hcalls]
    exact List.mem_append_left _ hcall
  refine ⟨hfresh, ?_⟩
  rw [hnil, List.length_nil] at hbodies
  rcases Nat.eq_zero_or_pos s.bodies with hzero | hpos
  · omega
  · have := hs.completed hpos
    omega

/-- **One step**: it stays in place, and makes a stale call exactly when it wakes to a client that has
ended and a target that has not. -/
theorem Turns.next (hs : s.Turns) (h : s.next e = some s') :
    s'.Turns ∧ ((∀ call ∈ s'.calls, call = (false, false)) ↔
      (∀ call ∈ s.calls, call = (false, false)) ∧ s.NoHalfClosed e) := by
  obtain ⟨stale, hcalls, hstale, hbodies, hwaiting⟩ := hs.calls
  cases e with
  | finish1 r =>
    simp only [Supervisor.next] at h
    split_ifs at h with hready
    cases h
    exact ⟨⟨⟨stale, hcalls, hstale, hbodies, hwaiting⟩, fun _ => completions_pos (.inl rfl)⟩,
      by simp [NoHalfClosed]⟩
  | finish2 r =>
    simp only [Supervisor.next] at h
    split_ifs at h with hready
    cases h
    exact ⟨⟨⟨stale, hcalls, hstale, hbodies, hwaiting⟩, fun _ => completions_pos (.inr rfl)⟩,
      by simp [NoHalfClosed]⟩
  | cancel =>
    simp only [Supervisor.next] at h
    split_ifs at h with hready
    cases h
    exact ⟨⟨⟨stale, hcalls, hstale, hbodies, fun hleft => (by cases hleft)⟩, hs.completed⟩,
      by simp [NoHalfClosed, leave]⟩
  | wake =>
    obtain ⟨hwas, hdone, hbodies', h1, h2, hturn⟩ := next_wake h
    have hcompleted : 0 < s'.completions := by
      refine completions_pos ?_
      rwa [h1, h2]
    have hlt := hwaiting hwas
    obtain ⟨hnot, hleft, hcalls'⟩ | ⟨heof, hnone, hagain, hcalls'⟩ := hturn
    · refine ⟨⟨⟨stale, hcalls'.trans hcalls, hstale, by omega, fun hin => ?_⟩, fun _ => hcompleted⟩, ?_⟩
      · rw [hleft] at hin
        cases hin
      · rw [hcalls']
        exact ⟨fun hfresh => ⟨hfresh, hnot⟩, And.left⟩
    · refine ⟨⟨⟨(true, false) :: stale, by rw [hcalls', hcalls]; rfl, ?_, ?_, ?_⟩,
        fun _ => hcompleted⟩, ?_⟩
      · intro call hcall
        rcases List.mem_cons.1 hcall with rfl | hcall
        · decide
        · exact hstale call hcall
      · rw [List.length_cons]
        omega
      · intro _
        rw [List.length_cons]
        omega
      · rw [hcalls']
        constructor
        · intro hfresh
          cases hfresh _ List.mem_cons_self
        · rintro ⟨-, hno⟩
          exact absurd ⟨heof, hnone⟩ hno

end Supervisor

open Supervisor (NeverSpins NoHalfClosed)

/-- **The supervisor never spins** in the runs in which it never wakes to a client that has ended and
a target that has not, and in no others. -/
theorem neverSpins_iff (es : List SupervisorEvent) (s : Supervisor)
    (hrun : supervisorMachine.run .start es = some s) :
    s.NeverSpins ↔ supervisorMachine.Along NoHalfClosed .start es := by
  obtain ⟨hturns, hfresh⟩ := Machine.run_iff_along (I := Supervisor.Turns)
    (Q := fun s => ∀ call ∈ s.calls, call = (false, false)) (P := NoHalfClosed)
    (fun _ _ _ hs hstep => hs.next hstep) hrun Supervisor.turns_start
  have hstart : ∀ call ∈ Supervisor.start.calls, call = (false, false) :=
    fun call hcall => List.mem_singleton.1 hcall
  constructor
  · intro hnever
    exact (hfresh.1 hnever.fresh).2
  · intro halong
    exact hturns.neverSpins (hfresh.2 ⟨hstart, halong⟩)

/-- The target ends first. -/
theorem neverSpins_iff_target :
    NeverSpins ⟨none, some .eof, false, [(false, false)], 1⟩ ↔
      supervisorMachine.Along NoHalfClosed .start [.finish2 .eof, .wake] :=
  neverSpins_iff [.finish2 .eof, .wake] _ rfl

/-- When the client alone has ended, the loop can turn `n` times before anything else happens. -/
theorem spins (n : ℕ) :
    ∃ s, supervisorMachine.run .start (.finish1 .eof :: List.replicate n .wake) = some s ∧
      s.bodies = n ∧ s.completions = 1 := by
  have hwakes : ∀ (calls : List (Bool × Bool)) (m : ℕ), ∃ calls',
      supervisorMachine.run ⟨some .eof, none, true, calls, m⟩ (List.replicate n .wake) =
        some ⟨some .eof, none, true, calls', m + n⟩ := by
    induction n with
    | zero => exact fun calls m => ⟨calls, rfl⟩
    | succ n ih =>
      intro calls m
      obtain ⟨calls', hrest⟩ := ih ((true, false) :: calls) (m + 1)
      refine ⟨calls', ?_⟩
      rw [List.replicate_succ, Machine.run_cons]
      refine ⟨⟨some .eof, none, true, (true, false) :: calls, m + 1⟩, rfl, ?_⟩
      rw [hrest, Nat.add_right_comm, Nat.add_assoc]
  obtain ⟨calls', hrun⟩ := hwakes [(false, false)] 0
  refine ⟨_, Machine.run_cons.2 ⟨⟨some .eof, none, true, [(false, false)], 0⟩, rfl, hrun⟩, ?_, rfl⟩
  exact Nat.zero_add n

/-- A client that ends while the target goes on: the second call of `wait` has a finished task, and
so has the third. -/
theorem half_close_spins : ¬ ∀ (es : List SupervisorEvent) (s : Supervisor),
    supervisorMachine.run .start es = some s → s.NeverSpins := by
  intro h
  have hspins := h [.finish1 .eof, .wake, .wake]
    ⟨some .eof, none, true, [(true, false), (true, false), (false, false)], 2⟩ rfl
  cases hspins.fresh _ List.mem_cons_self

end Vmess

end RvgGateway
