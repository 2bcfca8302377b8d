import Mathlib.Algebra.Order.Ring.Cast
import Mathlib.Algebra.Order.Ring.Rat
import RvgGateway.Lib.Dict
import RvgGateway.Lib.Machine

/-!
# The traffic of the Zeus proxy

The loops of `_pipe` in `zeussocks5.py`.  A loop reads a chunk, compares `bytes_used` with the
limit, writes the chunk, and adds its length to `bytes_used` when `drain` returns; other loops run
while it is suspended in `read` and in `drain`.  So `bytes_used` lags behind what was written, but
only by what the loops have in flight.

* `Traffic.Covered` : what was written is counted or in flight.
* `written_lt` : with at most `K` loops alive, less than `K` chunks go past the limit.
-/

namespace RvgGateway

namespace Zeus

/-- The argument of `read`. -/
def readSize : ℕ := 65536

/-- Where a loop is suspended. -/
inductive PipePlace where
  | reading
  /-- In `drain`, with a chunk of `n` bytes written and not counted. -/
  | draining (n : ℕ) (le : n ≤ readSize)

/-- The bytes that the loop has in flight. -/
def PipePlace.inFlight : PipePlace → ℕ
  | reading => 0
  | draining n _ => n

/-- The counter and the loops that are alive. -/
structure Traffic where
  /-- `zeus_proxy_state["bytes_used"]`. -/
  bytesUsed : ℕ
  pipes : Dict ℕ PipePlace
  /-- What the loops have written since the proxy was created; no step reads it. -/
  written : ℕ

/-- What happens. -/
inductive PipeEvent where
  /-- A handler starts a loop. -/
  | start (id : ℕ)
  /-- `read` returns a chunk of `n` bytes; `expired` is what `_is_expired` answers. -/
  | chunk (id n : ℕ) (expired : Bool)
  /-- `drain` returns. -/
  | drained (id : ℕ)
  /-- `read` returns nothing, raises or is given up. -/
  | ended (id : ℕ)

namespace Traffic

/-- `_is_traffic_exceeded`, with the limit in bytes. -/
def isTrafficExceeded (limit : ℚ) (s : Traffic) : Bool := limit ≠ 0 && limit ≤ (s.bytesUsed : ℚ)

/-- From one suspension of a loop to the next. -/
def next (limit : ℚ) (s : Traffic) : PipeEvent → Option Traffic
  | .start id =>
    if s.pipes.contains id then none else some { s with pipes := s.pipes.set id .reading }
  | .chunk id n expired =>
    match s.pipes.get? id with
    | some .reading =>
      if h : 0 < n ∧ n ≤ readSize then
        if expired || s.isTrafficExceeded limit then some { s with pipes := s.pipes.erase id }
        else some { s with
          pipes := s.pipes.set id (.draining n h.2)
          written := s.written + n }
      else none
    | _ => none
  | .drained id =>
    match s.pipes.get? id with
    | some (.draining n _) => some { s with
        bytesUsed := s.bytesUsed + n
        pipes := s.pipes.set id .reading }
    | _ => none
  | .ended id =>
    match s.pipes.get? id with
    | some .reading => some { s with pipes := s.pipes.erase id }
    | _ => none

/-- The bytes that the loops have in flight. -/
def inFlight (s : Traffic) : ℕ := s.pipes.sumValues PipePlace.inFlight

/-- The proxy when it was just created, with the loops that an earlier one has left behind. -/
def created (pipes : Dict ℕ PipePlace) : Traffic := ⟨0, pipes, 0⟩

end Traffic

/-- The loops under one limit. -/
def trafficMachine (limit : ℚ) : Machine Traffic PipeEvent where
  step := Traffic.next limit

/-! ### What one step does -/

namespace Traffic

variable {limit : ℚ} {s s' : Traffic} {e : PipeEvent}

/-- The bytes in flight when a loop goes from one place to another. -/
theorem inFlight_set {id : ℕ} {p : PipePlace} (hget : s.pipes.get? id = some p) (q : PipePlace) :
    (s.pipes.set id q).sumValues PipePlace.inFlight + p.inFlight = s.inFlight + q.inFlight := by
  have hset := Dict.sumValues_set PipePlace.inFlight s.pipes id q
  rwa [hget, Option.map_some, Option.getD_some] at hset

/-- No loop is new when one goes to another place. -/
theorem size_set {id : ℕ} {p : PipePlace} (hget : s.pipes.get? id = some p) (q : PipePlace) :
    (s.pipes.set id q).size = s.pipes.size := by
  have hsize : ∀ d : Dict ℕ PipePlace, d.sumValues (fun _ => 1) = d.size := by
    intro d
    simp [Dict.sumValues, Dict.size]
  have hset := Dict.sumValues_set (fun _ => 1) s.pipes id q
  rw [hget, hsize, hsize, Option.map_some, Option.getD_some] at hset
  exact Nat.add_right_cancel hset

/-- The bytes in flight when a loop that reads ends. -/
theorem inFlight_erase {id : ℕ} (hget : s.pipes.get? id = some .reading) :
    (s.pipes.erase id).sumValues PipePlace.inFlight = s.inFlight := by
  have herase := Dict.sumValues_erase PipePlace.inFlight s.pipes id
  rwa [hget, Option.map_some, Option.getD_some] at herase

/-- A step writes a chunk below the limit, counts one that was in flight, or does neither. -/
theorem next_cases (h : s.next limit e = some s') :
    (∃ n, (limit ≠ 0 → (s.bytesUsed : ℚ) < limit) ∧ s'.bytesUsed = s.bytesUsed ∧
      s'.written = s.written + n ∧ s'.inFlight = s.inFlight + n ∧
      s'.pipes.size = s.pipes.size) ∨
    (∃ n, s'.bytesUsed = s.bytesUsed + n ∧ s'.written = s.written ∧
      s'.inFlight + n = s.inFlight) ∨
    (s'.bytesUsed = s.bytesUsed ∧ s'.written = s.written ∧ s'.inFlight = s.inFlight) := by
  cases e with
  | start id =>
    simp only [next] at h
    split_ifs at h with hnew
    cases h
    have hnone : s.pipes.get? id = none := by simpa [Dict.contains] using hnew
    have hset := Dict.sumValues_set PipePlace.inFlight s.pipes id .reading
    rw [hnone, Option.map_none, Option.getD_none] at hset
    exact .inr (.inr ⟨rfl, rfl, hset⟩)
  | chunk id n expired =>
    cases hget : s.pipes.get? id with
    | none => simp only [next, hget] at h; cases h
    | some p =>
      cases p with
      | draining m hm => simp only [next, hget] at h; cases h
      | reading =>
        simp only [next, hget] at h
        split_ifs at h with hn hstop
        · cases h
          exact .inr (.inr ⟨rfl, rfl, inFlight_erase hget⟩)
        · cases h
          refine .inl ⟨n, fun hlimit => ?_, rfl, rfl, inFlight_set hget _, size_set hget _⟩
          by_contra hle
          exact hstop (by simp [isTrafficExceeded, hlimit, not_lt.1 hle])
  | drained id =>
    cases hget : s.pipes.get? id with
    | none => simp only [next, hget] at h; cases h
    | some p =>
      cases p with
      | reading => simp only [next, hget] at h; cases h
      | draining n hn =>
        simp only [next, hget] at h
        cases h
        exact .inr (.inl ⟨n, rfl, rfl, inFlight_set hget .reading⟩)
  | ended id =>
    cases hget : s.pipes.get? id with
    | none => simp only [next, hget] at h; cases h
    | some p =>
      cases p with
      | draining m hm => simp only [next, hget] at h; cases h
      | reading =>
        simp only [next, hget] at h
        cases h
        exact .inr (.inr ⟨rfl, rfl, inFlight_erase hget⟩)

/-- A loop has one chunk in flight at most. -/
theorem inFlight_le (s : Traffic) : s.inFlight ≤ s.pipes.size * readSize :=
  Dict.sumValues_le s.pipes fun p =>
    match p with
    | .reading => Nat.zero_le _
    | .draining _ hn => hn

/-- What was written is counted or in flight, and went past the limit by less than `k` chunks. -/
structure Covered (limit : ℚ) (k : ℕ) (s : Traffic) : Prop where
  accounted : s.written ≤ s.bytesUsed + s.inFlight
  bounded : (s.written : ℚ) < limit + k * readSize

theorem covered_created {k : ℕ} (hlimit : 0 < limit) (pipes : Dict ℕ PipePlace) :
    Covered limit k (created pipes) := by
  refine ⟨Nat.zero_le _, ?_⟩
  have hchunks : (0 : ℚ) ≤ k * readSize := mul_nonneg (Nat.cast_nonneg k) (Nat.cast_nonneg readSize)
  rw [created, Nat.cast_zero]
  exact add_pos_of_pos_of_nonneg hlimit hchunks

/-- **One step**, with at most `k` loops alive. -/
theorem Covered.next {k : ℕ} (hlimit : 0 < limit) (hs : Covered limit k s)
    (halive : s.pipes.size ≤ k) (h : s.next limit e = some s') : Covered limit k s' := by
  obtain ⟨n, hbelow, hused, hwritten, hflight, hsize⟩ | ⟨n, hused, hwritten, hflight⟩ |
    ⟨hused, hwritten, hflight⟩ := next_cases h
  · have haccounted : s'.written ≤ s'.bytesUsed + s'.inFlight := by
      have := hs.accounted
      omega
    refine ⟨haccounted, ?_⟩
    -- the counter is below the limit, and the rest is in flight
    have hchunks : s'.inFlight ≤ k * readSize :=
      (inFlight_le s').trans (Nat.mul_le_mul_right _ (hsize ▸ halive))
    calc (s'.written : ℚ) ≤ (s.bytesUsed : ℚ) + (k * readSize : ℕ) := by
          rw [← Nat.cast_add]
          exact Nat.cast_le.2 (by omega)
      _ < limit + (k * readSize : ℕ) := add_lt_add_left (hbelow hlimit.ne') _
      _ = limit + k * readSize := by rw [Nat.cast_mul]
  · refine ⟨?_, hwritten ▸ hs.bounded⟩
    have := hs.accounted
    omega
  · refine ⟨?_, hwritten ▸ hs.bounded⟩
    have := hs.accounted
    omega

end Traffic

/-- **The overrun is bounded**: whatever the order of the steps, with at most `k` loops alive the
loops write less than `k` chunks past the limit. -/
theorem written_lt (limit : ℚ) (hlimit : 0 < limit) (k : ℕ) (pipes : Dict ℕ PipePlace)
    (es : List PipeEvent) (s : Traffic)
    (hrun : (trafficMachine limit).run (.created pipes) es = some s)
    (halive : (trafficMachine limit).Along (fun s _ => s.pipes.size ≤ k) (.created pipes) es) :
    (s.written : ℚ) < limit + k * 65536 := by
  have hcovered := Machine.run_invariant_along (I := fun s => s.Covered limit k)
    (fun _ _ _ hs halive hstep => hs.next hlimit halive hstep) hrun halive
    (Traffic.covered_created hlimit pipes)
  exact hcovered.bounded

/-- Two loops write a chunk each while the counter stands at zero. -/
theorem written_lt_two :
    let es : List PipeEvent := [.start 0, .start 1, .chunk 0 65536 false, .chunk 1 65536 false]
    ∃ s, (trafficMachine 1).run (.created ∅) es = some s ∧ s.written = 131072 ∧
      (s.written : ℚ) < 1 + (2 : ℕ) * 65536 := by
  have hrun : (trafficMachine 1).run (.created ∅)
      [.start 0, .start 1, .chunk 0 65536 false, .chunk 1 65536 false] =
      some ⟨0, ⟨[(0, .draining 65536 (by decide)), (1, .draining 65536 (by decide))], by decide⟩,
        131072⟩ := rfl
  exact ⟨_, hrun, rfl, written_lt 1 one_pos 2 ∅ _ _ hrun (by decide +kernel)⟩

end Zeus

end RvgGateway
