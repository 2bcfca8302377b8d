import RvgGateway.Lib.Machine
import RvgGateway.Quota.Gate
import RvgGateway.Shadowsocks.Stream

/-!
# The relays of a tunnel

`relay_ws_to_tcp` and `relay_tcp_to_ws` of `protocol/vless/vless.py`, of `protocol/trojan/websocket.py`
and of `protocol/shadowsocks/websocket.py`, and `client_to_target` and `target_to_client` of
`protocol/shadowsocks/tcp_server.py`, are one loop: read, take out the pieces, ask the quota gate for
each, and write it to the other side.  They differ in how they read and write (`Direction`).

A relay is a task.  It can be cancelled wherever it waits, also while its gate waits for `LINKS_LOCK`
with the pending bytes already taken off.

* `relayMachine` : a relay, while everything else changes the links.
* `Relay.Faithful` : what has been written is what has been read.
* `kept_of_run` : **a relay passes on, in order and once, a front part of what it has read, and all
  of it while it waits for more.**
-/

namespace RvgGateway

namespace Relay

open Quota (Gate GateClass Reading)
open Shadowsocks (AEADStream)

/-! ### Directions -/

/-- How a relay reads and writes. -/
structure Direction (σ τ : Type) where
  /-- The pieces in what is read, and the next state; `none` when the rest cannot be read. -/
  read : σ → Bytes → List Bytes × Option σ
  /-- What is written for a piece; `none` when it raises. -/
  write : τ → Bytes → Option (Bytes × τ)

namespace Direction

/-- What is read is one piece. -/
def readPlain (_ : Unit) (data : Bytes) : List Bytes × Option Unit := ([data], some ())

/-- A piece is written as it is. -/
def writePlain (_ : Unit) (piece : Bytes) : Option (Bytes × Unit) := some (piece, ())

/-- `relay_ws_to_tcp` of VLESS and of Trojan. -/
def up : Direction Unit Unit := ⟨readPlain, writePlain⟩

/-- `relay_tcp_to_ws` of VLESS, and with `vless_prefix=False` that of Trojan; the state is `first`. -/
def down (vlessPrefix : Bool) : Direction Unit Bool where
  read := readPlain
  write first data :=
    some (if vlessPrefix && first then (0x00 :: 0x00 :: data, false) else (data, first))

variable (c : Crypto)

/-- `relay_ws_to_tcp` of Shadowsocks. -/
def ssUp : Direction AEADStream Unit where
  read s data :=
    match (s.feed data).tryDecryptChunks c with
    | ⟨payloads, .ok s⟩ => (payloads, some s)
    | ⟨payloads, .error _⟩ => (payloads, none)
  write := writePlain

/-- `client_to_target` of Shadowsocks, which decrypts all of what it has read before it passes on any
of it. -/
def ssTcpUp : Direction AEADStream Unit where
  read s data :=
    match (s.feed data).tryDecryptChunks c with
    | ⟨payloads, .ok s⟩ => (payloads, some s)
    | ⟨_, .error _⟩ => ([], none)
  write := writePlain

/-- `relay_tcp_to_ws` and `target_to_client` of Shadowsocks. -/
def ssDown : Direction Unit AEADStream where
  read := readPlain
  write s data :=
    match s.encryptChunk c data with
    | .ok r => some r
    | .error _ => none

variable {σ τ : Type} (dir : Direction σ τ)

/-- The pieces in all that is read, without the empty ones. -/
def readAll : σ → List Bytes → List Bytes × Option σ
  | s, [] => ([], some s)
  | s, data :: rest =>
    match dir.read s data with
    | (pieces, none) => (pieces.filter (· ≠ []), none)
    | (pieces, some s) => (pieces.filter (· ≠ []) ++ (readAll s rest).1, (readAll s rest).2)

/-- What is written for all pieces. -/
def writeAll : τ → List Bytes → Option (Bytes × τ)
  | t, [] => some ([], t)
  | t, piece :: rest =>
    (dir.write t piece).bind fun w => (writeAll w.2 rest).map fun ws => (w.1 ++ ws.1, ws.2)

end Direction

/-! ### A relay -/

/-- Where a relay waits. -/
inductive Stage where
  /-- For something to read. -/
  | waiting
  /-- In the gate, with the first of these pieces; whether to go on behind them. -/
  | passing (pieces : List Bytes) (fine : Bool)
  /-- In `gate.flush`. -/
  | flushing
  | finished
  deriving DecidableEq

/-- With these pieces to pass on. -/
def Stage.next (pieces : List Bytes) (fine : Bool) : Stage :=
  if pieces ≠ [] then .passing pieces fine else if fine then .waiting else .flushing

end Relay

/-- A relay. -/
structure Relay (σ τ : Type) where
  gate : Quota.Gate
  input : σ
  output : τ
  stage : Relay.Stage
  /-- What has been read; no step reads it. -/
  received : List Bytes
  /-- The pieces that have been written; no step reads it. -/
  passed : List Bytes
  /-- What has been written to the other side. -/
  written : Bytes

namespace Relay

open Quota (Gate GateClass Reading)

/-- What happens to a relay. -/
inductive RelayEvent where
  /-- It reads data. -/
  | data (d : Bytes)
  /-- The other side is at its end, or something that the relay awaits raises. -/
  | stop
  /-- `gate.add` returns. -/
  | pass (r : Reading)
  /-- `gate.flush` returns. -/
  | flush (r : Reading)
  /-- The task is cancelled, with the gate in `check_and_use` or not. -/
  | cancel (inCheck : Bool)

variable {σ τ : Type}

/-- The relay when its task is cancelled; a gate in `check_and_use` has nothing pending any more. -/
def cancel (inCheck : Bool) (r : Relay σ τ) : Relay σ τ where
  __ := r
  gate := if inCheck then r.gate.settled r.gate.ok else r.gate
  stage :=
    match r.stage with
    | .flushing => .finished
    | .finished => .finished
    | _ => .flushing

/-- A relay that starts. -/
def start (cls : GateClass) (uuid : String) (monotonic : ℚ) (s : σ) (t : τ) : Relay σ τ where
  gate := .init cls uuid monotonic
  input := s
  output := t
  stage := .waiting
  received := []
  passed := []
  written := []

/-- A turn of the relay. -/
def next (dir : Direction σ τ) (r : Relay σ τ) (a : Accounts) :
    RelayEvent → Option (Relay σ τ × Accounts)
  | .data d =>
    if r.stage = .waiting ∧ d ≠ [] then
      let (pieces, s) := dir.read r.input d
      some
        ({ r with
          input := s.getD r.input
          stage := .next (pieces.filter (· ≠ [])) s.isSome
          received := r.received ++ [d] }, a)
    else none
  | .stop =>
    match r.stage with
    | .waiting => some ({ r with stage := .flushing }, a)
    | .passing _ _ => some ({ r with stage := .flushing }, a)
    | _ => none
  | .pass reading =>
    match r.stage with
    | .passing (piece :: pieces) fine =>
      let (ok, gate, a) := r.gate.add piece.length reading a
      if ok then
        match dir.write r.output piece with
        | none => some ({ r with gate, stage := .flushing }, a)
        | some (out, t) =>
          some
            ({ r with
              gate
              output := t
              stage := .next pieces fine
              passed := r.passed ++ [piece]
              written := r.written ++ out }, a)
      else some ({ r with gate, stage := .flushing }, a)
    | _ => none
  | .flush reading =>
    if r.stage = .flushing then
      let (gate, a) := r.gate.flush reading a
      some ({ r with gate, stage := .finished }, a)
    else none
  | .cancel inCheck => if r.stage = .finished then none else some (r.cancel inCheck, a)

/-- A relay, and changes of the links by others. -/
def relayMachine (dir : Direction σ τ) : Machine (Relay σ τ × Accounts) (RelayEvent ⊕ Accounts) where
  step s
    | .inl e => s.1.next dir s.2 e
    | .inr accounts => some (s.1, accounts)

/-! ### What is passed on -/

/-- What has been written is what has been read, up to some piece; up to the last one while the relay
waits for more. -/
structure Faithful (dir : Direction σ τ) (s : σ) (t : τ) (r : Relay σ τ) : Prop where
  read : ∃ rest, (dir.readAll s r.received).1 = r.passed ++ rest ∧
    (r.stage = .waiting → rest = [])
  written : dir.writeAll t r.passed = some (r.written, r.output)

namespace Direction

variable {dir : Direction σ τ}

/-- One more read. -/
theorem readAll_append {s s' : σ} {ds : List Bytes} (h : (dir.readAll s ds).2 = some s') (d : Bytes) :
    dir.readAll s (ds ++ [d]) =
      ((dir.readAll s ds).1 ++ (dir.read s' d).1.filter (· ≠ []), (dir.read s' d).2) := by
  induction ds generalizing s with
  | nil =>
    obtain rfl : s = s' := Option.some.inj h
    cases hread : dir.read s d with
    | mk pieces next => cases next <;> simp [readAll, hread]
  | cons d' ds ih =>
    rw [readAll] at h
    rw [List.cons_append, readAll, readAll]
    cases hread : dir.read s d' with
    | mk pieces next =>
      rw [hread] at h
      cases next with
      | none => cases h
      | some s'' =>
        simp only [ih h, List.append_assoc]

/-- No piece is empty. -/
theorem readAll_ne {s : σ} {ds : List Bytes} {p : Bytes} (hp : p ∈ (dir.readAll s ds).1) :
    p ≠ [] := by
  induction ds generalizing s with
  | nil => cases hp
  | cons d ds ih =>
    rw [readAll] at hp
    split at hp
    · simpa using (List.mem_filter.1 hp).2
    · rcases List.mem_append.1 hp with hp | hp
      · simpa using (List.mem_filter.1 hp).2
      · exact ih hp

/-- One more piece. -/
theorem writeAll_append {t t' t'' : τ} {ps : List Bytes} {p w out : Bytes}
    (h : dir.writeAll t ps = some (w, t')) (hp : dir.write t' p = some (out, t'')) :
    dir.writeAll t (ps ++ [p]) = some (w ++ out, t'') := by
  induction ps generalizing t w with
  | nil =>
    cases h
    simp [writeAll, hp]
  | cons p' ps ih =>
    obtain ⟨⟨out', t₁⟩, hwrite, h⟩ := Option.bind_eq_some_iff.1 h
    obtain ⟨⟨w', t₂⟩, hrest, h⟩ := Option.map_eq_some_iff.1 h
    cases h
    rw [List.cons_append, writeAll, hwrite, Option.bind_some, ih hrest, Option.map_some,
      List.append_assoc]

/-- What is read without a format is passed on as it comes. -/
theorem readAll_plain {dir : Direction Unit τ} (hdir : dir.read = readPlain) (ds : List Bytes) :
    (dir.readAll () ds).1 = ds.filter (· ≠ []) := by
  induction ds with
  | nil => rfl
  | cons d ds ih =>
    rw [readAll, hdir, List.filter_cons]
    change [d].filter _ ++ (dir.readAll () ds).1 = _
    rw [ih]
    by_cases hd : d = [] <;> simp [hd]

/-- What is written without a format is written as it comes. -/
theorem writeAll_plain {dir : Direction σ Unit} (hdir : dir.write = writePlain) (ps : List Bytes) :
    dir.writeAll () ps = some (ps.flatten, ()) := by
  induction ps with
  | nil => rfl
  | cons p ps ih =>
    rw [writeAll, hdir]
    change (dir.writeAll () ps).map _ = _
    rw [ih]
    rfl

end Direction

/-- What is left of the pieces that were read, as far as the stage knows. -/
def Stage.Left : Stage → List Bytes → Prop
  | .waiting, rest => rest = []
  | .passing pieces _, rest => rest = pieces
  | .flushing, _ => True
  | .finished, _ => True

/-- The relay will read again. -/
def Stage.Fine : Stage → Prop
  | .waiting => True
  | .passing _ fine => fine = true
  | .flushing => False
  | .finished => False

/-- What every turn keeps. -/
structure Kept (dir : Direction σ τ) (s : σ) (t : τ) (r : Relay σ τ) : Prop where
  read : ∃ rest, (dir.readAll s r.received).1 = r.passed ++ rest ∧ r.stage.Left rest
  input : r.stage.Fine → (dir.readAll s r.received).2 = some r.input
  written : dir.writeAll t r.passed = some (r.written, r.output)

section Kept

variable {dir : Direction σ τ} {s : σ} {t : τ} {r : Relay σ τ}

theorem Stage.left_next (pieces : List Bytes) (fine : Bool) : (Stage.next pieces fine).Left pieces := by
  unfold Stage.next
  split_ifs with hpieces hfine
  · rfl
  · exact not_not.1 hpieces
  · trivial

theorem Stage.fine_of_next {pieces : List Bytes} {fine : Bool} (h : (Stage.next pieces fine).Fine) :
    fine = true := by
  unfold Stage.next at h
  split_ifs at h with hpieces hfine
  · exact h
  · exact hfine
  · exact h.elim

theorem kept_start (cls : GateClass) (uuid : String) (monotonic : ℚ) :
    Kept dir s t (start cls uuid monotonic s t) where
  read := ⟨[], rfl, rfl⟩
  input _ := rfl
  written := rfl

/-- A turn of a relay, by what it does. -/
inductive RelayTurn (dir : Direction σ τ) (r : Relay σ τ) : RelayEvent → Relay σ τ → Prop
  | reads {d : Bytes} (hstage : r.stage = .waiting) :
    RelayTurn dir r (.data d)
      { r with
        input := (dir.read r.input d).2.getD r.input
        stage := .next ((dir.read r.input d).1.filter (· ≠ [])) (dir.read r.input d).2.isSome
        received := r.received ++ [d] }
  | passes {reading : Reading} {piece : Bytes} {pieces : List Bytes} {fine : Bool} {out : Bytes}
    {output : τ} (gate : Gate) (hstage : r.stage = .passing (piece :: pieces) fine)
    (hwrite : dir.write r.output piece = some (out, output)) :
    RelayTurn dir r (.pass reading)
      { r with
        gate, output
        stage := .next pieces fine
        passed := r.passed ++ [piece]
        written := r.written ++ out }
  -- the gate refuses, a write fails, the end of the input, or the task is cancelled
  | leaves {e : RelayEvent} {r' : Relay σ τ} (hreceived : r'.received = r.received)
    (hpassed : r'.passed = r.passed) (hwritten : r'.written = r.written)
    (houtput : r'.output = r.output) (hstage : r'.stage = .flushing ∨ r'.stage = .finished) :
    RelayTurn dir r e r'

theorem cancel_turn {e : RelayEvent} (inCheck : Bool) : RelayTurn dir r e (r.cancel inCheck) := by
  refine .leaves rfl rfl rfl rfl ?_
  unfold Relay.cancel
  cases r.stage <;> simp

theorem turn_of_next {a a' : Accounts} {e : RelayEvent} {r' : Relay σ τ}
    (hstep : r.next dir a e = some (r', a')) : RelayTurn dir r e r' := by
  cases e with
  | data d =>
    simp only [Relay.next] at hstep
    split_ifs at hstep with hd
    cases hstep
    exact .reads hd.1
  | stop =>
    simp only [Relay.next] at hstep
    split at hstep
    · cases hstep
      exact .leaves rfl rfl rfl rfl (.inl rfl)
    · cases hstep
      exact .leaves rfl rfl rfl rfl (.inl rfl)
    · cases hstep
  | pass reading =>
    simp only [Relay.next] at hstep
    split at hstep
    · rename_i piece pieces fine hstage
      split_ifs at hstep
      · split at hstep
        · cases hstep
          exact .leaves rfl rfl rfl rfl (.inl rfl)
        · rename_i out output hwrite
          cases hstep
          exact .passes _ hstage hwrite
      · cases hstep
        exact .leaves rfl rfl rfl rfl (.inl rfl)
    · cases hstep
  | flush reading =>
    simp only [Relay.next] at hstep
    split_ifs at hstep
    cases hstep
    exact .leaves rfl rfl rfl rfl (.inr rfl)
  | cancel inCheck =>
    simp only [Relay.next] at hstep
    split_ifs at hstep
    cases hstep
    exact cancel_turn inCheck

theorem passed_next {a a' : Accounts} {e : RelayEvent} {r' : Relay σ τ}
    (hstep : r.next dir a e = some (r', a')) : r.passed <+: r'.passed := by
  cases turn_of_next hstep with
  | reads hstage => exact List.prefix_rfl
  | passes gate hstage hwrite => exact List.prefix_append _ _
  | leaves hreceived hpassed => exact hpassed ▸ List.prefix_rfl

/-- Every turn keeps it. -/
theorem Kept.turn (h : Kept dir s t r) {e : RelayEvent} {r' : Relay σ τ}
    (hturn : RelayTurn dir r e r') : Kept dir s t r' := by
  cases hturn with
  | @reads d hstage =>
    obtain ⟨rest, hread, hleft⟩ := h.read
    have hfine : r.stage.Fine := by rw [hstage]; trivial
    have hall := dir.readAll_append (h.input hfine) d
    -- a relay that reads has passed on all it had
    rw [hstage] at hleft
    cases hleft
    rw [List.append_nil] at hread
    refine ⟨⟨_, by rw [hall, hread], Stage.left_next _ _⟩, fun hnext => ?_, h.written⟩
    obtain ⟨s', hs'⟩ := Option.isSome_iff_exists.1 (Stage.fine_of_next hnext)
    rw [hall, hs']
    rfl
  | passes gate hstage hwrite =>
    obtain ⟨rest, hread, hleft⟩ := h.read
    rw [hstage] at hleft
    cases hleft
    refine ⟨⟨_, by rw [hread, List.append_assoc]; rfl, Stage.left_next _ _⟩,
      fun hnext => h.input ?_, dir.writeAll_append h.written hwrite⟩
    rw [hstage]
    exact Stage.fine_of_next hnext
  | leaves hreceived hpassed hwritten houtput hstage =>
    obtain ⟨rest, hread, -⟩ := h.read
    refine ⟨⟨rest, by rw [hreceived, hpassed, hread], ?_⟩, fun hfine => ?_, ?_⟩
    · rcases hstage with hstage | hstage <;> rw [hstage] <;> trivial
    · rcases hstage with hstage | hstage <;> rw [hstage] at hfine <;> exact hfine.elim
    · rw [hpassed, hwritten, houtput]
      exact h.written

theorem Kept.next (h : Kept dir s t r) {a a' : Accounts} {e : RelayEvent} {r' : Relay σ τ}
    (hstep : r.next dir a e = some (r', a')) : Kept dir s t r' :=
  h.turn (turn_of_next hstep)

theorem Kept.cancel (h : Kept dir s t r) (inCheck : Bool) : Kept dir s t (r.cancel inCheck) :=
  h.turn (e := .cancel inCheck) (cancel_turn inCheck)

theorem Kept.faithful (h : Kept dir s t r) : Faithful dir s t r := by
  obtain ⟨rest, hread, hleft⟩ := h.read
  refine ⟨⟨rest, hread, fun hwaiting => ?_⟩, h.written⟩
  rw [hwaiting] at hleft
  exact hleft

/-- **What a relay passes on.**  Whatever the gate answers, whatever others do to the links, and
wherever the task is cancelled: what a relay has written are the pieces of what it has read, in order
and each of them once, up to some piece, and up to the last one while it waits for more. -/
theorem kept_of_run {cls : GateClass} {uuid : String} {monotonic : ℚ} {a a' : Accounts}
    {es : List (RelayEvent ⊕ Accounts)}
    (h : (relayMachine dir).run (start cls uuid monotonic s t, a) es = some (r, a')) :
    Kept dir s t r := by
  have hstep : ∀ (u : Relay σ τ × Accounts) (e : RelayEvent ⊕ Accounts) (v : Relay σ τ × Accounts),
      Kept dir s t u.1 → (relayMachine dir).step u e = some v → Kept dir s t v.1 := by
    intro u e v hu hv
    cases e with
    | inl e => exact hu.next hv
    | inr accounts =>
      cases hv
      exact hu
  exact Machine.run_invariant (I := fun u => Kept dir s t u.1) hstep h (kept_start cls uuid monotonic)

end Kept

end Relay

end RvgGateway
