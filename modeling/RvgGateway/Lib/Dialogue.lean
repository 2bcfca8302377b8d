import RvgGateway.Lib.Bytes

/-!
# Dialogues over a byte stream

A *dialogue* is a program at one end of a byte stream: it asks for exactly so many bytes, it writes
bytes, and it returns or breaks off.  The stream arrives in pieces of any size, and the dialogue
waits wherever what it asks for is not there yet.

* `Dialogue α` : dialogues that return an `α`; they form a monad.
* `Dialogue.settle` : how far a dialogue gets on the bytes that are there.
* `Dialogue.Connection.feed` : another piece arrives.
* `Dialogue.settle_bind_done`, `Dialogue.settle_readExactly_done`, `Dialogue.settle_send_done` : what
  was received and sent when a dialogue has returned.
* `Dialogue.feed_pieces` : **only the bytes count, not how they are cut into pieces.**
-/

namespace RvgGateway

/-- A program that exchanges bytes with a peer. -/
inductive Dialogue (α : Type) where
  | done (a : α)
  /-- The program breaks off. -/
  | stop
  /-- The program waits for exactly `n` bytes. -/
  | read (n : ℕ) (next : Bytes → Dialogue α)
  | write (b : Bytes) (next : Dialogue α)

namespace Dialogue

variable {α β : Type}

/-- One dialogue after the other. -/
def bind : Dialogue α → (α → Dialogue β) → Dialogue β
  | done a, f => f a
  | stop, _ => stop
  | read n next, f => read n fun b => (next b).bind f
  | write b next, f => write b (next.bind f)

instance : Monad Dialogue where
  pure := done
  bind := bind

/-- `readexactly(n)`. -/
def readExactly (n : ℕ) : Dialogue Bytes := read n done

/-- `write(b)`. -/
def send (b : Bytes) : Dialogue Unit := write b (done ())

/-- A dialogue that has got as far as it can: what it has sent, where it waits or has ended, and
the bytes that it has not taken. -/
structure Connection (α : Type) where
  sent : Bytes
  place : Dialogue α
  buf : Bytes

/-- How far a dialogue gets on the bytes that are there. -/
def settle : Dialogue α → Bytes → Connection α
  | done a, w => ⟨[], done a, w⟩
  | stop, w => ⟨[], stop, w⟩
  | read n next, w =>
    if n ≤ w.length then (next (w.take n)).settle (w.drop n) else ⟨[], read n next, w⟩
  | write b next, w =>
    let c := next.settle w
    { c with sent := b ++ c.sent }

namespace Connection

/-- A connection on which nothing has arrived. -/
def start (d : Dialogue α) : Connection α := d.settle []

/-- A piece arrives. -/
def feed (c : Connection α) (piece : Bytes) : Connection α :=
  let c' := c.place.settle (c.buf ++ piece)
  { c' with sent := c.sent ++ c'.sent }

end Connection

/-! ### Pieces -/

/-- Bytes that arrive later are taken from where the dialogue waits. -/
theorem settle_append (d : Dialogue α) (v w : Bytes) :
    d.settle (v ++ w) = (d.settle v).feed w := by
  induction d generalizing v with
  | done a => rfl
  | stop => rfl
  | read n next ih =>
    by_cases hv : n ≤ v.length
    · -- the bytes were there before
      have hvw : n ≤ (v ++ w).length := hv.trans (by rw [List.length_append]; omega)
      unfold settle
      rw [if_pos hv, if_pos hvw, List.take_append_of_le_length hv,
        List.drop_append_of_le_length hv]
      exact ih _ _
    · -- the dialogue waits for the piece
      have hwait : (read n next).settle v = ⟨[], read n next, v⟩ := if_neg hv
      rw [hwait]
      rfl
  | write b next ih =>
    unfold settle
    simp only [ih, Connection.feed, List.append_assoc]

/-- **Only the bytes count**: a dialogue whose bytes arrive in pieces gets to where it gets when
they arrive at once, and has sent the same. -/
theorem feed_pieces (d : Dialogue α) (pieces : List Bytes) :
    pieces.foldl Connection.feed (Connection.start d) = d.settle pieces.flatten := by
  have h : ∀ v, pieces.foldl Connection.feed (d.settle v) = d.settle (v ++ pieces.flatten) := by
    induction pieces with
    | nil => intro v; simp
    | cons p pieces ih =>
      intro v
      rw [List.foldl_cons, ← settle_append, ih, List.flatten_cons, List.append_assoc]
  exact h []

/-! ### Dialogues that have returned -/

section Returned

variable {s w r : Bytes} {a : α} {b : β}

@[simp] theorem settle_pure : (pure a : Dialogue α).settle w = ⟨[], done a, w⟩ := rfl

@[simp] theorem settle_send {x : Bytes} : (send x).settle w = ⟨x, done (), w⟩ := by
  simp [send, settle]

theorem settle_stop_done : (stop : Dialogue α).settle w ≠ ⟨s, done a, r⟩ :=
  fun h => by cases h

theorem settle_write_done {d : Dialogue α} {x : Bytes} :
    (write x d).settle w = ⟨s, done a, r⟩ ↔
      ∃ s', s = x ++ s' ∧ d.settle w = ⟨s', done a, r⟩ := by
  constructor
  · intro h
    unfold settle at h
    simp only [Connection.mk.injEq] at h
    exact ⟨(d.settle w).sent, h.1.symm, by rw [← h.2.1, ← h.2.2]⟩
  · rintro ⟨s', rfl, h⟩
    unfold settle
    rw [h]

theorem settle_read_done {n : ℕ} {next : Bytes → Dialogue α} :
    (read n next).settle w = ⟨s, done a, r⟩ ↔
      ∃ x v, x.length = n ∧ w = x ++ v ∧ (next x).settle v = ⟨s, done a, r⟩ := by
  constructor
  · intro h
    unfold settle at h
    split_ifs at h with hn
    · exact ⟨w.take n, w.drop n, List.length_take_of_le hn, (List.take_append_drop n w).symm, h⟩
    · simp at h
  · rintro ⟨x, v, rfl, rfl, h⟩
    unfold settle
    rw [if_pos (by simp), List.take_left, List.drop_left]
    exact h

/-- A sequence has returned: the first part has, and the second has on the rest. -/
theorem settle_bind_done {d : Dialogue α} {f : α → Dialogue β} :
    (d >>= f).settle w = ⟨s, done b, r⟩ ↔
      ∃ a s₁ s₂ v, d.settle w = ⟨s₁, done a, v⟩ ∧ (f a).settle v = ⟨s₂, done b, r⟩ ∧
        s = s₁ ++ s₂ := by
  change (d.bind f).settle w = _ ↔ _
  induction d generalizing s w with
  | done a => simp [bind, settle]
  | stop =>
    constructor
    · intro h
      exact absurd h settle_stop_done
    · rintro ⟨_, _, _, _, h, -⟩
      exact absurd h settle_stop_done
  | read n next ih =>
    rw [bind, settle_read_done]
    simp only [ih]
    constructor
    · rintro ⟨x, v, hx, hw, a, s₁, s₂, u, h₁, h₂, hs⟩
      exact ⟨a, s₁, s₂, u, settle_read_done.2 ⟨x, v, hx, hw, h₁⟩, h₂, hs⟩
    · rintro ⟨a, s₁, s₂, u, h₁, h₂, hs⟩
      obtain ⟨x, v, hx, hw, h₁⟩ := settle_read_done.1 h₁
      exact ⟨x, v, hx, hw, a, s₁, s₂, u, h₁, h₂, hs⟩
  | write x next ih =>
    rw [bind, settle_write_done]
    simp only [ih]
    constructor
    · rintro ⟨s', rfl, a, s₁, s₂, u, h₁, h₂, rfl⟩
      refine ⟨a, x ++ s₁, s₂, u, ?_, h₂, (List.append_assoc _ _ _).symm⟩
      exact settle_write_done.2 ⟨s₁, rfl, h₁⟩
    · rintro ⟨a, s₁, s₂, u, h₁, h₂, rfl⟩
      obtain ⟨s', rfl, hnext⟩ := settle_write_done.1 h₁
      exact ⟨s' ++ s₂, List.append_assoc _ _ _, a, s', s₂, u, hnext, h₂, rfl⟩

theorem settle_readExactly_done {n : ℕ} {f : Bytes → Dialogue β} :
    (readExactly n >>= f).settle w = ⟨s, done b, r⟩ ↔
      ∃ x v, x.length = n ∧ w = x ++ v ∧ (f x).settle v = ⟨s, done b, r⟩ :=
  settle_read_done

theorem settle_send_done {x : Bytes} {f : Unit → Dialogue β} :
    (send x >>= f).settle w = ⟨s, done b, r⟩ ↔
      ∃ s', s = x ++ s' ∧ (f ()).settle w = ⟨s', done b, r⟩ :=
  settle_write_done

/-- What breaks off behind a reply has not returned. -/
theorem settle_refuse_done {x : Bytes} :
    (send x >>= fun _ => (stop : Dialogue α)).settle w ≠ ⟨s, done a, r⟩ := by
  rw [ne_eq, settle_send_done]
  rintro ⟨_, -, h⟩
  exact settle_stop_done h

end Returned

end Dialogue

end RvgGateway
