import RvgGateway.Lib.Encode
import RvgGateway.Lib.Machine
import RvgGateway.Vmess.Body

/-!
# The WebSocket adapter of VMess

`_WsStream` of `protocol/vmess/websocket.py` turns WebSocket messages into the two kinds of reads
that the VMess code makes: `read_exact` for the header, `fill` for the body.  An empty result of
`fill` means the end of the connection to `BodyReader._need`.

The messages are a list with the disconnect behind it.  `ws.receive()` may not be called again after
the disconnect; it raises then.

* `WsRun.Conserved` : what was returned, what is buffered and what is still to come are the payloads.
* `Honest` : a call reports the end only when the connection is closed and nothing is left.
* `Clear` : no empty message comes before the bytes that the call needs.
* `faithful_iff` : **the adapter is a faithful stream exactly when every call is clear.**
-/

namespace RvgGateway

namespace Vmess

/-- A message of `ws.receive()` that is not the disconnect. -/
structure WsMessage where
  bytes : Option Bytes
  text : Option String
  deriving DecidableEq, Repr

/-- `msg.get("bytes") or (msg.get("text") or "").encode()`. -/
def WsMessage.data (m : WsMessage) : Bytes :=
  match m.bytes with
  | some (b :: bs) => b :: bs
  | _ => Str.encode (m.text.getD "")

/-- The exceptions of the adapter. -/
inductive WsExc where
  /-- `TransportClosed`. -/
  | transportClosed
  /-- `RuntimeError`: `receive` after the disconnect. -/
  | runtimeError
  deriving DecidableEq, Repr

/-- `_WsStream`. -/
structure WsStream where
  /-- `_buf`. -/
  buf : Bytes
  /-- The messages that `_ws` still delivers before the disconnect. -/
  messages : List WsMessage
  /-- The disconnect has been delivered. -/
  closed : Bool
  deriving DecidableEq, Repr

namespace WsStream

/-- `_more`. -/
def more (s : WsStream) : Except WsExc Bool × WsStream :=
  match s.messages with
  | [] => if s.closed then (.error .runtimeError, s) else (.ok false, { s with closed := true })
  | m :: messages =>
    if m.data = [] then (.ok true, { s with messages })
    else (.ok true, { s with buf := s.buf ++ m.data, messages })

theorem messages_lt_of_more {s s' : WsStream} (h : s.more = (.ok true, s')) :
    s'.messages.length < s.messages.length := by
  obtain ⟨buf, messages, closed⟩ := s
  cases messages with
  | nil => cases closed <;> cases h
  | cons m messages =>
    simp only [more] at h
    split_ifs at h <;> cases h <;> exact Nat.lt_succ_self _

/-- `read_exact`. -/
def readExact (n : ℕ) (s : WsStream) : Except WsExc Bytes × WsStream :=
  if n ≤ s.buf.length then (.ok (s.buf.take n), { s with buf := s.buf.drop n })
  else
    match _ : s.more with
    | (.error e, s) => (.error e, s)
    | (.ok false, s) => (.error .transportClosed, s)
    | (.ok true, s') => readExact n s'
termination_by s.messages.length
decreasing_by exact messages_lt_of_more ‹_›

/-- `fill`; the size that is asked for is not looked at. -/
def fill (s : WsStream) : Except WsExc Bytes × WsStream :=
  if s.buf = [] then
    match s.more with
    | (.error e, s) => (.error e, s)
    | (.ok false, s) => (.ok [], s)
    | (.ok true, s) => (.ok s.buf, { s with buf := [] })
  else (.ok s.buf, { s with buf := [] })

/-- What a `fill` that returns something takes away. -/
theorem size_lt_of_fill {s s' : WsStream} {chunk : Bytes} (h : s.fill = (.ok chunk, s'))
    (hne : chunk ≠ []) :
    s'.messages.length + s'.buf.length < s.messages.length + s.buf.length := by
  obtain ⟨buf, messages, closed⟩ := s
  unfold fill at h
  split_ifs at h with hbuf
  · simp only at hbuf
    subst hbuf
    cases messages with
    | nil =>
      cases closed <;> cases h
      exact absurd rfl hne
    | cons m messages =>
      simp only [more] at h
      split_ifs at h <;> cases h <;> simp
  · cases h
    simpa [List.length_pos_iff] using hbuf

/-- `BodyReader._need` of a reader that has gathered `buf`, over the `fill` of the adapter. -/
def need (n : ℕ) (buf : Bytes) (s : WsStream) : Except WsExc Bool × Bytes × WsStream :=
  if n ≤ buf.length then (.ok true, buf, s)
  else
    match _ : s.fill with
    | (.error e, s) => (.error e, buf, s)
    | (.ok chunk, s') =>
      if chunk = [] then (.ok false, buf, s')
      else need n (buf ++ chunk) s'
termination_by s.messages.length + s.buf.length
decreasing_by exact size_lt_of_fill ‹_› ‹_›

/-! ### What the calls do -/

/-- What was sent and not returned yet. -/
def pending (s : WsStream) : Bytes := s.buf ++ (s.messages.map WsMessage.data).flatten

/-- No message comes behind the disconnect. -/
def Sound (s : WsStream) : Prop := s.closed = true → s.messages = []

/-- The disconnect has been received, and nothing is left. -/
def Exhausted (s : WsStream) : Prop := s.closed = true ∧ s.buf = [] ∧ s.messages = []

/-- Every empty message that is still to come has `missing` bytes before it. -/
def Clear (missing : ℕ) (s : WsStream) : Prop :=
  ∀ pre m post, s.messages = pre ++ m :: post → m.data = [] →
    missing ≤ s.buf.length + (pre.map WsMessage.data).flatten.length

/-- A fresh adapter. -/
def start (messages : List WsMessage) : WsStream := ⟨[], messages, false⟩

theorem more_spec (s : WsStream) :
    s.more.2.pending = s.pending ∧ (s.Sound → s.more.2.Sound) := by
  obtain ⟨buf, messages, closed⟩ := s
  cases messages with
  | nil => cases closed <;> exact ⟨rfl, fun _ _ => rfl⟩
  | cons m messages =>
    simp only [more]
    split_ifs with hm
    · exact ⟨by simp [pending, hm], fun hs hc => absurd (hs hc) (by simp)⟩
    · exact ⟨by simp [pending], fun hs hc => absurd (hs hc) (by simp)⟩

theorem readExact_spec (n : ℕ) (s : WsStream) :
    (s.readExact n).1.toOption.getD [] ++ (s.readExact n).2.pending = s.pending ∧
      (s.Sound → (s.readExact n).2.Sound) := by
  induction s using readExact.induct n with
  | case1 s hn =>
    rw [readExact, if_pos hn]
    refine ⟨?_, id⟩
    change s.buf.take n ++ (s.buf.drop n ++ (s.messages.map WsMessage.data).flatten) = s.pending
    rw [← List.append_assoc, List.take_append_drop]
    rfl
  | case2 s hn e s' hmore =>
    have hspec := more_spec s
    rw [readExact, if_neg hn, hmore]
    rw [hmore] at hspec
    exact hspec
  | case3 s hn s' hmore =>
    have hspec := more_spec s
    rw [readExact, if_neg hn, hmore]
    rw [hmore] at hspec
    exact hspec
  | case4 s hn s' hmore ih =>
    have hspec := more_spec s
    rw [hmore] at hspec
    rw [readExact, if_neg hn, hmore]
    exact ⟨ih.1.trans hspec.1, fun hs => ih.2 (hspec.2 hs)⟩

/-- The cases of `fill`. -/
theorem fill_cases (s : WsStream) :
    (s.buf ≠ [] ∧ s.fill = (.ok s.buf, { s with buf := [] })) ∨
    (s.messages = [] ∧ s.closed = true ∧ s.fill = (.error .runtimeError, s)) ∨
    (s.buf = [] ∧ s.messages = [] ∧ s.fill = (.ok [], { s with closed := true })) ∨
    ∃ m messages, s.buf = [] ∧ s.messages = m :: messages ∧
      s.fill = (.ok m.data, { s with buf := [], messages }) := by
  obtain ⟨buf, messages, closed⟩ := s
  unfold fill
  by_cases hbuf : buf = []
  · subst hbuf
    rw [if_pos rfl]
    cases messages with
    | nil =>
      cases closed
      · exact .inr (.inr (.inl ⟨rfl, rfl, rfl⟩))
      · exact .inr (.inl ⟨rfl, rfl, rfl⟩)
    | cons m messages =>
      refine .inr (.inr (.inr ⟨m, messages, rfl, rfl, ?_⟩))
      simp only [more]
      split_ifs with hm
      · simp [hm]
      · rfl
  · exact .inl ⟨hbuf, if_neg hbuf⟩

theorem fill_spec (s : WsStream) :
    s.fill.1.toOption.getD [] ++ s.fill.2.pending = s.pending ∧ (s.Sound → s.fill.2.Sound) := by
  rcases fill_cases s with ⟨-, h⟩ | ⟨hm, -, h⟩ | ⟨hb, hm, h⟩ | ⟨m, messages, hb, hm, h⟩
  · rw [h]
    exact ⟨rfl, id⟩
  · rw [h]
    exact ⟨rfl, id⟩
  · rw [h]
    exact ⟨rfl, fun _ _ => hm⟩
  · rw [h]
    exact ⟨by simp [pending, hb, hm, Except.toOption],
      fun hs hc => absurd (hm.symm.trans (hs hc)) (by simp)⟩

theorem need_spec (n : ℕ) (buf : Bytes) (s : WsStream) :
    (∃ drawn, (s.need n buf).2.1 = buf ++ drawn ∧
      drawn ++ (s.need n buf).2.2.pending = s.pending) ∧
    (s.Sound → (s.need n buf).2.2.Sound) := by
  induction buf, s using need.induct n with
  | case1 buf s hn =>
    rw [need, if_pos hn]
    exact ⟨⟨[], (List.append_nil _).symm, rfl⟩, id⟩
  | case2 buf s hn e s' hfill =>
    have hspec := fill_spec s
    rw [hfill] at hspec
    rw [need, if_neg hn, hfill]
    exact ⟨⟨[], (List.append_nil _).symm, hspec.1⟩, hspec.2⟩
  | case3 buf s hn s' hfill =>
    have hspec := fill_spec s
    rw [hfill] at hspec
    rw [need, if_neg hn, hfill]
    exact ⟨⟨[], (List.append_nil _).symm, hspec.1⟩, hspec.2⟩
  | case4 buf s hn chunk s' hfill hne ih =>
    have hspec := fill_spec s
    rw [hfill] at hspec
    obtain ⟨⟨drawn, hdrawn, hpending⟩, hsound⟩ := ih
    rw [need, if_neg hn, hfill]
    simp only [if_neg hne]
    refine ⟨⟨chunk ++ drawn, by rw [hdrawn, List.append_assoc], ?_⟩,
      fun hs => hsound (hspec.2 hs)⟩
    rw [List.append_assoc, hpending]
    exact hspec.1

/-! ### When the end is reported -/

theorem clear_of_messages {s : WsStream} (h : s.messages = []) (missing : ℕ) : s.Clear missing := by
  intro pre m post hsplit
  rw [h] at hsplit
  exact absurd hsplit.symm (by simp)

/-- Taking an empty message is what makes an open connection look closed. -/
theorem not_exhausted_of_message {s : WsStream} (hs : s.Sound) {m : WsMessage}
    {messages : List WsMessage} (hm : s.messages = m :: messages) (s' : WsStream)
    (hclosed : s'.closed = s.closed) : ¬ s'.Exhausted := by
  rintro ⟨hc, -⟩
  rw [hclosed] at hc
  rw [hs hc] at hm
  cases hm

theorem not_clear_of_message {s : WsStream} {m : WsMessage} {messages : List WsMessage}
    (hb : s.buf = []) (hm : s.messages = m :: messages) (hdata : m.data = []) {missing : ℕ}
    (hpos : 0 < missing) : ¬ s.Clear missing := by
  intro h
  have := h [] m messages hm hdata
  simp [hb] at this
  omega

/-- A `fill` that returns something leaves the rest as clear as it was. -/
theorem clear_fill {s s' : WsStream} {chunk : Bytes} (h : s.fill = (.ok chunk, s'))
    (hne : chunk ≠ []) (missing : ℕ) :
    s.Clear missing ↔ s'.Clear (missing - chunk.length) := by
  rcases fill_cases s with ⟨-, hf⟩ | ⟨-, -, hf⟩ | ⟨-, -, hf⟩ | ⟨m, messages, hb, hm, hf⟩
  · cases h.symm.trans hf
    refine forall₄_congr fun pre m post hsplit => forall_congr' fun hdata => ?_
    simp only [List.length_nil]
    omega
  · cases h.symm.trans hf
  · cases h.symm.trans hf
    exact absurd rfl hne
  · cases h.symm.trans hf
    constructor
    · intro hc pre m' post hsplit hdata
      have := hc (m :: pre) m' post (by rw [hm, List.cons_append]; exact congrArg _ hsplit) hdata
      simp [hb] at this ⊢
      omega
    · intro hc pre m' post hsplit hdata
      rw [hm] at hsplit
      cases pre with
      | nil =>
        obtain ⟨rfl, rfl⟩ := List.cons.inj hsplit
        exact absurd hdata hne
      | cons m₀ pre =>
        obtain ⟨rfl, hrest⟩ := List.cons.inj hsplit
        have := hc pre m' post hrest hdata
        simp [hb] at this ⊢
        omega

theorem fill_honest_iff {s : WsStream} (hs : s.Sound) :
    (s.fill.1 = .ok [] → s.fill.2.Exhausted) ↔ s.Clear 1 := by
  rcases fill_cases s with ⟨hb, h⟩ | ⟨hm, -, h⟩ | ⟨hb, hm, h⟩ | ⟨m, messages, hb, hm, h⟩
  · rw [h]
    have hpos := List.length_pos_of_ne_nil hb
    exact ⟨fun _ pre m post _ _ => by omega, fun _ hnil => absurd (Except.ok.inj hnil) hb⟩
  · rw [h]
    exact ⟨fun _ => clear_of_messages hm 1, fun _ hnil => by cases hnil⟩
  · rw [h]
    exact ⟨fun _ => clear_of_messages hm 1, fun _ _ => ⟨rfl, hb, hm⟩⟩
  · rw [h]
    by_cases hdata : m.data = []
    · rw [hdata]
      refine ⟨fun hall => absurd (hall rfl) (not_exhausted_of_message hs hm _ rfl), fun hc => ?_⟩
      exact absurd hc (not_clear_of_message hb hm hdata Nat.one_pos)
    · rw [clear_fill h hdata, Nat.sub_eq_zero_of_le (List.length_pos_of_ne_nil hdata)]
      exact ⟨fun _ _ _ _ _ _ => Nat.zero_le _, fun _ hnil => absurd (Except.ok.inj hnil) hdata⟩

/-- **`_need`** tells an open connection from a closed one exactly when the bytes it misses come
before the first empty message. -/
theorem need_honest_iff (n : ℕ) (buf : Bytes) {s : WsStream} (hs : s.Sound) :
    ((s.need n buf).1 = .ok false → (s.need n buf).2.2.Exhausted) ↔ s.Clear (n - buf.length) := by
  induction buf, s using need.induct n with
  | case1 buf s hn =>
    rw [need, if_pos hn, Nat.sub_eq_zero_of_le hn]
    exact ⟨fun _ _ _ _ _ _ => Nat.zero_le _, fun _ h => by cases h⟩
  | case2 buf s hn e s' hfill =>
    rw [need, if_neg hn, hfill]
    refine ⟨fun _ => ?_, fun _ h => by cases h⟩
    rcases fill_cases s with ⟨-, h⟩ | ⟨hm, -, -⟩ | ⟨-, hm, -⟩ | ⟨m, messages, -, -, h⟩
    · cases hfill.symm.trans h
    · exact clear_of_messages hm _
    · exact clear_of_messages hm _
    · cases hfill.symm.trans h
  | case3 buf s hn s' hfill =>
    rw [need, if_neg hn, hfill]
    simp only [if_true]
    rcases fill_cases s with ⟨hb, h⟩ | ⟨-, -, h⟩ | ⟨hb, hm, h⟩ | ⟨m, messages, hb, hm, h⟩
    · exact absurd (Except.ok.inj (Prod.mk.inj (h.symm.trans hfill)).1) hb
    · cases hfill.symm.trans h
    · cases hfill.symm.trans h
      exact ⟨fun _ => clear_of_messages hm _, fun _ _ => ⟨rfl, hb, hm⟩⟩
    · obtain ⟨hdata, hs'⟩ := Prod.mk.inj (h.symm.trans hfill)
      refine ⟨fun hall => absurd (hall trivial) (not_exhausted_of_message hs hm _ ?_),
        fun hc => ?_⟩
      · rw [← hs']
      · exact absurd hc (not_clear_of_message hb hm (Except.ok.inj hdata) (by omega))
  | case4 buf s hn chunk s' hfill hne ih =>
    have hs' := (fill_spec s).2 hs
    rw [hfill] at hs'
    rw [need, if_neg hn, hfill, clear_fill hfill hne, Nat.sub_sub, ← List.length_append]
    simp only [if_neg hne]
    exact ih hs'

/-- The results of `fill`, call by call, until the disconnect. -/
def fills (s : WsStream) : List Bytes :=
  (if s.buf = [] then [] else [s.buf]) ++ s.messages.map WsMessage.data

/-- A `BodyReader` on the adapter is one whose `fill` returns the messages. -/
theorem need_eq_needLoop (n : ℕ) (buf : Bytes) {s : WsStream} (hs : s.closed = false) :
    (s.need n buf).1 = .ok (BodyReader.needLoop n buf s.fills).1 ∧
      (s.need n buf).2.1 = (BodyReader.needLoop n buf s.fills).2.1 := by
  induction buf, s using need.induct n with
  | case1 buf s hn =>
    rw [need, if_pos hn]
    cases s.fills with
    | nil => simp [BodyReader.needLoop, hn]
    | cons chunk fill => simp [BodyReader.needLoop, hn]
  | case2 buf s hn e s' hfill =>
    rcases fill_cases s with ⟨-, h⟩ | ⟨-, hc, -⟩ | ⟨-, -, h⟩ | ⟨m, messages, -, -, h⟩
    · cases hfill.symm.trans h
    · rw [hc] at hs
      cases hs
    · cases hfill.symm.trans h
    · cases hfill.symm.trans h
  | case3 buf s hn s' hfill =>
    rw [need, if_neg hn, hfill]
    rcases fill_cases s with ⟨hb, h⟩ | ⟨-, -, h⟩ | ⟨hb, hm, h⟩ | ⟨m, messages, hb, hm, h⟩
    · exact absurd (Except.ok.inj (Prod.mk.inj (h.symm.trans hfill)).1) hb
    · cases hfill.symm.trans h
    · simp [fills, hb, hm, BodyReader.needLoop, hn]
    · have hdata : m.data = [] := Except.ok.inj (Prod.mk.inj (h.symm.trans hfill)).1
      simp [fills, hb, hm, BodyReader.needLoop, hn, hdata]
  | case4 buf s hn chunk s' hfill hne ih =>
    rw [need, if_neg hn, hfill]
    simp only [if_neg hne]
    obtain ⟨hs', hfills⟩ : s'.closed = false ∧ s.fills = chunk :: s'.fills := by
      rcases fill_cases s with ⟨hb, h⟩ | ⟨-, -, h⟩ | ⟨-, -, h⟩ | ⟨m, messages, hb, hm, h⟩
      · cases hfill.symm.trans h
        exact ⟨hs, by simp [fills, hb]⟩
      · cases hfill.symm.trans h
      · cases hfill.symm.trans h
        exact absurd rfl hne
      · cases hfill.symm.trans h
        exact ⟨hs, by simp [fills, hb, hm]⟩
    rw [hfills, BodyReader.needLoop, if_neg hn, if_neg hne]
    exact ih hs'

end WsStream

/-! ### Runs -/

/-- A call on an adapter. -/
inductive WsCall where
  /-- `read_exact(n)`. -/
  | readExact (n : ℕ)
  /-- `fill(n)`. -/
  | fill (n : ℕ)
  /-- `_need(n)` of a `BodyReader` that has gathered `buf`: calls of `fill`. -/
  | need (n : ℕ) (buf : Bytes)
  deriving DecidableEq, Repr

/-- An adapter with what its calls have returned so far. -/
structure WsRun where
  stream : WsStream
  returned : Bytes
  deriving DecidableEq, Repr

/-- Calls on one adapter, one after the other.  A call that raises returns nothing. -/
def wsMachine : Machine WsRun WsCall where
  step s
    | .readExact n => some ⟨(s.stream.readExact n).2,
        s.returned ++ (s.stream.readExact n).1.toOption.getD []⟩
    | .fill _ => some ⟨s.stream.fill.2, s.returned ++ s.stream.fill.1.toOption.getD []⟩
    | .need n buf => some ⟨(s.stream.need n buf).2.2,
        s.returned ++ (s.stream.need n buf).2.1.drop buf.length⟩

namespace WsRun

/-- A fresh adapter on a connection that sends these messages and disconnects. -/
def start (messages : List WsMessage) : WsRun := ⟨.start messages, []⟩

/-- The end is reported only when there is nothing more to come. -/
def Honest (s : WsRun) : WsCall → Prop
  | .readExact _ => True
  | .fill _ => s.stream.fill.1 = .ok [] → s.stream.fill.2.Exhausted
  | .need n buf => (s.stream.need n buf).1 = .ok false → (s.stream.need n buf).2.2.Exhausted

/-- The call does not meet an empty message while it still needs bytes. -/
def Clear (s : WsRun) : WsCall → Prop
  | .readExact _ => True
  | .fill _ => s.stream.Clear 1
  | .need n buf => s.stream.Clear (n - buf.length)

/-- What was returned and what is pending are the payloads, and the adapter is sound. -/
structure Conserved (payloads : Bytes) (s : WsRun) : Prop where
  bytes : s.returned ++ s.stream.pending = payloads
  sound : s.stream.Sound

theorem Conserved.step {payloads : Bytes} {s s' : WsRun} {call : WsCall}
    (h : s.Conserved payloads) (hstep : wsMachine.step s call = some s') : s'.Conserved payloads := by
  cases call with
  | readExact n =>
    cases hstep
    obtain ⟨hbytes, hsound⟩ := s.stream.readExact_spec n
    exact ⟨by rw [List.append_assoc, hbytes, h.bytes], hsound h.sound⟩
  | fill n =>
    cases hstep
    obtain ⟨hbytes, hsound⟩ := s.stream.fill_spec
    exact ⟨by rw [List.append_assoc, hbytes, h.bytes], hsound h.sound⟩
  | need n buf =>
    cases hstep
    obtain ⟨⟨drawn, hdrawn, hbytes⟩, hsound⟩ := s.stream.need_spec n buf
    exact ⟨by rw [hdrawn, List.drop_left, List.append_assoc, hbytes, h.bytes], hsound h.sound⟩

theorem honest_iff_clear {s : WsRun} (hs : s.stream.Sound) (call : WsCall) :
    s.Honest call ↔ s.Clear call := by
  cases call with
  | readExact n => exact Iff.rfl
  | fill n => exact WsStream.fill_honest_iff hs
  | need n buf => exact WsStream.need_honest_iff n buf hs

end WsRun

/-- What an adapter owes to its callers: the bytes it returns are those of the messages, in order,
and the end is reported only at the end. -/
structure Faithful (messages : List WsMessage) (calls : List WsCall) : Prop where
  prefixed : ∀ s, wsMachine.run (.start messages) calls = some s →
    s.returned <+: (messages.map WsMessage.data).flatten
  honest : wsMachine.Along WsRun.Honest (.start messages) calls

/-- **The adapter is a faithful byte stream, exactly when** no call meets an empty message while it
still needs bytes.  The bytes themselves are always right. -/
theorem faithful_iff (messages : List WsMessage) (calls : List WsCall) :
    Faithful messages calls ↔ wsMachine.Along WsRun.Clear (.start messages) calls := by
  have hstart : (WsRun.start messages).Conserved (messages.map WsMessage.data).flatten :=
    ⟨rfl, fun h => by cases h⟩
  have halong : wsMachine.Along WsRun.Honest (.start messages) calls ↔
      wsMachine.Along WsRun.Clear (.start messages) calls :=
    Machine.along_iff (I := WsRun.Conserved (messages.map WsMessage.data).flatten)
      (fun s call s' hs _ hstep => hs.step hstep)
      (fun s call hs => WsRun.honest_iff_clear hs.sound call) hstart
  rw [← halong]
  refine ⟨fun h => h.honest, fun h => ⟨fun s hrun => ?_, h⟩⟩
  have hs := Machine.run_invariant (fun s call s' hs hstep => WsRun.Conserved.step hs hstep) hrun
    hstart
  exact ⟨_, hs.bytes⟩

/-- An empty message, and behind it the body: the first `fill` reports the end. -/
theorem empty_message_ends_body : ¬ ∀ (messages : List WsMessage) (calls : List WsCall),
    Faithful messages calls := by
  intro h
  have hhonest := (h [⟨some [], none⟩, ⟨some [1], none⟩] [.fill 1]).honest.1
  obtain ⟨hclosed, -⟩ := hhonest (by decide +kernel)
  exact absurd hclosed (by decide +kernel)

end Vmess

end RvgGateway
