import RvgGateway.Links.Link
import RvgGateway.Vmess.Client
import RvgGateway.Vmess.Supervisor
import RvgGateway.Vmess.Truncation

/-!
# The relays of a VMess tunnel

`client_to_target` and `target_to_client` of `protocol/vmess/tunnel.py`.  The first one reads the
client's body and writes its pieces to the target, the second one seals what the target sends.  Both
charge every piece before they pass it on.  An end of file from the client ends only the first one.

A call of `read` touches nothing but the reader, so it is one turn here, with all its calls of `fill`.

* `UpRelay.next`, `DownRelay.next` : the relays, from one suspension to the next.
* `read_front` : what a reader makes of the front part of a wire that has come in.
* `UpRelay.Follows` : **the target has a front part of the client's pieces**, kept by every turn.
* `DownRelay.Seals` : **the client is sent the chunks of what has been charged**, kept by every turn.
-/

namespace RvgGateway

namespace Vmess

/-- The name of an exception. -/
def Exc.name : Exc → String
  | .vmessError _ => "VMessError"
  | .vmessAuthError _ => "VMessAuthError"
  | .invalidTag => "InvalidTag"
  | .structError => "error"
  | .attributeError => "AttributeError"
  | .valueError => "ValueError"
  | .transportClosed => "TransportClosed"

/-- What a task ends with that is cancelled. -/
def cancelledError : TaskResult := .raised "CancelledError"

/-- What ends a relay from outside: something that it awaits raises. -/
def TaskResult.isFailure : TaskResult → Bool
  | .closed => true
  | .reset => true
  | .raised _ => true
  | .eof => false
  | .quota => false

/-! ### From the client to the target -/

/-- Where `client_to_target` waits. -/
inductive UpStage where
  /-- In `body_reader.read`, or in `drain`. -/
  | reading
  /-- For `LINKS_LOCK` in `check_and_use`, with a piece. -/
  | charging (data : Bytes)
  | ended (result : TaskResult)
  deriving DecidableEq

/-- `client_to_target`. -/
structure UpRelay where
  /-- `body_reader`. -/
  reader : BodyReader
  stage : UpStage
  /-- The pieces that have been written to the target. -/
  passed : List Bytes
  deriving DecidableEq

/-- What happens to `client_to_target`. -/
inductive UpEvent where
  /-- `body_reader.read` returns or raises. -/
  | read
  /-- It gets the lock. -/
  | lock (clock : Clock)
  /-- What it awaits raises. -/
  | fail (result : TaskResult)

namespace UpRelay

variable (c : Crypto) (u : UpRelay)

/-- It starts. -/
def start (reader : BodyReader) : UpRelay := ⟨reader, .reading, []⟩

/-- The result of the task, when it has ended. -/
def result : Option TaskResult :=
  match u.stage with
  | .ended result => some result
  | _ => none

/-- The task is cancelled if it has not ended. -/
def cancel : UpRelay :=
  match u.stage with
  | .ended _ => u
  | _ => { u with stage := .ended cancelledError }

/-- A turn; the number is what has been charged. -/
def next (uuid : String) (a : Accounts) : UpEvent → Option (UpRelay × Accounts × ℕ)
  | .read =>
    match u.stage with
    | .reading =>
      match u.reader.read c with
      | (.ok [], reader) => some ({ u with reader, stage := .ended .eof }, a, 0)
      | (.ok data, reader) => some ({ u with reader, stage := .charging data }, a, 0)
      | (.error .transportClosed, reader) => some ({ u with reader, stage := .ended .closed }, a, 0)
      | (.error e, reader) => some ({ u with reader, stage := .ended (.raised e.name) }, a, 0)
    | _ => none
  | .lock clock =>
    match u.stage with
    | .charging data =>
      match a.checkAndUse clock uuid data.length with
      | (true, a) =>
        some ({ u with stage := .reading, passed := u.passed ++ [data] }, a, data.length)
      | (false, a) => some ({ u with stage := .ended .quota }, a, 0)
    | _ => none
  | .fail result =>
    match u.stage with
    | .reading =>
      if result.isFailure then some ({ u with stage := .ended result }, a, 0) else none
    | _ => none

end UpRelay

/-! ### From the target to the client -/

/-- Where `target_to_client` waits. -/
inductive DownStage where
  /-- For the target. -/
  | reading
  /-- For `LINKS_LOCK` in `check_and_use`, with data. -/
  | charging (data : Bytes)
  /-- In `send`; whether with the chunk that ends the body. -/
  | sending (last : Bool)
  | ended (result : TaskResult)
  deriving DecidableEq

/-- `target_to_client`. -/
structure DownRelay where
  /-- `body_writer`. -/
  writer : BodyWriter
  stage : DownStage
  /-- What the target has sent; no step reads it. -/
  received : List Bytes
  /-- What has been charged of it. -/
  charged : List Bytes
  /-- What has been handed to `send`. -/
  sent : Bytes
  deriving DecidableEq

/-- What happens to `target_to_client`. -/
inductive DownEvent where
  /-- The target sends data, or is at its end. -/
  | data (d : Bytes)
  /-- It gets the lock. -/
  | lock (clock : Clock)
  /-- `send` returns. -/
  | sent
  /-- What it awaits raises. -/
  | fail (result : TaskResult)

namespace DownRelay

variable (c : Crypto) (token : ℕ → UInt8) (d : DownRelay)

/-- It starts. -/
def start (writer : BodyWriter) : DownRelay := ⟨writer, .reading, [], [], []⟩

/-- The result of the task, when it has ended. -/
def result : Option TaskResult :=
  match d.stage with
  | .ended result => some result
  | _ => none

/-- The task is cancelled if it has not ended. -/
def cancel : DownRelay :=
  match d.stage with
  | .ended _ => d
  | _ => { d with stage := .ended cancelledError }

/-- `await send(…)` of what the writer returns. -/
def send (last : Bool) : Except Exc (Bytes × BodyWriter) → DownRelay
  | .ok (out, writer) => { d with writer, stage := .sending last, sent := d.sent ++ out }
  | .error e => { d with stage := .ended (.raised e.name) }

/-- A turn; the number is what has been charged. -/
def next (uuid : String) (a : Accounts) : DownEvent → Option (DownRelay × Accounts × ℕ)
  | .data data =>
    match d.stage with
    | .reading =>
      if data = [] then some (d.send true (d.writer.writeEof c token), a, 0)
      else some ({ d with stage := .charging data, received := d.received ++ [data] }, a, 0)
    | _ => none
  | .lock clock =>
    match d.stage with
    | .charging data =>
      match a.checkAndUse clock uuid data.length with
      | (true, a) =>
        some ({ d with charged := d.charged ++ [data] }.send false (d.writer.writeChunk c token data),
          a, data.length)
      | (false, a) => some ({ d with stage := .ended .quota }, a, 0)
    | _ => none
  | .sent =>
    match d.stage with
    | .sending last => some ({ d with stage := if last then .ended .eof else .reading }, a, 0)
    | _ => none
  | .fail result =>
    match d.stage with
    | .reading => if result.isFailure then some ({ d with stage := .ended result }, a, 0) else none
    | .sending _ => if result.isFailure then some ({ d with stage := .ended result }, a, 0) else none
    | _ => none

end DownRelay

/-! ### What a turn does -/

/-- A turn of `client_to_target`, by what it does. -/
inductive UpTurn (c : Crypto) (uuid : String) (u : UpRelay) (a : Accounts) :
    UpEvent → UpRelay → Accounts → ℕ → Prop
  | reads {data : Bytes} {reader : BodyReader} (hstage : u.stage = .reading) (hdata : data ≠ [])
    (hread : u.reader.read c = (.ok data, reader)) :
    UpTurn c uuid u a .read { u with reader, stage := .charging data } a 0
  | ends {reader : BodyReader} (hstage : u.stage = .reading)
    (hread : u.reader.read c = (.ok [], reader)) :
    UpTurn c uuid u a .read { u with reader, stage := .ended .eof } a 0
  | charges {clock : Clock} {data : Bytes} {a' : Accounts} (hstage : u.stage = .charging data)
    (hcharge : a.checkAndUse clock uuid data.length = (true, a')) :
    UpTurn c uuid u a (.lock clock)
      { u with stage := .reading, passed := u.passed ++ [data] } a' data.length
  | fails {e : UpEvent} {result : TaskResult} (reader : BodyReader) (hresult : result ≠ .eof) :
    UpTurn c uuid u a e { u with reader, stage := .ended result } a 0

/-- A turn of `target_to_client`, by what it does. -/
inductive DownTurn (c : Crypto) (token : ℕ → UInt8) (uuid : String) (d : DownRelay) (a : Accounts) :
    DownEvent → DownRelay → Accounts → ℕ → Prop
  | reads {data : Bytes} (hstage : d.stage = .reading) (hdata : data ≠ []) :
    DownTurn c token uuid d a (.data data)
      { d with stage := .charging data, received := d.received ++ [data] } a 0
  | ends (hstage : d.stage = .reading) :
    DownTurn c token uuid d a (.data []) (d.send true (d.writer.writeEof c token)) a 0
  | charges {clock : Clock} {data : Bytes} {a' : Accounts} (hstage : d.stage = .charging data)
    (hcharge : a.checkAndUse clock uuid data.length = (true, a')) :
    DownTurn c token uuid d a (.lock clock)
      ({ d with charged := d.charged ++ [data] }.send false (d.writer.writeChunk c token data)) a'
      data.length
  | sent {last : Bool} (hstage : d.stage = .sending last) :
    DownTurn c token uuid d a .sent { d with stage := if last then .ended .eof else .reading } a 0
  | fails {e : DownEvent} {result : TaskResult} (hresult : result ≠ .eof) :
    DownTurn c token uuid d a e { d with stage := .ended result } a 0

theorem TaskResult.ne_eof_of_isFailure {result : TaskResult} (h : result.isFailure = true) :
    result ≠ .eof := by
  rintro rfl
  cases h

variable {c : Crypto} {token : ℕ → UInt8}

theorem upTurn_of_next {u u' : UpRelay} {uuid : String} {a a' : Accounts} {e : UpEvent} {n : ℕ}
    (h : u.next c uuid a e = some (u', a', n)) : UpTurn c uuid u a e u' a' n := by
  cases e with
  | read =>
    simp only [UpRelay.next] at h
    split at h
    · rename_i hstage
      split at h
      · cases h
        exact .ends hstage ‹_›
      · rename_i data reader hdata hread
        cases h
        exact .reads hstage (fun hnil => hdata hnil) hread
      · cases h
        exact .fails _ (by simp)
      · cases h
        exact .fails _ (by simp)
    · cases h
  | lock clock =>
    simp only [UpRelay.next] at h
    split at h
    · rename_i hstage
      split at h
      · rename_i hcharge
        cases h
        exact .charges hstage hcharge
      · rename_i hcharge
        cases h
        rw [Accounts.eq_of_checkAndUse_refused hcharge]
        exact .fails u.reader (by simp)
    · cases h
  | fail result =>
    simp only [UpRelay.next] at h
    split at h
    · split_ifs at h with hfailure
      cases h
      exact .fails u.reader (TaskResult.ne_eof_of_isFailure hfailure)
    · cases h

theorem downTurn_of_next {d d' : DownRelay} {uuid : String} {a a' : Accounts} {e : DownEvent}
    {n : ℕ} (h : d.next c token uuid a e = some (d', a', n)) :
    DownTurn c token uuid d a e d' a' n := by
  cases e with
  | data data =>
    simp only [DownRelay.next] at h
    split at h
    · rename_i hstage
      split_ifs at h with hdata
      · subst hdata
        cases h
        exact .ends hstage
      · cases h
        exact .reads hstage hdata
    · cases h
  | lock clock =>
    simp only [DownRelay.next] at h
    split at h
    · rename_i hstage
      split at h
      · rename_i hcharge
        cases h
        exact .charges hstage hcharge
      · rename_i hcharge
        cases h
        rw [Accounts.eq_of_checkAndUse_refused hcharge]
        exact .fails (by simp)
    · cases h
  | sent =>
    simp only [DownRelay.next] at h
    split at h <;> cases h
    exact .sent ‹_›
  | fail result =>
    simp only [DownRelay.next] at h
    split at h
    · split_ifs at h with hfailure
      cases h
      exact .fails (TaskResult.ne_eof_of_isFailure hfailure)
    · split_ifs at h with hfailure
      cases h
      exact .fails (TaskResult.ne_eof_of_isFailure hfailure)
    · cases h

/-! ### A wire that comes in -/

/-- The wire of a row of chunks starts with that of the first one. -/
theorem sealChunks_uncons {w w₁ w' : BodyWriter} {q out wire : Bytes} {qs : List Bytes}
    (hq : w.sealChunk c token q = .ok (out, w₁))
    (hwire : w.sealChunks c token (q :: qs) = .ok (wire, w')) :
    ∃ rest, w₁.sealChunks c token qs = .ok (rest, w') ∧ wire = out ++ rest := by
  rw [BodyWriter.sealChunks, hq, bind_eq_ok] at hwire
  obtain ⟨_, hfirst, hwire⟩ := hwire
  cases hfirst
  obtain ⟨⟨rest, w''⟩, hrest, hwire⟩ := bind_eq_ok.1 hwire
  cases hwire
  exact ⟨rest, hrest, rfl⟩

/-- A reader with the front part of a wire ahead reads the first piece, or finds the end, or raises;
and the two last only if the piece is empty or some of the wire is missing. -/
theorem read_front (hc : c.aead.Correct) {w w' : BodyWriter} (hw : w.Ready) {q wire : Bytes}
    (hlen : q.length ≤ maxChunk) {qs : List Bytes}
    (hwire : w.sealChunks c token (q :: qs) = .ok (wire, w')) {r : BodyReader} (hs : Synced w r)
    (hf : r.Filled) (ha : r.ahead <+: wire) :
    (∃ r', r.read c = (.ok [], r') ∧ (r.ahead = wire → q = [])) ∨
      (∃ e r', r.read c = (.error e, r')) ∨
      ∃ r' w₁ rest, q ≠ [] ∧ r.read c = (.ok q, r') ∧ w₁.Ready ∧
        w₁.sealChunks c token qs = .ok (rest, w') ∧ Synced w₁ r' ∧ r'.Filled ∧ r'.ahead <+: rest ∧
        (r.ahead = wire → r'.ahead = rest) := by
  obtain ⟨size, enc, pad, w₁, hseal, hw₁, -, hsize, -, hfield⟩ := sealChunk_field token hc hw hlen
  obtain ⟨rest, hrest, rfl⟩ := sealChunks_uncons hseal hwire
  by_cases hshort : r.ahead.length < w.fieldLen
  -- the size field is not complete
  · obtain ⟨r', hread⟩ := BodyReader.read_short (c := c) hs.done hf (by
      rw [hs.authlen]
      exact hshort)
    refine .inl ⟨r', hread, fun hall => ?_⟩
    rw [hall, ← hsize, List.length_append, List.length_append] at hshort
    omega
  · rw [List.append_assoc] at ha
    obtain ⟨x, hx⟩ : size <+: r.ahead :=
      List.prefix_of_prefix_length_le (List.prefix_append size _) ha (by omega)
    obtain ⟨r₁, hr₁⟩ := hfield r x hs hf hx.symm
    rw [← hx, List.prefix_append_right_inj] at ha
    by_cases hq : q = []
    · exact .inl ⟨_, hr₁.ended hq, fun _ => hq⟩
    · by_cases hblock : x.length < (enc ++ pad).length
      -- the block is not complete
      · obtain ⟨r', hpay⟩ := BodyReader.readPayload_short (c := c) hr₁.filled (enc ++ pad).length
          (by rwa [hr₁.ahead]) enc.length
        exact .inr (.inl ⟨_, r', (hr₁.block hq).trans hpay⟩)
      · obtain ⟨y, rfl⟩ : enc ++ pad <+: x :=
          List.prefix_of_prefix_length_le (List.prefix_append _ rest) ha (by omega)
        obtain ⟨r₂, hread, hsynced, hfilled, hahead⟩ := hr₁.whole hq
        refine .inr (.inr ⟨r₂, w₁, rest, hq, hread, hw₁, hrest, hsynced, hfilled, ?_, fun hall => ?_⟩)
        · rwa [hahead, ← List.prefix_append_right_inj (enc ++ pad)]
        · rw [← hx] at hall
          rw [hahead]
          simpa using hall

/-- A reader with the front part of a client's body ahead, of which these pieces are still to come;
`whole` says that all of the body comes in. -/
def Ahead (c : Crypto) (token : ℕ → UInt8) (whole : Prop) (rest : List Bytes) (r : BodyReader) :
    Prop :=
  ∃ w wire w', w.Ready ∧ w.sealChunks c token (rest ++ [[]]) = .ok (wire, w') ∧ Synced w r ∧
    r.Filled ∧ r.ahead <+: wire ∧ (whole → r.ahead = wire)

/-- A body can be read so: the next piece, or the end, or an error. -/
theorem Ahead.read (hc : c.aead.Correct) {whole : Prop} {rest : List Bytes} {r : BodyReader}
    (hrest : ∀ q ∈ rest, q ≠ [] ∧ q.length ≤ maxChunk) (h : Ahead c token whole rest r) :
    (∃ r', r.read c = (.ok [], r') ∧ (whole → rest = [])) ∨
      (∃ e r', r.read c = (.error e, r')) ∨
      ∃ q rest' r', q ≠ [] ∧ rest = q :: rest' ∧ r.read c = (.ok q, r') ∧
        Ahead c token whole rest' r' := by
  obtain ⟨w, wire, w', hw, hwire, hs, hf, ha, hall⟩ := h
  cases rest with
  | nil =>
    obtain ⟨r', hread, -⟩ | ⟨e, r', hread⟩ | ⟨r', w₁, rest, hne, -⟩ :=
      read_front hc hw (Nat.zero_le _) hwire hs hf ha
    · exact .inl ⟨r', hread, fun _ => rfl⟩
    · exact .inr (.inl ⟨e, r', hread⟩)
    · exact absurd rfl hne
  | cons q rest =>
    obtain ⟨hq, hlen⟩ := hrest q List.mem_cons_self
    obtain ⟨r', hread, hend⟩ | ⟨e, r', hread⟩ |
      ⟨r', w₁, wire₁, -, hread, hw₁, hwire₁, hs₁, hf₁, ha₁, hall₁⟩ :=
      read_front hc hw hlen hwire hs hf ha
    · exact .inl ⟨r', hread, fun hwhole => absurd (hend (hall hwhole)) hq⟩
    · exact .inr (.inl ⟨e, r', hread⟩)
    · exact .inr (.inr ⟨q, rest, r', hq, rfl, hread, w₁, wire₁, w', hw₁, hwire₁, hs₁, hf₁, ha₁,
        fun hwhole => hall₁ (hall hwhole)⟩)

/-! ### What the relays keep -/

/-- The target has a front part of the client's pieces, and all of them if the relay has read the end
of the whole body. -/
structure UpRelay.Follows (c : Crypto) (token : ℕ → UInt8) (whole : Prop) (qs : List Bytes)
    (u : UpRelay) : Prop where
  passed : u.passed <+: qs
  reading : u.stage = .reading → ∃ rest, qs = u.passed ++ rest ∧ Ahead c token whole rest u.reader
  charging : ∀ data, u.stage = .charging data →
    ∃ rest, qs = u.passed ++ data :: rest ∧ Ahead c token whole rest u.reader
  ended : u.stage = .ended .eof → whole → u.passed = qs

namespace UpRelay

variable {whole : Prop} {qs : List Bytes} {u u' : UpRelay}

theorem follows_start {reader : BodyReader} (h : Ahead c token whole qs reader) :
    (start reader).Follows c token whole qs where
  passed := List.nil_prefix
  reading _ := ⟨qs, rfl, h⟩
  charging _ hstage := by cases hstage
  ended hstage := by cases hstage

/-- A relay that ends otherwise than with the body. -/
theorem Follows.leave (h : u.Follows c token whole qs) (hpassed : u'.passed = u.passed)
    {result : TaskResult} (hstage : u'.stage = .ended result) (hresult : result ≠ .eof) :
    u'.Follows c token whole qs where
  passed := hpassed ▸ h.passed
  reading hreading := by
    rw [hstage] at hreading
    cases hreading
  charging data hcharging := by
    rw [hstage] at hcharging
    cases hcharging
  ended hended := by
    rw [hstage] at hended
    cases hended
    exact absurd rfl hresult

theorem Follows.cancel (h : u.Follows c token whole qs) : u.cancel.Follows c token whole qs := by
  unfold UpRelay.cancel
  cases hstage : u.stage with
  | ended result => exact h
  | reading | charging => exact h.leave rfl rfl (by simp [cancelledError])

/-- Every turn keeps it. -/
theorem Follows.next (hc : c.aead.Correct) (hqs : ∀ q ∈ qs, q ≠ [] ∧ q.length ≤ maxChunk)
    (h : u.Follows c token whole qs) {uuid : String} {a a' : Accounts} {e : UpEvent} {n : ℕ}
    (hnext : u.next c uuid a e = some (u', a', n)) : u'.Follows c token whole qs := by
  have hpieces : ∀ {rest}, qs = u.passed ++ rest → ∀ q ∈ rest, q ≠ [] ∧ q.length ≤ maxChunk :=
    fun hsplit q hq => hqs q (hsplit ▸ List.mem_append_right _ hq)
  cases upTurn_of_next hnext with
  | reads hstage hdata hread =>
    obtain ⟨rest, hsplit, hahead⟩ := h.reading hstage
    refine ⟨h.passed, fun hs => (by cases hs), fun data hs => ?_, fun hs => (by cases hs)⟩
    cases hs
    obtain ⟨_, hread', -⟩ | ⟨_, _, hread'⟩ | ⟨_, rest', _, -, rfl, hread', hahead'⟩ :=
      hahead.read hc (hpieces hsplit)
    · cases hread.symm.trans hread'
      exact absurd rfl hdata
    · cases hread.symm.trans hread'
    · cases hread.symm.trans hread'
      exact ⟨rest', hsplit, hahead'⟩
  | ends hstage hread =>
    obtain ⟨rest, hsplit, hahead⟩ := h.reading hstage
    refine ⟨h.passed, fun hs => (by cases hs), fun _ hs => (by cases hs), fun _ hwhole => ?_⟩
    obtain ⟨_, -, hend⟩ | ⟨_, _, hread'⟩ | ⟨_, _, _, hq, -, hread', -⟩ :=
      hahead.read hc (hpieces hsplit)
    · rw [hsplit, hend hwhole, List.append_nil]
    · cases hread.symm.trans hread'
    · cases hread.symm.trans hread'
      exact absurd rfl hq
  | @charges _ data _ hstage hcharge =>
    obtain ⟨rest, hsplit, hahead⟩ := h.charging _ hstage
    have hpassed : qs = (u.passed ++ [data]) ++ rest := by
      rw [List.append_assoc]
      exact hsplit
    exact ⟨⟨rest, hpassed.symm⟩, fun _ => ⟨rest, hpassed, hahead⟩, fun _ hs => (by cases hs),
      fun hs => (by cases hs)⟩
  | fails reader hresult => exact h.leave rfl rfl hresult

end UpRelay

/-- What a stage knows of what has been received and not charged, and of whether the chunk that ends
the body has been sent. -/
def DownStage.Knows : DownStage → List Bytes → Bool → Prop
  | .reading, rest, last => rest = [] ∧ last = false
  | .charging data, rest, last => rest = [data] ∧ last = false
  | .sending l, rest, last => rest = [] ∧ last = l
  | .ended .eof, rest, last => rest = [] ∧ last = true
  | .ended _, rest, last => last = true → rest = []

/-- The client is sent the chunks of what has been charged, with the last chunk behind them when the
target has ended. -/
structure DownRelay.Seals (c : Crypto) (token : ℕ → UInt8) (w : BodyWriter) (d : DownRelay) :
    Prop where
  filled : ∀ p ∈ d.received, p ≠ []
  ready : d.writer.Ready
  sent : ∃ rest last, d.received = d.charged ++ rest ∧ d.stage.Knows rest last ∧
    w.sealChunks c token (d.charged.flatMap pieces ++ if last then [[]] else []) =
      .ok (d.sent, d.writer)

/-- More chunks behind the ones there are. -/
theorem sealChunks_behind {w w₁ w₂ : BodyWriter} {ps qs : List Bytes} {a b : Bytes}
    (h₁ : w.sealChunks c token ps = .ok (a, w₁)) (h₂ : w₁.sealChunks c token qs = .ok (b, w₂)) :
    w.sealChunks c token (ps ++ qs) = .ok (a ++ b, w₂) := by
  rw [BodyWriter.sealChunks_append, h₁]
  simp [h₂, bind, Except.bind, pure, Except.pure]

/-- Every piece of a payload can be sealed. -/
theorem length_le_of_mem_pieces {p q : Bytes} (hp : p ≠ []) (hq : q ∈ pieces p) :
    q.length ≤ maxChunk := ((pieces_spec hp).2 q hq).2

namespace DownRelay

variable {w : BodyWriter} {d d' : DownRelay}

theorem seals_start (hw : w.Ready) : (start w).Seals c token w where
  filled _ hp := by cases hp
  ready := hw
  sent := ⟨[], false, rfl, ⟨rfl, rfl⟩, rfl⟩

/-- A relay that ends otherwise than with the target. -/
theorem Seals.leave (h : d.Seals c token w) (hwriter : d'.writer = d.writer)
    (hreceived : d'.received = d.received) (hcharged : d'.charged = d.charged)
    (hsent : d'.sent = d.sent) {result : TaskResult} (hstage : d'.stage = .ended result)
    (hresult : result ≠ .eof) : d'.Seals c token w := by
  obtain ⟨rest, last, hsplit, hknows, hseal⟩ := h.sent
  refine ⟨hreceived ▸ h.filled, hwriter ▸ h.ready, rest, last, ?_, ?_, ?_⟩
  · rw [hreceived, hcharged, hsplit]
  · have hlast : last = true → rest = [] := by
      intro hlast
      cases hd : d.stage with
      | reading => exact (hd ▸ hknows).1
      | charging data =>
        rw [hd] at hknows
        cases hknows.2.symm.trans hlast
      | sending l => exact (hd ▸ hknows).1
      | ended r =>
        rw [hd] at hknows
        cases r with
        | eof => exact hknows.1
        | closed | reset | quota | raised => exact hknows hlast
    rw [hstage]
    cases result with
    | eof => exact absurd rfl hresult
    | closed | reset | quota | raised => exact hlast
  · rw [hcharged, hsent, hwriter]
    exact hseal

theorem Seals.cancel (h : d.Seals c token w) : d.cancel.Seals c token w := by
  unfold DownRelay.cancel
  cases hstage : d.stage with
  | ended result => exact h
  | reading | charging | sending => exact h.leave rfl rfl rfl rfl rfl (by simp [cancelledError])

/-- The target is at its end. -/
theorem Seals.eof (hc : c.aead.Correct) (h : d.Seals c token w) (hstage : d.stage = .reading) :
    (d.send true (d.writer.writeEof c token)).Seals c token w := by
  obtain ⟨rest, last, hsplit, hknows, hseal⟩ := h.sent
  rw [hstage] at hknows
  obtain ⟨rfl, rfl⟩ := hknows
  obtain ⟨out, w', hout, hw', -⟩ := sealChunk_read token hc h.ready
    (show ([] : Bytes).length ≤ maxChunk from Nat.zero_le _)
  have hend : d.writer.sealChunks c token [[]] = .ok (out, w') := by
    simp [BodyWriter.sealChunks, hout, bind, Except.bind, pure, Except.pure]
  rw [BodyWriter.writeEof, hout]
  rw [if_neg Bool.false_ne_true, List.append_nil] at hseal
  exact ⟨h.filled, hw', [], true, hsplit, ⟨rfl, rfl⟩, sealChunks_behind hseal hend⟩

/-- A piece is charged and sealed. -/
theorem Seals.charge (hc : c.aead.Correct) (h : d.Seals c token w) {data : Bytes}
    (hstage : d.stage = .charging data) :
    ({ d with charged := d.charged ++ [data] }.send false
      (d.writer.writeChunk c token data)).Seals c token w := by
  obtain ⟨rest, last, hsplit, hknows, hseal⟩ := h.sent
  rw [hstage] at hknows
  obtain ⟨rfl, rfl⟩ := hknows
  have hdata : data ≠ [] := h.filled data (by simp [hsplit])
  obtain ⟨out, w', hout, hw'⟩ := sealChunks_ready token hc (pieces data)
    (fun q hq => length_le_of_mem_pieces hdata hq) h.ready
  rw [BodyWriter.writeChunk_eq, hout]
  rw [if_neg Bool.false_ne_true, List.append_nil] at hseal
  refine ⟨h.filled, hw', [], false, ?_, ⟨rfl, rfl⟩, ?_⟩
  · rw [List.append_nil]
    exact hsplit
  · rw [if_neg Bool.false_ne_true, List.append_nil]
    change w.sealChunks c token ((d.charged ++ [data]).flatMap pieces) = _
    rw [List.flatMap_append, List.flatMap_singleton]
    exact sealChunks_behind hseal hout

/-- The target sends a payload. -/
theorem Seals.receive (h : d.Seals c token w) (hstage : d.stage = .reading) {data : Bytes}
    (hdata : data ≠ []) :
    ({ d with stage := .charging data, received := d.received ++ [data] } : DownRelay).Seals c token
      w := by
  obtain ⟨rest, last, hsplit, hknows, hseal⟩ := h.sent
  rw [hstage] at hknows
  obtain ⟨rfl, rfl⟩ := hknows
  rw [List.append_nil] at hsplit
  refine ⟨fun p hp => ?_, h.ready, [data], false, by rw [hsplit], ⟨rfl, rfl⟩, hseal⟩
  rcases List.mem_append.1 hp with hp | hp
  · exact h.filled p hp
  · rw [List.mem_singleton.1 hp]
    exact hdata

/-- Every turn keeps it. -/
theorem Seals.next (hc : c.aead.Correct) (h : d.Seals c token w) {uuid : String} {a a' : Accounts}
    {e : DownEvent} {n : ℕ} (hnext : d.next c token uuid a e = some (d', a', n)) :
    d'.Seals c token w := by
  cases downTurn_of_next hnext with
  | reads hstage hdata => exact h.receive hstage hdata
  | ends hstage => exact h.eof hc hstage
  | charges hstage hcharge => exact h.charge hc hstage
  | @sent last hstage =>
    obtain ⟨rest, last, hsplit, hknows, hseal⟩ := h.sent
    rw [hstage] at hknows
    obtain ⟨rfl, rfl⟩ := hknows
    refine ⟨h.filled, h.ready, [], last, hsplit, ?_, hseal⟩
    cases last <;> exact ⟨rfl, rfl⟩
  | fails hresult => exact h.leave rfl rfl rfl rfl rfl hresult

end DownRelay

/-! ### What the client reads -/

/-- A row of chunks is read piece by piece. -/
theorem reads_data (hc : c.aead.Correct) (qs : List Bytes)
    (hqs : ∀ q ∈ qs, q ≠ [] ∧ q.length ≤ maxChunk) {w w' : BodyWriter} (hw : w.Ready) {wire : Bytes}
    (hwire : w.sealChunks c token qs = .ok (wire, w')) {r : BodyReader} {rest : Bytes}
    (hs : Synced w r) (hf : r.Filled) (ha : r.ahead = wire ++ rest) :
    ∃ r' : BodyReader, ∀ k, r.reads c (qs.length + k) = qs.map .ok ++ r'.reads c k := by
  induction qs generalizing w wire r with
  | nil => exact ⟨r, fun k => by simp⟩
  | cons q qs ih =>
    obtain ⟨⟨hq, hlen⟩, hqs⟩ := List.forall_mem_cons.1 hqs
    obtain ⟨out, w₁, hseal, hw₁, hread⟩ := sealChunk_read token hc hw hlen
    obtain ⟨wire', hrest, rfl⟩ := sealChunks_uncons hseal hwire
    rw [List.append_assoc] at ha
    have hchunk := hread r (wire' ++ rest) hs hf ha
    rw [ReadsChunk, if_neg hq] at hchunk
    obtain ⟨r₁, hr₁, hs₁, hf₁, ha₁⟩ := hchunk
    obtain ⟨r', hreads⟩ := ih hqs hw₁ hrest hs₁ hf₁ ha₁
    refine ⟨r', fun k => ?_⟩
    rw [List.length_cons, Nat.add_right_comm, BodyReader.reads, hr₁, hreads]
    rfl

/-- The pieces hold the payloads. -/
theorem flatten_flatMap_pieces {ps : List Bytes} (hps : ∀ p ∈ ps, p ≠ []) :
    (ps.flatMap pieces).flatten = ps.flatten := by
  induction ps with
  | nil => rfl
  | cons p ps ih =>
    obtain ⟨hp, hps⟩ := List.forall_mem_cons.1 hps
    rw [List.flatMap_cons, List.flatten_append, (pieces_spec hp).1, ih hps, List.flatten_cons]

/-- What the client reads of what a relay has sent: the pieces of what has been charged, and then the
end, if the relay has sent it. -/
theorem DownRelay.Seals.reads (hc : c.aead.Correct) {w : BodyWriter} (hw : w.Ready) {d : DownRelay}
    (h : d.Seals c token w) {r : BodyReader} (hs : Synced w r) (hf : r.Filled)
    (ha : r.ahead = d.sent) :
    ∃ qs : List Bytes, (∀ q ∈ qs, q ≠ []) ∧ qs.flatten <+: d.received.flatten ∧
      r.reads c qs.length = qs.map .ok ∧
      (d.stage = .reading → qs.flatten = d.received.flatten) ∧
      (d.stage = .ended .eof → qs.flatten = d.received.flatten ∧
        ∀ k, r.reads c (qs.length + k) = qs.map .ok ++ List.replicate k (.ok [])) := by
  obtain ⟨rest, last, hsplit, hknows, hseal⟩ := h.sent
  have hcharged : ∀ p ∈ d.charged, p ≠ [] := fun p hp =>
    h.filled p (hsplit ▸ List.mem_append_left _ hp)
  have hpieces : ∀ q ∈ d.charged.flatMap pieces, q ≠ [] ∧ q.length ≤ maxChunk := by
    intro q hq
    obtain ⟨p, hp, hq⟩ := List.mem_flatMap.1 hq
    exact (pieces_spec (hcharged p hp)).2 q hq
  have hfront : d.charged.flatten <+: d.received.flatten := by
    rw [hsplit, List.flatten_append]
    exact List.prefix_append _ _
  have hall : rest = [] → d.charged.flatten = d.received.flatten := by
    rintro rfl
    rw [hsplit, List.append_nil]
  obtain ⟨hfirst, hend⟩ : r.reads c (d.charged.flatMap pieces).length =
        (d.charged.flatMap pieces).map .ok ∧
      (last = true → ∀ k, r.reads c ((d.charged.flatMap pieces).length + k) =
        (d.charged.flatMap pieces).map .ok ++ List.replicate k (.ok [])) := by
    cases last with
    | false =>
      rw [if_neg Bool.false_ne_true, List.append_nil] at hseal
      obtain ⟨r', hreads⟩ := reads_data hc _ hpieces hw hseal hs hf
        (ha.trans (List.append_nil _).symm)
      exact ⟨by simpa [BodyReader.reads] using hreads 0, fun hlast => by cases hlast⟩
    | true =>
      obtain ⟨wire, w₁, hwire, -, hreads⟩ := reads_sealChunks token hc _ hpieces hw
      cases hwire.symm.trans hseal
      have hall := hreads r [] hs hf (ha.trans (List.append_nil _).symm)
      exact ⟨by simpa using hall 0, fun _ => hall⟩
  refine ⟨d.charged.flatMap pieces, fun q hq => (hpieces q hq).1,
    (flatten_flatMap_pieces hcharged).symm ▸ hfront, hfirst, fun hstage => ?_, fun hstage => ?_⟩
  · rw [hstage] at hknows
    rw [flatten_flatMap_pieces hcharged, hall hknows.1]
  · rw [hstage] at hknows
    exact ⟨by rw [flatten_flatMap_pieces hcharged, hall hknows.1], hend hknows.2⟩

end Vmess

end RvgGateway
