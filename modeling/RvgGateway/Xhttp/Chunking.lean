import RvgGateway.Xhttp.UploadStretch

/-!
# The chunks of a stream-up body

`stream_up_upload` reads its body as it comes, a chunk at a time, and hands the first chunk to the
parser of the header.  How a body falls into chunks is up to the network.

* `streamUp` : a `stream-up` request from its first chunk to the end of its body.
* `streamUp_writers` : the connections that the request leaves, in terms of its chunks.
* `chunking_iff` : **a body in chunks leaves the same connections as the body in one chunk exactly
  when its first chunk holds the whole header, or the request is turned away either way.**
-/

namespace RvgGateway

namespace Xhttp

open Relay (Parsed VlessHeader TrojanHeader)
open Quota (Gate Reading)

/-! ### A request that is alone -/

/-- A chunk of the body, with the moments of the stretches for it. -/
structure Delivery where
  chunk : Bytes
  /-- The chunk arrives. -/
  arrival : Moment
  /-- `gate.add`. -/
  metering : Moment
  /-- Behind `open_connection`, or behind the drain. -/
  connection : Moment
  /-- Behind the drain of the header's payload. -/
  payload : Moment

/-- How far a request is. -/
inductive Flow where
  | waits (h : Handler) (world : World) (o : Session)
  /-- It has its reply; a `_teardown` may still be going on. -/
  | ended (reply : Reply) (o : Session)

namespace Flow

/-- The session. -/
def session : Flow → Session
  | waits _ _ o => o
  | ended _ o => o

/-- The quota turned a chunk away. -/
def refused : Flow → Bool
  | waits .. => false
  | ended reply _ => reply = .error 403 "quota/disabled/unknown"

/-- A stretch has this outcome. -/
def after (out : Outcome) : Flow :=
  match out.next with
  | .wait h => waits h out.world out.session
  | .ends reply | .teardown reply => ended reply out.session

variable (e : Engine)

/-- The handler goes on, if this is what it waits for. -/
def resume (inp : Input) (m : Moment) : Flow → Flow
  | ended reply o => ended reply o
  | waits h world o => ((proceed e inp m h world o).map after).getD (waits h world o)

/-- The stretches for one chunk; connects and drains succeed. -/
def deliver (f : Flow) (d : Delivery) : Flow :=
  (((f.resume e (.data d.chunk) d.arrival).resume e .go d.metering).resume e .go
    d.connection).resume e .go d.payload

end Flow

/-- A new request on the session. -/
def streamUpHandler (uuid sid : String) : Handler where
  uuid := uuid
  sid := sid
  role := .streamUp none
  phase := .input
  cancelled := false

/-- `stream_up_upload` on a session without a connection, for a body in chunks. -/
def streamUp (e : Engine) (uuid sid : String) (world : World) (o : Session) (ds : List Delivery)
    (last : Moment) : Flow :=
  (ds.foldl (Flow.deliver e) (.waits (streamUpHandler uuid sid) world o)).resume e .finished last

/-! ### Headers in chunks -/

/-- The bytes that the parser has to be given to read the header. -/
def FirstHeader.least : FirstHeader → ℕ
  | vless h => max 24 h.encode.length
  | trojan h => h.encode.length

/-- The request is turned away with the header in front of it: all in all there are fewer bytes
than the VLESS parser takes, or no user has the hash of the Trojan header. -/
def FirstHeader.Unreadable (e : Engine) (w : World) (payload : Bytes) : FirstHeader → Prop
  | vless h => (h.encode ++ payload).length < 24
  | trojan h =>
    (w.hashCache.findUuid e.sha224 w.accounts.links (Relay.asciiIgnore h.hash)).1 = none

theorem FirstHeader.length_le_least (header : FirstHeader) :
    header.encode.length ≤ header.least := by
  cases header with
  | vless h => exact le_max_right _ _
  | trojan h => exact le_rfl

/-- When no body with the header is turned away for its user, the parser has what it needs exactly
when the request is not turned away for its length. -/
theorem FirstHeader.least_le_iff {e : Engine} {w : World} {payload : Bytes} {header : FirstHeader}
    (h : ¬ header.Unreadable e w payload) (front : Bytes) :
    header.least ≤ (header.encode ++ front).length ↔ ¬ header.Unreadable e w front := by
  cases header with
  | vless h =>
    simp only [least, encode, Unreadable, List.length_append]
    omega
  | trojan th =>
    refine iff_of_true ?_ h
    simp [least, encode]

section Reading

variable {e : Engine} {world : World} {uuid : String} {header : FirstHeader} {chunk rest : Bytes}

theorem keys_charge (a : Accounts) (t : Clock) (uid : String) (n : ℕ) :
    (a.charge t uid n).links.keys = a.links.keys :=
  Dict.keys_modify _ _ _

theorem keys_add (g : Gate) (n : ℕ) (r : Reading) (a : Accounts) :
    (g.add n r a).2.2.links.keys = a.links.keys := by
  rcases g.add_cases n r a with ⟨-, he⟩ | ⟨-, -, _, he⟩ | ⟨-, -, he⟩
  · rw [he]
  · rw [he]
  · rw [he]
    dsimp only
    split_ifs
    · exact keys_charge _ _ _ _
    · rfl

/-- What a gate charges does not change how a header is read. -/
theorem readHeader_add (g : Gate) (n : ℕ) (r : Reading) :
    (readHeader e uuid { world with accounts := (g.add n r world.accounts).2.2 } chunk).1 =
      (readHeader e uuid world chunk).1 := by
  unfold readHeader
  rw [Upload.usesTrojan_add]
  split
  · cases Relay.parseTrojanHeader chunk with
    | none => rfl
    | some res =>
      dsimp only
      rw [Trojan.HashCache.findUuid_congr _ _ (keys_add g n r world.accounts)]
  · rfl

/-- A header that comes in one piece is read, unless the request is turned away. -/
theorem readHeader_whole (huses : usesTrojan e world uuid = header.isTrojan)
    (hread : ¬ header.Unreadable e world rest) :
    ∃ parsed, (readHeader e uuid world (header.encode ++ rest)).1 = some (parsed, header.isTrojan) ∧
      parsed.address = header.address ∧ parsed.port = header.port ∧ parsed.payload = rest := by
  unfold readHeader
  rw [huses]
  cases header with
  | vless h =>
    have hlen : 24 ≤ (h.encode ++ rest).length := Nat.not_lt.1 hread
    refine ⟨⟨h.command, h.address.text, Bytes.toNatBE h.port, rest⟩, ?_, rfl, rfl, rfl⟩
    rw [if_neg (by simp [FirstHeader.isTrojan])]
    dsimp only [FirstHeader.encode, FirstHeader.isTrojan]
    rw [h.parse_encode rest hlen]
    rfl
  | trojan h =>
    have hlen : Relay.trojanHeaderMin ≤ (h.encode ++ rest).length := by
      rw [List.length_append]
      exact Nat.le_add_right_of_le h.min_le_encode
    obtain ⟨user, huser⟩ := Option.ne_none_iff_exists'.1 hread
    refine ⟨⟨h.command, h.address.text, Bytes.toNatBE h.port, rest⟩, ?_, rfl, rfl, rfl⟩
    rw [if_pos (by simp [FirstHeader.isTrojan])]
    dsimp only [FirstHeader.encode, FirstHeader.isTrojan]
    rw [h.parse_encode rest hlen]
    dsimp only
    rw [huser]
    rfl

/-- A request that is turned away with the whole body is turned away with a part of it. -/
theorem readHeader_unreadable {payload : Bytes}
    (huses : usesTrojan e world uuid = header.isTrojan) (hread : header.Unreadable e world payload)
    (hsplit : chunk ++ rest = header.encode ++ payload) :
    (readHeader e uuid world chunk).1 = none := by
  unfold readHeader
  rw [huses]
  cases header with
  | vless h =>
    rw [if_neg (by simp [FirstHeader.isTrojan])]
    have hlen : chunk.length < 24 := by
      have hle := congrArg List.length hsplit
      rw [List.length_append] at hle
      exact (Nat.le.intro hle).trans_lt hread
    unfold Relay.parseVlessHeader
    rw [if_pos hlen]
    rfl
  | trojan h =>
    rw [if_pos (by simp [FirstHeader.isTrojan])]
    cases hparse : Relay.parseTrojanHeader chunk with
    | none => rfl
    | some res =>
      obtain ⟨pwHash, parsed⟩ := res
      obtain ⟨hlen, rfl⟩ := Relay.parseTrojanHeader_hash hparse
      have htake : chunk.take 56 = h.hash := by
        have hfront : (chunk ++ rest).take 56 = chunk.take 56 := List.take_append_of_le_length hlen
        rw [← hfront, hsplit]
        simp only [FirstHeader.encode, Relay.TrojanHeader.encode, List.append_assoc]
        rw [List.take_append_of_le_length h.hash_length.ge, List.take_of_length_le h.hash_length.le]
      dsimp only
      rw [htake, show (world.hashCache.findUuid e.sha224 world.accounts.links
        (Relay.asciiIgnore h.hash)).1 = none from hread]
      rfl

end Reading

/-! ### One chunk -/

section Chunk

variable {e : Engine} {uuid sid : String} {world : World} {o : Session} {h : Handler} {f : Flow}

/-- The connection that the first chunk and the bytes behind it make. -/
def connectionsOf (read : Option (Parsed × Bool)) (rest : Bytes) : List Writer :=
  match read with
  | none => []
  | some (header, _) => [⟨header.address, header.port, header.payload ++ rest, false⟩]

/-- The request waits for a chunk, with its connection behind the connections `before`. -/
structure Flow.Open (before : List Writer) (c : Writer) (f : Flow) : Prop where
  waiting : ∃ h world o, f = .waits h world o ∧ h.role = .streamUp (some before.length) ∧
    h.phase = .input ∧ o.writers = before ++ [c] ∧ c.closing = false

theorem Flow.foldl_ended (ds : List Delivery) (reply : Reply) :
    ds.foldl (Flow.deliver e) (.ended reply o) = .ended reply o := by
  induction ds with
  | nil => rfl
  | cons d ds ih => exact ih

theorem Flow.resume_some {inp : Input} {m : Moment} {out : Outcome}
    (hout : proceed e inp m h world o = some out) :
    (Flow.waits h world o).resume e inp m = .after out := by
  show ((proceed e inp m h world o).map Flow.after).getD _ = _
  rw [hout]
  rfl

theorem Flow.resume_none {inp : Input} {m : Moment} (hout : proceed e inp m h world o = none) :
    (Flow.waits h world o).resume e inp m = .waits h world o := by
  show ((proceed e inp m h world o).map Flow.after).getD _ = _
  rw [hout]
  rfl

theorem flushGate_writers (m : Moment) (world : World) (o : Session) :
    (flushGate m world o).2.writers = o.writers := by
  unfold flushGate
  split <;> rfl

/-- Whatever ends a `stream-up` request leaves the connections alone. -/
theorem after_abandon {writer : Option ℕ} (hrole : h.role = .streamUp writer) (m : Moment)
    (reply : Reply) :
    ∃ o', Flow.after (abandon m h world o reply) = .ended reply o' ∧ o'.writers = o.writers := by
  unfold abandon
  rw [hrole]
  exact ⟨_, rfl, flushGate_writers m world o⟩

/-- Up to `gate.add` of a chunk, and the stretch behind it: the quota turns the chunk away, or it is
put on its way. -/
theorem resume_metered (e : Engine) (world : World) (o : Session) {writer : Option ℕ}
    (hrole : h.role = .streamUp writer) (hphase : h.phase = .input) {chunk : Bytes}
    (hne : chunk ≠ []) (m m' : Moment) :
    let f := ((Flow.waits h world o).resume e (.data chunk) m).resume e .go m'
    (∃ o', f = .ended (.error 403 "quota/disabled/unknown") o') ∨
    ∃ (gate : Gate) (n : ℕ) (o' : Session), o'.writers = o.writers ∧
      f = .after (putChunk e m' { h with phase := .meter chunk }
        { world with accounts := (gate.add n m'.reading world.accounts).2.2 } o' writer chunk) := by
  intro f
  obtain ⟨uuid, sid, _, _, cancelled⟩ := h
  cases hrole
  cases hphase
  let h' : Handler := ⟨uuid, sid, .streamUp writer, .meter chunk, cancelled⟩
  let o₁ : Session := { o with lastSeen := m.now }
  have hdata : proceed e (.data chunk) m ⟨uuid, sid, .streamUp writer, .input, cancelled⟩ world o =
      some ⟨world, o₁, .wait h', []⟩ := if_neg hne
  have hmeter : proceed e .go m' h' world o₁ = some (meterUpload e m' h' world o₁ chunk) := rfl
  have hf : f = .after (meterUpload e m' h' world o₁ chunk) := by
    show (Flow.resume e (.data chunk) m (.waits _ world o)).resume e .go m' = _
    rw [Flow.resume_some hdata]
    exact Flow.resume_some hmeter
  rw [hf]
  unfold meterUpload
  dsimp only
  split
  · right
    let gate := o₁.ensureGate e.kind uuid m'.reading.monotonic
    let o₂ : Session := { o₁ with gate := some (gate.add chunk.length m'.reading world.accounts).2.1 }
    exact ⟨gate, chunk.length, { o₂ with connBytes := o₂.connBytes.map (· + chunk.length) }, rfl, rfl⟩
  · obtain ⟨o', ho', -⟩ := after_abandon (h := h') rfl m' _
    exact .inl ⟨o', ho'⟩

/-- The end of `_open_tcp_for_session` in a `stream-up` request. -/
theorem after_finishOpen {writer : Option ℕ} (hrole : h.role = .streamUp writer) (m : Moment)
    (isTrojan : Bool) {before : List Writer} {c : Writer} (hopen : o.writers = before ++ [c])
    (hclosing : c.closing = false) :
    (Flow.after (finishOpen e m h world o before.length isTrojan)).Open before c := by
  unfold finishOpen afterOpen
  rw [hrole]
  exact ⟨_, _, _, rfl, rfl, rfl, hopen, hclosing⟩

/-- With its connection open and no chunk at hand a request is not to be woken. -/
theorem Flow.Open.resume_go {before : List Writer} {c : Writer} (hf : f.Open before c) (m : Moment) :
    f.resume e .go m = f := by
  obtain ⟨h, world, o, rfl, hrole, hphase, -⟩ := hf
  refine Flow.resume_none ?_
  unfold proceed proceedStreamUp proceedUpload
  rw [hrole, hphase]

/-- The first chunk is put on its way. -/
theorem after_openTcp {writer : Option ℕ} (hrole : h.role = .streamUp writer) (m : Moment)
    (chunk : Bytes) :
    ((readHeader e h.uuid world chunk).1 = none ∧ ∃ reply o',
      Flow.after (openTcp e m h world o chunk) = .ended reply o' ∧ o'.writers = o.writers) ∨
    ∃ header isTrojan world', (readHeader e h.uuid world chunk).1 = some (header, isTrojan) ∧
      Flow.after (openTcp e m h world o chunk) =
        .waits { h with phase := .connect header isTrojan } world' o := by
  unfold openTcp
  obtain ⟨_ | ⟨header, isTrojan⟩, world'⟩ := readHeader e h.uuid world chunk
  · left
    dsimp only [fail]
    rw [hrole]
    exact ⟨rfl, .error 502 "stream error", after_abandon hrole m _⟩
  · exact .inr ⟨header, isTrojan, world', rfl, rfl⟩

/-- The connection comes about. -/
theorem resume_connect {writer : Option ℕ} (hrole : h.role = .streamUp writer) (header : Parsed)
    (isTrojan : Bool) (m m' : Moment) :
    (((Flow.waits { h with phase := .connect header isTrojan } world o).resume e .go m).resume e .go
      m').Open o.writers ⟨header.address, header.port, header.payload, false⟩ := by
  obtain ⟨uuid, sid, _, phase, cancelled⟩ := h
  cases hrole
  let h' : Handler := ⟨uuid, sid, .streamUp writer, .connect header isTrojan, cancelled⟩
  have hconnect : proceed e .go m h' world o = some (connected e m h' world o header isTrojan) := rfl
  show (Flow.resume e .go m' (Flow.resume e .go m (.waits h' world o))).Open _ _
  rw [Flow.resume_some hconnect]
  unfold connected
  dsimp only
  split_ifs with hpayload
  · have hopen : (Flow.after (finishOpen e m h' world { o with writers := o.writers ++
        [⟨header.address, header.port, header.payload, false⟩] } o.writers.length isTrojan)).Open
        o.writers ⟨header.address, header.port, header.payload, false⟩ :=
      after_finishOpen rfl m isTrojan rfl rfl
    rw [hopen.resume_go]
    exact hopen
  · exact after_finishOpen (h := ⟨uuid, sid, .streamUp writer, .payload _ isTrojan, cancelled⟩) rfl
      m' isTrojan rfl rfl

/-- The stretches of the first chunk. -/
theorem deliver_first (e : Engine) (uuid sid : String) (world : World) (o : Session) (d : Delivery)
    (hne : d.chunk ≠ []) :
    let f := (Flow.waits (streamUpHandler uuid sid) world o).deliver e d
    let read := (readHeader e uuid world d.chunk).1
    f.refused = true ∨
    (read = none ∧ ∃ reply o', f = .ended reply o' ∧ o'.writers = o.writers) ∨
    ∃ header isTrojan, read = some (header, isTrojan) ∧
      f.Open o.writers ⟨header.address, header.port, header.payload, false⟩ := by
  intro f read
  obtain ⟨o', hf⟩ | ⟨gate, n, o', hwriters, hf⟩ := resume_metered e world o
    (h := streamUpHandler uuid sid) rfl rfl hne d.arrival d.metering
  · left
    show Flow.refused (Flow.resume e .go d.payload (Flow.resume e .go d.connection _)) = true
    rw [hf]
    rfl
  right
  let h' : Handler := { streamUpHandler uuid sid with phase := .meter d.chunk }
  have hread : (readHeader e h'.uuid { world with accounts := (gate.add n d.metering.reading
      world.accounts).2.2 } d.chunk).1 = read := readHeader_add gate n _
  have hf' : f = Flow.resume e .go d.payload (Flow.resume e .go d.connection
      (.after (openTcp e d.metering h' { world with accounts := (gate.add n d.metering.reading
        world.accounts).2.2 } o' d.chunk))) :=
    congrArg (fun f => Flow.resume e .go d.payload (Flow.resume e .go d.connection f)) hf
  obtain ⟨hnone, reply, o'', hended, ho''⟩ | ⟨header, isTrojan, world', hsome, hwaits⟩ :=
    after_openTcp (e := e) (o := o') (h := h') rfl d.metering d.chunk
  · rw [hended] at hf'
    exact .inl ⟨hread.symm.trans hnone, reply, o'', hf', ho''.trans hwriters⟩
  · rw [hwaits] at hf'
    refine .inr ⟨header, isTrojan, hread.symm.trans hsome, ?_⟩
    rw [hf', ← hwriters]
    exact resume_connect (h := h') rfl header isTrojan d.connection d.payload

/-- The stretches of a later chunk. -/
theorem deliver_open {before : List Writer} {c : Writer} (hf : f.Open before c) (d : Delivery)
    (hne : d.chunk ≠ []) :
    (f.deliver e d).refused = true ∨
    (f.deliver e d).Open before { c with written := c.written ++ d.chunk } := by
  obtain ⟨h, world, o, rfl, hrole, hphase, hopen, hclosing⟩ := hf
  obtain ⟨o', hmetered⟩ | ⟨gate, n, o', hwriters, hmetered⟩ :=
    resume_metered e world o hrole hphase hne d.arrival d.metering
  · left
    show Flow.refused (Flow.resume e .go d.payload (Flow.resume e .go d.connection _)) = true
    rw [hmetered]
    rfl
  right
  show (Flow.resume e .go d.payload (Flow.resume e .go d.connection _)).Open _ _
  have hget : o'.isClosing before.length = false := by
    unfold Session.isClosing
    rw [hwriters, hopen, List.getElem?_append_right le_rfl, Nat.sub_self]
    exact hclosing
  have hwritten : (o'.write before.length d.chunk).writers =
      before ++ [{ c with written := c.written ++ d.chunk }] := by
    unfold Session.write
    rw [hwriters, hopen, List.modify_eq_take_cons_drop (by simp)]
    simp
  obtain ⟨uuid, sid, _, _, cancelled⟩ := h
  cases hrole
  cases hphase
  have hput (world : World) :
      putChunk e d.metering ⟨uuid, sid, .streamUp (some before.length), .meter d.chunk, cancelled⟩
        world o' (some before.length) d.chunk =
      ⟨world, o'.write before.length d.chunk, .wait ⟨uuid, sid, .streamUp (some before.length),
        if d.metering.full then .drain else .input, cancelled⟩,
        [.wrote uuid o'.uuid d.chunk]⟩ :=
    if_neg (by rw [hget]; exact Bool.false_ne_true)
  have hwaits (world : World) :
      (Flow.waits ⟨uuid, sid, .streamUp (some before.length), .input, cancelled⟩ world
        (o'.write before.length d.chunk)).Open before { c with written := c.written ++ d.chunk } :=
    ⟨_, _, _, rfl, rfl, rfl, hwritten, hclosing⟩
  rw [hmetered, hput, Flow.after]
  dsimp only
  cases d.metering.full with
  | false =>
    rw [if_neg Bool.false_ne_true, (hwaits _).resume_go, (hwaits _).resume_go]
    exact hwaits _
  | true =>
    -- behind the drain the request is where it would be without it
    have hdrain (world : World) (o : Session) :
        proceed e .go d.connection ⟨uuid, sid, .streamUp (some before.length), .drain, cancelled⟩ world
          o = some ⟨world, o, .wait ⟨uuid, sid, .streamUp (some before.length), .input, cancelled⟩,
            []⟩ := rfl
    rw [if_pos rfl, Flow.resume_some (hdrain _ _), Flow.after, (hwaits _).resume_go]
    exact hwaits _

end Chunk

/-! ### Bodies -/

section Bodies

variable {e : Engine} {uuid sid : String} {world : World} {o : Session} {f : Flow}
  {ds : List Delivery} {last : Moment}

/-- The bytes of the chunks. -/
def bodyOf (ds : List Delivery) : Bytes := (ds.map Delivery.chunk).flatten

theorem foldl_refused (ds : List Delivery) (h : f.refused = true) :
    ds.foldl (Flow.deliver e) f = f := by
  cases f with
  | waits => cases h
  | ended reply o => exact Flow.foldl_ended ds reply

/-- The end of the body. -/
theorem resume_finished_ended (reply : Reply) :
    (Flow.ended reply o).resume e .finished last = .ended reply o := rfl

theorem resume_finished_open {before : List Writer} {c : Writer} (hf : f.Open before c) :
    (f.resume e .finished last).session.writers = before ++ [c] := by
  obtain ⟨h, world, o, rfl, hrole, hphase, hopen, -⟩ := hf
  obtain ⟨uuid, sid, _, _, cancelled⟩ := h
  cases hrole
  cases hphase
  exact (flushGate_writers last world o).trans hopen

/-- The chunks behind the first one are written one after the other. -/
theorem foldl_open {before : List Writer} {c : Writer} (hf : f.Open before c)
    (hne : ∀ d ∈ ds, d.chunk ≠ []) :
    (ds.foldl (Flow.deliver e) f).refused = true ∨
    (ds.foldl (Flow.deliver e) f).Open before { c with written := c.written ++ bodyOf ds } := by
  induction ds generalizing f c with
  | nil =>
    right
    simpa [bodyOf] using hf
  | cons d ds ih =>
    obtain ⟨hd, hds⟩ := List.forall_mem_cons.1 hne
    rw [List.foldl_cons]
    obtain hrefused | hopen := deliver_open (e := e) hf d hd
    · left
      rwa [foldl_refused ds hrefused]
    · have hrest := ih hopen hds
      simpa [bodyOf] using hrest

/-- **The connections that a request leaves**, unless the quota turned a chunk away: what the first
chunk names, with the rest of that chunk and all the others written to it. -/
theorem streamUp_writers {d : Delivery} (hne : ∀ d' ∈ d :: ds, d'.chunk ≠ [])
    (hok : (streamUp e uuid sid world o (d :: ds) last).refused = false) :
    (streamUp e uuid sid world o (d :: ds) last).session.writers =
      o.writers ++ connectionsOf (readHeader e uuid world d.chunk).1 (bodyOf ds) := by
  obtain ⟨hd, hds⟩ := List.forall_mem_cons.1 hne
  unfold streamUp at hok ⊢
  rw [List.foldl_cons] at hok ⊢
  have hrefused {f : Flow} (hf : f.refused = true) : (f.resume e .finished last).refused = true := by
    cases f with
    | waits => cases hf
    | ended reply o => exact hf
  obtain hfirst | ⟨hread, reply, o', hfirst, ho'⟩ | ⟨header, isTrojan, hread, hfirst⟩ :=
    deliver_first e uuid sid world o d hd
  · rw [foldl_refused ds hfirst, hrefused hfirst] at hok
    cases hok
  · rw [hfirst, Flow.foldl_ended, resume_finished_ended, hread]
    exact ho'.trans (List.append_nil _).symm
  · obtain hrest | hrest := foldl_open (e := e) hfirst hds
    · rw [hrefused hrest] at hok
      cases hok
    · rw [resume_finished_open hrest, hread]
      rfl

/-- **The body in chunks leaves the connections that the body in one chunk leaves exactly when the
first chunk holds the whole header, or the request is turned away with the whole body.** -/
theorem chunking_iff {header : FirstHeader} {payload : Bytes} {whole : Delivery}
    {lastWhole : Moment} (huses : usesTrojan e world uuid = header.isTrojan)
    (hne : ∀ d ∈ ds, d.chunk ≠ []) (hbody : bodyOf ds = header.encode ++ payload)
    (hwhole : whole.chunk = header.encode ++ payload)
    (hok : (streamUp e uuid sid world o ds last).refused = false)
    (hokWhole : (streamUp e uuid sid world o [whole] lastWhole).refused = false) :
    (streamUp e uuid sid world o ds last).session.writers =
        (streamUp e uuid sid world o [whole] lastWhole).session.writers ↔
      (∃ d, ds.head? = some d ∧ header.least ≤ d.chunk.length) ∨
        header.Unreadable e world payload := by
  have hnil : header.encode ++ payload ≠ [] := by simp [header.encode_ne_nil]
  cases ds with
  | nil => exact absurd hbody.symm hnil
  | cons d ds =>
    have hsplit : d.chunk ++ bodyOf ds = header.encode ++ payload := hbody
    rw [streamUp_writers hne hok, streamUp_writers (by simpa [hwhole] using hnil) hokWhole, hwhole,
      List.append_cancel_left_eq, show bodyOf [] = [] from rfl]
    by_cases hread : header.Unreadable e world payload
    · rw [readHeader_unreadable huses hread hsplit,
        readHeader_unreadable huses hread (List.append_nil _)]
      exact iff_of_true rfl (.inr hread)
    obtain ⟨parsed, hparsed, haddress, hport, hpayload⟩ := readHeader_whole huses hread
    rw [hparsed]
    have hhead : (∃ d', (d :: ds).head? = some d' ∧ header.least ≤ d'.chunk.length) ↔
        header.least ≤ d.chunk.length := by simp
    rw [hhead, or_iff_left hread]
    by_cases hlong : header.encode.length ≤ d.chunk.length
    · -- the first chunk holds the header, which the parser may still find too short
      obtain ⟨front, hchunk, hpayload'⟩ : ∃ front, d.chunk = header.encode ++ front ∧
          front ++ bodyOf ds = payload := by
        obtain ⟨front, hfront, hback⟩ | ⟨back, hback, hfront⟩ := List.append_eq_append_iff.1 hsplit
        · have hnil : front = [] := by
            rw [hfront, List.length_append] at hlong
            exact List.length_eq_zero_iff.1 (by omega)
          subst hnil
          exact ⟨[], by simpa using hfront.symm, by simpa using hback⟩
        · exact ⟨back, hback, hfront.symm⟩
      rw [hchunk, header.least_le_iff hread]
      by_cases hfront : header.Unreadable e world front
      · rw [readHeader_unreadable huses hfront (List.append_nil _)]
        exact iff_of_false (by simp [connectionsOf]) (not_not_intro hfront)
      · obtain ⟨parsed', hparsed', haddress', hport', hfront'⟩ := readHeader_whole huses hfront
        rw [hparsed']
        refine iff_of_true ?_ hfront
        simp [connectionsOf, haddress, haddress', hport, hport', hpayload, hfront', hpayload']
    · -- too many bytes are left for the connection
      refine iff_of_false (fun heq => ?_) fun hle => hlong (header.length_le_least.trans hle)
      have hlen := congrArg List.length hsplit
      rw [List.length_append, List.length_append] at hlen
      obtain hnone | ⟨⟨parsed', isTrojan⟩, hsome⟩ :=
        Option.eq_none_or_eq_some (readHeader e uuid world d.chunk).1
      · rw [hnone] at heq
        cases heq
      · rw [hsome] at heq
        have hwritten := congrArg (fun ws => (ws.map fun c => c.written.length).sum) heq
        simp [connectionsOf, hpayload] at hwritten
        omega

end Bodies

/-! ### A header in two chunks -/

/-- A chunk at a moment when nothing else matters. -/
def Delivery.plain (chunk : Bytes) : Delivery :=
  ⟨chunk, momentAt 0, momentAt 0, momentAt 0, momentAt 0⟩

/-- A request for port 80 of 127.0.0.1, on a new session of the VLESS engine. -/
def localhostRequest (ds : List Delivery) : Flow :=
  streamUp ⟨.vless, id⟩ "alice" "s" ⟨⟨∅, 0, ∅⟩, .init⟩ (.init "alice" "stream-up" 0) ds (momentAt 0)

/-- Its body, all of it. -/
def localhostBody : Bytes := VlessHeader.localhost.encode ++ [7]

theorem chunking_iff_localhost :
    let ds := [Delivery.plain (localhostBody.take 26), .plain (localhostBody.drop 26)]
    (localhostRequest ds).session.writers =
        (localhostRequest [.plain localhostBody]).session.writers ↔
      (∃ d, ds.head? = some d ∧ (FirstHeader.vless .localhost).least ≤ d.chunk.length) ∨
        (FirstHeader.vless .localhost).Unreadable ⟨.vless, id⟩ ⟨⟨∅, 0, ∅⟩, .init⟩ [7] :=
  chunking_iff rfl (by decide) rfl rfl (by decide +kernel) (by decide +kernel)

/-- The last byte of the address in a chunk of its own: the host is cut short, and the byte is sent
to it. -/
theorem cut_header_reaches_another_host :
    let ds := [Delivery.plain (localhostBody.take 25), .plain (localhostBody.drop 25)]
    bodyOf ds = localhostBody ∧ (localhostRequest ds).refused = false ∧
      (localhostRequest [.plain localhostBody]).refused = false ∧
      (localhostRequest ds).session.writers = [⟨"127.0.0", 80, [1, 7], false⟩] ∧
      (localhostRequest [.plain localhostBody]).session.writers =
        [⟨"127.0.0.1", 80, [7], false⟩] ∧
      (localhostRequest ds).session.writers ≠
        (localhostRequest [.plain localhostBody]).session.writers := by
  decide +kernel

end Xhttp

end RvgGateway
