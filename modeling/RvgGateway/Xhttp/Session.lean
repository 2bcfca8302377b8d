import Mathlib.Data.Rat.Defs
import RvgGateway.Lib.Reorder
import RvgGateway.Quota.Gate
import RvgGateway.Relay.Headers
import RvgGateway.Trojan.HashCache

/-!
# XHTTP sessions and their handlers

XHTTP carries one connection over many HTTP requests.  The requests of a connection share a
*session*, a record under an identifier that the client chose: uploads arrive as numbered packets
(`packet-up`) or as one streamed body (`stream-up`), a long `GET` takes the download.  There are two
engines with the same code, one for VLESS (`protocol/vless/xhttp_core.py` and the three route files
beside it) and one for Trojan; they differ in the header that opens a connection and in the check
of a `GET`.

The program is cooperative: a handler runs alone until it waits.  A *stretch* is what it does
between two waits.  The stretch before a call of `gate.add` ends there, although the call itself
does not wait, so that the calls of different handlers can come in any order.  The locks
`XHTTP_LOCK` and `LINKS_LOCK` are never held while their holder waits, so what they protect is part
of one stretch.

## Main definitions

* `Session` : the record of a session, with its upstream connections and its running handlers.
* `Handler` : a running request handler or download pump, by the point at which it waits.
* `proceed` : one stretch of a handler on its own session.
-/

namespace RvgGateway

namespace Xhttp

open Quota (Gate GateClass Reading)
open Relay (Parsed)
open Trojan (HashCache)

/-! ### Engines -/

/-- Which of the two engines. -/
inductive Kind where
  | vless
  | trojan
  deriving DecidableEq, Repr

/-- An engine. -/
structure Engine where
  kind : Kind
  /-- `hashlib.sha224(uid.encode()).hexdigest()`. -/
  sha224 : String → String

/-- The constants of the engine's gates. -/
def Kind.gateClass : Kind → GateClass
  | .vless => .xhttp
  | .trojan => .trojanXhttp

/-- What the engines read and write outside their sessions. -/
structure World where
  accounts : Accounts
  /-- `_hash_cache`. -/
  hashCache : HashCache

/-- `(link.get("protocol", "") or "").startswith("trojan")`. -/
def isTrojanLink (link : Link) : Bool := "trojan".toList.isPrefixOf link.protocol.toList

/-- `_check_link`. -/
def checkLink (kind : Kind) (w : World) (t : Clock) (uuid : String) : Bool :=
  match kind with
  | .vless => w.accounts.allows t uuid
  | .trojan =>
    match w.accounts.links.get? uuid with
    | none => false
    | some link => isTrojanLink link && w.accounts.allows t uuid

/-! ### Sessions -/

/-- `DOWNLINK_QUEUE_MAX`. -/
def downlinkQueueMax : ℕ := 512

/-- `SESSION_IDLE_TIMEOUT`. -/
def sessionIdleTimeout : ℚ := 30

/-- `SESSION_IDLE_TIMEOUT_ACTIVE`. -/
def sessionIdleTimeoutActive : ℚ := 90

/-- An upstream connection. -/
structure Writer where
  address : String
  port : ℕ
  /-- What was written to it. -/
  written : Bytes
  /-- `is_closing()`. -/
  closing : Bool
  deriving DecidableEq

/-- The reply of a request. -/
inductive Reply where
  | ok
  /-- `{"ok": True, "aborted": True}`. -/
  | aborted
  /-- `{"ok": True, "buffered": True}`. -/
  | buffered
  /-- `{"ok": True, "connected": True}`. -/
  | connected
  /-- `HTTPException`. -/
  | error (status : ℕ) (detail : String)
  /-- An exception that no handler catches. -/
  | crashed
  /-- Not a request: a pump, or a download that the client left. -/
  | none
  deriving DecidableEq, Repr

/-- The await in `_teardown` that has not returned. -/
inductive Stage where
  /-- `await task`. -/
  | task (pid : ℕ)
  /-- `await writer.wait_closed()`. -/
  | closed
  deriving DecidableEq, Repr

/-- Where a handler waits. -/
inductive Phase where
  /-- A task that has not run yet. -/
  | start
  /-- For its input: the body, the next chunk of the body, the target's data, the queue. -/
  | input
  /-- At `gate.add(len(data))`. -/
  | meter (data : Bytes)
  /-- For `open_connection`. -/
  | connect (header : Parsed) (isTrojan : Bool)
  /-- For the drain behind the payload of the header, on the new connection. -/
  | payload (w : ℕ) (isTrojan : Bool)
  /-- For `writer.drain()`. -/
  | drain
  /-- For room in the queue. -/
  | put (data : Bytes)
  /-- In `_teardown` of the session object `victim`, to end with `reply` after it. -/
  | teardown (victim : ℕ) (stage : Stage) (reply : Reply)
  deriving DecidableEq

/-- What a handler is, with its local variables. -/
inductive Role where
  | packetUp (seq : ℤ)
  | streamUp (writer : Option ℕ)
  | downlink
  /-- `_pump_tcp_to_queue` on the connection `w`; `first` asks for the prefix of VLESS. -/
  | pump (w : ℕ) (gate : Gate) (first : Bool)

/-- A running handler. -/
structure Handler where
  /-- The identifier in the path. -/
  uuid : String
  sid : String
  role : Role
  phase : Phase
  /-- `task.cancel()` was called. -/
  cancelled : Bool

/-- A task of the event loop. -/
inductive Task where
  | running (h : Handler)
  | done (reply : Reply)

/-- The handler of a task that is not done. -/
def Task.handler? : Task → Option Handler
  | running h => some h
  | done _ => none

/-- A session object. -/
structure Session where
  uuid : String
  mode : String
  /-- `writer`, one of `writers`. -/
  writer : Option ℕ
  downlinkTask : Option ℕ
  /-- `down_q`; `none` is the end marker. -/
  downQ : List (Option Bytes)
  lastSeen : ℚ
  tcpOpen : Bool
  closed : Bool
  seqBuf : Dict ℤ Bytes
  nextSeq : ℤ
  gate : Option Gate
  /-- `connections[conn_id]["bytes"]`, as long as the entry exists. -/
  connBytes : Option ℕ
  /-- The connections that were opened for the session. -/
  writers : List Writer
  /-- The tasks that hold the object, in the order of their start. -/
  tasks : List Task

namespace Session

/-- `_get_or_create_session`, a new one. -/
def init (uuid mode : String) (now : ℚ) : Session where
  uuid := uuid
  mode := mode
  writer := none
  downlinkTask := none
  downQ := []
  lastSeen := now
  tcpOpen := false
  closed := false
  seqBuf := ∅
  nextSeq := 0
  gate := none
  connBytes := some 0
  writers := []
  tasks := []

/-- `sess.get("gate")`, made if there is none. -/
def ensureGate (kind : Kind) (uuid : String) (monotonic : ℚ) (o : Session) : Gate :=
  o.gate.getD (.init kind.gateClass uuid monotonic)

/-- `writer.is_closing()`. -/
def isClosing (o : Session) (w : ℕ) : Bool := (o.writers[w]?.map Writer.closing).getD true

/-- `writer.write(data)`. -/
def write (o : Session) (w : ℕ) (data : Bytes) : Session :=
  { o with writers := o.writers.modify w fun c => { c with written := c.written ++ data } }

/-- The connection loses its peer, or is closed. -/
def close (o : Session) (w : ℕ) : Session :=
  { o with writers := o.writers.modify w fun c => { c with closing := true } }

/-- The handler of the task `pid`, if it is not done. -/
def handler? (o : Session) (pid : ℕ) : Option Handler := o.tasks[pid]?.bind Task.handler?

/-- The task `pid` becomes `t`. -/
def setTask (o : Session) (pid : ℕ) (t : Task) : Session := { o with tasks := o.tasks.set pid t }

/-- `down_q.put_nowait`: dropped when the queue is full. -/
def putNowait (o : Session) (item : Option Bytes) : Session :=
  if o.downQ.length < downlinkQueueMax then { o with downQ := o.downQ ++ [item] } else o

end Session

/-! ### One stretch of a handler -/

/-- What a handler waited for. -/
inductive Input where
  /-- `request.body()`, the next chunk of `request.stream()` or `reader.read()` returns. -/
  | data (data : Bytes)
  /-- The end of `request.stream()`. -/
  | finished
  /-- `ClientDisconnect`, a failed read, or the client of a download goes away. -/
  | lost
  /-- Nothing: the handler goes on. -/
  | go
  /-- The operation on the target fails. -/
  | failed
  deriving DecidableEq

/-- What a stretch reads from outside. -/
structure Moment where
  /-- `time.time()`. -/
  now : ℚ
  /-- For `gate.add`. -/
  reading : Reading
  /-- For `gate.flush`. -/
  flush : Reading
  /-- The write buffer is above the high-water mark. -/
  full : Bool

/-- A moment at which nothing else matters. -/
def momentAt (monotonic : ℚ) : Moment where
  now := monotonic
  reading := Quota.readingAt monotonic
  flush := Quota.readingAt monotonic
  full := false

/-- How a stretch ends. -/
inductive Next where
  | wait (h : Handler)
  | ends (reply : Reply)
  /-- `_teardown(session_id)`, and `reply` behind it. -/
  | teardown (reply : Reply)

/-- The task afterwards, unless it calls `_teardown`. -/
def Next.task? : Next → Option Task
  | wait h => some (.running h)
  | ends reply => some (.done reply)
  | teardown _ => none

/-- What can be observed of a step. -/
inductive Event where
  /-- `_get_or_create_session(uuid)` returned a session of `owner`. -/
  | got (uuid owner : String)
  /-- A request of `uuid` opens a connection; `allowed` tells whether its link is allowed then. -/
  | opened (uuid : String) (allowed : Bool)
  /-- A request of `uuid` writes to a connection of a session of `owner`. -/
  | wrote (uuid owner : String) (data : Bytes)
  /-- A `GET` of `uuid` is sent data of a session of `owner`. -/
  | delivered (uuid owner : String) (data : Bytes)
  deriving DecidableEq

/-- The outcome of a stretch. -/
structure Outcome where
  world : World
  session : Session
  next : Next
  events : List Event

section Proceed

variable (e : Engine)

/-- `gate.flush()` of an upload. -/
def flushGate (m : Moment) (world : World) (o : Session) : World × Session :=
  match o.gate with
  | none => (world, o)
  | some gate =>
    let (gate, accounts) := gate.flush m.flush world.accounts
    ({ world with accounts }, { o with gate := some gate })

/-- The end of an upload by an exception: `packet-up` tears down at once, `stream-up` flushes its
gate first. -/
def abandon (m : Moment) (h : Handler) (world : World) (o : Session) (reply : Reply) : Outcome :=
  match h.role with
  | .streamUp _ =>
    let (world, o) := flushGate m world o
    ⟨world, o, .teardown reply, []⟩
  | _ => ⟨world, o, .teardown reply, []⟩

/-- An upload fails after its gate let the bytes pass. -/
def fail (m : Moment) (h : Handler) (world : World) (o : Session) : Outcome :=
  match h.role with
  | .streamUp _ => abandon m h world o (.error 502 "stream error")
  | _ => abandon m h world o (.error 502 "write failed")

/-- `is_trojan`: in the VLESS engine the protocol of the link decides. -/
def usesTrojan (w : World) (uuid : String) : Bool :=
  match e.kind with
  | .trojan => true
  | .vless => ((w.accounts.links.get? uuid).map isTrojanLink).getD false

/-- The header of the first chunk, and whether it was read as a Trojan header: the parsing part of
`_open_tcp_for_session`. -/
def readHeader (uuid : String) (w : World) (chunk : Bytes) : Option (Parsed × Bool) × World :=
  if usesTrojan e w uuid then
    match Relay.parseTrojanHeader chunk with
    | none => (none, w)
    | some (pwHash, header) =>
      let (user, hashCache) := w.hashCache.findUuid e.sha224 w.accounts.links pwHash
      (user.map fun _ => (header, true), { w with hashCache })
  else ((Relay.parseVlessHeader chunk).map fun header => (header, false), w)

/-- Reading a header changes the hash cache only. -/
theorem readHeader_accounts (uuid : String) (w : World) (chunk : Bytes) :
    (readHeader e uuid w chunk).2.accounts = w.accounts := by
  unfold readHeader
  split
  · split <;> rfl
  · rfl

/-- The loop `while nxt in sess["seq_buf"]`: what the last round leaves, and the bytes to write.  On
a closing connection the first round raises, after it took the packet out of the buffer. -/
def drainSeqBuf (o : Session) (w : ℕ) (nxt : ℤ) :
    Except (Dict ℤ Bytes) (ℤ × Dict ℤ Bytes × Bytes) :=
  if o.isClosing w && o.seqBuf.contains nxt then .error (o.seqBuf.erase nxt)
  else .ok (Reorder.drain nxt o.seqBuf)

/-- The pump of a new connection `w`. -/
def newPump (m : Moment) (h : Handler) (w : ℕ) (isTrojan : Bool) : Handler where
  uuid := h.uuid
  sid := h.sid
  role := .pump w (.init e.kind.gateClass h.uuid m.reading.monotonic) (!isTrojan)
  phase := .start
  cancelled := false

/-- The end of `_open_tcp_for_session`: the connection `w` and its pump are entered. -/
def enterTcp (m : Moment) (h : Handler) (o : Session) (w : ℕ) (isTrojan : Bool) : Session :=
  { o with
    writer := some w
    tcpOpen := true
    downlinkTask := some o.tasks.length
    tasks := o.tasks ++ [.running (newPump e m h w isTrojan)] }

/-- The stretch behind `_open_tcp_for_session`, with the connection `w`. -/
def afterOpen (m : Moment) (h : Handler) (world : World) (o : Session) (w : ℕ) : Outcome :=
  match h.role with
  | .streamUp _ => ⟨world, o, .wait { h with role := .streamUp (some w), phase := .input }, []⟩
  | _ =>
    match drainSeqBuf o w 1 with
    | .error seqBuf => fail m h world { o with seqBuf }
    | .ok (nxt, seqBuf, data) =>
      ⟨world, { o.write w data with seqBuf, nextSeq := nxt }, .ends .connected,
        [.wrote h.uuid o.uuid data]⟩

/-- The end of `_open_tcp_for_session`, and the stretch behind it. -/
def finishOpen (m : Moment) (h : Handler) (world : World) (o : Session) (w : ℕ) (isTrojan : Bool) :
    Outcome :=
  afterOpen m h world (enterTcp e m h o w isTrojan) w

/-- The end of `packet_up_upload`: the drain, if the write buffer is full. -/
def finishPacket (m : Moment) (h : Handler) (world : World) (o : Session) (events : List Event) :
    Outcome :=
  if m.full then ⟨world, o, .wait { h with phase := .drain }, events⟩
  else ⟨world, o, .ends .ok, events⟩

/-- `packet_up_upload` with the connection open. -/
def writePacket (m : Moment) (h : Handler) (world : World) (o : Session) (w : ℕ) (seq : ℤ)
    (data : Bytes) : Outcome :=
  if seq = o.nextSeq then
    if o.isClosing w then fail m h world o
    else
      -- a connection that is open stays so for the rest of the stretch
      let (nxt, seqBuf, more) := Reorder.drain (seq + 1) o.seqBuf
      finishPacket m h world { o.write w (data ++ more) with seqBuf, nextSeq := nxt }
        [.wrote h.uuid o.uuid (data ++ more)]
  else finishPacket m h world { o with seqBuf := o.seqBuf.set seq data } []

/-- `_open_tcp_for_session` up to the connect. -/
def openTcp (m : Moment) (h : Handler) (world : World) (o : Session) (chunk : Bytes) : Outcome :=
  match readHeader e h.uuid world chunk with
  | (none, world) => fail m h world o
  | (some (header, isTrojan), world) =>
    ⟨world, o, .wait { h with phase := .connect header isTrojan },
      [.opened h.uuid (world.accounts.allows m.reading.clock h.uuid)]⟩

/-- `packet_up_upload` behind the count of the bytes. -/
def putPacket (m : Moment) (h : Handler) (world : World) (o : Session) (seq : ℤ) (data : Bytes) :
    Outcome :=
  match o.writer with
  | none =>
    if seq = 0 then openTcp e m h world o data
    else ⟨world, { o with seqBuf := o.seqBuf.set seq data }, .ends .buffered, []⟩
  | some w => writePacket m h world o w seq data

/-- `stream_up_upload` behind the count of the bytes; `writer` is the local variable. -/
def putChunk (m : Moment) (h : Handler) (world : World) (o : Session) (writer : Option ℕ)
    (data : Bytes) : Outcome :=
  match writer with
  | none => openTcp e m h world o data
  | some w =>
    if o.isClosing w then fail m h world o
    else
      ⟨world, o.write w data, .wait { h with phase := if m.full then .drain else .input },
        [.wrote h.uuid o.uuid data]⟩

/-- An upload after its gate let the bytes pass. -/
def upload (m : Moment) (h : Handler) (world : World) (o : Session) (data : Bytes) : Outcome :=
  match h.role with
  | .packetUp seq =>
    match o.connBytes with
    -- the entry in `connections` is gone: `KeyError`, outside the `try`
    | none => ⟨world, o, .ends .crashed, []⟩
    | some bytes =>
      putPacket e m h world { o with connBytes := some (bytes + data.length) } seq data
  | .streamUp writer =>
    putChunk e m h world { o with connBytes := o.connBytes.map (· + data.length) } writer data
  | _ => ⟨world, o, .ends .none, []⟩

/-- `gate.add` of an upload, and the stretch behind it. -/
def meterUpload (m : Moment) (h : Handler) (world : World) (o : Session) (data : Bytes) : Outcome :=
  let gate := o.ensureGate e.kind h.uuid m.reading.monotonic
  let (ok, gate, accounts) := gate.add data.length m.reading world.accounts
  let world := { world with accounts }
  let o := { o with gate := some gate }
  if ok then upload e m h world o data
  else abandon m h world o (.error 403 "quota/disabled/unknown")

/-- The `finally` of the pump. -/
def endPump (m : Moment) (gate : Gate) (world : World) (o : Session) : Outcome :=
  let (_, accounts) := gate.flush m.flush world.accounts
  ⟨{ world with accounts }, o, .teardown .none, []⟩

/-- `await down_q.put(data)` of the pump, and on to the next read. -/
def putData (h : Handler) (world : World) (o : Session) (data : Bytes) : Outcome :=
  if o.downQ.length < downlinkQueueMax then
    ⟨world, { o with downQ := o.downQ ++ [some data] }, .wait { h with phase := .input }, []⟩
  else ⟨world, o, .wait { h with phase := .put data }, []⟩

/-- `gate.add` of the pump, and the stretch behind it. -/
def meterPump (m : Moment) (h : Handler) (world : World) (o : Session) (w : ℕ) (gate : Gate)
    (first : Bool) (data : Bytes) : Outcome :=
  let (ok, gate, accounts) := gate.add data.length m.reading world.accounts
  let world := { world with accounts }
  if ok then
    let o := { o with connBytes := o.connBytes.map (· + data.length) }
    putData { h with role := .pump w gate false } world o (if first then [0, 0] ++ data else data)
  else endPump m gate world o

/-- The target of `_open_tcp_from_header` is connected: a new connection, with the payload of the
header. -/
def connected (m : Moment) (h : Handler) (world : World) (o : Session) (header : Parsed)
    (isTrojan : Bool) : Outcome :=
  let w := o.writers.length
  let o := { o with writers := o.writers ++ [⟨header.address, header.port, header.payload, false⟩] }
  if header.payload = [] then finishOpen e m h world o w isTrojan
  else
    ⟨world, o, .wait { h with phase := .payload w isTrojan }, [.wrote h.uuid o.uuid header.payload]⟩

/-- The stretches of an upload behind its input. -/
def proceedUpload (inp : Input) (m : Moment) (h : Handler) (world : World) (o : Session) :
    Option Outcome :=
  match h.phase, inp with
  | .meter data, .go => some (meterUpload e m h world o data)
  | .connect header isTrojan, .go => some (connected e m h world o header isTrojan)
  | .payload w isTrojan, .go => some (finishOpen e m h world o w isTrojan)
  | .connect .., .failed | .payload .., .failed | .drain, .failed => some (fail m h world o)
  | .drain, .go =>
    match h.role with
    | .streamUp _ => some ⟨world, o, .wait { h with phase := .input }, []⟩
    | _ => some ⟨world, o, .ends .ok, []⟩
  | _, _ => none

/-- `packet_up_upload`. -/
def proceedPacketUp (inp : Input) (m : Moment) (h : Handler) (world : World) (o : Session) :
    Option Outcome :=
  match h.phase, inp with
  | .input, .data data =>
    if data = [] then some ⟨world, o, .ends .ok, []⟩
    else
      let gate := o.ensureGate e.kind h.uuid m.reading.monotonic
      some ⟨world, { o with gate := some gate }, .wait { h with phase := .meter data }, []⟩
  | .input, .lost => some ⟨world, o, .ends .aborted, []⟩
  | _, _ => proceedUpload e inp m h world o

/-- `stream_up_upload`. -/
def proceedStreamUp (inp : Input) (m : Moment) (h : Handler) (world : World) (o : Session) :
    Option Outcome :=
  match h.phase, inp with
  | .input, .data data =>
    if data = [] then some ⟨world, o, .wait h, []⟩
    else some ⟨world, { o with lastSeen := m.now }, .wait { h with phase := .meter data }, []⟩
  | .input, .finished =>
    let (world, o) := flushGate m world o
    some ⟨world, o, .ends .ok, []⟩
  | .input, .lost => some (fail m h world o)
  | _, _ => proceedUpload e inp m h world o

/-- `_downstream_gen`. -/
def proceedDownlink (inp : Input) (m : Moment) (h : Handler) (world : World) (o : Session) :
    Option Outcome :=
  match h.phase, inp with
  | .input, .go =>
    match o.downQ with
    | [] => none
    | none :: downQ => some ⟨world, { o with downQ }, .ends .ok, []⟩
    | some data :: downQ =>
      some ⟨world, { o with downQ, lastSeen := m.now }, .wait h, [.delivered h.uuid o.uuid data]⟩
  | .input, .lost => some ⟨world, o, .ends .none, []⟩
  | _, _ => none

/-- `_pump_tcp_to_queue`; a pump that was cancelled gets the exception when it runs next. -/
def proceedPump (inp : Input) (m : Moment) (h : Handler) (world : World) (o : Session) (w : ℕ)
    (gate : Gate) (first : Bool) : Option Outcome :=
  match h.cancelled, h.phase, inp with
  -- before its first line nothing catches it
  | true, .start, .go => some ⟨world, o, .ends .none, []⟩
  | false, .start, .go =>
    let gate := .init e.kind.gateClass h.uuid m.reading.monotonic
    some ⟨world, o, .wait { h with role := .pump w gate first, phase := .input }, []⟩
  | true, .input, .go | true, .meter _, .go | true, .put _, .go => some (endPump m gate world o)
  | false, .input, .data data =>
    if data = [] then some (endPump m gate world o)
    else some ⟨world, o, .wait { h with phase := .meter data }, []⟩
  | false, .input, .lost => some (endPump m gate world o)
  | false, .meter data, .go => some (meterPump m h world o w gate first data)
  | false, .put data, .go => some (putData h world o data)
  | _, _, _ => none

/-- One stretch of a handler, outside `_teardown`; `none` if it does not wait for this input. -/
def proceed (inp : Input) (m : Moment) (h : Handler) (world : World) (o : Session) :
    Option Outcome :=
  match h.role with
  | .packetUp _ => proceedPacketUp e inp m h world o
  | .streamUp _ => proceedStreamUp e inp m h world o
  | .downlink => proceedDownlink inp m h world o
  | .pump w gate first => proceedPump e inp m h world o w gate first

end Proceed

end Xhttp

end RvgGateway
