import RvgGateway.Lib.Machine
import RvgGateway.Xhttp.Session

/-!
# The XHTTP engine

All sessions of an engine, the requests that arrive, the reaper, and `_teardown`, as one machine.
A step is one stretch of one task, from the wait at which it stood to the next one; which task goes
on, and with what, is up to the environment.

Session objects are numbered in the order of their creation, the tasks of an object in the order of
their start.  `xhttp_sessions` maps an identifier to the object that is registered under it: an
object that was torn down stays in the hands of the tasks that hold it, and the same identifier can
be registered again for another object.

`_teardown` is called by handlers, by pumps and by the reaper, and waits twice: for the cancelled
pump, and for the connection to close.  A pump that tears down its own session cancels itself, which
ends the first wait.
-/

namespace RvgGateway

namespace Xhttp

open Quota (Reading)
open Trojan (HashCache)

/-! ### `_teardown` of a session object -/

namespace Session

/-- `_teardown` from `connections.pop` on. -/
def finalise (o : Session) : Session := { o with connBytes := none }.putNowait none

/-- `_teardown` behind the tasks, with the wait that it reaches. -/
def shut (o : Session) : Session × Option Stage :=
  match o.writer with
  | none => (o.finalise, none)
  | some w => (o.close w, some .closed)

/-- `task.cancel()` for the task `pid`. -/
def cancel (o : Session) (pid : ℕ) (h : Handler) : Session :=
  o.setTask pid (.running { h with cancelled := true })

/-- `_teardown` from `closed = True` on, with the wait that it reaches. -/
def beginTeardown (o : Session) : Session × Option Stage :=
  let o := { o with closed := true }
  match o.downlinkTask with
  | none => o.shut
  | some pid =>
    match o.handler? pid with
    | none => o.shut
    | some h => (o.cancel pid h, some (.task pid))

/-- `_teardown` goes on behind a wait, in a task that was `cancelled` or not; `none` if the wait is
not over.  The first wait is inside `except CancelledError`, the second one is not. -/
def continueTeardown (o : Session) (cancelled : Bool) : Stage → Option (Session × Option Stage)
  | .task pid => if cancelled || (o.handler? pid).isNone then some o.shut else none
  | .closed => some (if cancelled then (o, none) else (o.finalise, none))

/-- `idle > SESSION_IDLE_TIMEOUT`, with the timeout of the session. -/
def stale (now : ℚ) (o : Session) : Bool :=
  (if o.tcpOpen then sessionIdleTimeoutActive else sessionIdleTimeout) < now - o.lastSeen

/-- The first stretch of a request on the session: `serve` unless the session is closed. -/
def serve (serve : Session → Session × Task) (o : Session) : Session :=
  if o.closed then { o with tasks := o.tasks ++ [.done (.error 404 "session closed")] }
  else
    let (o, task) := serve o
    { o with tasks := o.tasks ++ [task] }

end Session

/-! ### The engine -/

/-- `_reaper` in its round: the identifiers that it still has to tear down, and the `_teardown` that
has not returned. -/
structure Reaper where
  todo : List String
  current : Option (ℕ × Stage)

/-- The state of an engine. -/
structure EngineState where
  world : World
  /-- `xhttp_sessions`: the number of the object. -/
  sessions : Dict String ℕ
  /-- All session objects. -/
  objects : List Session
  reaper : Reaper

namespace EngineState

/-- An engine without sessions. -/
def init (world : World) : EngineState := ⟨world, ∅, [], ⟨[], none⟩⟩

/-- The object `i` becomes `o`. -/
def put (s : EngineState) (i : ℕ) (o : Session) : EngineState :=
  { s with objects := s.objects.set i o }

/-- The task `pid` of the object `i` becomes `t`. -/
def setTask (s : EngineState) (i pid : ℕ) (t : Task) : EngineState :=
  { s with objects := s.objects.modify i fun o => o.setTask pid t }

/-- The task `pid` of the object `i` waits in `_teardown`. -/
def waitTeardown (s : EngineState) (i pid victim : ℕ) (stage : Stage) (reply : Reply) :
    EngineState :=
  { s with
    objects := s.objects.modify i fun o =>
      match o.handler? pid with
      | none => o
      | some h => o.setTask pid (.running { h with phase := .teardown victim stage reply }) }

/-- `_teardown(session_id)` up to its first wait: the object that is torn down, and the wait. -/
def beginTeardown (s : EngineState) (sid : String) : EngineState × Option (ℕ × Stage) :=
  match s.sessions.get? sid with
  | none => (s, none)
  | some victim =>
    match s.objects[victim]? with
    | none => (s, none)
    | some o =>
      let (o, stage) := o.beginTeardown
      ({ s.put victim o with sessions := s.sessions.erase sid }, stage.map (victim, ·))

/-- The task `pid` of the object `i` calls `_teardown`, to end with `reply`. -/
def teardown (s : EngineState) (i pid : ℕ) (h : Handler) (reply : Reply) : EngineState :=
  -- the `CancelledError` that brought the task here is used up
  let s := s.setTask i pid (.running { h with cancelled := false })
  match s.beginTeardown h.sid with
  | (s, none) => s.setTask i pid (.done reply)
  | (s, some (victim, stage)) => s.waitTeardown i pid victim stage reply

/-- The task `pid` of the object `i` goes on in `_teardown`. -/
def resumeTeardown (s : EngineState) (i pid : ℕ) (h : Handler) (victim : ℕ) (stage : Stage)
    (reply : Reply) : Option EngineState :=
  match s.objects[victim]? with
  | none => none
  | some o =>
    match o.continueTeardown h.cancelled stage with
    | none => none
    | some (o, none) => some ((s.put victim o).setTask i pid (.done reply))
    | some (o, some stage) =>
      some ((s.put victim o).setTask i pid
        (.running { h with phase := .teardown victim stage reply, cancelled := false }))

/-- What a stretch of the task `pid` of the object `i` leaves. -/
def conclude (s : EngineState) (i pid : ℕ) (h : Handler) (out : Outcome) : EngineState :=
  let s := { s.put i out.session with world := out.world }
  match out.next with
  | .wait h => s.setTask i pid (.running h)
  | .ends reply => s.setTask i pid (.done reply)
  | .teardown reply => s.teardown i pid h reply

/-- `_get_or_create_session`: the number of the session. -/
def getOrCreateSession (s : EngineState) (uuid mode sid : String) (now : ℚ) : EngineState × ℕ :=
  match s.sessions.get? sid with
  | some i => ({ s with objects := s.objects.modify i fun o => { o with lastSeen := now } }, i)
  | none =>
    ({ s with
        sessions := s.sessions.set sid s.objects.length
        objects := s.objects ++ [.init uuid mode now] }, s.objects.length)

/-- A request gets its session and is served on it. -/
def arrive (s : EngineState) (uuid mode sid : String) (now : ℚ) (serve : Session → Session × Task) :
    EngineState × List Event :=
  let (s, i) := s.getOrCreateSession uuid mode sid now
  match s.objects[i]? with
  | none => (s, [])
  | some o => (s.put i (o.serve serve), [.got uuid o.uuid])

/-- The `for` loop of `_reaper`, up to a wait. -/
def sweep (s : EngineState) : List String → EngineState
  | [] => { s with reaper := ⟨[], none⟩ }
  | sid :: todo =>
    match s.beginTeardown sid with
    | (s, none) => sweep s todo
    | (s, some current) => { s with reaper := ⟨todo, some current⟩ }

end EngineState

/-- What can happen. -/
inductive Label where
  /-- A `POST` of `packet-up` arrives. -/
  | packetUp (uuid sid : String) (seq : ℤ) (now : ℚ)
  /-- A `POST` of `stream-up` arrives. -/
  | streamUp (uuid sid : String) (now monotonic : ℚ)
  /-- A `GET` arrives. -/
  | downlink (mode uuid sid : String) (now : ℚ) (clock : Clock)
  /-- The task `pid` of the object `i` goes on. -/
  | resume (i pid : ℕ) (inp : Input) (m : Moment)
  /-- The connection `w` of the object `i` loses its peer. -/
  | lose (i w : ℕ)
  /-- The reaper wakes up. -/
  | reap (now : ℚ)
  /-- The reaper goes on in `_teardown`. -/
  | sweep
  /-- Any other use or change of the links and the hash cache. -/
  | other (accounts : Accounts) (hashCache : HashCache)

/-- The task of an upload or a download that was let in. -/
def newTask (uuid sid : String) (role : Role) : Task :=
  .running { uuid, sid, role, phase := .input, cancelled := false }

/-- `packet_up_upload` up to its body. -/
def servePacketUp (uuid sid : String) (seq : ℤ) (o : Session) : Session × Task :=
  (o, newTask uuid sid (.packetUp seq))

/-- `xhttp_downlink` up to the first chunk. -/
def serveDownlink (uuid sid : String) (o : Session) : Session × Task :=
  (o, newTask uuid sid .downlink)

/-- `stream_up_upload` up to its body. -/
def serveStreamUp (kind : Kind) (uuid sid : String) (monotonic : ℚ) (o : Session) :
    Session × Task :=
  let o := { o with gate := some (o.ensureGate kind uuid monotonic) }
  match o.connBytes with
  -- `connections[sess["conn_id"]]` raises
  | none => (o, .done .crashed)
  | some _ => (o, newTask uuid sid (.streamUp o.writer))

/-- The task `pid` of the object `i` goes on. -/
def EngineState.resume (e : Engine) (s : EngineState) (i pid : ℕ) (inp : Input) (m : Moment) :
    Option (EngineState × List Event) :=
  match s.objects[i]? with
  | none => none
  | some o =>
    match o.handler? pid with
    | none => none
    | some h =>
      match h.phase with
      | .teardown victim stage reply =>
        if inp = .go then (s.resumeTeardown i pid h victim stage reply).map (·, []) else none
      | _ => (proceed e inp m h s.world o).map fun out => (s.conclude i pid h out, out.events)

/-- The reaper goes on in the `_teardown` of the object `victim`. -/
def EngineState.resumeReaper (s : EngineState) (victim : ℕ) (stage : Stage) : Option EngineState :=
  match s.objects[victim]? with
  | none => none
  | some o =>
    match o.continueTeardown false stage with
    | none => none
    | some (o, none) => some ((s.put victim o).sweep s.reaper.todo)
    | some (o, some stage) =>
      some { s.put victim o with reaper := ⟨s.reaper.todo, some (victim, stage)⟩ }

/-- The identifiers that the reaper finds stale. -/
def EngineState.staleSessions (s : EngineState) (now : ℚ) : List String :=
  s.sessions.keys.filter fun sid =>
    (((s.sessions.get? sid).bind (s.objects[·]?)).map (Session.stale now)).getD false

/-- One step, with what can be observed of it. -/
def EngineState.next (e : Engine) (s : EngineState) : Label → Option (EngineState × List Event)
  | .packetUp uuid sid seq now =>
    some (s.arrive uuid "packet-up" sid now (servePacketUp uuid sid seq))
  | .streamUp uuid sid now monotonic =>
    some (s.arrive uuid "stream-up" sid now (serveStreamUp e.kind uuid sid monotonic))
  | .downlink mode uuid sid now clock =>
    if checkLink e.kind s.world clock uuid then
      some (s.arrive uuid mode sid now (serveDownlink uuid sid))
    else some (s, [])
  | .resume i pid inp m => s.resume e i pid inp m
  | .lose i w => (s.objects[i]?).map fun o => (s.put i (o.close w), [])
  | .reap now =>
    match s.reaper with
    | ⟨[], none⟩ => some (s.sweep (s.staleSessions now), [])
    | _ => none
  | .sweep =>
    match s.reaper.current with
    | none => none
    | some (victim, stage) => (s.resumeReaper victim stage).map (·, [])
  | .other accounts hashCache => some ({ s with world := ⟨accounts, hashCache⟩ }, [])

/-- The engine as a machine. -/
def machine (e : Engine) : Machine EngineState Label := ⟨fun s l => (s.next e l).map Prod.fst⟩

/-- What can be observed of the step `l` in `s`. -/
def emitted (e : Engine) (s : EngineState) (l : Label) : List Event :=
  ((s.next e l).map Prod.snd).getD []

end Xhttp

end RvgGateway
