import Mathlib.Data.List.ReduceOption
import RvgGateway.Xhttp.EndMarker

/-!
# What a download delivers

`_pump_tcp_to_queue` reads from the target, asks its gate, puts two zero bytes in front of the first
chunk for VLESS, and puts the chunk into `down_q`; `_downstream_gen` takes the chunks out for a `GET`.
A session can have several pumps, when uploads have opened several connections for it, and several
downloads.  The chunks are followed here with a record of what was read from the targets and of what
was sent.

* `downstreamMachine` : the engine with these records.
* `Session.Flows` : what was sent, and then what is in the queue, is what the pumps have put, and each
  pump has put what it has read.
* `download_exact` : **in every state of a run this is so**, with at most one chunk of each pump still
  under way.
-/

namespace RvgGateway

namespace Xhttp

/-! ### The engine with its records -/

/-- What a pump puts for the chunks it reads: `vlessPrefix` asks for two zero bytes in front. -/
def framed (vlessPrefix : Bool) : List Bytes → List Bytes
  | [] => []
  | data :: rest => (if vlessPrefix then [0, 0] ++ data else data) :: rest

/-- What a stretch of the handler reads from the target. -/
def Handler.reads (h : Handler) : Input → List Bytes
  | .data data =>
    match h.role, h.phase with
    | .pump _ _ _, .input => if data = [] then [] else [data]
    | _, _ => []
  | _ => []

/-- What a stretch of the handler sends to the client of a download. -/
def Handler.sends (h : Handler) (o : Session) : Input → List Bytes
  | .go =>
    match h.role, h.phase, o.downQ with
    | .downlink, .input, some data :: _ => [data]
    | _, _, _ => []
  | _ => []

/-- An engine, and what has gone through its queues. -/
structure Downstream where
  engine : EngineState
  /-- What was read from the targets: the object, the pump and the data. -/
  read : List (ℕ × ℕ × Bytes)
  /-- What was sent to the clients: the object and the data. -/
  sent : List (ℕ × Bytes)

namespace Downstream

/-- An engine without sessions. -/
def init (world : World) : Downstream := ⟨.init world, [], []⟩

/-- What the pump `pid` of the object `k` has read. -/
def reads (s : Downstream) (k pid : ℕ) : List Bytes :=
  s.read.filterMap fun r => if r.1 = k ∧ r.2.1 = pid then some r.2.2 else none

/-- What the downloads of the object `k` have sent. -/
def sends (s : Downstream) (k : ℕ) : List Bytes :=
  s.sent.filterMap fun r => if r.1 = k then some r.2 else none

/-- What a step reads. -/
def readBy (s : EngineState) : Label → List (ℕ × ℕ × Bytes)
  | .resume k pid inp _ =>
    match (s.objects[k]?).bind (·.handler? pid) with
    | none => []
    | some h => (h.reads inp).map (k, pid, ·)
  | _ => []

/-- What a step sends. -/
def sentBy (s : EngineState) : Label → List (ℕ × Bytes)
  | .resume k pid inp _ =>
    match s.objects[k]? with
    | none => []
    | some o =>
      match o.handler? pid with
      | none => []
      | some h => (h.sends o inp).map (k, ·)
  | _ => []

end Downstream

open Downstream (readBy sentBy)

/-- The engine with its records. -/
def downstreamMachine (e : Engine) : Machine Downstream Label where
  step s l := ((machine e).step s.engine l).map fun engine =>
    ⟨engine, s.read ++ readBy s.engine l, s.sent ++ sentBy s.engine l⟩

/-! ### One object -/

/-- The chunks in the queue. -/
def Session.queued (o : Session) : List Bytes := o.downQ.reduceOption

/-- The chunks that the pump `pid` has put. -/
def putBy (puts : List (ℕ × Bytes)) (pid : ℕ) : List Bytes :=
  puts.filterMap fun p => if p.1 = pid then some p.2 else none

/-- What is so of a pump at each place: `front` is what it has put of what it has read, `rest` what
not yet. -/
def Phase.Holds (vlessPrefix first : Bool) (front rest : List Bytes) : Phase → Prop
  | .start => front = [] ∧ rest = [] ∧ first = vlessPrefix
  | .input => rest = [] ∧ first = (vlessPrefix && front.isEmpty)
  | .meter data => rest = [data] ∧ first = (vlessPrefix && front.isEmpty)
  | .put data => first = false ∧ ∃ read, rest = [read] ∧
    framed vlessPrefix (front ++ [read]) = framed vlessPrefix front ++ [data]
  | _ => True

/-- A task has put what it has read, up to a chunk. -/
def Pumped (h? : Option Handler) (reads puts : List Bytes) : Prop :=
  ∃ vlessPrefix front rest, reads = front ++ rest ∧ rest.length ≤ 1 ∧
    puts = framed vlessPrefix front ∧ ∀ h w gate first, h? = some h → h.role = .pump w gate first →
      h.phase.Holds vlessPrefix first front rest

/-- What the pumps of the object have put was sent or is in the queue. -/
def Session.Flows (o : Session) (reads : ℕ → List Bytes) (sends : List Bytes) : Prop :=
  ∃ puts : List (ℕ × Bytes), puts.map Prod.snd = sends ++ o.queued ∧
    (∀ pid, o.tasks.length ≤ pid → reads pid = [] ∧ putBy puts pid = []) ∧
    ∀ pid, Pumped (o.handler? pid) (reads pid) (putBy puts pid)

theorem framed_append (v : Bool) (front : List Bytes) (data : Bytes) :
    framed v (front ++ [data]) =
      framed v front ++ [if v && front.isEmpty then [0, 0] ++ data else data] := by
  cases front with
  | nil => simp [framed]
  | cons d front => simp [framed]

theorem putBy_append (puts : List (ℕ × Bytes)) (pid : ℕ) (data : List Bytes) (pid' : ℕ) :
    putBy (puts ++ data.map (pid, ·)) pid' = putBy puts pid' ++ if pid' = pid then data else [] := by
  unfold putBy
  rw [List.filterMap_append, List.filterMap_map]
  congr 1
  split_ifs with hpid
  · subst hpid
    simp
  · simp [Ne.symm hpid]

/-! ### What leaves the pumps alone -/

/-- No pump moves: it is as it was, goes to `_teardown`, or is new. -/
structure Session.Spares (o o' : Session) : Prop where
  queued : o'.queued = o.queued
  length : o.tasks.length ≤ o'.tasks.length
  handler : ∀ pid h', o'.handler? pid = some h' → h'.role.kind = .pump →
    (∃ h, o.handler? pid = some h ∧ h.role = h'.role ∧
      (h'.phase = h.phase ∨ h'.phase.outside = false)) ∨
    o.tasks.length ≤ pid ∧ (h'.phase = .start ∨ h'.phase = .input ∨ h'.phase.outside = false)

namespace Session.Spares

variable {o o₁ o' : Session}

theorem of_tasks (hqueued : o'.queued = o.queued) (htasks : o'.tasks = o.tasks) : o.Spares o' where
  queued := hqueued
  length := htasks ▸ le_rfl
  handler pid h' hh' _ := by
    have hsame : o'.handler? pid = o.handler? pid := by unfold handler?; rw [htasks]
    exact .inl ⟨h', hsame ▸ hh', rfl, .inl rfl⟩

theorem trans (h₁ : o.Spares o₁) (h₂ : o₁.Spares o') : o.Spares o' where
  queued := h₂.queued.trans h₁.queued
  length := h₁.length.trans h₂.length
  handler pid h' hh' hkind' := by
    rcases h₂.handler pid h' hh' hkind' with ⟨h, hh, hrole, hphase⟩ | ⟨hnew, hphase⟩
    · rcases h₁.handler pid h hh (hrole ▸ hkind') with ⟨h₀, hh₀, hrole₀, hphase₀⟩ | ⟨hnew, hphase₀⟩
      · refine .inl ⟨h₀, hh₀, hrole₀.trans hrole, ?_⟩
        rcases hphase with hphase | hphase
        · rwa [hphase]
        · exact .inr hphase
      · refine .inr ⟨hnew, ?_⟩
        rcases hphase with hphase | hphase
        · rwa [hphase]
        · exact .inr (.inr hphase)
    · exact .inr ⟨h₁.length.trans hnew, hphase⟩

end Session.Spares

theorem holds_of_teardown {v first : Bool} {front rest : List Bytes} {phase : Phase}
    (h : phase.outside = false) : phase.Holds v first front rest := by
  cases phase with
  | teardown => trivial
  | start | input | meter | connect | payload | drain | put => cases h

/-- What leaves the pumps alone leaves it so. -/
theorem Session.Flows.spares {o o' : Session} {reads : ℕ → List Bytes} {sends : List Bytes}
    (ho : o.Flows reads sends) (hspares : o.Spares o') : o'.Flows reads sends := by
  obtain ⟨puts, hputs, hnew, hpumped⟩ := ho
  refine ⟨puts, hputs.trans (by rw [hspares.queued]),
    fun pid hpid => hnew pid (hspares.length.trans hpid),
    fun pid => ?_⟩
  cases hh' : o'.handler? pid with
  | none =>
    obtain ⟨v, front, rest, hreads, hrest, hput, -⟩ := hpumped pid
    exact ⟨v, front, rest, hreads, hrest, hput, fun h _ _ _ heq _ => by cases heq⟩
  | some h' =>
    by_cases hkind : h'.role.kind = .pump
    · rcases hspares.handler pid h' hh' hkind with ⟨h, hh, hrole, hphase⟩ | ⟨hpid, hphase⟩
      · obtain ⟨v, front, rest, hreads, hrest, hput, hholds⟩ := hpumped pid
        refine ⟨v, front, rest, hreads, hrest, hput, fun h₁ w gate first heq hpump => ?_⟩
        cases heq
        rcases hphase with hphase | hphase
        · rw [hphase]
          exact hholds h w gate first hh (hrole.trans hpump)
        · exact holds_of_teardown hphase
      · -- a new pump has read nothing, and it asks for the prefix itself
        obtain ⟨hreads, hput⟩ := hnew pid hpid
        rw [hreads, hput]
        cases hrole : h'.role with
        | pump w gate first =>
          refine ⟨first, [], [], rfl, Nat.zero_le _, rfl, fun h₁ w₁ gate₁ first₁ heq hpump => ?_⟩
          cases heq
          cases hrole.symm.trans hpump
          rcases hphase with hphase | hphase | hphase
          · rw [hphase]
            exact ⟨rfl, rfl, rfl⟩
          · rw [hphase]
            exact ⟨rfl, (Bool.and_true _).symm⟩
          · exact holds_of_teardown hphase
        | packetUp | streamUp | downlink =>
          rw [hrole] at hkind
          cases hkind
    · obtain ⟨v, front, rest, hreads, hrest, hput, -⟩ := hpumped pid
      refine ⟨v, front, rest, hreads, hrest, hput, fun h₁ w gate first heq hpump => ?_⟩
      cases heq
      rw [hpump] at hkind
      exact absurd rfl hkind

/-- `_teardown` leaves the pumps alone. -/
theorem spares_tends {actor : Option ℕ} {o o' : Session} (ht : Session.Tends actor o o') :
    o.Spares o' := by
  have hqueued : o'.queued = o.queued := by
    unfold Session.queued
    rcases Session.Closes.follows (.single ht) with ⟨-, hqueue⟩ | ⟨-, ⟨-, n, hqueue⟩ | ⟨-, hqueue⟩⟩
    · rw [hqueue]
    · rw [hqueue, List.reduceOption_append, List.reduceOption_replicate_none, List.append_nil]
    · rw [hqueue]
  have hlength : o'.tasks.length = o.tasks.length :=
    Session.Tolerates.follows
      (R := fun o o' => o'.tasks.length = o.tasks.length)
      (Session.tolerates_field (fun _ => rfl) (fun _ _ => rfl) fun _ _ => rfl)
      (fun _ _ _ => List.length_set ..) (.single ht)
  refine ⟨hqueued, hlength.ge, fun pid' h' hh' _ => .inl ?_⟩
  cases ht with
  | begin =>
    obtain ⟨h, hh, -, -, hrole, hphase⟩ := (Session.Tended.beginTeardown o).handler_of pid' h' hh'
    exact ⟨h, hh, hrole.symm, .inl hphase⟩
  | «continue» hres =>
    obtain ⟨h, hh, -, -, hrole, hphase⟩ := (Session.Tended.continueTeardown hres).handler_of pid' h' hh'
    exact ⟨h, hh, hrole.symm, .inl hphase⟩
  | finish =>
    rcases Session.handler?_of_setTask hh' with ⟨-, heq⟩ | hold
    · cases heq
    · exact ⟨h', hold, rfl, .inl rfl⟩
  | park hpid hh hrole hphase =>
    rcases Session.handler?_of_setTask hh' with ⟨rfl, heq⟩ | hold
    · cases heq
      exact ⟨_, hh, hrole.symm, .inr (by rw [hphase]; rfl)⟩
    · exact ⟨h', hold, rfl, .inl rfl⟩

theorem spares_follows {actor : Option ℕ} {o o' : Session}
    (ht : Relation.ReflTransGen (Session.Tends actor) o o') : o.Spares o' := by
  induction ht with
  | refl => exact .of_tasks rfl rfl
  | tail _ htend ih => exact ih.trans (spares_tends htend)

variable {e : Engine} {o o₁ o' : Session} {reads : ℕ → List Bytes} {sends : List Bytes} {pid : ℕ}
  {h : Handler} {inp : Input} {m : Moment} {world : World} {out : Outcome}

/-- A request starts no pump that has read something. -/
theorem spares_serve {r : Request} {s : EngineState} {l : Label} (hr : l.request? e.kind = some r)
    (hin : l.admitted e.kind s.world = true) (o : Session) : o.Spares (o.serve r.serve) := by
  obtain ⟨-, hqueue, t, htasks, -⟩ := serve_download hr hin o
  refine ⟨congrArg List.reduceOption hqueue, by rw [htasks]; simp, fun pid h' hh' _ => ?_⟩
  by_cases hpid : pid < o.tasks.length
  · refine .inl ⟨h', ?_, rfl, .inl rfl⟩
    rw [Session.handler?_eq_some, htasks, List.getElem?_append_left hpid] at hh'
    exact Session.handler?_eq_some.2 hh'
  · refine .inr ⟨Nat.not_lt.1 hpid, .inr (.inl ?_)⟩
    rcases (Label.request?_serves hr).handler?_of_serve hh' with ⟨-, -, hphase⟩ | hold
    · exact hphase
    · exact absurd (List.getElem?_eq_some_iff.1 (Session.handler?_eq_some.1 hold)).1 hpid

/-- A task that is none of the pumps. -/
theorem spares_setTask (o : Session) (pid : ℕ) {t : Task}
    (ht : ∀ h', t = .running h' → h'.role.kind ≠ .pump) : o.Spares (o.setTask pid t) where
  queued := rfl
  length := (List.length_set ..).ge
  handler pid' h' hh' hkind' := by
    rcases Session.handler?_of_setTask hh' with ⟨-, htask⟩ | hold
    · exact absurd hkind' (ht h' htask)
    · exact .inl ⟨h', hold, rfl, .inl rfl⟩

/-- A stretch that leaves the queue alone, and may start a pump. -/
theorem spares_stays (hout : proceed e inp m h world o = some out)
    (hqueued : out.session.queued = o.queued) : o.Spares out.session := by
  rcases (proceed_stays hout).tasks_eq with htasks | ⟨p, htasks, -, -, hphase, -⟩
  · exact .of_tasks hqueued htasks
  · refine ⟨hqueued, by rw [htasks]; simp, fun pid h' hh' _ => ?_⟩
    rw [Session.handler?_eq_some, htasks, List.getElem?_append] at hh'
    split_ifs at hh' with hlt
    · exact .inl ⟨h', Session.handler?_eq_some.2 hh', rfl, .inl rfl⟩
    · refine .inr ⟨Nat.not_lt.1 hlt, .inl ?_⟩
      obtain ⟨hone, hget⟩ := List.getElem?_eq_some_iff.1 hh'
      cases (List.getElem_singleton _).symm.trans hget
      exact hphase

/-! ### Stretches -/

/-- The reads of the object when the task `pid` has read more. -/
def alsoRead (reads : ℕ → List Bytes) (pid : ℕ) (data : List Bytes) : ℕ → List Bytes :=
  fun pid' => reads pid' ++ if pid' = pid then data else []

theorem alsoRead_nil (reads : ℕ → List Bytes) (pid : ℕ) : alsoRead reads pid [] = reads := by
  funext pid'
  simp [alsoRead]

/-- A pump goes on: it has read `data` and puts `put`. -/
theorem Session.Flows.move (ho : o.Flows reads sends) (hh : o.handler? pid = some h)
    (htasks : o₁.tasks = o.tasks) {data put : List Bytes} (hqueued : o₁.queued = o.queued ++ put)
    {t : Task} (hpumped : ∀ puts, Pumped (some h) (reads pid) puts →
      Pumped t.handler? (reads pid ++ data) (puts ++ put)) :
    (o₁.setTask pid t).Flows (alsoRead reads pid data) sends := by
  have hlt : pid < o.tasks.length :=
    (List.getElem?_eq_some_iff.1 (Session.handler?_eq_some.1 hh)).1
  obtain ⟨puts, hputs, hnew, hall⟩ := ho
  refine ⟨puts ++ put.map (pid, ·), ?_, fun pid' hpid' => ?_, fun pid' => ?_⟩
  · change _ = sends ++ o₁.queued
    rw [hqueued, List.map_append, hputs, List.append_assoc]
    simp [Function.comp_def]
  · have hle : o.tasks.length ≤ pid' := by
      have hset : (o₁.setTask pid t).tasks.length = o.tasks.length := by
        rw [← htasks]
        exact List.length_set ..
      exact hset ▸ hpid'
    obtain ⟨hreads, hput⟩ := hnew pid' hle
    have hne : pid' ≠ pid := (hlt.trans_le hle).ne'
    rw [putBy_append, alsoRead, hreads, hput, if_neg hne, if_neg hne]
    exact ⟨rfl, rfl⟩
  · rw [putBy_append, alsoRead]
    by_cases hpid : pid' = pid
    · subst hpid
      have hset : (o₁.setTask pid' t).handler? pid' = t.handler? := by
        unfold Session.handler? Session.setTask
        simp [htasks, hlt]
      rw [if_pos rfl, if_pos rfl, hset]
      exact hpumped _ (hh ▸ hall pid')
    · have hset : (o₁.setTask pid t).handler? pid' = o.handler? pid' := by
        unfold Session.handler? Session.setTask
        simp [htasks, List.getElem?_set_ne (Ne.symm hpid)]
      rw [if_neg hpid, if_neg hpid, List.append_nil, List.append_nil, hset]
      exact hall pid'

/-- A task that ends or goes to `_teardown` keeps what it has. -/
theorem Pumped.leave {reads puts : List Bytes} {t : Task} (hp : Pumped (some h) reads puts)
    (ht : ∀ h', t = .running h' → h'.role = h.role ∧ h'.phase = h.phase) :
    Pumped t.handler? (reads ++ []) (puts ++ []) := by
  obtain ⟨v, front, rest, hreads, hrest, hputs, hholds⟩ := hp
  rw [List.append_nil, List.append_nil]
  refine ⟨v, front, rest, hreads, hrest, hputs, fun h' w gate first hh' hrole => ?_⟩
  cases t with
  | done reply => cases hh'
  | running h₁ =>
    cases hh'
    obtain ⟨heq, hphase⟩ := ht h' rfl
    rw [hphase]
    exact hholds h w gate first rfl (heq.symm.trans hrole)

/-- What is so of a pump, by the place where it is. -/
theorem Pumped.holds {reads puts : List Bytes} {w : ℕ} {gate : Quota.Gate} {first : Bool}
    (hp : Pumped (some h) reads puts) (hrole : h.role = .pump w gate first) :
    ∃ v front rest, reads = front ++ rest ∧ puts = framed v front ∧
      h.phase.Holds v first front rest := by
  obtain ⟨v, front, rest, hreads, -, hputs, hholds⟩ := hp
  exact ⟨v, front, rest, hreads, hputs, hholds h w gate first rfl hrole⟩

theorem pumped_of_holds {w : ℕ} {gate : Quota.Gate} {first : Bool} (v : Bool)
    (front rest : List Bytes) (hrole : h.role = .pump w gate first) (hrest : rest.length ≤ 1)
    (hholds : h.phase.Holds v first front rest) :
    Pumped (some h) (front ++ rest) (framed v front) := by
  refine ⟨v, front, rest, rfl, hrest, rfl, fun h₁ w₁ gate₁ first₁ hh hrole₁ => ?_⟩
  cases hh
  cases hrole.symm.trans hrole₁
  exact hholds

/-- The pump puts a chunk, or waits for room. -/
theorem putData_pumped {w : ℕ} {gate : Quota.Gate} {first : Bool} (h' : Handler)
    (hrole : h'.role = .pump w gate first) (world : World) (o : Session) (data : Bytes) :
    ∃ put, (putData h' world o data).session.queued = o.queued ++ put ∧
      (putData h' world o data).session.tasks = o.tasks ∧ ∀ h v front read,
        first = false → framed v (front ++ [read]) = framed v front ++ [data] →
          Pumped (((putData h' world o data).next.left h).handler?) (front ++ [read])
            (framed v front ++ put) := by
  unfold putData
  split
  · refine ⟨[data], ?_, rfl, fun h v front read hfirst hdata => ?_⟩
    · unfold Session.queued
      rw [List.reduceOption_append]
      rfl
    · have hput : Pumped (some { h' with phase := .input }) (front ++ [read] ++ [])
          (framed v (front ++ [read])) :=
        pumped_of_holds v _ [] hrole (Nat.zero_le _) ⟨rfl, by cases front <;> simp [hfirst]⟩
      rw [List.append_nil, hdata] at hput
      exact hput
  · refine ⟨[], (List.append_nil _).symm, rfl, fun h v front read hfirst hdata => ?_⟩
    rw [List.append_nil]
    exact pumped_of_holds (h := { h' with phase := .put data }) v front [read] hrole le_rfl
      ⟨hfirst, read, rfl, hdata⟩

/-- The end of a pump puts nothing. -/
theorem endPump_pumped (hnone : h.reads inp = []) (gate : Quota.Gate) (world : World) :
    ∃ put, (endPump m gate world o).session.queued = o.queued ++ put ∧
      (endPump m gate world o).session.tasks = o.tasks ∧
      ∀ reads puts, Pumped (some h) reads puts →
        Pumped ((endPump m gate world o).next.left h).handler? (reads ++ h.reads inp)
          (puts ++ put) := by
  refine ⟨[], (List.append_nil _).symm, rfl, fun reads puts hp => ?_⟩
  rw [hnone]
  refine hp.leave fun h' heq => ?_
  cases heq
  exact ⟨rfl, rfl⟩

/-- A stretch of a pump keeps what is so of it. -/
theorem pump_stretch {w : ℕ} {gate : Quota.Gate} {first : Bool} (hrole : h.role = .pump w gate first)
    (hout : proceedPump e inp m h world o w gate first = some out) :
    ∃ put, out.session.queued = o.queued ++ put ∧ out.session.tasks = o.tasks ∧
      ∀ reads puts, Pumped (some h) reads puts →
        Pumped (out.next.left h).handler? (reads ++ h.reads inp) (puts ++ put) := by
  unfold proceedPump at hout
  split at hout
  case h_1 =>
    -- cancelled before its first line
    cases hout
    exact ⟨[], (List.append_nil _).symm, rfl, fun reads puts hp =>
      hp.leave fun h' heq => by cases heq⟩
  case h_2 hcancelled hphase =>
    -- it starts to read
    cases hout
    refine ⟨[], (List.append_nil _).symm, rfl, fun reads puts hp => ?_⟩
    obtain ⟨v, front, rest, rfl, rfl, hstart⟩ := hp.holds hrole
    rw [hphase] at hstart
    obtain ⟨rfl, rfl, rfl⟩ := hstart
    exact pumped_of_holds first [] [] rfl (Nat.zero_le _) ⟨rfl, (Bool.and_true _).symm⟩
  case h_3 | h_4 | h_5 | h_7 =>
    -- it is cancelled, or the connection is lost
    cases hout
    exact endPump_pumped rfl gate world
  case h_6 data hcancelled hphase =>
    -- `read` returns
    split at hout
    · rename_i hdata
      cases hout
      exact endPump_pumped (by simp [Handler.reads, hrole, hphase, hdata]) gate world
    · rename_i hdata
      cases hout
      refine ⟨[], (List.append_nil _).symm, rfl, fun reads puts hp => ?_⟩
      obtain ⟨v, front, rest, rfl, rfl, hinput⟩ := hp.holds hrole
      rw [hphase] at hinput
      obtain ⟨rfl, hfirst⟩ := hinput
      have hread : h.reads (.data data) = [data] := by simp [Handler.reads, hrole, hphase, hdata]
      rw [hread, List.append_nil, List.append_nil]
      exact pumped_of_holds (h := { h with phase := .meter data }) v front [data] hrole le_rfl
        ⟨rfl, hfirst⟩
  case h_8 data hcancelled hphase =>
    -- the gate answers, and only a chunk that it lets through loses the mark of the first one
    cases hout
    unfold meterPump
    dsimp only
    split
    · obtain ⟨put, hqueued, htasks, hput⟩ := putData_pumped
        { h with role := .pump w (gate.add data.length m.reading world.accounts).2.1 false } rfl
        { world with accounts := (gate.add data.length m.reading world.accounts).2.2 }
        { o with connBytes := o.connBytes.map (· + data.length) }
        (if first then [0, 0] ++ data else data)
      refine ⟨put, hqueued, htasks, fun reads puts hp => ?_⟩
      obtain ⟨v, front, rest, rfl, rfl, hmeter⟩ := hp.holds hrole
      rw [hphase] at hmeter
      obtain ⟨rfl, hfirst⟩ := hmeter
      rw [show h.reads .go = [] from rfl, List.append_nil]
      exact hput h v front data rfl (by rw [framed_append, hfirst])
    · exact endPump_pumped rfl _ _
  case h_9 data hcancelled hphase =>
    -- there is room again
    cases hout
    obtain ⟨put, hqueued, htasks, hput⟩ := putData_pumped h hrole world o data
    refine ⟨put, hqueued, htasks, fun reads puts hp => ?_⟩
    obtain ⟨v, front, rest, rfl, rfl, hfull⟩ := hp.holds hrole
    rw [hphase] at hfull
    obtain ⟨hfirst, read, rfl, hdata⟩ := hfull
    rw [show h.reads .go = [] from rfl, List.append_nil]
    exact hput h v front read hfirst hdata
  case h_10 => cases hout

/-- A stretch of an upload leaves the queue alone, and goes on as an upload. -/
theorem uplink_stretch (hkind : h.role.kind ≠ .pump) (hrole : h.role ≠ .downlink)
    (hout : proceed e inp m h world o = some out) :
    out.session.queued = o.queued ∧
      ∀ h', out.next = .wait h' → h'.role.kind = h.role.kind := by
  unfold Session.queued
  cases proceed_effect hout with
  | plain keeps goes => exact ⟨by rw [keeps.downQ], fun h' hnext => (goes.wait h' hnext).1⟩
  | wrote w hopen keeps goes => exact ⟨by rw [keeps.downQ], fun h' hnext => (goes.wait h' hnext).1⟩
  | opened data header isTrojan _ _ _ keeps _ hnext =>
    refine ⟨by rw [keeps.downQ], fun h' hnext' => ?_⟩
    rw [hnext] at hnext'
    cases hnext'
    rfl
  | crashed data seq _ _ _ _ _ keeps hnext =>
    refine ⟨by rw [keeps.downQ], fun h' hnext' => ?_⟩
    rw [hnext] at hnext'
    cases hnext'
  | connected header isTrojan _ _ _ _ downQ _ hwait => exact ⟨by rw [downQ], hwait⟩
  | took item hdown => exact absurd hdown hrole
  | put data hputs =>
    obtain ⟨w, gate, first, _, hpump, -⟩ := hputs
    rw [hpump] at hkind
    exact absurd rfl hkind

/-- The download takes a chunk. -/
theorem Session.Flows.take {data : Bytes} {rest : List (Option Bytes)} {lastSeen : ℚ}
    (ho : o.Flows reads sends) (hqueue : o.downQ = some data :: rest) :
    Session.Flows { o with downQ := rest, lastSeen } reads (sends ++ [data]) := by
  obtain ⟨puts, hputs, hnew, hall⟩ := ho
  refine ⟨puts, ?_, hnew, hall⟩
  rw [hputs, Session.queued, hqueue, List.reduceOption_cons_of_some, List.append_assoc]
  rfl

/-- A stretch of a download. -/
theorem Session.Flows.downlink (ho : o.Flows reads sends) (hrole : h.role = .downlink)
    (hout : proceedDownlink inp m h world o = some out) :
    (out.session.setTask pid (out.next.left h)).Flows reads (sends ++ h.sends o inp) := by
  have hdone : ∀ (o₁ : Session) (reply : Reply), o₁.Spares (o₁.setTask pid (.done reply)) :=
    fun o₁ reply => spares_setTask o₁ pid fun h' heq => by cases heq
  have hsame : ∀ o₁ : Session, o₁.Spares (o₁.setTask pid (.running h)) := by
    refine fun o₁ => spares_setTask o₁ pid fun h' heq => ?_
    cases heq
    rw [hrole]
    exact RoleKind.noConfusion
  unfold proceedDownlink at hout
  split at hout
  · rename_i hphase
    split at hout
    · cases hout
    · rename_i rest hqueue
      cases hout
      have hsends : h.sends o .go = [] := by simp [Handler.sends, hrole, hphase, hqueue]
      rw [hsends, List.append_nil]
      have hrest : o.Spares { o with downQ := rest } := by
        refine .of_tasks ?_ rfl
        rw [Session.queued, Session.queued, hqueue, List.reduceOption_cons_of_none]
      exact ho.spares (hrest.trans (hdone _ _))
    · rename_i data rest hqueue
      cases hout
      have hsends : h.sends o .go = [data] := by simp [Handler.sends, hrole, hphase, hqueue]
      rw [hsends]
      exact (ho.take hqueue).spares (hsame _)
  · cases hout
    rw [show h.sends o .lost = [] from rfl, List.append_nil]
    exact ho.spares (hdone _ _)
  · cases hout

/-- **Every stretch keeps it**, with what it reads and sends. -/
theorem Session.Flows.stretch (ho : o.Flows reads sends) (hh : o.handler? pid = some h)
    (hout : proceed e inp m h world o = some out) :
    (out.session.setTask pid (out.next.left h)).Flows (alsoRead reads pid (h.reads inp))
      (sends ++ h.sends o inp) := by
  cases hrole : h.role with
  | pump w gate first =>
    have hsends : h.sends o inp = [] := by cases inp <;> simp [Handler.sends, hrole]
    rw [proceed, hrole] at hout
    obtain ⟨put, hqueued, htasks, hpumped⟩ := pump_stretch hrole hout
    rw [hsends, List.append_nil]
    exact ho.move hh htasks hqueued fun puts hp => hpumped _ puts hp
  | downlink =>
    have hreads : h.reads inp = [] := by cases inp <;> simp [Handler.reads, hrole]
    rw [proceed, hrole] at hout
    rw [hreads, alsoRead_nil]
    exact ho.downlink hrole hout
  | packetUp | streamUp =>
    have hreads : h.reads inp = [] := by cases inp <;> simp [Handler.reads, hrole]
    have hsends : h.sends o inp = [] := by cases inp <;> simp [Handler.sends, hrole]
    have hkind : h.role.kind ≠ .pump := by simp [hrole, Role.kind]
    obtain ⟨hqueued, hwait⟩ := uplink_stretch hkind (by simp [hrole]) hout
    rw [hreads, alsoRead_nil, hsends, List.append_nil]
    refine ho.spares ((spares_stays hout hqueued).trans (spares_setTask _ pid fun h' heq => ?_))
    cases hnext : out.next with
    | wait h₁ =>
      rw [hnext] at heq
      cases heq
      rw [hwait h' hnext]
      exact hkind
    | ends reply =>
      rw [hnext] at heq
      cases heq
    | teardown reply =>
      rw [hnext] at heq
      cases heq
      exact hkind

/-! ### Runs -/

section Runs

variable {s s' : Downstream} {l : Label} {k : ℕ}

/-- The records hold what there was before, and name objects that there are. -/
structure Downstream.Sound (s : Downstream) : Prop where
  read_lt : ∀ r ∈ s.read, r.1 < s.engine.objects.length
  sent_lt : ∀ r ∈ s.sent, r.1 < s.engine.objects.length
  flows : ∀ (k : ℕ) (o : Session), s.engine.objects[k]? = some o → o.Flows (s.reads k) (s.sends k)

theorem downstream_step (hstep : (downstreamMachine e).step s l = some s') :
    (machine e).step s.engine l = some s'.engine ∧ s'.read = s.read ++ readBy s.engine l ∧
      s'.sent = s.sent ++ sentBy s.engine l := by
  obtain ⟨engine, hengine, rfl⟩ := Option.map_eq_some_iff.1 hstep
  exact ⟨hengine, rfl, rfl⟩

/-- A task goes on that is not in `_teardown`. -/
def Acts (s : EngineState) (l : Label) (k pid : ℕ) (inp : Input) (o : Session) (h : Handler) : Prop :=
  (∃ m, l = .resume k pid inp m) ∧ s.objects[k]? = some o ∧ o.handler? pid = some h ∧
    h.phase.outside = true

/-- What is read or sent is so by a task of the object. -/
theorem readBy_acts {r : ℕ × ℕ × Bytes} (hr : r ∈ readBy s.engine l) :
    ∃ inp o h, Acts s.engine l r.1 r.2.1 inp o h ∧
      readBy s.engine l = (h.reads inp).map (r.1, r.2.1, ·) := by
  unfold readBy at hr ⊢
  cases l with
  | resume k pid inp m =>
    dsimp only at hr ⊢
    cases hh : (s.engine.objects[k]?).bind (·.handler? pid) with
    | none =>
      rw [hh] at hr
      cases hr
    | some h =>
      rw [hh] at hr
      obtain ⟨data, hdata, rfl⟩ := List.mem_map.1 hr
      obtain ⟨o, ho, hh⟩ := Option.bind_eq_some_iff.1 hh
      refine ⟨inp, o, h, ⟨⟨m, rfl⟩, ho, hh, ?_⟩, rfl⟩
      cases hphase : h.phase with
      | teardown => cases inp <;> cases hrole : h.role <;> simp [Handler.reads, hphase] at hdata
      | start | input | meter | connect | payload | drain | put => rfl
  | packetUp | streamUp | downlink | lose | reap | sweep | other => cases hr

theorem sentBy_acts {r : ℕ × Bytes} (hr : r ∈ sentBy s.engine l) :
    ∃ pid inp o h, Acts s.engine l r.1 pid inp o h ∧
      sentBy s.engine l = (h.sends o inp).map (r.1, ·) := by
  unfold sentBy at hr ⊢
  cases l with
  | resume k pid inp m =>
    dsimp only at hr ⊢
    cases ho : s.engine.objects[k]? with
    | none =>
      rw [ho] at hr
      cases hr
    | some o =>
      rw [ho] at hr
      dsimp only at hr
      cases hh : o.handler? pid with
      | none =>
        rw [hh] at hr
        cases hr
      | some h =>
        rw [hh] at hr
        obtain ⟨data, hdata, rfl⟩ := List.mem_map.1 hr
        refine ⟨pid, inp, o, h, ⟨⟨m, rfl⟩, ho, hh, ?_⟩, by dsimp only; rw [hh]⟩
        cases hphase : h.phase with
        | teardown => cases inp <;> cases hrole : h.role <;> simp [Handler.sends, hphase] at hdata
        | start | input | meter | connect | payload | drain | put => rfl
  | packetUp | streamUp | downlink | lose | reap | sweep | other => cases hr

/-- The records of an object of which a task goes on. -/
theorem records_acts {pid : ℕ} {inp : Input} {o : Session} {h : Handler}
    (hact : Acts s.engine l k pid inp o h) (hread : s'.read = s.read ++ readBy s.engine l)
    (hsent : s'.sent = s.sent ++ sentBy s.engine l) :
    s'.reads k = alsoRead (s.reads k) pid (h.reads inp) ∧ s'.sends k = s.sends k ++ h.sends o inp := by
  obtain ⟨⟨m, rfl⟩, ho, hh, -⟩ := hact
  constructor
  · funext pid'
    have hby : readBy s.engine (.resume k pid inp m) = (h.reads inp).map (k, pid, ·) := by
      simp [readBy, ho, hh]
    unfold Downstream.reads alsoRead
    rw [hread, List.filterMap_append, hby, List.filterMap_map]
    congr 1
    split_ifs with hpid
    · subst hpid
      simp
    · simp [Ne.symm hpid]
  · have hby : sentBy s.engine (.resume k pid inp m) = (h.sends o inp).map (k, ·) := by
      simp [sentBy, ho, hh]
    unfold Downstream.sends
    rw [hsent, List.filterMap_append, hby, List.filterMap_map]
    simp

/-- The records of the other objects. -/
theorem records_rest (hnot : ∀ pid inp o h, ¬ Acts s.engine l k pid inp o h)
    (hread : s'.read = s.read ++ readBy s.engine l) (hsent : s'.sent = s.sent ++ sentBy s.engine l) :
    s'.reads k = s.reads k ∧ s'.sends k = s.sends k := by
  constructor
  · funext pid
    unfold Downstream.reads
    rw [hread, List.filterMap_append]
    refine (congrArg _ (List.filterMap_eq_nil_iff.2 fun r hr => ?_)).trans (List.append_nil _)
    obtain ⟨inp, o, h, hact, -⟩ := readBy_acts hr
    exact if_neg fun heq => hnot _ _ _ _ (heq.1 ▸ hact)
  · unfold Downstream.sends
    rw [hsent, List.filterMap_append]
    refine (congrArg _ (List.filterMap_eq_nil_iff.2 fun r hr => ?_)).trans (List.append_nil _)
    obtain ⟨pid, inp, o, h, hact, -⟩ := sentBy_acts hr
    exact if_neg fun heq => hnot _ _ _ _ (heq ▸ hact)

/-- A step of the engine, seen from an object that there was before. -/
theorem object_flows {o : Session} (hstep : (downstreamMachine e).step s l = some s')
    (ho : s.engine.objects[k]? = some o) (hflows : o.Flows (s.reads k) (s.sends k)) :
    ∃ o', s'.engine.objects[k]? = some o' ∧ o'.Flows (s'.reads k) (s'.sends k) := by
  obtain ⟨hengine, hread, hsent⟩ := downstream_step hstep
  by_cases hact : ∃ pid inp o h, Acts s.engine l k pid inp o h
  · obtain ⟨pid, inp, o₀, h, hact⟩ := hact
    obtain ⟨hreads, hsends⟩ := records_acts hact hread hsent
    obtain ⟨⟨m, rfl⟩, ho₀, hh, hphase⟩ := hact
    cases ho.symm.trans ho₀
    obtain ⟨out, o', hout, ht, ho'⟩ := object_resume hengine ho hh hphase
    refine ⟨o', ho', ?_⟩
    rw [hreads, hsends]
    exact (hflows.stretch hh hout).spares (spares_follows ht)
  · have hnot : ∀ pid inp o h, ¬ Acts s.engine l k pid inp o h :=
      fun pid inp o h hh => hact ⟨pid, inp, o, h, hh⟩
    obtain ⟨hreads, hsends⟩ := records_rest hnot hread hsent
    obtain ⟨o₁, o', hstarts, ht, ho'⟩ := object_step hengine ho
    refine ⟨o', ho', ?_⟩
    rw [hreads, hsends]
    refine hflows.spares (Session.Spares.trans ?_ (spares_follows ht))
    cases hstarts with
    | still => exact .of_tasks rfl rfl
    | serve hr hin hget =>
      rename_i r
      have hseen : o.Spares { o with lastSeen := r.now } := .of_tasks rfl rfl
      exact hseen.trans (spares_serve hr hin _)
    | stretch pid inp m hh hphase hout => exact absurd ⟨⟨m, rfl⟩, ho, hh, hphase⟩ (hnot pid inp o _)
    | lose w => exact .of_tasks rfl rfl

/-- A new object. -/
theorem born_flows {o' : Session} (hs : s.Sound) (hstep : (downstreamMachine e).step s l = some s')
    (ho : s.engine.objects[k]? = none) (ho' : s'.engine.objects[k]? = some o') :
    o'.Flows (s'.reads k) (s'.sends k) := by
  obtain ⟨hengine, hread, hsent⟩ := downstream_step hstep
  have hge := List.getElem?_eq_none_iff.1 ho
  obtain ⟨hreads, hsends⟩ := records_rest (k := k)
    (fun pid inp o h hact => by cases ho.symm.trans hact.2.1) hread hsent
  have hnone : s.reads k = fun _ => [] := by
    funext pid
    refine List.filterMap_eq_nil_iff.2 fun r hr => if_neg ?_
    rintro ⟨rfl, -⟩
    exact Nat.not_lt.2 hge (hs.read_lt r hr)
  have hsilent : s.sends k = [] := by
    refine List.filterMap_eq_nil_iff.2 fun r hr => if_neg ?_
    rintro rfl
    exact Nat.not_lt.2 hge (hs.sent_lt r hr)
  obtain ⟨r, hr, hin, -, -, rfl⟩ := object_born hengine ho ho'
  rw [hreads, hsends, hnone, hsilent]
  refine Session.Flows.spares ⟨[], rfl, fun _ _ => ⟨rfl, rfl⟩, fun pid => ?_⟩ (spares_serve hr hin _)
  exact ⟨false, [], [], rfl, Nat.zero_le _, rfl, fun h w gate first hh => by cases hh⟩

theorem Downstream.Sound.init (world : World) : (Downstream.init world).Sound where
  read_lt _ hr := by cases hr
  sent_lt _ hr := by cases hr
  flows _ _ ho := by cases ho

theorem Downstream.Sound.step (hs : s.Sound) (hstep : (downstreamMachine e).step s l = some s') :
    s'.Sound := by
  obtain ⟨hengine, hread, hsent⟩ := downstream_step hstep
  have hgrows : ∀ k < s.engine.objects.length, k < s'.engine.objects.length := by
    intro k hk
    obtain ⟨o', ho', -⟩ := object_flows hstep (List.getElem?_eq_getElem hk)
      (hs.flows k _ (List.getElem?_eq_getElem hk))
    exact (List.getElem?_eq_some_iff.1 ho').1
  refine ⟨fun r hr => ?_, fun r hr => ?_, fun k o' ho' => ?_⟩
  · rw [hread, List.mem_append] at hr
    rcases hr with hr | hr
    · exact hgrows _ (hs.read_lt r hr)
    · obtain ⟨inp, o, h, hact, -⟩ := readBy_acts hr
      exact hgrows _ (List.getElem?_eq_some_iff.1 hact.2.1).1
  · rw [hsent, List.mem_append] at hr
    rcases hr with hr | hr
    · exact hgrows _ (hs.sent_lt r hr)
    · obtain ⟨pid, inp, o, h, hact, -⟩ := sentBy_acts hr
      exact hgrows _ (List.getElem?_eq_some_iff.1 hact.2.1).1
  · cases ho : s.engine.objects[k]? with
    | none => exact born_flows hs hstep ho ho'
    | some o =>
      obtain ⟨o₁, ho₁, hflows⟩ := object_flows hstep ho (hs.flows k o ho)
      cases ho'.symm.trans ho₁
      exact hflows

/-- **What a download delivers.**  In every state of every run of an engine, however uploads,
downloads, pumps, teardowns and the reaper interleave, for every session object: what its downloads
have sent, followed by what is in its queue, is what its pumps have put, in this order; and each pump
has put what it has read from its connection, in order and once, with the two bytes of VLESS in front
or without, up to at most one chunk that it still holds, and none if it waits for the next one. -/
theorem download_exact (e : Engine) (world : World) (ls : List Label) (s : Downstream)
    (h : (downstreamMachine e).run (.init world) ls = some s) (k : ℕ) (o : Session)
    (ho : s.engine.objects[k]? = some o) :
    ∃ puts : List (ℕ × Bytes), puts.map Prod.snd = s.sends k ++ o.queued ∧
      ∀ pid, ∃ vlessPrefix front rest, s.reads k pid = front ++ rest ∧ rest.length ≤ 1 ∧
        putBy puts pid = framed vlessPrefix front ∧
        ∀ h, o.handler? pid = some h → h.role.kind = .pump → h.phase = .input → rest = [] := by
  have hsound : s.Sound := Machine.run_invariant (I := Downstream.Sound)
    (fun _ _ _ hs hstep => hs.step hstep) h (.init world)
  obtain ⟨puts, hputs, -, hall⟩ := hsound.flows k o ho
  refine ⟨puts, hputs, fun pid => ?_⟩
  obtain ⟨v, front, rest, hreads, hrest, hput, hholds⟩ := hall pid
  refine ⟨v, front, rest, hreads, hrest, hput, fun h hh hkind hphase => ?_⟩
  cases hrole : h.role with
  | pump w gate first =>
    have hinput := hholds h w gate first hh hrole
    rw [hphase] at hinput
    exact hinput.1
  | packetUp | streamUp | downlink =>
    rw [hrole] at hkind
    cases hkind

/-- The target sends a byte, and the download takes it. -/
def oneChunk : List Label :=
  openDownload ++ [.resume 0 2 (.data [42]) (momentAt 0), .resume 0 2 .go (momentAt 0),
    .resume 0 1 .go (momentAt 0)]

theorem download_exact_oneChunk : ∃ s o, ∃ puts : List (ℕ × Bytes),
    (downstreamMachine ⟨.vless, id⟩).run (.init twoUsers) oneChunk = some s ∧
      s.engine.objects[0]? = some o ∧ puts.map Prod.snd = s.sends 0 ++ o.queued := by
  have hsome : (((downstreamMachine ⟨.vless, id⟩).run (.init twoUsers) oneChunk).bind
      fun s => s.engine.objects[0]?).isSome = true := by
    decide +kernel
  obtain ⟨o, hrun⟩ := Option.isSome_iff_exists.1 hsome
  obtain ⟨s, hs, ho⟩ := Option.bind_eq_some_iff.1 hrun
  obtain ⟨puts, hputs, -⟩ := download_exact _ _ _ s hs 0 o ho
  exact ⟨s, o, puts, hs, ho, hputs⟩

end Runs

end Xhttp

end RvgGateway
