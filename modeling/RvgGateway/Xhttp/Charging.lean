import RvgGateway.Xhttp.Authorization
import RvgGateway.Xhttp.Effect
import RvgGateway.Xhttp.ObjectStep

/-!
# Who pays for a Trojan session

A Trojan-XHTTP upload names two users: one in its path, whose identifier goes to the quota gates,
and one by the password hash in the header of the first chunk.  `_open_tcp_from_trojan_header` asks
only whether the hash belongs to some user, and drops the answer.  A record of the openings keeps
it, beside the engine.

* `Opening` : an opening of a connection, with the user of the header.
* `Charged` : the user of the header pays for the upload and for the download, and was allowed.
* `Matched` : the path and the gate of the session are that user's, and the call of `gate.add` was
  cleared.
* `charged_iff_matched` : **a run charges the authenticated users exactly when every opening that
  succeeds was matched.**
-/

namespace RvgGateway

namespace Xhttp

open Quota (Gate Reading)

/-! ### Openings -/

/-- The user that the password hash in front of a chunk resolves to. -/
def headerUser (e : Engine) (w : World) (chunk : Bytes) : Option String :=
  match Relay.parseTrojanHeader chunk with
  | none => none
  | some (pwHash, _) => (w.hashCache.findUuid e.sha224 w.accounts.links pwHash).1

/-- An upload that opens a connection, as it is when its header was read. -/
structure Opening where
  object : ℕ
  pid : ℕ
  /-- The gate before the call of `gate.add`. -/
  gate : Gate
  size : ℕ
  reading : Reading
  /-- The accounts before that call. -/
  accounts : Accounts
  /-- What `find_uuid_by_trojan_hash` returned. -/
  user : String
  /-- The link of that user is allowed. -/
  allowed : Bool

instance (o : Session) : ∀ r, Decidable (o.OpensTcp r)
  | .packetUp seq => inferInstanceAs (Decidable (o.connBytes ≠ none ∧ o.writer = none ∧ seq = 0))
  | .streamUp writer => inferInstanceAs (Decidable (writer = none))
  | .downlink => .isFalse id
  | .pump .. => .isFalse id

instance (e : Engine) (m : Moment) (h : Handler) (world : World) (o : Session) (data : Bytes) :
    Decidable (Opens e m h world o data) :=
  inferInstanceAs (Decidable (_ ∧ _ ∧ _))

/-- The opening that an upload at `gate.add` makes when it goes on. -/
def openingOf (e : Engine) (i pid : ℕ) (m : Moment) (h : Handler) (world : World) (o : Session)
    (data : Bytes) : Option Opening :=
  let gate := o.ensureGate e.kind h.uuid m.reading.monotonic
  let accounts := (gate.add data.length m.reading world.accounts).2.2
  if Opens e m h world o data then
    (headerUser e { world with accounts } data).map fun user =>
      { object := i, pid, gate, size := data.length, reading := m.reading
        accounts := world.accounts, user, allowed := accounts.allows m.reading.clock user }
  else none

/-- The opening that a step makes. -/
def openingAt (e : Engine) (s : EngineState) : Label → Option Opening
  | .resume i pid .go m =>
    match s.objects[i]? with
    | none => none
    | some o =>
      match o.handler? pid with
      | none => none
      | some h =>
        match h.phase with
        | .meter data => openingOf e i pid m h s.world o data
        | _ => none
  | _ => none

/-- The engine, with the openings so far, the newest first. -/
structure Ledger where
  engine : EngineState
  openings : List Opening

namespace Ledger

/-- An engine without sessions. -/
def init (world : World) : Ledger := ⟨.init world, []⟩

/-- The opening that the task `pid` of the object `i` made last. -/
def opening? (s : Ledger) (i pid : ℕ) : Option Opening :=
  s.openings.find? fun op => op.object = i ∧ op.pid = pid

end Ledger

/-- The engine with its record of openings. -/
def ledgerMachine (e : Engine) : Machine Ledger Label where
  step s l := ((machine e).step s.engine l).map fun engine =>
    ⟨engine, (openingAt e s.engine l).toList ++ s.openings⟩

/-! ### The claim and its condition -/

/-- When the handler goes on, `_open_tcp_for_session` succeeds. -/
def Phase.succeeds : Phase → Bool
  | .connect header _ => header.payload = []
  | .payload .. => true
  | _ => false

/-- The user for whom the pump of the session makes its gate. -/
def Session.pumpUser? (o : Session) : Option String :=
  (o.downlinkTask.bind o.handler?).map Handler.uuid

/-- If `_open_tcp_for_session` succeeds in the step, the user of the header pays in both directions,
and was allowed. -/
def Charged (e : Engine) (s : Ledger) (l : Label) : Prop :=
  ∀ i pid m o h out op, l = .resume i pid .go m → s.engine.objects[i]? = some o →
    o.handler? pid = some h → h.phase.succeeds = true →
    proceed e .go m h s.engine.world o = some out → s.opening? i pid = some op →
    out.session.gate.map Gate.uuid = some op.user ∧ out.session.pumpUser? = some op.user ∧
      op.allowed = true

/-- If `_open_tcp_for_session` succeeds in the step, the header named the user in the path, the gate
of the session had been made for that user too, and its call of `add` was cleared. -/
def Matched (s : Ledger) (l : Label) : Prop :=
  ∀ i pid m o h op, l = .resume i pid .go m → s.engine.objects[i]? = some o →
    o.handler? pid = some h → h.phase.succeeds = true → s.opening? i pid = some op →
    op.user = h.uuid ∧ op.gate.uuid = h.uuid ∧
      Cleared op.gate op.size op.reading op.accounts h.uuid

/-! ### Uploads that wait for their connection -/

/-- The opening was let pass by its gate, and says whether its user was allowed. -/
structure Opening.Kept (op : Opening) : Prop where
  passed : (op.gate.add op.size op.reading op.accounts).1 = true
  allowed_eq : op.allowed =
    (op.gate.add op.size op.reading op.accounts).2.2.allows op.reading.clock op.user

/-- An upload that waits for its connection has its opening on record, and the gate of the session
still charges the user whom it charged then. -/
def Session.Pending (o : Session) (opening? : ℕ → Option Opening) : Prop :=
  ∀ pid h, o.handler? pid = some h → h.phase.opening = true → h.role.kind = .upload ∧
    ∃ op g, opening? pid = some op ∧ op.Kept ∧ o.gate = some g ∧ g.uuid = op.gate.uuid

/-- So it is in every session. -/
def Ledger.Sound (s : Ledger) : Prop :=
  ∀ (i : ℕ) (o : Session), s.engine.objects[i]? = some o → o.Pending (s.opening? i)

variable {e : Engine} {o o' : Session} {opening? : ℕ → Option Opening}

/-- The gate of the session is still one of the same user. -/
def Session.KeepsPayer (o o' : Session) : Prop :=
  ∀ g, o.gate = some g → ∃ g', o'.gate = some g' ∧ g'.uuid = g.uuid

/-- What `Session.Pending` says of one upload. -/
def Session.OnRecord (o : Session) (opening? : ℕ → Option Opening) (pid : ℕ) (h : Handler) : Prop :=
  h.role.kind = .upload ∧
    ∃ op g, opening? pid = some op ∧ op.Kept ∧ o.gate = some g ∧ g.uuid = op.gate.uuid

theorem Session.KeepsPayer.of_gate (hgate : o'.gate = o.gate) : o.KeepsPayer o' :=
  fun g hg => ⟨g, hgate.trans hg, rfl⟩

theorem Session.OnRecord.keeps {pid : ℕ} {h h' : Handler} (ho : o.OnRecord opening? pid h)
    (hrole : h'.role.kind = h.role.kind) (hgate : o.KeepsPayer o') :
    o'.OnRecord opening? pid h' := by
  obtain ⟨hkind, op, g, hop, hkept, hg, huuid⟩ := ho
  obtain ⟨g', hg', huuid'⟩ := hgate g hg
  exact ⟨hrole.trans hkind, op, g', hop, hkept, hg', huuid'.trans huuid⟩

namespace Session.Pending

theorem of_tended (ho : o.Pending opening?) (ht : o.Tended o')
    (hgate : o'.gate = o.gate) : o'.Pending opening? := by
  intro pid h' hh' hphase'
  obtain ⟨h, hh, -, -, hrole, hphase⟩ := ht.handler_of pid h' hh'
  rw [hphase] at hphase'
  rw [hrole, hgate]
  exact ho pid h hh hphase'

theorem setTask (ho : o.Pending opening?) {pid : ℕ} {t : Task}
    (ht : ∀ h, t = .running h → h.phase.opening = false) : (o.setTask pid t).Pending opening? := by
  intro pid' h hh hphase
  rcases handler?_of_setTask hh with ⟨-, heq⟩ | hold
  · rw [ht h heq] at hphase
    cases hphase
  · exact ho pid' h hold hphase

end Session.Pending

/-- `_teardown` does not know the gate. -/
theorem gate_tolerates : Session.Tolerates fun o o' => o'.gate = o.gate :=
  Session.tolerates_field (fun _ => rfl) (fun _ _ => rfl) fun _ _ => rfl

/-- `_teardown` leaves the uploads that wait for their connection alone. -/
theorem Session.Pending.tends {actor : Option ℕ} (ho : o.Pending opening?)
    (ht : Session.Tends actor o o') : o'.Pending opening? := by
  cases ht with
  | begin =>
    exact ho.of_tended (.beginTeardown o) (gate_tolerates.beginTeardown (fun _ _ _ _ => rfl) o)
  | «continue» hres =>
    exact ho.of_tended (.continueTeardown hres) (gate_tolerates.continueTeardown hres)
  | finish => exact ho.setTask fun _ heq => by cases heq
  | park hpid hh hrole hphase =>
    refine ho.setTask fun h heq => ?_
    cases heq
    rw [hphase]
    rfl

theorem Session.Pending.follows {actor : Option ℕ} (ho : o.Pending opening?)
    (ht : Relation.ReflTransGen (Session.Tends actor) o o') : o'.Pending opening? := by
  induction ht with
  | refl => exact ho
  | tail _ htend ih => exact ih.tends htend

/-- A request that is served does not touch them either. -/
theorem Session.Pending.serve {l : Label} {r : Request} (hr : l.request? e.kind = some r)
    (ho : o.Pending opening?) : (o.serve r.serve).Pending opening? := by
  have hserves := Label.request?_serves hr
  have hgate : o.KeepsPayer (o.serve r.serve) := by
    intro g hg
    rcases Serves.serve_cases r.serve o with ⟨-, heq⟩ | ⟨-, heq⟩ <;> rw [heq]
    · exact ⟨g, hg, rfl⟩
    · cases l <;> cases hr
      · exact ⟨g, hg, rfl⟩
      · unfold serveStreamUp
        dsimp only
        split <;> exact ⟨_, rfl, Session.uuid_ensureGate hg⟩
      · exact ⟨g, hg, rfl⟩
  intro pid h hh hphase
  rcases hserves.handler?_of_serve hh with ⟨-, -, hinput⟩ | hold
  · rw [hinput] at hphase
    cases hphase
  · exact Session.OnRecord.keeps (ho pid h hold hphase) rfl hgate

section Stretch

variable {pid : ℕ} {inp : Input} {m : Moment} {h : Handler} {world : World} {out : Outcome}

/-- A stretch keeps the record of the other uploads. -/
theorem Session.Pending.others (ho : o.Pending opening?)
    (hout : proceed e inp m h world o = some out) (hgate : o.KeepsPayer out.session) :
    out.session.Pending opening? := by
  intro pid' h' hh' hphase'
  have hold : o.handler? pid' = some h' := by
    rcases (proceed_stays hout).tasks_eq with htasks | ⟨p, htasks, -, -, hstart, -⟩
    · unfold Session.handler? at hh' ⊢
      rwa [htasks] at hh'
    · rcases Session.handler?_of_append htasks (Session.handler?_eq_some.1 hh') with heq | hold
      · cases heq
        rw [hstart] at hphase'
        cases hphase'
      · exact hold
  exact Session.OnRecord.keeps (ho pid' h' hold hphase') rfl hgate

/-- A stretch keeps the record if, when the handler itself waits for a connection behind it, this
opening is on it. -/
theorem Session.Pending.left (ho : o.Pending opening?) (hh : o.handler? pid = some h)
    (hout : proceed e inp m h world o = some out) (hgate : o.KeepsPayer out.session)
    (hwait : ∀ h', out.next = .wait h' → h'.phase.opening = true →
      out.session.OnRecord opening? pid h') :
    (out.session.setTask pid (out.next.left h)).Pending opening? := by
  intro pid' h' hh' hphase'
  rcases Session.handler?_of_setTask hh' with ⟨rfl, heq⟩ | hold
  · cases hnext : out.next with
    | wait h₁ =>
      rw [hnext] at heq
      cases heq
      exact hwait _ hnext hphase'
    | ends reply =>
      rw [hnext] at heq
      cases heq
    | teardown reply =>
      rw [hnext] at heq
      cases heq
      exact Session.OnRecord.keeps (ho _ h hh hphase') rfl hgate
  · exact ho.others hout hgate pid' h' hold hphase'

/-- A stretch keeps the record, as long as the opening that it makes is on it. -/
theorem Session.Pending.stretch (ho : o.Pending opening?) (hh : o.handler? pid = some h)
    (hout : proceed e inp m h world o = some out)
    (hrec : ∀ data, h.phase = .meter data → inp = .go → Opens e m h world o data →
      ∃ op, opening? pid = some op ∧ op.Kept ∧
        op.gate = o.ensureGate e.kind h.uuid m.reading.monotonic) :
    (out.session.setTask pid (out.next.left h)).Pending opening? := by
  cases proceed_effect hout with
  | plain keeps goes | wrote w hopen keeps goes =>
    refine ho.left hh hout keeps.gate fun h' heq hphase' => ?_
    rw [(goes.wait h' heq).2] at hphase'
    cases hphase'
  | opened data header isTrojan hphase hinp hmeter keeps hgate hnext hev =>
    refine ho.left hh hout keeps.gate fun h' heq hphase' => ?_
    obtain ⟨allowed, hev⟩ := hev
    obtain ⟨g, hg, huuid⟩ := hgate
    have hopens : Opens e m h world o data := by
      have hmem : .opened h.uuid allowed ∈ (meterUpload e m h world o data).events := by
        rw [← hmeter, hev]
        exact List.mem_cons_self
      exact (meterUpload_opened_iff.1 hmem).1
    obtain ⟨op, hop, hkept, hopgate⟩ := hrec data hphase hinp hopens
    rw [hnext] at heq
    cases heq
    refine ⟨?_, op, g, hop, hkept, hg, by rw [huuid, hopgate]⟩
    have hrole := hopens.2.1
    cases hr : h.role with
    | packetUp | streamUp => rfl
    | downlink | pump =>
      rw [hr] at hrole
      exact hrole.elim
  | crashed data seq hphase hinp hrole hconn hpass keeps hnext =>
    refine ho.left hh hout keeps.gate fun h' heq => ?_
    rw [hnext] at heq
    cases heq
  | connected header isTrojan hphase hinp gate hconn downQ closings hwait =>
    refine ho.left hh hout (.of_gate gate) fun h' heq _ => ?_
    have hopening : h.phase.opening = true := by
      rw [hphase]
      rfl
    exact Session.OnRecord.keeps (ho pid h hh hopening) (hwait h' heq) (.of_gate gate)
  | took item hrole hphase hinp gate hconn downQ closings hnext =>
    refine ho.left hh hout (.of_gate gate) fun h' heq hphase' => ?_
    rw [hnext] at heq
    split at heq <;> cases heq
    exact Session.OnRecord.keeps (ho pid _ hh hphase') rfl (.of_gate gate)
  | put data hputs gate ended downQ closings goes =>
    refine ho.left hh hout (.of_gate gate) fun h' heq hphase' => ?_
    rw [(goes.wait h' heq).2] at hphase'
    cases hphase'

end Stretch

/-! ### Runs -/

variable {s s' : Ledger} {l : Label}

theorem ledger_step (hstep : (ledgerMachine e).step s l = some s') :
    (machine e).step s.engine l = some s'.engine ∧
      s'.openings = (openingAt e s.engine l).toList ++ s.openings := by
  obtain ⟨engine, hengine, rfl⟩ := Option.map_eq_some_iff.1 hstep
  exact ⟨hengine, rfl⟩

/-- An opening on record is made by an upload at its gate. -/
theorem openingAt_some {s : EngineState} {op : Opening} (hop : openingAt e s l = some op) :
    ∃ i pid m o h data, l = .resume i pid .go m ∧ s.objects[i]? = some o ∧ o.handler? pid = some h ∧
      h.phase = .meter data ∧ openingOf e i pid m h s.world o data = some op := by
  cases l with
  | resume i pid inp m =>
    cases inp with
    | go =>
      unfold openingAt at hop
      dsimp only at hop
      cases ho : s.objects[i]? with
      | none => simp [ho] at hop
      | some o =>
        cases hh : o.handler? pid with
        | none => simp [ho, hh] at hop
        | some h =>
          simp only [ho, hh] at hop
          split at hop
          · rename_i data hphase
            exact ⟨i, pid, m, o, h, data, rfl, ho, hh, hphase, hop⟩
          · cases hop
    | _ => cases hop
  | _ => cases hop

theorem openingOf_some {i pid : ℕ} {m : Moment} {h : Handler} {world : World} {data : Bytes}
    {op : Opening} (hop : openingOf e i pid m h world o data = some op) :
    op.object = i ∧ op.pid = pid ∧ op.gate = o.ensureGate e.kind h.uuid m.reading.monotonic ∧
      op.Kept := by
  unfold openingOf at hop
  dsimp only at hop
  split at hop
  · rename_i hopens
    obtain ⟨user, -, rfl⟩ := Option.map_eq_some_iff.1 hop
    exact ⟨rfl, rfl, rfl, hopens.1, rfl⟩
  · cases hop

/-- In the Trojan engine a header that is read has a user. -/
theorem openingOf_isSome (hkind : e.kind = .trojan) (i pid : ℕ) {m : Moment} {h : Handler}
    {world : World} {data : Bytes} (hopens : Opens e m h world o data) :
    ∃ op, openingOf e i pid m h world o data = some op := by
  have hheader := hopens.2.2
  unfold readHeader usesTrojan at hheader
  rw [hkind] at hheader
  dsimp only at hheader
  rw [if_pos rfl] at hheader
  unfold openingOf
  dsimp only
  rw [if_pos hopens, ← Option.isSome_iff_exists, Option.isSome_map]
  unfold headerUser
  cases hparse : Relay.parseTrojanHeader data with
  | none =>
    rw [hparse] at hheader
    cases hheader
  | some parsed =>
    rw [hparse] at hheader
    dsimp only at hheader ⊢
    rwa [Option.isSome_map, ← hkind] at hheader

/-- The record of a task after a step. -/
theorem opening?_step (hstep : (ledgerMachine e).step s l = some s') (k pid : ℕ) :
    s'.opening? k pid =
      match openingAt e s.engine l with
      | none => s.opening? k pid
      | some op => if op.object = k ∧ op.pid = pid then some op else s.opening? k pid := by
  unfold Ledger.opening?
  rw [(ledger_step hstep).2]
  cases openingAt e s.engine l with
  | none => rfl
  | some op =>
    rw [Option.toList_some, List.singleton_append, List.find?_cons]
    by_cases hmine : op.object = k ∧ op.pid = pid
    · simp [hmine]
    · simp [hmine]

/-- A new opening is of an upload that did not wait for its connection before. -/
theorem pending_next (hstep : (ledgerMachine e).step s l = some s') {k : ℕ}
    (hk : s.engine.objects[k]? = some o) (ho : o.Pending (s.opening? k)) :
    o.Pending (s'.opening? k) := by
  intro pid h hh hphase
  rw [opening?_step hstep]
  cases hop : openingAt e s.engine l with
  | none => exact ho pid h hh hphase
  | some op =>
    dsimp only
    rw [if_neg]
    · exact ho pid h hh hphase
    · rintro ⟨rfl, rfl⟩
      obtain ⟨i, pid, m, o', h', data, -, ho', hh', hmeter, hof⟩ := openingAt_some hop
      obtain ⟨hobject, hpid, -⟩ := openingOf_some hof
      subst hobject hpid
      rw [hk] at ho'
      cases ho'
      rw [hh] at hh'
      cases hh'
      rw [hmeter] at hphase
      cases hphase

/-- **One step** keeps the record sound. -/
theorem sound_step (hkind : e.kind = .trojan) (hs : s.Sound)
    (hstep : (ledgerMachine e).step s l = some s') : s'.Sound := by
  intro k o' ho'
  have hengine := (ledger_step hstep).1
  cases hk : s.engine.objects[k]? with
  | none =>
    obtain ⟨r, hr, -, -, -, rfl⟩ := object_born hengine hk ho'
    exact Session.Pending.serve hr fun _ _ hh => by cases Session.handler?_eq_some.1 hh
  | some o =>
    have hpending := pending_next hstep hk (hs k o hk)
    obtain ⟨o₁, o₂, hstarts, htends, ho₂⟩ := object_step hengine hk
    rw [ho'] at ho₂
    cases ho₂
    have hfirst : o₁.Pending (s'.opening? k) := by
      cases hstarts with
      | still => exact hpending
      | serve hr => exact Session.Pending.serve hr (hpending.of_tended (.of_tasks rfl rfl) rfl)
      | stretch pid inp m hh hphase hout =>
        rename_i h out
        refine hpending.stretch hh hout fun data hmeter hinp hopens => ?_
        obtain ⟨op, hof⟩ := openingOf_isSome hkind k pid hopens
        have hop : openingAt e s.engine (.resume k pid inp m) = some op := by
          subst hinp
          unfold openingAt
          simp only [hk, hh, hmeter, hof]
        obtain ⟨hobject, hpid, hgate, hkept⟩ := openingOf_some hof
        refine ⟨op, ?_, hkept, hgate⟩
        rw [opening?_step hstep, hop]
        exact if_pos ⟨hobject, hpid⟩
      | lose w => exact hpending.of_tended (.close o w) rfl
    exact hfirst.follows htends

/-- The rest of `_open_tcp_for_session` leaves the gate of the upload, and a pump for its user. -/
theorem finishOpen_users {m : Moment} {h : Handler} {world : World} {g : Gate} {w : ℕ}
    {isTrojan : Bool} (hg : o.gate = some g) :
    (finishOpen e m h world o w isTrojan).session.gate.map Gate.uuid = some g.uuid ∧
      (finishOpen e m h world o w isTrojan).session.pumpUser? = some h.uuid := by
  have husers : ∀ o' : Session, (∃ g', o'.gate = some g' ∧ g'.uuid = g.uuid) →
      o'.downlinkTask = some o.tasks.length → o'.tasks = (enterTcp e m h o w isTrojan).tasks →
        o'.gate.map Gate.uuid = some g.uuid ∧ o'.pumpUser? = some h.uuid := by
    rintro o' ⟨g', hg', huuid⟩ htask htasks
    have hpump : o'.handler? o.tasks.length = some (newPump e m h w isTrojan) := by
      rw [Session.handler?_eq_some, htasks]
      exact List.getElem?_concat_length
    unfold Session.pumpUser?
    rw [hg', Option.map_some, huuid, htask, Option.bind_some, hpump]
    exact ⟨rfl, rfl⟩
  have henter : (enterTcp e m h o w isTrojan).gate = some g := hg
  unfold finishOpen afterOpen
  cases hrole : h.role with
  | streamUp => exact husers _ ⟨g, henter, rfl⟩ rfl rfl
  | packetUp | downlink | pump =>
    dsimp only
    split
    · unfold fail abandon
      simp only [hrole]
      exact husers _ ⟨g, henter, rfl⟩ rfl rfl
    · exact husers _ ⟨g, henter, rfl⟩ rfl rfl

/-- The stretch in which `_open_tcp_for_session` succeeds. -/
theorem proceed_succeeds (m : Moment) {h : Handler} (world : World) {g : Gate}
    (hrole : h.role.kind = .upload) (hphase : h.phase.succeeds = true) (hg : o.gate = some g) :
    ∃ out, proceed e .go m h world o = some out ∧
      out.session.gate.map Gate.uuid = some g.uuid ∧ out.session.pumpUser? = some h.uuid := by
  have hupload : proceed e .go m h world o = proceedUpload e .go m h world o := by
    unfold proceed
    cases hr : h.role with
    | packetUp seq =>
      dsimp only
      unfold proceedPacketUp
      split
      · rename_i heq; cases heq
      · rename_i heq; cases heq
      · rfl
    | streamUp writer =>
      dsimp only
      unfold proceedStreamUp
      split
      · rename_i heq; cases heq
      · rename_i heq; cases heq
      · rename_i heq; cases heq
      · rfl
    | downlink | pump =>
      rw [hr] at hrole
      cases hrole
  rw [hupload]
  unfold proceedUpload
  cases hp : h.phase with
  | connect header isTrojan =>
    rw [hp] at hphase
    have hnil : header.payload = [] := by simpa [Phase.succeeds] using hphase
    refine ⟨_, rfl, ?_⟩
    unfold connected
    dsimp only
    rw [if_pos hnil]
    exact finishOpen_users hg
  | payload w isTrojan => exact ⟨_, rfl, finishOpen_users hg⟩
  | start | input | meter | drain | put | teardown =>
    rw [hp] at hphase
    cases hphase

/-- **One step.**  In a sound state, the users agree exactly when the opening was matched. -/
theorem charged_iff_matched_step (hs : s.Sound) (l : Label) : Charged e s l ↔ Matched s l := by
  have hopening : ∀ phase : Phase, phase.succeeds = true → phase.opening = true := by
    intro phase hphase
    cases phase with
    | connect | payload => rfl
    | _ => cases hphase
  constructor
  · rintro hcharged i pid m o h op rfl ho hh hphase hop
    obtain ⟨hrole, op', g, hop', hkept, hg, huuid⟩ := hs i o ho pid h hh (hopening _ hphase)
    rw [hop] at hop'
    cases hop'
    obtain ⟨out, hout, hgate, hpump⟩ := proceed_succeeds (e := e) m s.engine.world hrole hphase hg
    obtain ⟨hup, hdown, hallowed⟩ := hcharged i pid m o h out op rfl ho hh hphase hout hop
    have huser : op.user = h.uuid := by
      rw [hpump] at hdown
      exact (Option.some.inj hdown).symm
    have hpath : op.gate.uuid = h.uuid := by
      rw [hgate, huuid, huser] at hup
      exact Option.some.inj hup
    refine ⟨huser, hpath, (allows_add_iff hkept.passed).1 ?_⟩
    rw [← huser, ← hkept.allowed_eq]
    exact hallowed
  · rintro hmatched i pid m o h out op rfl ho hh hphase hout hop
    obtain ⟨hrole, op', g, hop', hkept, hg, huuid⟩ := hs i o ho pid h hh (hopening _ hphase)
    rw [hop] at hop'
    cases hop'
    obtain ⟨out', hout', hgate, hpump⟩ := proceed_succeeds (e := e) m s.engine.world hrole hphase hg
    rw [hout] at hout'
    cases hout'
    obtain ⟨huser, hpath, hcleared⟩ := hmatched i pid m o h op rfl ho hh hphase hop
    refine ⟨?_, ?_, ?_⟩
    · rw [hgate, huuid, hpath, huser]
    · rw [hpump, huser]
    · rw [hkept.allowed_eq, huser]
      exact (allows_add_iff hkept.passed).2 hcleared

/-- **The users that are authenticated are the users that pay, exactly in the runs in which every
opening that succeeds names the user of its path, on a session whose gate is that user's, and was
cleared by it.** -/
theorem charged_iff_matched (sha224 : String → String) (world : World) (ls : List Label) :
    (ledgerMachine ⟨.trojan, sha224⟩).Along (Charged ⟨.trojan, sha224⟩) (.init world) ls ↔
      (ledgerMachine ⟨.trojan, sha224⟩).Along Matched (.init world) ls := by
  refine Machine.along_iff (I := Ledger.Sound) (fun _ _ _ hs _ hstep => sound_step rfl hs hstep)
    (fun _ l hs => charged_iff_matched_step hs l) fun _ _ ho => ?_
  cases ho

/-- A digest that can be computed by hand: the identifier, padded to 56 characters. -/
def paddedDigest (uid : String) : String :=
  String.ofList ((uid.toList ++ List.replicate 56 '0').take 56)

/-- A header for port 80 of 127.0.0.1, with the password of `bob`. -/
def headerOfBob : Relay.TrojanHeader where
  hash := Bytes.ascii "bob" ++ List.replicate 53 0x30
  command := 1
  address := Relay.VlessHeader.localhost.address
  port := Relay.VlessHeader.localhost.port
  hash_length := by decide
  port_length := Relay.VlessHeader.localhost.port_length

/-- Two users, of whom `bob` was disabled. -/
def aliceAndBob : World :=
  ⟨⟨((∅ : Links).set "alice" ⟨"trojan-xhttp", none, 0, true, .never, 0, 0⟩).set "bob"
    ⟨"trojan-xhttp", none, 0, false, .never, 0, 0⟩, 0, ∅⟩, .init⟩

/-- A packet under the path of `alice`, with the password of `bob`. -/
def borrowedPath : List Label :=
  [.packetUp "alice" "s" 0 0, .resume 0 0 (.data headerOfBob.encode) (momentAt 0),
    .resume 0 0 .go (momentAt 0)]

/-- `bob` is authenticated, and `alice` pays. -/
theorem borrowed_path_succeeds : ¬ (ledgerMachine ⟨.trojan, paddedDigest⟩).Along
    (Charged ⟨.trojan, paddedDigest⟩) (.init aliceAndBob)
      (borrowedPath ++ [.resume 0 0 .go (momentAt 0)]) := by
  intro hrun
  have hview : ((ledgerMachine ⟨.trojan, paddedDigest⟩).run (.init aliceAndBob) borrowedPath).map
      (fun s => (((s.engine.objects[0]?).bind (Session.handler? · 0)).map fun h =>
        (h.uuid, h.phase.succeeds), (s.opening? 0 0).map Opening.user)) =
          some (some ("alice", true), some "bob") := by
    decide +kernel
  obtain ⟨s, hs, heq⟩ := Option.map_eq_some_iff.1 hview
  obtain ⟨hhandler, hopening⟩ := Prod.mk.inj heq
  obtain ⟨h, hh, hfields⟩ := Option.map_eq_some_iff.1 hhandler
  obtain ⟨o, ho, hh⟩ := Option.bind_eq_some_iff.1 hh
  obtain ⟨huuid, hphase⟩ := Prod.mk.inj hfields
  obtain ⟨op, hop, huser⟩ := Option.map_eq_some_iff.1 hopening
  have hsound : s.Sound := Machine.run_invariant (fun _ _ _ hs hstep => sound_step rfl hs hstep) hs
    fun _ _ ho => by cases ho
  have hmatched := (charged_iff_matched_step hsound _).1 (hrun.last hs)
  have hpath := (hmatched 0 0 (momentAt 0) o h op rfl ho hh hphase hop).1
  rw [huser, huuid] at hpath
  exact absurd hpath (by decide)

end Xhttp

end RvgGateway
