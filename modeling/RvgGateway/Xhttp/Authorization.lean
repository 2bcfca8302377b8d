import RvgGateway.Xhttp.Frame

/-!
# Which uploads may open a connection

An upload is never checked against its link as such: `packet_up_upload` and `stream_up_upload` only
ask their quota gate, and a gate asks for the link when a batch is full or a quarter of a second has
passed.  The first upload of a session usually meets neither.

* `Authorized` : the connections that the step opens are opened for allowed links.
* `Opens` : when the stretch of an upload behind `gate.add` opens a connection.
* `Cleared` : when the call of `gate.add` before the opening guarantees that.
* `opened_authorized_iff` : **a run opens connections for allowed links only exactly when every
  opening was cleared.**
-/

namespace RvgGateway

namespace Xhttp

open Quota (Gate Reading)
open Relay (VlessHeader)

/-! ### Which stretch opens a connection -/

/-- The stretch opens no connection. -/
def Outcome.NoOpen (out : Outcome) : Prop := ∀ uuid allowed, Event.opened uuid allowed ∉ out.events

section NoOpen

variable (e : Engine) (m : Moment) (h : Handler) (world : World) (o : Session)

theorem noOpen_of_nil {out : Outcome} (hev : out.events = []) : out.NoOpen := by
  intro uuid allowed hmem
  rw [hev] at hmem
  cases hmem

theorem noOpen_of_wrote {out : Outcome} {uuid owner : String} {data : Bytes}
    (hev : out.events = [.wrote uuid owner data]) : out.NoOpen := by
  intro uuid' allowed hmem
  rw [hev] at hmem
  cases List.mem_singleton.1 hmem

theorem abandon_noOpen (reply : Reply) : (abandon m h world o reply).NoOpen := by
  refine noOpen_of_nil ?_
  unfold abandon
  split <;> rfl

theorem fail_noOpen : (fail m h world o).NoOpen := by
  unfold fail
  split <;> exact abandon_noOpen m h world o _

theorem writePacket_noOpen (w : ℕ) (seq : ℤ) (data : Bytes) :
    (writePacket m h world o w seq data).NoOpen := by
  unfold writePacket finishPacket
  split
  · split
    · exact fail_noOpen m h world o
    · dsimp only
      split <;> exact noOpen_of_wrote rfl
  · split <;> exact noOpen_of_nil rfl

theorem finishOpen_noOpen (w : ℕ) (isTrojan : Bool) :
    (finishOpen e m h world o w isTrojan).NoOpen := by
  unfold finishOpen afterOpen
  split
  · exact noOpen_of_nil rfl
  · split
    · exact fail_noOpen m h world _
    · exact noOpen_of_wrote rfl

theorem connected_noOpen (header : Relay.Parsed) (isTrojan : Bool) :
    (connected e m h world o header isTrojan).NoOpen := by
  unfold connected
  dsimp only
  split
  · exact finishOpen_noOpen e m h world _ _ isTrojan
  · exact noOpen_of_wrote rfl

theorem putData_noOpen (data : Bytes) : (putData h world o data).NoOpen := by
  unfold putData
  split <;> exact noOpen_of_nil rfl

theorem meterPump_noOpen (w : ℕ) (gate : Gate) (first : Bool) (data : Bytes) :
    (meterPump m h world o w gate first data).NoOpen := by
  unfold meterPump
  dsimp only
  split
  · exact putData_noOpen _ _ _ _
  · exact noOpen_of_nil rfl

end NoOpen

/-! ### The check before it -/

/-- The call `gate.add(n)` for a request of `uuid` guarantees that its link is allowed afterwards:
either the gate makes its check on that very link, and the charge does not use up its limit, or the
link happens to be allowed. -/
def Cleared (gate : Gate) (n : ℕ) (r : Reading) (a : Accounts) (uuid : String) : Prop :=
  if gate.due r n ∧ gate.uuid = uuid then a.leavesRoom uuid (gate.pending + n)
  else a.allows r.clock uuid = true

/-- After an `add` that lets the bytes pass, the link of `uuid` is allowed exactly when the call was
cleared. -/
theorem allows_add_iff {gate : Gate} {n : ℕ} {r : Reading} {a : Accounts} {uuid : String}
    (hok : (gate.add n r a).1 = true) :
    (gate.add n r a).2.2.allows r.clock uuid = true ↔ Cleared gate n r a uuid := by
  unfold Cleared
  rcases gate.add_cases n r a with ⟨-, he⟩ | ⟨-, hdue, hlt, he⟩ | ⟨-, hdue, he⟩
  · rw [he] at hok
    cases hok
  · -- no check: the accounts are what they were
    rw [he, if_neg fun hc => hdue hc.1]
  · rw [he] at hok ⊢
    have hgranted : gate.granted r a = true := hok
    rw [hgranted]
    simp only [if_true]
    -- only a check on the link itself says anything about it
    by_cases huuid : gate.uuid = uuid
    · rw [if_pos ⟨hdue, huuid⟩, ← huuid]
      exact Accounts.allows_charge_self (Gate.allows_of_granted hgranted)
    · rw [if_neg fun hc => huuid hc.2, Accounts.allows_charge_ne huuid]

variable {e : Engine} {s : EngineState} {l : Label}

/-! ### Which upload opens a connection -/

/-- The upload is one that opens the connection of its session. -/
def Session.OpensTcp (o : Session) : Role → Prop
  | .packetUp seq => o.connBytes ≠ none ∧ o.writer = none ∧ seq = 0
  | .streamUp writer => writer = none
  | _ => False

/-- Behind `gate.add` a connection is opened: the bytes pass, the upload is one that opens it, and
its chunk starts with a header. -/
def Opens (e : Engine) (m : Moment) (h : Handler) (world : World) (o : Session) (data : Bytes) :
    Prop :=
  let res := (o.ensureGate e.kind h.uuid m.reading.monotonic).add data.length m.reading world.accounts
  res.1 = true ∧ o.OpensTcp h.role ∧
    (readHeader e h.uuid { world with accounts := res.2.2 } data).1.isSome = true

section Opens

variable {m : Moment} {h : Handler} {world : World} {o : Session} {data : Bytes}
  {uuid : String} {allowed : Bool}

theorem openTcp_opened_iff : .opened uuid allowed ∈ (openTcp e m h world o data).events ↔
    (readHeader e h.uuid world data).1.isSome = true ∧ uuid = h.uuid ∧
      allowed = world.accounts.allows m.reading.clock h.uuid := by
  unfold openTcp
  have hworld := readHeader_accounts e h.uuid world data
  rcases hread : readHeader e h.uuid world data with ⟨_ | ⟨header, isTrojan⟩, world'⟩
  · exact ⟨fun hmem => absurd hmem (fail_noOpen m h world' o uuid allowed),
      fun hsome => by cases hsome.1⟩
  · rw [hread] at hworld
    dsimp only at hworld ⊢
    rw [List.mem_singleton, Event.opened.injEq, hworld]
    exact (and_iff_right rfl).symm

theorem upload_opened_iff : .opened uuid allowed ∈ (upload e m h world o data).events ↔
    (o.OpensTcp h.role ∧ (readHeader e h.uuid world data).1.isSome = true) ∧ uuid = h.uuid ∧
      allowed = world.accounts.allows m.reading.clock h.uuid := by
  -- another upload opens nothing
  have hother : ∀ {out : Outcome}, out.NoOpen → ¬ o.OpensTcp h.role →
      (.opened uuid allowed ∈ out.events ↔
        (o.OpensTcp h.role ∧ (readHeader e h.uuid world data).1.isSome = true) ∧ uuid = h.uuid ∧
          allowed = world.accounts.allows m.reading.clock h.uuid) := by
    intro out hout hnot
    exact ⟨fun hmem => absurd hmem (hout uuid allowed), fun hopens => absurd hopens.1.1 hnot⟩
  unfold upload
  cases hrole : h.role with
  | packetUp seq =>
    rw [hrole] at hother
    dsimp only
    cases hconn : o.connBytes with
    | none => exact hother (noOpen_of_nil rfl) fun hopens => hopens.1 hconn
    | some bytes =>
      unfold putPacket
      cases hwriter : o.writer with
      | none =>
        dsimp only
        split
        · rename_i hseq
          have hopens : o.OpensTcp (.packetUp seq) := ⟨by rw [hconn]; simp, hwriter, hseq⟩
          rw [openTcp_opened_iff, and_iff_right hopens]
        · rename_i hseq
          exact hother (noOpen_of_nil rfl) fun hopens => hseq hopens.2.2
      | some w =>
        refine hother (writePacket_noOpen m h world _ w seq data) fun hopens => ?_
        cases hwriter.symm.trans hopens.2.1
  | streamUp writer =>
    rw [hrole] at hother
    unfold putChunk
    cases writer with
    | none =>
      have hopens : o.OpensTcp (.streamUp none) := rfl
      dsimp only
      rw [openTcp_opened_iff, and_iff_right hopens]
    | some w =>
      dsimp only
      split
      · exact hother (fail_noOpen m h world _) fun hopens => by cases hopens
      · exact hother (noOpen_of_wrote rfl) fun hopens => by cases hopens
  | downlink | pump =>
    rw [hrole] at hother
    exact hother (noOpen_of_nil rfl) fun hopens => hopens

theorem meterUpload_opened_iff : .opened uuid allowed ∈ (meterUpload e m h world o data).events ↔
    Opens e m h world o data ∧ uuid = h.uuid ∧
      allowed = ((o.ensureGate e.kind h.uuid m.reading.monotonic).add data.length m.reading
        world.accounts).2.2.allows m.reading.clock h.uuid := by
  unfold meterUpload Opens
  dsimp only
  split
  · rename_i hok
    rw [upload_opened_iff, and_iff_right hok]
    exact Iff.rfl
  · rename_i hok
    exact ⟨fun hmem => absurd hmem (abandon_noOpen m h _ _ _ uuid allowed),
      fun hopens => absurd hopens.1.1 hok⟩

/-- An upload that opens a connection waits at `gate.add` before that. -/
theorem proceed_meter (hopens : o.OpensTcp h.role) (hphase : h.phase = .meter data) :
    proceed e .go m h world o = some (meterUpload e m h world o data) := by
  unfold proceed
  cases hrole : h.role with
  | packetUp seq =>
    dsimp only
    unfold proceedPacketUp proceedUpload
    rw [hphase]
  | streamUp writer =>
    dsimp only
    unfold proceedStreamUp proceedUpload
    rw [hphase]
  | downlink | pump =>
    rw [hrole] at hopens
    exact hopens.elim

variable {inp : Input} {out : Outcome}

theorem proceedUpload_opened (hout : proceedUpload e inp m h world o = some out)
    (hmem : .opened uuid allowed ∈ out.events) :
    ∃ data, h.phase = .meter data ∧ inp = .go ∧ out = meterUpload e m h world o data := by
  unfold proceedUpload at hout
  split at hout
  case h_1 => cases hout; exact ⟨_, ‹_›, rfl, rfl⟩
  case h_2 => cases hout; exact absurd hmem (connected_noOpen e m h world o _ _ uuid allowed)
  case h_3 => cases hout; exact absurd hmem (finishOpen_noOpen e m h world o _ _ uuid allowed)
  case h_4 | h_5 | h_6 => cases hout; exact absurd hmem (fail_noOpen m h world o uuid allowed)
  case h_7 => split at hout <;> (cases hout; cases hmem)
  case h_8 => cases hout

/-- A stretch that opens a connection is the one behind `gate.add` of an upload. -/
theorem proceed_opened (hout : proceed e inp m h world o = some out)
    (hmem : .opened uuid allowed ∈ out.events) :
    ∃ data, h.phase = .meter data ∧ inp = .go ∧ out = meterUpload e m h world o data := by
  unfold proceed at hout
  split at hout
  · unfold proceedPacketUp at hout
    split at hout
    · split at hout <;> (cases hout; cases hmem)
    · cases hout; cases hmem
    · exact proceedUpload_opened hout hmem
  · unfold proceedStreamUp at hout
    split at hout
    · split at hout <;> (cases hout; cases hmem)
    · cases hout; cases hmem
    · cases hout; exact absurd hmem (fail_noOpen m h world o uuid allowed)
    · exact proceedUpload_opened hout hmem
  · unfold proceedDownlink at hout
    split at hout
    · split at hout
      · cases hout
      · cases hout; cases hmem
      · cases hout; cases List.mem_singleton.1 hmem
    · cases hout; cases hmem
    · cases hout
  · unfold proceedPump at hout
    split at hout
    case h_1 | h_2 | h_3 | h_4 | h_5 | h_7 => cases hout; cases hmem
    case h_6 => split at hout <;> (cases hout; cases hmem)
    case h_8 => cases hout; exact absurd hmem (meterPump_noOpen m h world o _ _ _ _ uuid allowed)
    case h_9 => cases hout; exact absurd hmem (putData_noOpen h world o _ uuid allowed)
    case h_10 => cases hout

end Opens

/-! ### Runs -/

/-- Connections that the step opens are opened for allowed links. -/
def Authorized (e : Engine) (s : EngineState) (l : Label) : Prop :=
  ∀ uuid allowed, .opened uuid allowed ∈ emitted e s l → allowed = true

/-- If the step is the stretch of an upload behind `gate.add` and opens a connection, that call is
cleared. -/
def Vetted (e : Engine) (s : EngineState) (l : Label) : Prop :=
  ∀ i pid m o h data, l = .resume i pid .go m → s.objects[i]? = some o → o.handler? pid = some h →
    h.phase = .meter data → Opens e m h s.world o data →
    Cleared (o.ensureGate e.kind h.uuid m.reading.monotonic) data.length m.reading s.world.accounts
      h.uuid

/-- What a handler at `gate.add` shows when it goes on and opens a connection. -/
theorem emitted_meter {i pid : ℕ} {m : Moment} {o : Session} {h : Handler} {data : Bytes}
    (ho : s.objects[i]? = some o) (hh : o.handler? pid = some h) (hphase : h.phase = .meter data)
    (hopens : o.OpensTcp h.role) :
    emitted e s (.resume i pid .go m) = (meterUpload e m h s.world o data).events := by
  unfold emitted EngineState.next EngineState.resume
  simp only [ho, hh, hphase, proceed_meter hopens hphase, Option.map_some, Option.getD_some]

theorem authorized_iff_vetted : Authorized e s l ↔ Vetted e s l := by
  constructor
  · rintro hauth i pid m o h data rfl ho hh hphase hopens
    rw [← allows_add_iff hopens.1]
    refine hauth h.uuid _ ?_
    rw [emitted_meter ho hh hphase hopens.2.1, meterUpload_opened_iff]
    exact ⟨hopens, rfl, rfl⟩
  · intro hvet uuid allowed hmem
    rcases emitted_cases hmem with ⟨-, _, _, heq⟩ | ⟨i, pid, inp, m, o, h, out, rfl, ho, hh, hout, hev⟩
    · cases heq
    · obtain ⟨data, hphase, rfl, rfl⟩ := proceed_opened hout hev
      obtain ⟨hopens, -, rfl⟩ := meterUpload_opened_iff.1 hev
      exact (allows_add_iff hopens.1).2 (hvet i pid m o h data rfl ho hh hphase hopens)

/-- **Connections are opened for allowed links only, exactly in the runs in which every opening was
cleared by the call of `gate.add` before it.** -/
theorem opened_authorized_iff (e : Engine) (s : EngineState) (ls : List Label) :
    (machine e).Along (Authorized e) s ls ↔ (machine e).Along (Vetted e) s ls :=
  ⟨Machine.Along.mono fun _ _ => authorized_iff_vetted.1,
    Machine.Along.mono fun _ _ => authorized_iff_vetted.2⟩

/-- An engine without any link. -/
def emptyWorld : World := ⟨⟨∅, 0, ∅⟩, .init⟩

/-- A first packet under an identifier that no link has opens a connection. -/
theorem unknown_user_opens_connection :
    ¬ (machine ⟨.vless, id⟩).Along (Authorized ⟨.vless, id⟩) (.init emptyWorld)
      [.packetUp "nobody" "s" 0 0, .resume 0 0 (.data VlessHeader.localhost.encode) (momentAt 0),
        .resume 0 0 .go (momentAt 0)] := by
  intro h
  have hauth := ((h.2 _ rfl).2 _ rfl).1
  have hopened := hauth "nobody" false (by decide +kernel)
  cases hopened

end Xhttp

end RvgGateway
