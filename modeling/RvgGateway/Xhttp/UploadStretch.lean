import RvgGateway.Xhttp.Upload

/-!
# The stretches of a packet-up upload

Between two waits a handler runs alone, so the description `Upload.Uploading` of the session has to
be kept by whole stretches only.  The stretches of packets are taken one by one: the early packet,
the connect, the drain behind it, the packet whose turn it is.  Downloads and pumps leave alone what
the description is about.

* `Upload.Delivers` : the body of the packet arrives as it was sent.
* `Upload.uploading_stretch` : **every stretch that delivers keeps `Upload.Uploading`.**
-/

namespace RvgGateway

namespace Xhttp

open Relay (Parsed VlessHeader TrojanHeader)
open Reorder (Assembled Once accepted halfway)

namespace Upload

variable {u : Upload} {seqs : List ℤ} {o o' : Session} {pid : ℕ} {h : Handler} {t : Task}

/-! ### The stretches of a packet -/

section Stretch

variable {e : Engine} {m : Moment} {world : World} {seq : ℤ}

theorem abandon_task? (reply : Reply) : (abandon m h world o reply).next.task? = none := by
  unfold abandon
  split <;> rfl

theorem fail_task? : (fail m h world o).next.task? = none := by
  unfold fail
  split <;> exact abandon_task? _

/-- A header that was read from the first packet is its header. -/
theorem readHeader_first {uuid : String} {header : Parsed} {isTrojan : Bool}
    (huses : usesTrojan e world uuid = u.header.isTrojan)
    (hread : (readHeader e uuid world (u.body 0)).1 = some (header, isTrojan)) :
    header.address = u.header.address ∧ header.port = u.header.port ∧ header.payload = u.payload := by
  unfold readHeader at hread
  rw [huses, body_zero] at hread
  cases hheader : u.header with
  | vless vh =>
    rw [hheader] at hread
    simp only [FirstHeader.isTrojan, Bool.false_eq_true, if_false, FirstHeader.encode] at hread
    obtain ⟨parsed, hparsed, heq⟩ := Option.map_eq_some_iff.1 hread
    cases heq
    have hlen : 24 ≤ (vh.encode ++ u.payload).length := by
      by_contra hlt
      unfold Relay.parseVlessHeader at hparsed
      rw [if_pos (not_le.1 hlt)] at hparsed
      cases hparsed
    rw [vh.parse_encode u.payload hlen] at hparsed
    cases hparsed
    exact ⟨rfl, rfl, rfl⟩
  | trojan th =>
    rw [hheader] at hread
    simp only [FirstHeader.isTrojan, if_true, FirstHeader.encode] at hread
    cases hparsed : Relay.parseTrojanHeader (th.encode ++ u.payload) with
    | none => rw [hparsed] at hread; cases hread
    | some res =>
      rw [hparsed] at hread
      have hlen : Relay.trojanHeaderMin ≤ (th.encode ++ u.payload).length := by
        by_contra hlt
        unfold Relay.parseTrojanHeader at hparsed
        rw [if_pos (not_le.1 hlt)] at hparsed
        cases hparsed
      rw [th.parse_encode u.payload hlen] at hparsed
      cases hparsed
      obtain ⟨_, -, heq⟩ := Option.map_eq_some_iff.1 hread
      cases heq
      exact ⟨rfl, rfl, rfl⟩

/-- `_open_tcp_for_session` goes on to connect. -/
theorem uploading_openTcp (hup : u.Uploading seqs o) (hh : o.handler? pid = some h)
    (hrole : h.role = .packetUp 0) (hp : h.pending = some (0, false))
    (huses : usesTrojan e world h.uuid = u.header.isTrojan)
    (hnext : (openTcp e m h world o (u.body 0)).next.task? = some t) :
    u.Uploading seqs ((openTcp e m h world o (u.body 0)).session.setTask pid t) := by
  unfold openTcp at hnext ⊢
  rcases hread : readHeader e h.uuid world (u.body 0) with ⟨_ | ⟨header, isTrojan⟩, world'⟩
  · rw [hread] at hnext
    simp only [fail_task?] at hnext
    cases hnext
  · rw [hread] at hnext
    cases hnext
    refine hup.keep hh rfl ?_ (fun h' heq => ?_) hup.conn hup.stage
    · rw [hp]
      exact Handler.pending_packetUp hrole
    · cases heq
      exact handlerOk_of_phaseOk hrole ⟨rfl, readHeader_first huses (by rw [hread])⟩

/-- The task at the end of `packet_up_upload` has nothing in its hands. -/
theorem finishPacket_task {events : List Event} (hrole : h.role = .packetUp seq)
    (hnext : (finishPacket m h world o events).next.task? = some t) :
    (finishPacket m h world o events).session = o ∧ t.pending = none ∧
      ∀ h', t = .running h' → u.HandlerOk h' := by
  unfold finishPacket at hnext ⊢
  split at hnext
  · cases hnext
    refine ⟨by rw [if_pos ‹_›], ?_, fun h' heq => ?_⟩
    · exact Handler.pending_packetUp hrole
    · cases heq
      exact handlerOk_of_phaseOk hrole trivial
  · cases hnext
    exact ⟨by rw [if_neg ‹_›], rfl, fun h' heq => by cases heq⟩

/-- The packet whose turn it is goes out, with those that were waiting for it. -/
theorem Stage.deliver {A : ℤ → Prop} {paying paying' : Prop} {w : ℕ} {writers : List Writer}
    {nextSeq : ℤ} {seqBuf : Dict ℤ Bytes}
    (hst : u.Stage A paying (some w) writers nextSeq seqBuf) {nxt : ℤ} {seqBuf' : Dict ℤ Bytes}
    {more : Bytes} (hdrain : Reorder.drain (nextSeq + 1) seqBuf = (nxt, seqBuf', more)) :
    u.Stage (fun k => A k ∨ k = nextSeq) paying' (some w)
      (writers.modify w fun c => { c with written := c.written ++ (u.body nextSeq ++ more) }) nxt
      seqBuf' := by
  cases hst with
  | waiting hwriter => cases hwriter
  | connecting closing hwriter => cases hwriter
  | flowing out closing hwriter hwriters hpos hbuf =>
    cases hwriter
    have hafter := hbuf.deliver
    rw [hdrain, u.piece_eq_body hpos, List.append_assoc] at hafter
    refine .flowing _ closing rfl (by rw [hwriters]; rfl) ?_ hafter
    -- the first packet was accepted before
    refine lt_of_le_of_ne hafter.nonneg fun hzero => hafter.missing (.inl ?_)
    rw [← hzero]
    exact hbuf.before 0 le_rfl hpos

theorem uploading_writePacket (hup : u.Uploading seqs o) (hh : o.handler? pid = some h)
    (hrole : h.role = .packetUp seq) (hp : h.pending = some (seq, false)) {w : ℕ}
    (hw : o.writer = some w)
    (hnext : (writePacket m h world o w seq (u.body seq)).next.task? = some t) :
    u.Uploading seqs ((writePacket m h world o w seq (u.body seq)).session.setTask pid t) := by
  obtain ⟨hacc, h₀, -⟩ := hup.pending hh hp
  have hst := hup.stage
  rw [hw] at hst
  unfold writePacket at hnext ⊢
  split at hnext
  · rename_i hseq
    rw [if_pos hseq]
    split at hnext
    · rw [fail_task?] at hnext
      cases hnext
    · rename_i hclosing
      rw [if_neg hclosing]
      rcases hdrain : Reorder.drain (seq + 1) o.seqBuf with ⟨nxt, seqBuf, more⟩
      rw [hdrain] at hnext
      obtain ⟨hsession, hpend, hok⟩ := finishPacket_task (u := u) hrole hnext
      dsimp only
      rw [hsession]
      refine hup.accept hh hp hpend (.inl rfl) hok hup.conn ?_
      subst hseq
      exact hw ▸ hst.deliver hdrain
  · rename_i hseq
    rw [if_neg hseq]
    obtain ⟨hsession, hpend, hok⟩ := finishPacket_task (u := u) hrole hnext
    rw [hsession]
    refine hup.accept hh hp hpend (.inl rfl) hok hup.conn ?_
    obtain ⟨hpos, hle⟩ := hst.next_le h₀ hacc
    have hpid := (pendingAt_eq hh).trans hp
    rw [Reorder.Once.halfway_update (by rw [hpid]; simp) (by simp)]
    exact hup.stage.hold (hpos.trans_le hle) fun _ => lt_of_le_of_ne hle (Ne.symm hseq)

theorem uploading_putPacket (hup : u.Uploading seqs o) (hh : o.handler? pid = some h)
    (hrole : h.role = .packetUp seq) (hp : h.pending = some (seq, false))
    (huses : seq = 0 → usesTrojan e world h.uuid = u.header.isTrojan)
    (hnext : (putPacket e m h world o seq (u.body seq)).next.task? = some t) :
    u.Uploading seqs ((putPacket e m h world o seq (u.body seq)).session.setTask pid t) := by
  unfold putPacket at hnext ⊢
  split at hnext
  · rename_i hwriter
    split at hnext
    · rename_i hseq
      subst hseq
      rw [if_pos rfl]
      exact uploading_openTcp hup hh hrole hp (huses rfl) hnext
    · -- an early packet waits for the connection
      rename_i hseq
      cases hnext
      rw [if_neg hseq]
      obtain ⟨-, h₀, -⟩ := hup.pending hh hp
      have hpid := (pendingAt_eq hh).trans hp
      refine hup.accept hh hp rfl (.inl rfl) (fun h' heq => by cases heq) hup.conn ?_
      rw [Reorder.Once.halfway_update (by rw [hpid]; simp) (by simp)]
      exact hup.stage.hold (lt_of_le_of_ne h₀ (Ne.symm hseq)) fun hne => absurd hwriter hne
  · rename_i w hwriter
    exact uploading_writePacket hup hh hrole hp hwriter hnext

/-- Charging a user does not change the protocol of the links. -/
theorem usesTrojan_add {gate : Quota.Gate} {n : ℕ} {r : Quota.Reading} {uuid : String} :
    usesTrojan e { world with accounts := (gate.add n r world.accounts).2.2 } uuid =
      usesTrojan e world uuid := by
  have hlinks : ∀ clock uid k, ((((world.accounts.charge clock uid k).links.get? uuid).map
      isTrojanLink).getD false) = ((world.accounts.links.get? uuid).map isTrojanLink).getD false := by
    intro clock uid k
    simp only [Accounts.charge, Dict.get?_modify]
    split_ifs
    · cases world.accounts.links.get? uuid <;> rfl
    · rfl
  unfold usesTrojan
  cases e.kind with
  | trojan => rfl
  | vless =>
    rcases gate.add_cases n r world.accounts with ⟨-, he⟩ | ⟨-, -, _, he⟩ | ⟨-, -, he⟩
    · rw [he]
    · rw [he]
    · rw [he]
      dsimp only
      split_ifs
      · exact hlinks _ _ _
      · rfl

theorem uploading_meterUpload (hup : u.Uploading seqs o) (hh : o.handler? pid = some h)
    (hrole : h.role = .packetUp seq) (hp : h.pending = some (seq, false))
    (huses : seq = 0 → usesTrojan e world h.uuid = u.header.isTrojan)
    (hnext : (meterUpload e m h world o (u.body seq)).next.task? = some t) :
    u.Uploading seqs ((meterUpload e m h world o (u.body seq)).session.setTask pid t) := by
  unfold meterUpload at hnext ⊢
  dsimp only at hnext ⊢
  split at hnext
  · rename_i hok
    rw [if_pos hok]
    unfold upload at hnext ⊢
    simp only [hrole] at hnext ⊢
    cases hconn : o.connBytes with
    | none => exact absurd hconn hup.conn
    | some bytes =>
      simp only [hconn] at hnext ⊢
      refine uploading_putPacket (hup.of_same rfl (by simp) rfl rfl rfl rfl) hh hrole hp
        (fun hseq => ?_) hnext
      rw [usesTrojan_add]
      exact huses hseq
  · rw [abandon_task?] at hnext
    cases hnext


theorem drainSeqBuf_eq {w : ℕ} {nxt : ℤ} {res : ℤ × Dict ℤ Bytes × Bytes}
    (hdrain : drainSeqBuf o w nxt = .ok res) : Reorder.drain nxt o.seqBuf = res := by
  unfold drainSeqBuf at hdrain
  split at hdrain
  · cases hdrain
  · exact Except.ok.inj hdrain

/-- The connection is open: what was waiting for it goes out behind the payload of the header. -/
theorem uploading_finishOpen (hup : u.Uploading seqs o) (hh : o.handler? pid = some h)
    (hrole : h.role = .packetUp 0) {b : Bool} (hp : h.pending = some (0, b))
    (htasks : o'.tasks = o.tasks) (hconn : o'.connBytes ≠ none) {closing isTrojan : Bool}
    (hwriters : o'.writers = [u.target u.payload closing]) (hseqBuf : o'.seqBuf = o.seqBuf)
    (hnext : (finishOpen e m h world o' 0 isTrojan).next.task? = some t) :
    u.Uploading seqs ((finishOpen e m h world o' 0 isTrojan).session.setTask pid t) := by
  obtain ⟨hacc, -, -⟩ := hup.pending hh hp
  obtain ⟨hbuf, -⟩ := hup.stage.not_flowing hacc
  unfold finishOpen afterOpen at hnext ⊢
  simp only [hrole] at hnext ⊢
  cases hdrain : drainSeqBuf (enterTcp e m h o' 0 isTrojan) 0 1 with
  | error seqBuf =>
    rw [hdrain] at hnext
    simp only [fail_task?] at hnext
    cases hnext
  | ok res =>
    obtain ⟨nxt, seqBuf, data⟩ := res
    rw [hdrain] at hnext
    cases hnext
    have hdrained : Reorder.drain (0 + 1) o.seqBuf = (nxt, seqBuf, data) := by
      rw [← hseqBuf]
      exact drainSeqBuf_eq hdrain
    have hafter := hbuf.deliver
    rw [hdrained, List.nil_append, piece_zero] at hafter
    have hpump : ∃ w gate first p, p.role = .pump w gate first ∧
        (enterTcp e m h o' 0 isTrojan).tasks = o.tasks ++ [.running p] :=
      ⟨_, _, _, newPump e m h 0 isTrojan, rfl, by rw [← htasks]; rfl⟩
    refine hup.accept hh hp rfl (.inr hpump) (fun h' heq => by cases heq) hconn ?_
    refine .flowing (u.payload ++ data) closing rfl ?_ ?_ hafter
    · show (Session.write (enterTcp e m h o' 0 isTrojan) 0 data).writers = _
      unfold Session.write enterTcp
      simp only [hwriters]
      rfl
    · -- the first packet is accepted now
      exact lt_of_le_of_ne hafter.nonneg fun hzero => hafter.missing (.inr hzero.symm)

/-- While the first packet is whole in the hands of a handler, there is no connection. -/
theorem writers_of_first (hup : u.Uploading seqs o) (hh : o.handler? pid = some h)
    (hp : h.pending = some (0, false)) : o.writers = [] := by
  have hpid := (pendingAt_eq hh).trans hp
  obtain ⟨-, ⟨hnil, -⟩ | ⟨⟨pid', seq', hp'⟩, -⟩⟩ := hup.stage.not_flowing (hup.pending hh hp).1
  · exact hnil
  · -- this handler holds the first packet, so no other one is sending a payload
    cases hup.halfway_zero hp'
    cases hup.once.inj _ _ _ _ _ hp' hpid
    rw [hpid] at hp'
    cases hp'

/-- The payload of the header is written to the new connection, and drained. -/
theorem uploading_sending (hup : u.Uploading seqs o) (hh : o.handler? pid = some h)
    (hrole : h.role = .packetUp 0) (hp : h.pending = some (0, false)) {isTrojan : Bool} :
    u.Uploading seqs (Session.setTask { o with writers := [u.target u.payload false] } pid
      (.running { h with phase := .payload 0 isTrojan })) := by
  have hpid := (pendingAt_eq hh).trans hp
  have hwriters := writers_of_first hup hh hp
  obtain ⟨hbuf, -⟩ := hup.stage.not_flowing (hup.pending hh hp).1
  have hafter : pendingAt (o.tasks.set pid (.running { h with phase := .payload 0 isTrojan })) =
      Function.update (pendingAt o.tasks) pid (some (0, true)) := by
    rw [pendingAt_set (Session.handler?_eq_some.1 hh)]
    exact congrArg _ (Handler.pending_packetUp hrole)
  refine ⟨hup.conn, fun pid' h' hh' => ?_, hup.range, ?_, .connecting false ?_ rfl ?_ ?_⟩
  · rcases Session.handler?_of_setTask hh' with ⟨-, heq⟩ | hold
    · cases heq
      exact handlerOk_of_phaseOk hrole ⟨rfl, rfl⟩
    · exact hup.handlers pid' h' hold
  · show Once seqs (pendingAt (o.tasks.set pid _))
    rw [hafter]
    exact hup.once.go_on hpid true
  · -- the connection is entered in the session only later
    cases hup.stage with
    | waiting hwriter => exact hwriter
    | connecting closing hwriter => exact hwriter
    | flowing out closing hwriter hwriters' => rw [hwriters] at hwriters'; cases hwriters'
  · show halfway (pendingAt (o.tasks.set pid _))
    rw [hafter]
    exact ⟨pid, 0, Function.update_self ..⟩
  · show Assembled u.piece (accepted seqs (pendingAt (o.tasks.set pid _))) 0 o.seqBuf []
    rw [hafter, Once.accepted_go_on hpid]
    exact hbuf

/-- The target is connected. -/
theorem uploading_connected (hup : u.Uploading seqs o) (hh : o.handler? pid = some h)
    (hrole : h.role = .packetUp 0) {header : Parsed} {isTrojan : Bool}
    (hphase : h.phase = .connect header isTrojan)
    (hheader : header.address = u.header.address ∧ header.port = u.header.port ∧
      header.payload = u.payload)
    (hnext : (connected e m h world o header isTrojan).next.task? = some t) :
    u.Uploading seqs ((connected e m h world o header isTrojan).session.setTask pid t) := by
  have hp : h.pending = some (0, false) := by rw [Handler.pending_packetUp hrole, hphase]
  have hwriters := writers_of_first hup hh hp
  obtain ⟨haddress, hport, hpayload⟩ := hheader
  -- the connection is the first one of the session, and has the payload already
  have htarget : o.writers ++ [⟨header.address, header.port, header.payload, false⟩] =
      [u.target u.payload false] := by
    rw [hwriters, haddress, hport, hpayload]
    rfl
  have hlength : o.writers.length = 0 := by rw [hwriters]; rfl
  unfold connected at hnext ⊢
  simp only [hlength, htarget] at hnext ⊢
  split at hnext
  · rename_i hempty
    rw [if_pos hempty]
    have hsame : ({ o with writers := [u.target u.payload false] } : Session).tasks = o.tasks := rfl
    exact uploading_finishOpen hup hh hrole hp hsame hup.conn rfl rfl hnext
  · rename_i hempty
    rw [if_neg hempty]
    cases hnext
    exact uploading_sending hup hh hrole hp

/-- The request of the packet is delivered: its body arrives complete, and the header of the first
packet is one of the protocol in which it is read. -/
def Delivers (u : Upload) (e : Engine) (world : World) (h : Handler) (seq : ℤ) (inp : Input) :
    Prop :=
  match h.phase with
  | .input => inp = .data (u.body seq)
  | .meter _ => seq = 0 → usesTrojan e world h.uuid = u.header.isTrojan
  | _ => True

instance (u : Upload) (h : Handler) (inp : Input) : Decidable (u.Delivers e world h seq inp) := by
  unfold Delivers
  split <;> infer_instance

/-- The body of a packet has arrived; its handler goes on to the gate. -/
theorem uploading_input (hup : u.Uploading seqs o) (hh : o.handler? pid = some h)
    (hrole : h.role = .packetUp seq) (hphase : h.phase = .input) {out : Outcome}
    (hout : proceedPacketUp e (.data (u.body seq)) m h world o = some out)
    (hnext : out.next.task? = some t) : u.Uploading seqs (out.session.setTask pid t) := by
  have hp : h.pending = some (seq, false) := by rw [Handler.pending_packetUp hrole, hphase]
  obtain ⟨-, h₀, h₁⟩ := hup.pending hh hp
  unfold proceedPacketUp at hout
  rw [hphase] at hout
  -- a packet is never empty
  simp only [u.body_ne_nil h₀ h₁, if_false] at hout
  cases hout
  cases hnext
  refine hup.keep hh rfl ?_ (fun h' heq => ?_) hup.conn hup.stage
  · rw [hp]
    exact Handler.pending_packetUp hrole
  · cases heq
    exact handlerOk_of_phaseOk hrole rfl

/-- The payload of the header is on its way. -/
theorem uploading_payload (hup : u.Uploading seqs o) (hh : o.handler? pid = some h)
    (hrole : h.role = .packetUp 0) {isTrojan : Bool} (hphase : h.phase = .payload 0 isTrojan)
    (hnext : (finishOpen e m h world o 0 isTrojan).next.task? = some t) :
    u.Uploading seqs ((finishOpen e m h world o 0 isTrojan).session.setTask pid t) := by
  have hp : h.pending = some (0, true) := by rw [Handler.pending_packetUp hrole, hphase]
  have hpid := (pendingAt_eq hh).trans hp
  obtain ⟨-, hcases⟩ := hup.stage.not_flowing (hup.pending hh hp).1
  rcases hcases with ⟨-, hno⟩ | ⟨-, closing, hwriters⟩
  · exact absurd ⟨pid, 0, hpid⟩ hno
  · exact uploading_finishOpen hup hh hrole hp rfl hup.conn hwriters rfl hnext

/-- A stretch of a packet. -/
theorem uploading_packet (hup : u.Uploading seqs o) (hh : o.handler? pid = some h)
    (hrole : h.role = .packetUp seq) {inp : Input} {out : Outcome}
    (hdel : u.Delivers e world h seq inp) (hout : proceedPacketUp e inp m h world o = some out)
    (hnext : out.next.task? = some t) : u.Uploading seqs (out.session.setTask pid t) := by
  have hok := (handlerOk_packetUp hrole).1 (hup.handlers pid h hh)
  have hfail : (fail m h world o).next.task? ≠ some t := by
    rw [fail_task?]
    simp
  unfold Delivers at hdel
  cases hphase : h.phase with
  | start | put | teardown => rw [hphase] at hok; exact hok.elim
  | input =>
    rw [hphase] at hdel
    rw [hdel] at hout
    exact uploading_input hup hh hrole hphase hout hnext
  | meter data =>
    unfold proceedPacketUp proceedUpload at hout
    rw [hphase] at hok hdel hout
    cases hok
    cases inp <;> cases hout
    have hp : h.pending = some (seq, false) := by rw [Handler.pending_packetUp hrole, hphase]
    exact uploading_meterUpload hup hh hrole hp hdel hnext
  | connect header isTrojan =>
    unfold proceedPacketUp proceedUpload at hout
    rw [hphase] at hok hout
    obtain ⟨rfl, hheader⟩ := hok
    cases inp <;> cases hout
    · exact uploading_connected hup hh hrole hphase hheader hnext
    · exact absurd hnext hfail
  | payload w isTrojan =>
    unfold proceedPacketUp proceedUpload at hout
    rw [hphase] at hok hout
    obtain ⟨rfl, rfl⟩ := hok
    cases inp <;> cases hout
    · exact uploading_payload hup hh hrole hphase hnext
    · exact absurd hnext hfail
  | drain =>
    unfold proceedPacketUp proceedUpload at hout
    rw [hphase] at hout
    cases inp <;> simp only [hrole] at hout <;> cases hout
    · -- the packet was put in its place before the drain
      cases hnext
      refine hup.keep hh rfl ?_ (fun h' heq => by cases heq) hup.conn hup.stage
      rw [Handler.pending_packetUp hrole, hphase]
      rfl
    · exact absurd hnext hfail

/-- A stretch that changes nothing that the upload uses. -/
structure Passes (o : Session) (out : Outcome) : Prop where
  tasks_eq : out.session.tasks = o.tasks
  conn : o.connBytes ≠ none → out.session.connBytes ≠ none
  writer_eq : out.session.writer = o.writer
  writers_eq : out.session.writers = o.writers
  nextSeq_eq : out.session.nextSeq = o.nextSeq
  seqBuf_eq : out.session.seqBuf = o.seqBuf
  next : ∀ h', out.next = .wait h' → Aside h'

theorem passes_ends (reply : Reply) (downQ : List (Option Bytes)) :
    Passes o ⟨world, { o with downQ }, .ends reply, []⟩ :=
  ⟨rfl, id, rfl, rfl, rfl, rfl, fun _ heq => by cases heq⟩

theorem passes_teardown (world : World) (reply : Reply) :
    Passes o ⟨world, o, .teardown reply, []⟩ :=
  ⟨rfl, id, rfl, rfl, rfl, rfl, fun _ heq => by cases heq⟩

theorem passes_putData {world : World} {data : Bytes} (hrole : Aside h) :
    Passes o (putData h world o data) := by
  unfold putData
  split
  · exact ⟨rfl, id, rfl, rfl, rfl, rfl, fun _ heq => by cases heq; exact hrole⟩
  · exact ⟨rfl, id, rfl, rfl, rfl, rfl, fun _ heq => by cases heq; exact hrole⟩

theorem passes_meterPump {w : ℕ} {gate : Quota.Gate} {first : Bool} {data : Bytes} :
    Passes o (meterPump m h world o w gate first data) := by
  unfold meterPump
  generalize gate.add data.length m.reading world.accounts = res
  obtain ⟨ok, gate, accounts⟩ := res
  dsimp only
  split
  · have hput : Passes { o with connBytes := o.connBytes.map (· + data.length) }
        (putData { h with role := .pump w gate false } { world with accounts }
          { o with connBytes := o.connBytes.map (· + data.length) }
          (if first then [0, 0] ++ data else data)) := passes_putData (.inr ⟨w, gate, false, rfl⟩)
    exact ⟨hput.tasks_eq, fun hc => hput.conn (by simpa using hc), hput.writer_eq, hput.writers_eq,
      hput.nextSeq_eq, hput.seqBuf_eq, hput.next⟩
  · exact passes_teardown _ .none

/-- A stretch of a download or a pump. -/
theorem passes_aside (hrole : Aside h) {inp : Input} {out : Outcome}
    (hout : proceed e inp m h world o = some out) : Passes o out := by
  unfold proceed at hout
  rcases hrole with hrole | ⟨w, gate, first, hrole⟩
  · simp only [hrole] at hout
    unfold proceedDownlink at hout
    split at hout
    · split at hout
      · cases hout
      · cases hout
        exact passes_ends .ok _
      · cases hout
        exact ⟨rfl, id, rfl, rfl, rfl, rfl, fun _ heq => by cases heq; exact .inl hrole⟩
    · cases hout
      exact passes_ends .none o.downQ
    · cases hout
  · simp only [hrole] at hout
    have hwait : ∀ h' : Handler, Aside h' → Passes o ⟨world, o, .wait h', []⟩ := fun h' haside =>
      ⟨rfl, id, rfl, rfl, rfl, rfl, fun _ heq => by cases heq; exact haside⟩
    unfold proceedPump at hout
    split at hout
    case h_1 => cases hout; exact passes_ends .none o.downQ
    case h_2 => cases hout; exact hwait _ (.inr ⟨_, _, _, rfl⟩)
    case h_3 | h_4 | h_5 => cases hout; exact passes_teardown _ .none
    case h_6 =>
      split at hout
      · cases hout; exact passes_teardown _ .none
      · cases hout; exact hwait _ (.inr ⟨w, gate, first, hrole⟩)
    case h_7 => cases hout; exact passes_teardown _ .none
    case h_8 => cases hout; exact passes_meterPump
    case h_9 => cases hout; exact passes_putData (.inr ⟨w, gate, first, hrole⟩)
    case h_10 => cases hout

/-- A stretch of any handler of the session. -/
theorem uploading_stretch (hup : u.Uploading seqs o) (hh : o.handler? pid = some h) {inp : Input}
    {out : Outcome} (hdel : ∀ seq, h.role = .packetUp seq → u.Delivers e world h seq inp)
    (hout : proceed e inp m h world o = some out) (hnext : out.next.task? = some t) :
    u.Uploading seqs (out.session.setTask pid t) := by
  have haside : Aside h → u.Uploading seqs (out.session.setTask pid t) := by
    intro hrole
    have hpass := passes_aside hrole hout
    have htask : t.pending = none ∧ ∀ h', t = .running h' → u.HandlerOk h' := by
      cases hn : out.next with
      | wait h' =>
        rw [hn] at hnext
        cases hnext
        exact ⟨(hpass.next h' hn).pending, fun _ heq => by cases heq; exact (hpass.next h' hn).handlerOk⟩
      | ends reply =>
        rw [hn] at hnext
        cases hnext
        exact ⟨rfl, fun _ heq => by cases heq⟩
      | teardown reply => rw [hn] at hnext; cases hnext
    refine hup.keep hh hpass.tasks_eq (htask.1.trans hrole.pending.symm) htask.2
      (hpass.conn hup.conn) ?_
    rw [hpass.writer_eq, hpass.writers_eq, hpass.nextSeq_eq, hpass.seqBuf_eq]
    exact hup.stage
  cases hrole : h.role with
  | packetUp seq =>
    unfold proceed at hout
    simp only [hrole] at hout
    exact uploading_packet hup hh hrole (hdel seq hrole) hout hnext
  | streamUp writer =>
    -- there is no streamed upload on the session
    have hok := hup.handlers pid h hh
    unfold HandlerOk at hok
    simp only [hrole] at hok
  | downlink => exact haside (.inl hrole)
  | pump w gate first => exact haside (.inr ⟨w, gate, first, hrole⟩)

end Stretch

end Upload

end Xhttp

end RvgGateway
