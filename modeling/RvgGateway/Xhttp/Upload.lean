import RvgGateway.Xhttp.Frame

/-!
# Packet-up uploads

An upload is sent as numbered packets, each in a request of its own, and the requests are handled
concurrently: packets are buffered before the connection is open, while it is being opened, and
after that when they are early.

* `Upload` : the packets of an upload, the first of which starts with a complete header.
* `pendingAt` : the packet that a task has in its hands.
* `Upload.Uploading` : the state of the session while the upload goes on, whatever has arrived.  The
  packets that are *accepted*, that is, that arrived and are not in the hands of a handler any more,
  are in the reorder buffer `Reorder.Assembled`.
-/

namespace RvgGateway

namespace Xhttp

open Relay (Parsed VlessHeader TrojanHeader)
open Reorder (Assembled Once accepted halfway)

/-! ### Uploads -/

/-- A complete header of one of the two protocols. -/
inductive FirstHeader where
  | vless (h : VlessHeader)
  | trojan (h : TrojanHeader)

namespace FirstHeader

/-- The bytes of the header. -/
def encode : FirstHeader → Bytes
  | vless h => h.encode
  | trojan h => h.encode

def isTrojan : FirstHeader → Bool
  | vless _ => false
  | trojan _ => true

/-- The target's host. -/
def address : FirstHeader → String
  | vless h => h.address.text
  | trojan h => h.address.text

/-- The target's port. -/
def port : FirstHeader → ℕ
  | vless h => Bytes.toNatBE h.port
  | trojan h => Bytes.toNatBE h.port

theorem encode_ne_nil (h : FirstHeader) : h.encode ≠ [] := by
  cases h with
  | vless h => simp [encode, VlessHeader.encode]
  | trojan h => simp [encode, TrojanHeader.encode, Relay.crlf]

end FirstHeader

/-- An upload on a session: a header with the payload behind it, and the packets after it. -/
structure Upload where
  sid : String
  header : FirstHeader
  /-- What follows the header in the first packet. -/
  payload : Bytes
  /-- The other packets. -/
  rest : List Bytes
  rest_nonempty : ∀ b ∈ rest, b ≠ []

namespace Upload

variable (u : Upload)

/-- The number of packets. -/
def count : ℕ := u.rest.length + 1

/-- The body of the packet `seq`. -/
def body (seq : ℤ) : Bytes := (((u.header.encode ++ u.payload) :: u.rest)[seq.toNat]?).getD []

/-- What the packet `seq` carries for the target. -/
def piece (seq : ℤ) : Bytes := ((u.payload :: u.rest)[seq.toNat]?).getD []

/-- What the target is to receive. -/
def stream : Bytes := u.payload ++ u.rest.flatten

theorem body_zero : u.body 0 = u.header.encode ++ u.payload := rfl

theorem piece_zero : u.piece 0 = u.payload := rfl

theorem piece_eq_body {seq : ℤ} (h : 0 < seq) : u.piece seq = u.body seq := by
  obtain ⟨n, hn⟩ : ∃ n, seq.toNat = n + 1 := ⟨seq.toNat - 1, by omega⟩
  unfold piece body
  rw [hn, List.getElem?_cons_succ, List.getElem?_cons_succ]

theorem body_ne_nil {seq : ℤ} (h₀ : 0 ≤ seq) (h₁ : seq < u.count) : u.body seq ≠ [] := by
  rcases h₀.eq_or_lt with rfl | hpos
  · rw [body_zero]
    simp [u.header.encode_ne_nil]
  · have hlt : seq.toNat - 1 < u.rest.length := by unfold count at h₁; omega
    obtain ⟨n, hn⟩ : ∃ n, seq.toNat = n + 1 := ⟨seq.toNat - 1, by omega⟩
    rw [hn, Nat.add_sub_cancel] at hlt
    unfold body
    rw [hn, List.getElem?_cons_succ, List.getElem?_eq_getElem hlt, Option.getD_some]
    exact u.rest_nonempty _ (List.getElem_mem hlt)

theorem span_piece : Reorder.span u.piece 0 u.count = u.stream := by
  have hspan : Reorder.span u.piece 0 (u.payload :: u.rest).length = (u.payload :: u.rest).flatten :=
    Reorder.span_ofList fun i => by simp [piece]
  rw [List.flatten_cons] at hspan
  exact hspan

end Upload

/-! ### Packets in the hands of handlers -/

/-- The packet that the handler is for. -/
def Handler.packet? (h : Handler) : Option ℤ :=
  match h.role with
  | .packetUp seq => some seq
  | _ => none

/-- The same for a task that is not done. -/
def Task.packet? (t : Task) : Option ℤ := t.handler?.bind Handler.packet?

/-- All handlers of packets have returned. -/
def Session.Returned (o : Session) : Prop := ∀ t ∈ o.tasks, t.packet? = none

/-- All bytes that were written for the session. -/
def Session.written (o : Session) : Bytes := (o.writers.map Writer.written).flatten

instance (o : Session) : Decidable o.Returned := inferInstanceAs (Decidable (∀ t ∈ _, _))

/-- The packet that the handler has not put in its place yet, and whether a part of it is on its
way. -/
def Handler.pending (h : Handler) : Option (ℤ × Bool) :=
  match h.role with
  | .packetUp seq =>
    match h.phase with
    | .input | .meter _ | .connect .. => some (seq, false)
    | .payload .. => some (seq, true)
    | _ => none
  | _ => none

theorem Handler.pending_packetUp {h : Handler} {seq : ℤ} (hrole : h.role = .packetUp seq) :
    h.pending =
      match h.phase with
      | .input | .meter _ | .connect .. => some (seq, false)
      | .payload .. => some (seq, true)
      | _ => none := by
  unfold Handler.pending
  rw [hrole]

/-- The same for a task. -/
def Task.pending (t : Task) : Option (ℤ × Bool) := t.handler?.bind Handler.pending

/-- The packet that the task `pid` has not put in its place yet. -/
def pendingAt (ts : List Task) (pid : ℕ) : Option (ℤ × Bool) := ts[pid]?.bind Task.pending

theorem pendingAt_set {ts : List Task} {pid : ℕ} {t₀ : Task} (hpid : ts[pid]? = some t₀) (t : Task) :
    pendingAt (ts.set pid t) = Function.update (pendingAt ts) pid t.pending := by
  funext pid'
  have hlt := (List.getElem?_eq_some_iff.1 hpid).1
  unfold pendingAt
  rw [List.getElem?_set]
  by_cases heq : pid = pid'
  · subst heq
    simp [hlt]
  · rw [if_neg heq, Function.update_of_ne (Ne.symm heq)]

theorem pendingAt_append (ts : List Task) (t : Task) :
    pendingAt (ts ++ [t]) = Function.update (pendingAt ts) ts.length t.pending := by
  funext pid
  unfold pendingAt
  rcases lt_trichotomy pid ts.length with hlt | rfl | hgt
  · rw [List.getElem?_append_left hlt, Function.update_of_ne hlt.ne]
  · simp
  · rw [Function.update_of_ne hgt.ne', List.getElem?_eq_none (by simp; omega),
      List.getElem?_eq_none hgt.le]

theorem pendingAt_length (ts : List Task) : pendingAt ts ts.length = none := by
  unfold pendingAt
  rw [List.getElem?_eq_none le_rfl]
  rfl

/-! ### The session during an upload -/

namespace Upload

variable (u : Upload)

/-- Where a handler of the packet `seq` can stand. -/
def PhaseOk (seq : ℤ) : Phase → Prop
  | .input | .drain => True
  | .meter data => data = u.body seq
  | .connect header _ =>
    seq = 0 ∧ header.address = u.header.address ∧ header.port = u.header.port ∧
      header.payload = u.payload
  | .payload w _ => seq = 0 ∧ w = 0
  | _ => False

/-- The handlers of the session: packets, downloads and pumps. -/
def HandlerOk (h : Handler) : Prop :=
  match h.role with
  | .packetUp seq => u.PhaseOk seq h.phase
  | .streamUp _ => False
  | _ => True

/-- The connection to the target, with what was written to it. -/
def target (out : Bytes) (closing : Bool) : Writer := ⟨u.header.address, u.header.port, out, closing⟩

/-- How far the upload is, when the packets in `A` are accepted; `paying` tells whether the payload
of the first one is being sent. -/
inductive Stage (A : ℤ → Prop) (paying : Prop) (writer : Option ℕ) (writers : List Writer)
    (nextSeq : ℤ) (seqBuf : Dict ℤ Bytes) : Prop
  /-- There is no connection yet. -/
  | waiting (hwriter : writer = none) (hwriters : writers = []) (hpaying : ¬ paying)
      (hbuf : Assembled u.piece A 0 seqBuf [])
  /-- The connection is there, but not entered in the session. -/
  | connecting (closing : Bool) (hwriter : writer = none)
      (hwriters : writers = [u.target u.payload closing]) (hpaying : paying)
      (hbuf : Assembled u.piece A 0 seqBuf [])
  /-- The connection is open. -/
  | flowing (out : Bytes) (closing : Bool) (hwriter : writer = some 0)
      (hwriters : writers = [u.target out closing]) (hpos : 0 < nextSeq)
      (hbuf : Assembled u.piece A nextSeq seqBuf out)

/-- The session while the packets `seqs` have arrived. -/
structure Uploading (seqs : List ℤ) (o : Session) : Prop where
  conn : o.connBytes ≠ none
  handlers : ∀ pid h, o.handler? pid = some h → u.HandlerOk h
  range : ∀ seq ∈ seqs, 0 ≤ seq ∧ seq < u.count
  once : Once seqs (pendingAt o.tasks)
  stage : u.Stage (accepted seqs (pendingAt o.tasks)) (halfway (pendingAt o.tasks)) o.writer
    o.writers o.nextSeq o.seqBuf

variable {u} {seqs : List ℤ} {o o' : Session} {pid : ℕ} {h : Handler} {t : Task}

theorem handlerOk_packetUp {seq : ℤ} (hrole : h.role = .packetUp seq) :
    u.HandlerOk h ↔ u.PhaseOk seq h.phase := by
  unfold HandlerOk
  rw [hrole]

theorem handlerOk_of_phaseOk {seq : ℤ} (hrole : h.role = .packetUp seq)
    (hok : u.PhaseOk seq h.phase) : u.HandlerOk h :=
  (handlerOk_packetUp hrole).2 hok

/-- The handler is a download or a pump. -/
def Aside (h : Handler) : Prop := h.role = .downlink ∨ ∃ w gate first, h.role = .pump w gate first

theorem Aside.pending (hrole : Aside h) : h.pending = none := by
  unfold Handler.pending
  rcases hrole with hrole | ⟨w, gate, first, hrole⟩ <;> rw [hrole]

theorem Aside.handlerOk (hrole : Aside h) : u.HandlerOk h := by
  unfold HandlerOk
  rcases hrole with hrole | ⟨w, gate, first, hrole⟩ <;> (rw [hrole]; trivial)

theorem pendingAt_eq (hh : o.handler? pid = some h) : pendingAt o.tasks pid = h.pending := by
  unfold pendingAt
  rw [Session.handler?_eq_some.1 hh]
  rfl

/-- An early packet is put into the buffer. -/
theorem Stage.hold {A : ℤ → Prop} {paying : Prop} {writer : Option ℕ} {writers : List Writer}
    {nextSeq : ℤ} {seqBuf : Dict ℤ Bytes} {seq : ℤ}
    (hst : u.Stage A paying writer writers nextSeq seqBuf) (hseq : 0 < seq)
    (hlt : writer ≠ none → nextSeq < seq) :
    u.Stage (fun k => A k ∨ k = seq) paying writer writers nextSeq
      (seqBuf.set seq (u.body seq)) := by
  rw [← u.piece_eq_body hseq]
  cases hst with
  | waiting hwriter hwriters hpaying hbuf => exact .waiting hwriter hwriters hpaying (hbuf.hold hseq)
  | connecting closing hwriter hwriters hpaying hbuf =>
    exact .connecting closing hwriter hwriters hpaying (hbuf.hold hseq)
  | flowing out closing hwriter hwriters hpos hbuf =>
    refine .flowing out closing hwriter hwriters hpos (hbuf.hold (hlt ?_))
    rw [hwriter]
    simp

/-- With the connection open, a packet that is not accepted is not before the next one. -/
theorem Stage.next_le {A : ℤ → Prop} {paying : Prop} {w : ℕ} {writers : List Writer}
    {nextSeq : ℤ} {seqBuf : Dict ℤ Bytes} {seq : ℤ}
    (hst : u.Stage A paying (some w) writers nextSeq seqBuf) (h₀ : 0 ≤ seq) (hA : ¬ A seq) :
    0 < nextSeq ∧ nextSeq ≤ seq := by
  cases hst with
  | waiting hwriter => cases hwriter
  | connecting closing hwriter => cases hwriter
  | flowing out closing hwriter hwriters hpos hbuf =>
    refine ⟨hpos, ?_⟩
    by_contra hlt
    exact hA (hbuf.before seq h₀ (not_le.1 hlt))

/-- While the first packet is not accepted, the connection is not open. -/
theorem Stage.not_flowing {A : ℤ → Prop} {paying : Prop} {writer : Option ℕ}
    {writers : List Writer} {nextSeq : ℤ} {seqBuf : Dict ℤ Bytes}
    (hst : u.Stage A paying writer writers nextSeq seqBuf) (hA : ¬ A 0) :
    Assembled u.piece A 0 seqBuf [] ∧ ((writers = [] ∧ ¬ paying) ∨
      (paying ∧ ∃ closing, writers = [u.target u.payload closing])) := by
  cases hst with
  | waiting hwriter hwriters hpaying hbuf => exact ⟨hbuf, .inl ⟨hwriters, hpaying⟩⟩
  | connecting closing hwriter hwriters hpaying hbuf =>
    exact ⟨hbuf, .inr ⟨hpaying, closing, hwriters⟩⟩
  | flowing out closing hwriter hwriters hpos hbuf => exact absurd (hbuf.before 0 le_rfl hpos) hA

theorem handler_of_pendingAt {p : ℤ × Bool} (hp : pendingAt o.tasks pid = some p) :
    ∃ h, o.handler? pid = some h ∧ h.pending = some p := by
  obtain ⟨t, ht, hp⟩ := Option.bind_eq_some_iff.1 hp
  obtain ⟨h, hh, hp⟩ := Option.bind_eq_some_iff.1 hp
  refine ⟨h, ?_, hp⟩
  unfold Session.handler?
  rw [ht]
  exact hh

/-- What a handler has in its hands is its own packet; a part of it is on its way while it sends
the payload of the header. -/
theorem pending_cases {seq : ℤ} {b : Bool} (hp : h.pending = some (seq, b)) :
    h.role = .packetUp seq ∧ (b = true → ∃ w isTrojan, h.phase = .payload w isTrojan) := by
  unfold Handler.pending at hp
  split at hp
  · rename_i seq' hrole
    split at hp <;> cases hp
    · exact ⟨hrole, fun hb => by cases hb⟩
    · exact ⟨hrole, fun hb => by cases hb⟩
    · exact ⟨hrole, fun hb => by cases hb⟩
    · exact ⟨hrole, fun _ => ⟨_, _, ‹_›⟩⟩
  · cases hp

namespace Uploading

/-- Only the first packet goes out in parts. -/
theorem halfway_zero (hup : u.Uploading seqs o) {seq : ℤ}
    (hp : pendingAt o.tasks pid = some (seq, true)) : seq = 0 := by
  obtain ⟨h, hh, hp⟩ := handler_of_pendingAt hp
  obtain ⟨hrole, hphase⟩ := pending_cases hp
  obtain ⟨w, isTrojan, hphase⟩ := hphase rfl
  have hok := (handlerOk_packetUp hrole).1 (hup.handlers pid h hh)
  rw [hphase] at hok
  exact hok.1

/-- A handler goes on with what it has in its hands. -/
theorem keep (hup : u.Uploading seqs o) (hh : o.handler? pid = some h)
    (htasks : o'.tasks = o.tasks) (hpend : t.pending = h.pending)
    (hok : ∀ h', t = .running h' → u.HandlerOk h') (hconn : o'.connBytes ≠ none)
    (hstage : u.Stage (accepted seqs (pendingAt o.tasks)) (halfway (pendingAt o.tasks)) o'.writer
      o'.writers o'.nextSeq o'.seqBuf) : u.Uploading seqs (o'.setTask pid t) := by
  have hsame : pendingAt (o'.setTask pid t).tasks = pendingAt o.tasks := by
    unfold Session.setTask
    rw [htasks, pendingAt_set (Session.handler?_eq_some.1 hh), hpend, ← pendingAt_eq hh,
      Function.update_eq_self]
  refine ⟨hconn, fun pid' h' hh' => ?_, hup.range, hsame ▸ hup.once, hsame ▸ hstage⟩
  rcases Session.handler?_of_setTask hh' with ⟨-, heq⟩ | hold
  · exact hok h' heq
  · refine hup.handlers pid' h' ?_
    unfold Session.handler? at hold ⊢
    rwa [htasks] at hold

/-- A handler is done with its packet. -/
theorem accept (hup : u.Uploading seqs o) (hh : o.handler? pid = some h) {seq : ℤ} {b : Bool}
    (hp : h.pending = some (seq, b)) (hpend : t.pending = none)
    (htasks : o'.tasks = o.tasks ∨ ∃ w gate first p, p.role = .pump w gate first ∧
      o'.tasks = o.tasks ++ [.running p])
    (hok : ∀ h', t = .running h' → u.HandlerOk h') (hconn : o'.connBytes ≠ none)
    (hstage : u.Stage (fun k => accepted seqs (pendingAt o.tasks) k ∨ k = seq)
      (halfway (Function.update (pendingAt o.tasks) pid none)) o'.writer o'.writers o'.nextSeq
      o'.seqBuf) : u.Uploading seqs (o'.setTask pid t) := by
  have hpid : pendingAt o.tasks pid = some (seq, b) := (pendingAt_eq hh).trans hp
  have hget := Session.handler?_eq_some.1 hh
  have hlt := (List.getElem?_eq_some_iff.1 hget).1
  -- a pump has no packet in its hands
  have hbase : pendingAt o'.tasks = pendingAt o.tasks ∧ o'.tasks[pid]? = some (.running h) ∧
      ∀ pid' h', o'.handler? pid' = some h' → u.HandlerOk h' := by
    rcases htasks with htasks | ⟨w, gate, first, p, hpump, htasks⟩
    · refine ⟨by rw [htasks], by rw [htasks]; exact hget, fun pid' h' hh' => ?_⟩
      refine hup.handlers pid' h' ?_
      unfold Session.handler? at hh' ⊢
      rwa [htasks] at hh'
    · have haside : Aside p := .inr ⟨w, gate, first, hpump⟩
      have hnone : Task.pending (.running p) = none := haside.pending
      refine ⟨?_, by rw [htasks, List.getElem?_append_left hlt]; exact hget, fun pid' h' hh' => ?_⟩
      · rw [htasks, pendingAt_append, hnone, ← pendingAt_length, Function.update_eq_self]
      · rcases Session.handler?_of_append htasks (Session.handler?_eq_some.1 hh') with heq | hold
        · cases heq
          exact haside.handlerOk
        · exact hup.handlers pid' h' hold
  obtain ⟨hbase, hget', hold⟩ := hbase
  have hafter : pendingAt (o'.setTask pid t).tasks = Function.update (pendingAt o.tasks) pid none := by
    unfold Session.setTask
    rw [pendingAt_set hget', hpend, hbase]
  refine ⟨hconn, fun pid' h' hh' => ?_, hup.range, ?_, ?_⟩
  · rcases Session.handler?_of_setTask hh' with ⟨-, heq⟩ | hh'
    · exact hok h' heq
    · exact hold pid' h' hh'
  · rw [hafter]
    exact hup.once.done
  · rw [hafter, hup.once.accepted_done hpid]
    exact hstage

/-- The session after changes to fields that the upload does not use. -/
theorem of_same (hup : u.Uploading seqs o) (htasks : o'.tasks = o.tasks) (hconn : o'.connBytes ≠ none)
    (hwriter : o'.writer = o.writer) (hwriters : o'.writers = o.writers)
    (hnext : o'.nextSeq = o.nextSeq) (hbuf : o'.seqBuf = o.seqBuf) : u.Uploading seqs o' := by
  refine ⟨hconn, fun pid h hh => hup.handlers pid h ?_, hup.range, htasks ▸ hup.once, ?_⟩
  · unfold Session.handler? at hh ⊢
    rwa [htasks] at hh
  · rw [htasks, hwriter, hwriters, hnext, hbuf]
    exact hup.stage

/-- A packet in the hands of a handler is not accepted, and in range. -/
theorem pending (hup : u.Uploading seqs o) (hh : o.handler? pid = some h) {seq : ℤ} {b : Bool}
    (hp : h.pending = some (seq, b)) :
    ¬ accepted seqs (pendingAt o.tasks) seq ∧ 0 ≤ seq ∧ seq < u.count := by
  have hpid := (pendingAt_eq hh).trans hp
  exact ⟨fun hacc => hacc.2 pid b hpid, hup.range seq (hup.once.mem pid seq b hpid)⟩

end Uploading

end Upload

end Xhttp

end RvgGateway
