import RvgGateway.Lib.Reading
import RvgGateway.Nodes.Snapshot

/-!
# Who may use a node key

Requests of another panel carry a node key in a header.  `require_node_key` looks the key up, for
every endpoint under `/api/node`.  A key can have a password, which the other panel gives in the
handshake.

* `serve` : the endpoints under `/api/node`, with one node key.
* `Protected` : snapshots and changes are answered only after a handshake with the password.
* `Answered` : what the endpoints check before they answer, which is not the password.
* `protected_iff` : **a run is protected exactly when nothing that would be answered comes before the
  first handshake with the password.**
* `key_works_without_password` : the key alone gets a snapshot.
-/

namespace RvgGateway

namespace Nodes

open Ports (Reply)

/-! ### `parse_node_key` -/

/-- `NODE_KEY_PREFIX`. -/
def nodeKeyPrefix : String := "rvg-"

/-- `_b64u_decode`, `none` when it raises. -/
def b64uDecode (s : String) : Option String :=
  let pad := List.replicate ((4 - s.toList.length % 4) % 4) '='
  ((Str.urlsafeB64decode (String.ofList (s.toList ++ pad))).bind Bytes.decodeStrict).map
    String.ofList

/-- `parse_node_key`: the host and the secret, or the text of the `ValueError`. -/
def parseNodeKey (key : String) : Except String (String × String) :=
  let key := Str.strip key
  if !Str.startsWith nodeKeyPrefix key then .error "کلید باید با rvg- شروع شود"
  else
    let body := key.toList.drop nodeKeyPrefix.toList.length
    if !body.contains '.' then .error "ساختار کلید نامعتبر است"
    else
      let hostPart := String.ofList (body.takeWhile (· ≠ '.'))
      let secret := String.ofList (body.dropWhile (· ≠ '.')).tail
      if secret = "" then .error "بخش سکرت کلید خالی است"
      else
        match b64uDecode hostPart with
        | none => .error "دامنه‌ی داخل کلید قابل خواندن نیست"
        | some host =>
          let host := Str.strip host
          if host = "" || Str.contains "/" host || Str.contains " " host then
            .error "دامنه‌ی داخل کلید نامعتبر است"
          else .ok (host, secret)

/-! ### The endpoints -/

/-- The tables that the endpoints work on. -/
structure State where
  /-- `NODE_KEYS`. -/
  keys : Dict String KeyEntry
  panel : Panel

/-- What the endpoints answer. -/
inductive Answer where
  | handshake (host version : String) (linksCount subsCount : ℕ)
  | snapshot (out : Snapshot)
  /-- A link or group request was carried out. -/
  | done

/-- The requests under `/api/node`. -/
inductive Request where
  | handshake (password host : String)
  /-- The `parts` in the query. -/
  | snapshot (parts : Option String)
  /-- One of the seven requests for links and groups. -/
  | write (op : Groups.Op PanelLink Group)

/-- A request with its header. -/
structure Incoming where
  /-- `X-RVG-Node-Key`. -/
  header : Option String
  /-- `client_ip`. -/
  clientIp : String
  /-- `datetime.now().isoformat()`. -/
  now : String
  request : Request

/-- How the search for a key ends. -/
inductive Found where
  | key (keyId : String)
  | nothing
  /-- `compare_digest` raises on texts that are not ASCII. -/
  | raises
  deriving DecidableEq, Repr

/-- The loop over `NODE_KEYS` in `require_node_key`. -/
def findKey (secret : String) : List (String × KeyEntry) → Found
  | [] => .nothing
  | e :: es =>
    if e.2.revoked then findKey secret es
    else if !(Str.isAscii e.2.secret && Str.isAscii secret) then .raises
    else if e.2.secret = secret then .key e.1
    else findKey secret es

/-- `require_node_key`. -/
def requireNodeKey (s : State) (header : Option String) (now : String) :
    Except Reply (String × State) :=
  let raw := Str.strip (header.getD "")
  if raw = "" then .error (.error 401 "node key missing")
  else
    match parseNodeKey raw with
    | .error _ => .error (.error 401 "invalid node key")
    | .ok (_, secret) =>
      match findKey secret s.keys.entries with
      | .raises => .error .crashed
      | .nothing => .error (.error 401 "unknown or revoked node key")
      | .key keyId => .ok (keyId, { s with keys := s.keys.modify keyId fun entry =>
          { entry with lastUsedAt := some now, useCount := entry.useCount + 1 } })

/-- Append to `activity_logs`, which keeps 200 entries. -/
def Panel.log (p : Panel) (entry : LogEntry) : Panel :=
  { p with activityLogs := lastN 200 (p.activityLogs ++ [entry]) }

/-- `hash_password(given) != pw_hash` does not hold, for a password that is given. -/
def KeyEntry.admits (hashPassword : String → String) (entry : KeyEntry) (given : String) : Bool :=
  given ≠ "" && entry.passwordHash = some (hashPassword given)

/-- `node_handshake`. -/
def nodeHandshake (w : Surroundings) (hashPassword : String → String) (s : State) (keyId : String)
    (clientIp now given host : String) : Except Reply (Answer × State) :=
  let pwHash := ((s.keys.get? keyId).bind KeyEntry.passwordHash).getD ""
  if pwHash ≠ "" && given = "" then .error (.error 401 "PASSWORD_REQUIRED")
  else if pwHash ≠ "" && hashPassword given ≠ pwHash then .error (.error 401 "PASSWORD_INVALID")
  else
    let peerHost := Share.textOr (Str.take 120 (Str.strip host)) clientIp
    let firstTime : Bool := match s.keys.get? keyId with
      | some entry => entry.peerHost.getD "" = ""
      | none => false
    let label := match s.keys.get? keyId with
      | some entry => Share.textOr entry.label (Str.take 8 keyId)
      | none => Str.take 8 keyId
    let keys := s.keys.modify keyId fun entry => { entry with peerHost := some peerHost }
    let panel :=
      if firstTime then s.panel.log ⟨"node", "ok", s!"پنل «{peerHost}» با کلید «{label}» متصل شد", now⟩
      else s.panel
    .ok (.handshake w.host w.version panel.tables.links.size panel.tables.subs.size, ⟨keys, panel⟩)

/-- `_require_node_manage`. -/
def requireNodeManage (s : State) (keyId : String) : Except Reply String :=
  match s.keys.get? keyId with
  | some entry =>
    if entry.canManage then .ok (Share.textOr (entry.peerHost.getD "") "نود")
    else .error (.error 403 "این کلید اجازه‌ی ویرایش/حذف کانفیگ را ندارد")
  | none => .error (.error 403 "این کلید اجازه‌ی ویرایش/حذف کانفیگ را ندارد")

/-- How a link or group request fails, if it does. -/
def refusal (t : Groups.Tables PanelLink Group) : Groups.Op PanelLink Group → Option Reply
  | .createLink _ link _ => if link.isSome then none else some .crashed
  | .updateLink uid _ raises _ =>
    if !t.links.contains uid then some (.error 404 "link not found")
    else if raises then some .crashed else none
  | .deleteLink uid => if t.links.contains uid then none else some (.error 404 "link not found")
  | .createSub _ _ => none
  | .updateSub sid _ _ => if t.subs.contains sid then none else some (.error 404 "sub not found")
  | .deleteSub sid => if t.subs.contains sid then none else some (.error 404 "sub not found")
  | .assignLinkToSub sid _ _ =>
    if t.subs.contains sid then none else some (.error 404 "sub not found")

/-- What the node endpoint of a request logs; four of the seven do. -/
def nodeLog (peer now : String) : Groups.Op PanelLink Group → Option LogEntry
  | .updateLink uid _ _ _ =>
    some ⟨"node", "warn", s!"کانفیگ {Str.take 8 uid} از راه دور توسط «{peer}» ویرایش شد", now⟩
  | .deleteLink uid =>
    some ⟨"node", "err", s!"کانفیگ {Str.take 8 uid} از راه دور توسط «{peer}» حذف شد", now⟩
  | .updateSub sid _ _ =>
    some ⟨"node", "warn", s!"گروه {Str.take 8 sid} از راه دور توسط «{peer}» ویرایش شد", now⟩
  | .deleteSub sid =>
    some ⟨"node", "err", s!"گروه {Str.take 8 sid} از راه دور توسط «{peer}» حذف شد", now⟩
  | _ => none

/-- The endpoint of a link or group request: the key must allow to manage, then the request of the
panel itself is performed.  What that logs in turn is left out. -/
def nodeWrite (s : State) (keyId now : String) (op : Groups.Op PanelLink Group) :
    State × Except Reply Answer :=
  match requireNodeManage s keyId with
  | .error reply => (s, .error reply)
  | .ok peer =>
    let panel := { s.panel with tables := op.perform s.panel.tables }
    match refusal s.panel.tables op with
    | some reply => (⟨s.keys, panel⟩, .error reply)
    | none =>
      match nodeLog peer now op with
      | some entry => (⟨s.keys, panel.log entry⟩, .ok .done)
      | none => (⟨s.keys, panel⟩, .ok .done)

/-- The endpoint of a request, once `require_node_key` has returned the key. -/
def answer (w : Surroundings) (hashPassword : String → String) (s : State) (keyId : String)
    (r : Incoming) : State × Except Reply Answer :=
  match r.request with
  | .handshake given host =>
    match nodeHandshake w hashPassword s keyId r.clientIp r.now given host with
    | .error reply => (s, .error reply)
    | .ok (answer, s) => (s, .ok answer)
  | .snapshot parts =>
    match s.keys.get? keyId with
    | some entry => (s, .ok (.snapshot (nodeSnapshot w entry parts s.panel)))
    | none => (s, .error .crashed)
  | .write op => nodeWrite s keyId r.now op

/-- A request to an endpoint under `/api/node`. -/
def serve (w : Surroundings) (hashPassword : String → String) (s : State) (r : Incoming) :
    State × Except Reply Answer :=
  match requireNodeKey s r.header r.now with
  | .error reply => (s, .error reply)
  | .ok (keyId, s) => answer w hashPassword s keyId r

/-- The state after some requests. -/
def after (w : Surroundings) (hashPassword : String → String) (s : State) (rs : List Incoming) :
    State :=
  rs.foldl (fun s r => (serve w hashPassword s r).1) s

/-! ### The property -/

/-- The request succeeds in the state `s`. -/
def Succeeds (w : Surroundings) (hashPassword : String → String) (s : State) (r : Incoming) : Prop :=
  ∃ answer, (serve w hashPassword s r).2 = .ok answer

/-- The request is no handshake. -/
def Request.IsOperation : Request → Prop
  | .handshake _ _ => False
  | _ => True

/-- The request is a handshake with the password of the key. -/
def Request.Supplies (hashPassword : String → String) (entry : KeyEntry) : Request → Prop
  | .handshake given _ => entry.admits hashPassword given = true
  | _ => False

/-- In the table the text `K` is the key of the entry `entry` under `keyId`. -/
structure State.IsKey (s : State) (K keyId : String) (entry : KeyEntry) : Prop where
  found : s.keys.get? keyId = some entry
  parsed : ∃ host, parseNodeKey (Str.strip K) = .ok (host, entry.secret)
  unique : ∀ k e, s.keys.get? k = some e → e.secret = entry.secret → k = keyId

/-- Snapshots, link and group requests succeed only after a handshake with the password. -/
def Protected (w : Surroundings) (hashPassword : String → String) (s : State) (entry : KeyEntry)
    (rs : List Incoming) : Prop :=
  ∀ before r rest, rs = before ++ r :: rest → r.request.IsOperation →
    Succeeds w hashPassword (after w hashPassword s before) r →
    ∃ h ∈ before, h.request.Supplies hashPassword entry

/-- What the endpoints check: the key is found, a change is allowed to the key, and it can be carried
out. -/
def Answered (s : State) (keyId : String) (entry : KeyEntry) : Request → Prop
  | .handshake _ _ => False
  | .snapshot _ => findKey entry.secret s.keys.entries = .key keyId
  | .write op =>
    findKey entry.secret s.keys.entries = .key keyId ∧ entry.canManage = true ∧
      refusal s.panel.tables op = none

/-! ### What the endpoints leave of the keys -/

/-- The fields of a key that no endpoint under `/api/node` changes. -/
def KeyEntry.rights (e : KeyEntry) : String × Bool × Bool × Option String :=
  (e.secret, e.revoked, e.canManage, e.passwordHash)

/-- The fields of all keys that no endpoint changes. -/
def rightsOf (keys : Dict String KeyEntry) : Dict String (String × Bool × Bool × Option String) :=
  keys.mapValues fun _ e => e.rights

theorem rightsOf_modify (keys : Dict String KeyEntry) (k : String) {f : KeyEntry → KeyEntry}
    (hf : ∀ e, (f e).rights = e.rights) : rightsOf (keys.modify k f) = rightsOf keys := by
  refine Dict.ext ?_
  simp only [rightsOf, Dict.modify, Dict.mapValues, List.map_map]
  refine List.map_congr_left fun e _ => ?_
  simp only [Function.comp_apply]
  split_ifs
  · rw [hf]
  · rfl

theorem get?_rightsOf (keys : Dict String KeyEntry) (k : String) :
    (rightsOf keys).get? k = (keys.get? k).map KeyEntry.rights :=
  Dict.get?_mapValues _ _ _

section Serve

variable {w : Surroundings} {hashPassword : String → String} {s t : State} {K keyId now : String}
  {entry : KeyEntry} {r : Incoming}

theorem requireNodeKey_rights {header : Option String}
    (h : requireNodeKey s header now = .ok (keyId, t)) :
    rightsOf t.keys = rightsOf s.keys := by
  unfold requireNodeKey at h
  simp only at h
  split_ifs at h
  split at h
  · cases h
  · split at h
    · cases h
    · cases h
    · cases h
      exact rightsOf_modify _ _ fun _ => rfl

theorem nodeHandshake_rights {clientIp given host : String} {answer : Answer}
    (h : nodeHandshake w hashPassword s keyId clientIp now given host = .ok (answer, t)) :
    rightsOf t.keys = rightsOf s.keys := by
  unfold nodeHandshake at h
  simp only at h
  split_ifs at h <;> cases h <;> exact rightsOf_modify _ _ fun _ => rfl

theorem nodeWrite_keys (op : Groups.Op PanelLink Group) :
    (nodeWrite s keyId now op).1.keys = s.keys := by
  unfold nodeWrite
  split
  · rfl
  · simp only
    split
    · rfl
    · split <;> rfl

theorem answer_rights (s : State) (keyId : String) (r : Incoming) :
    rightsOf (answer w hashPassword s keyId r).1.keys = rightsOf s.keys := by
  unfold answer
  cases r.request with
  | handshake given host =>
    simp only
    split
    · rfl
    · rename_i hh
      exact nodeHandshake_rights hh
  | snapshot parts =>
    simp only
    split <;> rfl
  | write op => rw [nodeWrite_keys]

/-- No endpoint touches the rights of a key. -/
theorem serve_rights (s : State) (r : Incoming) :
    rightsOf (serve w hashPassword s r).1.keys = rightsOf s.keys := by
  unfold serve
  cases hk : requireNodeKey s r.header r.now with
  | error reply => rfl
  | ok found =>
    obtain ⟨keyId, t⟩ := found
    rw [← requireNodeKey_rights hk]
    exact answer_rights t keyId r

/-- The key stays the key, with the same rights. -/
def State.HasKey (s : State) (K keyId : String) (entry : KeyEntry) : Prop :=
  ∃ e, s.IsKey K keyId e ∧ e.rights = entry.rights

theorem State.HasKey.of_rights (h : s.HasKey K keyId entry)
    (ht : rightsOf t.keys = rightsOf s.keys) : t.HasKey K keyId entry := by
  obtain ⟨e, ⟨hfound, hparsed, hunique⟩, he⟩ := h
  have hget : ∀ k, (t.keys.get? k).map KeyEntry.rights = (s.keys.get? k).map KeyEntry.rights := by
    intro k
    rw [← get?_rightsOf, ht, get?_rightsOf]
  have hkey := hget keyId
  rw [hfound, Option.map_some, Option.map_eq_some_iff] at hkey
  obtain ⟨e', hfound', he'⟩ := hkey
  have hsecret : e'.secret = e.secret := congrArg Prod.fst he'
  refine ⟨e', ⟨hfound', by rw [hsecret]; exact hparsed, fun k d hd hds => ?_⟩, he'.trans he⟩
  have hk := hget k
  rw [hd, Option.map_some, eq_comm, Option.map_eq_some_iff] at hk
  obtain ⟨d', hd', hdd⟩ := hk
  have hdsecret : d'.secret = d.secret := congrArg Prod.fst hdd
  exact hunique k d' hd' ((hdsecret.trans hds).trans hsecret)

theorem after_hasKey (h : s.HasKey K keyId entry) (rs : List Incoming) :
    (after w hashPassword s rs).HasKey K keyId entry := by
  induction rs generalizing s with
  | nil => exact h
  | cons r rs ih =>
    rw [after, List.foldl_cons]
    exact ih (h.of_rights (serve_rights s r))

/-! ### When an operation succeeds -/

theorem findKey_eq_key {secret : String} {es : List (String × KeyEntry)}
    (h : findKey secret es = .key keyId) : ∃ e, (keyId, e) ∈ es ∧ e.secret = secret := by
  induction es with
  | nil => cases h
  | cons e es ih =>
    simp only [findKey] at h
    split_ifs at h with hrevoked hascii hsecret
    · obtain ⟨e', he', hs⟩ := ih h
      exact ⟨e', .tail _ he', hs⟩
    · cases h
      exact ⟨e.2, .head _, hsecret⟩
    · obtain ⟨e', he', hs⟩ := ih h
      exact ⟨e', .tail _ he', hs⟩

/-- What `require_node_key` makes of the key. -/
theorem requireNodeKey_eq {e : KeyEntry} (h : s.IsKey K keyId e) :
    requireNodeKey s (some K) now =
      match findKey e.secret s.keys.entries with
      | .raises => .error .crashed
      | .nothing => .error (.error 401 "unknown or revoked node key")
      | .key keyId => .ok (keyId, { s with keys := s.keys.modify keyId fun entry =>
          { entry with lastUsedAt := some now, useCount := entry.useCount + 1 } }) := by
  obtain ⟨host, hparsed⟩ := h.parsed
  have hraw : Str.strip K ≠ "" := by
    intro hempty
    rw [hempty] at hparsed
    cases hparsed
  simp only [requireNodeKey, Option.getD_some]
  rw [if_neg hraw, hparsed]

/-- What the endpoint of an operation checks once the key is found. -/
theorem answer_ok_iff {e : KeyEntry} (he : s.keys.get? keyId = some e)
    (hop : r.request.IsOperation) :
    (∃ a, (answer w hashPassword s keyId r).2 = .ok a) ↔
      match r.request with
      | .write op => e.canManage = true ∧ refusal s.panel.tables op = none
      | _ => True := by
  unfold answer
  cases hreq : r.request with
  | handshake given host =>
    rw [hreq] at hop
    exact hop.elim
  | snapshot parts =>
    simp only [he]
    exact iff_of_true ⟨_, rfl⟩ trivial
  | write op =>
    simp only [nodeWrite, requireNodeManage, he]
    cases hmanage : e.canManage with
    | false => simp
    | true =>
      simp only [if_true, true_and]
      cases refusal s.panel.tables op with
      | some reply => simp
      | none =>
        refine iff_of_true ?_ rfl
        simp only
        split <;> exact ⟨_, rfl⟩

/-- **An operation succeeds exactly when it passes the checks**, none of which is about the
password. -/
theorem succeeds_iff_answered (h : s.HasKey K keyId entry) (hr : r.header = some K)
    (hop : r.request.IsOperation) :
    Succeeds w hashPassword s r ↔ Answered s keyId entry r.request := by
  obtain ⟨e, hkey, hrights⟩ := h
  have hsecret : e.secret = entry.secret := congrArg Prod.fst hrights
  have hmanage : e.canManage = entry.canManage := congrArg (fun x => x.2.2.1) hrights
  have hno : findKey entry.secret s.keys.entries ≠ .key keyId →
      ¬ Answered s keyId entry r.request := by
    intro hfind
    cases hreq : r.request with
    | handshake given host => exact fun hansw => hansw
    | snapshot parts => exact hfind
    | write op => exact fun hansw => hfind hansw.1
  simp only [Succeeds, serve]
  rw [hr, requireNodeKey_eq hkey, hsecret]
  cases hfind : findKey entry.secret s.keys.entries with
  | raises => exact iff_of_false (by simp) (hno (by simp [hfind]))
  | nothing => exact iff_of_false (by simp) (hno (by simp [hfind]))
  | key k =>
    obtain ⟨d, hd, hds⟩ := findKey_eq_key hfind
    obtain rfl : k = keyId := hkey.unique k d (Dict.get?_eq_some.2 hd) (hds.trans hsecret.symm)
    have hget : (s.keys.modify k fun entry =>
        { entry with lastUsedAt := some r.now, useCount := entry.useCount + 1 }).get? k =
          some { e with lastUsedAt := some r.now, useCount := e.useCount + 1 } := by
      rw [Dict.get?_modify, if_pos rfl, hkey.found, Option.map_some]
    rw [answer_ok_iff hget hop]
    cases hreq : r.request with
    | handshake given host =>
      rw [hreq] at hop
      exact hop.elim
    | snapshot parts => exact iff_of_true trivial hfind
    | write op => simp only [Answered, hfind, true_and, hmanage]

/-- **A run of requests under a key is protected by its password exactly when no snapshot and no
change that would be answered comes before the first handshake with the password.** -/
theorem protected_iff {rs : List Incoming} (hkey : s.IsKey K keyId entry)
    (hrs : ∀ r ∈ rs, r.header = some K) :
    Protected w hashPassword s entry rs ↔
      ∀ before r rest, rs = before ++ r :: rest →
        Answered (after w hashPassword s before) keyId entry r.request →
        ∃ h ∈ before, h.request.Supplies hashPassword entry := by
  have hiff : ∀ before r rest, rs = before ++ r :: rest → r.request.IsOperation →
      (Succeeds w hashPassword (after w hashPassword s before) r ↔
        Answered (after w hashPassword s before) keyId entry r.request) := by
    intro before r rest hsplit hop
    exact succeeds_iff_answered (after_hasKey ⟨entry, hkey, rfl⟩ before)
      (hrs r (by rw [hsplit]; simp)) hop
  constructor
  · intro h before r rest hsplit hansw
    have hop : r.request.IsOperation := by
      cases hreq : r.request with
      | handshake given host => rw [hreq] at hansw; exact hansw
      | snapshot parts => trivial
      | write op => trivial
    exact h before r rest hsplit hop ((hiff before r rest hsplit hop).2 hansw)
  · intro h before r rest hsplit hop hsucc
    exact h before r rest hsplit ((hiff before r rest hsplit hop).1 hsucc)

end Serve

/-- The entry of a key with a password, which its panel wrote with the hash `id`. -/
def lockedEntry : KeyEntry := { trafficKey with passwordHash := some "sesame" }

/-- A panel that has given out one key. -/
def lockedPanel : State := ⟨Dict.set ∅ "k" lockedEntry, Panel.ofTables ⟨∅, ∅⟩⟩

/-- The text of the key of `lockedPanel`, for the host `localhost`. -/
def lockedKey : String := "rvg-bG9jYWxob3N0.secret"

theorem lockedPanel_isKey : lockedPanel.IsKey lockedKey "k" lockedEntry where
  found := rfl
  parsed := by
    have h : (parseNodeKey (Str.strip lockedKey)).toOption = some ("localhost", "secret") := by
      decide +kernel
    exact ⟨"localhost", ok_of_toOption h⟩
  unique := by
    intro k e hk hs
    have hmem := Dict.get?_eq_some.1 hk
    rw [show lockedPanel.keys.entries = [("k", lockedEntry)] from rfl, List.mem_singleton] at hmem
    exact congrArg Prod.fst hmem

/-- A request that asks for the number of links, and nothing but the key. -/
def bareSnapshot : Incoming := ⟨some lockedKey, "203.0.113.7", "2024-01-01", .snapshot (some "usage")⟩

/-- A handshake with the password, then a snapshot. -/
theorem protected_iff_after_handshake :
    let rs := [⟨some lockedKey, "203.0.113.7", "2024-01-01", .handshake "sesame" "peer"⟩,
      bareSnapshot]
    Protected bareHost id lockedPanel lockedEntry rs ↔
      ∀ before r rest, rs = before ++ r :: rest →
        Answered (after bareHost id lockedPanel before) "k" lockedEntry r.request →
        ∃ h ∈ before, h.request.Supplies id lockedEntry :=
  protected_iff lockedPanel_isKey (by simp [bareSnapshot])

/-- The key alone, without any handshake, gets a snapshot. -/
theorem key_works_without_password :
    ¬ ∀ w hashPassword s K keyId entry rs, State.IsKey s K keyId entry →
      entry.passwordHash.isSome → (∀ r ∈ rs, Incoming.header r = some K) →
      Protected w hashPassword s entry rs := by
  intro h
  have hp := h bareHost id lockedPanel lockedKey "k" lockedEntry [bareSnapshot] lockedPanel_isKey
    rfl (by simp [bareSnapshot])
  have hfind : findKey "secret" lockedPanel.keys.entries = .key "k" := by decide +kernel
  have hsucc : Succeeds bareHost id lockedPanel bareSnapshot :=
    (succeeds_iff_answered (r := bareSnapshot) ⟨lockedEntry, lockedPanel_isKey, rfl⟩ rfl
      trivial).2 hfind
  obtain ⟨x, hx, -⟩ := hp [] bareSnapshot [] rfl trivial hsucc
  cases hx

end Nodes

end RvgGateway
