import RvgGateway.Lib.Dict
import RvgGateway.Lib.Machine
import RvgGateway.Vmess.Header

/-!
# Accepting VMess requests

`_AuthIDValidator` and `decode_request` of `protocol/vmess/vmess.py`, run call after call at
arbitrary times.  What follows the check of the AuthID touches nothing that calls share, so the
order of a run is the order of these checks.

The path that production uses passes `expected_uuid`, and there the time and the history of the
AuthID are not looked at.

* `Sound` : what an accepted request should satisfy: its AuthID is fresh, was not accepted before,
  and would not be refused by a validator that holds just this user.
* `Guarded` : what a call has to look like for that.
* `sound_iff_guarded`, `runs_sound_iff` : the two agree, in every state and along every run.
-/

namespace RvgGateway

namespace Vmess

/-! ### The validator -/

/-- `_AuthIDValidator`. -/
structure AuthIDValidator (c : Crypto) where
  /-- `_keys`, from command keys to users. -/
  keys : Dict Bytes String
  /-- `_replay`. -/
  replay : ReplayFilter Bytes
  /-- Users are entered under their command keys. -/
  keyed : ∀ e ∈ keys.entries, cmdKeyFor c e.2 = some e.1

variable {c : Crypto}

namespace AuthIDValidator

/-- `__init__`. -/
def init (c : Crypto) : AuthIDValidator c := ⟨∅, .init 120, by simp [EmptyCollection.emptyCollection]⟩

/-- `add_user`; a name that has no command key raises. -/
def addUser (v : AuthIDValidator c) (uuid : String) : AuthIDValidator c :=
  match h : cmdKeyFor c uuid with
  | none => v
  | some ck => { v with
      keys := v.keys.set ck uuid
      keyed := fun e he => by
        have := Dict.get?_eq_some.2 (show (e.1, e.2) ∈ _ from he)
        rw [Dict.get?_set] at this
        split_ifs at this with hk
        · cases this; rw [h, hk]
        · exact v.keyed e (Dict.get?_eq_some.1 this) }

theorem keys_addUser {v : AuthIDValidator c} {uuid : String} {ck : Bytes}
    (h : cmdKeyFor c uuid = some ck) : (v.addUser uuid).keys = v.keys.set ck uuid := by
  unfold addUser
  split
  · rename_i hn; rw [h] at hn; cases hn
  · rename_i ck' hk; rw [h] at hk; cases hk; rfl

theorem replay_addUser (v : AuthIDValidator c) (uuid : String) :
    (v.addUser uuid).replay = v.replay := by
  unfold addUser
  split <;> rfl

/-- `remove_user`. -/
def removeUser (v : AuthIDValidator c) (uuid : String) : AuthIDValidator c :=
  match cmdKeyFor c uuid with
  | none => v
  | some ck => { v with
      keys := v.keys.erase ck
      keyed := fun e he => v.keyed e (List.mem_of_mem_filter he) }

theorem replay_removeUser (v : AuthIDValidator c) (uuid : String) :
    (v.removeUser uuid).replay = v.replay := by
  unfold removeUser
  split <;> rfl

/-- The AuthID is valid for the key and its time is within the tolerance. -/
def isFresh (c : Crypto) (now : ℤ) (authId ck : Bytes) : Bool :=
  match decodeAuthId c ck authId with
  | none => false
  | some t => !(t < 0 || authIdTimeTolerance < |t - now|)

/-- The loop of `match`. -/
def matchLoop (now : ℤ) (authId : Bytes) (f : ReplayFilter Bytes) :
    List (Bytes × String) → Except Exc (Option String) × ReplayFilter Bytes
  | [] => (.ok none, f)
  | (ck, uuid) :: keys =>
    if isFresh c now authId ck then
      match f.checkAndAdd authId with
      | (false, f) => (.error (.vmessAuthError "replayed request"), f)
      | (true, f) => (.ok (some uuid), f)
    else matchLoop now authId f keys

/-- `match`. -/
def matchId (v : AuthIDValidator c) (now : ℤ) (authId : Bytes) :
    Except Exc (Option String) × AuthIDValidator c :=
  let (res, f) := matchLoop (c := c) now authId v.replay v.keys.entries
  (res, { v with replay := f })

end AuthIDValidator

/-! ### The request -/

/-- The checks of `decode_request` on the parsed command. -/
def checkCommand (r : VMessRequest) : Except Exc Unit :=
  if r.command ≠ cmdTcp then .error (.vmessError "only TCP command is supported")
  else if r.security ≠ secAes128Gcm ∧ r.security ≠ secChacha20Poly1305 then
    .error (.vmessError ("unsupported security " ++ toString r.security))
  else if hasOption r.option optGlobalPadding ∧ hasOption r.option optAuthLength then
    .error (.vmessError "invalid option: GlobalPadding + AuthenticatedLength")
  else .ok ()

/-- `decode_request` behind the check of the AuthID: open and parse the header, check the command. -/
def openRequest (c : Crypto) (uuid : String) (authId wire : Bytes) (fill : List Bytes) :
    Except Exc (VMessRequest × BodyReader) :=
  match cmdKeyFor c uuid with
  | none => .error .valueError
  | some ck => do
    let (payload, _) ← openAeadHeader c ck authId wire
    let r ← parseCommandHeader payload
    let r := { r with uuid }
    checkCommand r
    let reader ← BodyReader.init c r.bodyKey r.bodyIv r.security r.option fill
    return (r, reader)

/-- A call of `decode_request`. -/
structure Call where
  /-- What `read_exact` reads from. -/
  wire : Bytes
  /-- What `fill` will return for the body. -/
  fill : List Bytes
  /-- `expected_uuid`. -/
  expectedUuid : Option String
  /-- `int(time.time())` during the call. -/
  now : ℤ

namespace Call

/-- The first sixteen bytes. -/
def authId (call : Call) : Bytes := call.wire.take 16

/-- `expected_uuid`, if it is not empty. -/
def expected (call : Call) : Option String := call.expectedUuid.filter (· ≠ "")

/-- The header behind the AuthID opens for the user, and carries a command that is served. -/
def opens (c : Crypto) (call : Call) (uuid : String) : Prop :=
  ∃ res, openRequest c uuid call.authId (call.wire.drop 16) call.fill = .ok res

end Call

/-- `decode_request`. -/
def decodeRequest (v : AuthIDValidator c) (call : Call) :
    Except Exc (VMessRequest × BodyReader) × AuthIDValidator c :=
  match readExact 16 call.wire with
  | .error e => (.error e, v)
  | .ok (authId, wire) =>
    match call.expected with
    | some uuid =>
      match cmdKeyFor c uuid with
      | none => (.error .valueError, v)
      | some ck =>
        match decodeAuthId c ck authId with
        | none => (.error (.vmessAuthError "unknown user or expired auth id"), v)
        | some _ => (openRequest c uuid authId wire call.fill, v)
    | none =>
      match v.matchId call.now authId with
      | (.error e, v) => (.error e, v)
      | (.ok none, v) => (.error (.vmessAuthError "unknown user"), v)
      | (.ok (some uuid), v) => (openRequest c uuid authId wire call.fill, v)

/-! ### Runs -/

/-- The state of a run: the validator, and the AuthIDs accepted so far. -/
structure SessionState (c : Crypto) where
  /-- `_validator`. -/
  validator : AuthIDValidator c
  /-- The AuthIDs of the requests accepted so far. -/
  accepted : List Bytes

/-- What happens in a run. -/
inductive SessionOp where
  /-- `decode_request`. -/
  | decode (call : Call)
  /-- `register_user`. -/
  | register (uuid : String)
  /-- `unregister_user`. -/
  | unregister (uuid : String)

namespace SessionState

/-- The state after one operation. -/
def next (s : SessionState c) : SessionOp → SessionState c
  | .decode call =>
    { validator := (decodeRequest s.validator call).2
      accepted :=
        match (decodeRequest s.validator call).1 with
        | .ok _ => call.authId :: s.accepted
        | .error _ => s.accepted }
  | .register uuid => { s with validator := s.validator.addUser uuid }
  | .unregister uuid => { s with validator := s.validator.removeUser uuid }

/-- The state of a new process. -/
def init (c : Crypto) : SessionState c := ⟨.init c, []⟩

end SessionState

/-- The runs of a process. -/
def sessionMachine (c : Crypto) : Machine (SessionState c) SessionOp where
  step s op := some (s.next op)

/-- The AuthID is valid for the user and its time is within the tolerance. -/
def Fresh (c : Crypto) (uuid : String) (authId : Bytes) (now : ℤ) : Prop :=
  ∃ ck t, cmdKeyFor c uuid = some ck ∧ decodeAuthId c ck authId = some t ∧ 0 ≤ t ∧
    |t - now| ≤ authIdTimeTolerance

/-- What an accepted request should satisfy. -/
structure SoundRequest (s : SessionState c) (call : Call) (r : VMessRequest) : Prop where
  /-- The time inside the AuthID is within the tolerance. -/
  fresh : Fresh c r.uuid call.authId call.now
  /-- No earlier call accepted the AuthID. -/
  unseen : call.authId ∉ s.accepted
  /-- On the `expected_uuid` path, a validator that holds exactly this user accepts it too. -/
  unrefused : ∀ uuid, call.expected = some uuid →
    ((((AuthIDValidator.init c).addUser uuid).matchId call.now call.authId).1 = .ok (some uuid))

/-- If the operation is a call that accepts a request, the request is sound. -/
def Sound (s : SessionState c) : SessionOp → Prop
  | .decode call => ∀ res, (decodeRequest s.validator call).1 = .ok res → SoundRequest s call res.1
  | _ => True

/-- The user whom the validator's search finds. -/
def AuthIDValidator.candidate (v : AuthIDValidator c) (now : ℤ) (authId : Bytes) : Option String :=
  (v.keys.entries.find? fun e => isFresh c now authId e.1).map Prod.snd

/-- What a call has to look like.  With `expected_uuid`, an AuthID that is valid for the user must
be fresh and new by itself, because the code checks neither.  Without, an AuthID that was accepted
before must still be in the replay filter. -/
def Guarded (s : SessionState c) : SessionOp → Prop
  | .decode call =>
    16 ≤ call.wire.length →
      match call.expected with
      | some uuid => ∀ ck t, cmdKeyFor c uuid = some ck → decodeAuthId c ck call.authId = some t →
          call.opens c uuid →
            0 ≤ t ∧ |t - call.now| ≤ authIdTimeTolerance ∧ call.authId ∉ s.accepted
      | none => ∀ uuid, s.validator.candidate call.now call.authId = some uuid →
          call.opens c uuid → call.authId ∈ s.accepted → call.authId ∈ s.validator.replay.seen
  | _ => True

theorem isFresh_iff {now : ℤ} {authId ck : Bytes} :
    AuthIDValidator.isFresh c now authId ck = true ↔
      ∃ t, decodeAuthId c ck authId = some t ∧ 0 ≤ t ∧ |t - now| ≤ authIdTimeTolerance := by
  unfold AuthIDValidator.isFresh
  cases decodeAuthId c ck authId with
  | none => simp
  | some t => simp

/-- The search charges the first user for whom the AuthID is fresh. -/
theorem matchLoop_eq (now : ℤ) (authId : Bytes) (f : ReplayFilter Bytes)
    (keys : List (Bytes × String)) :
    (AuthIDValidator.matchLoop (c := c) now authId f keys).1 =
      match (keys.find? fun e => AuthIDValidator.isFresh c now authId e.1).map Prod.snd with
      | none => .ok none
      | some uuid =>
        if authId ∈ f.seen then .error (.vmessAuthError "replayed request") else .ok (some uuid) := by
  induction keys with
  | nil => rfl
  | cons e keys ih =>
    rw [AuthIDValidator.matchLoop, List.find?_cons]
    cases hf : AuthIDValidator.isFresh c now authId e.1 with
    | false => simpa using ih
    | true =>
      have hfst := f.checkAndAdd_fst authId
      rcases hcheck : f.checkAndAdd authId with ⟨ok, f'⟩
      rw [hcheck] at hfst
      by_cases hs : authId ∈ f.seen
      · simp [hs] at hfst; simp [hfst, hs]
      · simp [hs] at hfst; simp [hfst, hs]

theorem matchId_fst (v : AuthIDValidator c) (now : ℤ) (authId : Bytes) :
    (v.matchId now authId).1 =
      match v.candidate now authId with
      | none => .ok none
      | some uuid => if authId ∈ v.replay.seen then .error (.vmessAuthError "replayed request")
        else .ok (some uuid) :=
  matchLoop_eq now authId v.replay v.keys.entries

/-- The user found is one for whom the AuthID is fresh. -/
theorem AuthIDValidator.fresh_of_candidate {v : AuthIDValidator c} {now : ℤ} {authId : Bytes}
    {uuid : String} (h : v.candidate now authId = some uuid) : Fresh c uuid authId now := by
  rw [candidate, Option.map_eq_some_iff] at h
  obtain ⟨e, he, rfl⟩ := h
  have hf : isFresh c now authId e.1 = true := by
    simpa using List.find?_some he
  obtain ⟨t, ht, h₀, hle⟩ := isFresh_iff.1 hf
  exact ⟨e.1, t, v.keyed e (List.mem_of_find?_eq_some he), ht, h₀, hle⟩

theorem uuid_of_openRequest {uuid : String} {authId wire : Bytes} {fill : List Bytes}
    {res : VMessRequest × BodyReader} (h : openRequest c uuid authId wire fill = .ok res) :
    res.1.uuid = uuid := by
  unfold openRequest at h
  split at h
  · cases h
  · simp only [bind_eq_ok] at h
    obtain ⟨-, -, r, -, -, -, reader, -, h⟩ := h
    cases h
    rfl

/-- What `decode_request` accepts with `expected_uuid`. -/
theorem decodeRequest_expected {v : AuthIDValidator c} {call : Call} {uuid : String}
    (he : call.expected = some uuid) {res : VMessRequest × BodyReader} :
    (decodeRequest v call).1 = .ok res ↔ 16 ≤ call.wire.length ∧
      (∃ ck t, cmdKeyFor c uuid = some ck ∧ decodeAuthId c ck call.authId = some t) ∧
      openRequest c uuid call.authId (call.wire.drop 16) call.fill = .ok res := by
  by_cases hlen : 16 ≤ call.wire.length
  · simp only [decodeRequest, readExact, hlen, if_true, he, true_and]
    cases hk : cmdKeyFor c uuid with
    | none => simp
    | some ck =>
      simp only [Option.some.injEq, exists_and_left, exists_eq_left']
      rw [show call.wire.take 16 = call.authId from rfl]
      cases decodeAuthId c ck call.authId <;> simp
  · simp [decodeRequest, readExact, hlen]

/-- What `decode_request` accepts without. -/
theorem decodeRequest_match {v : AuthIDValidator c} {call : Call} (he : call.expected = none)
    {res : VMessRequest × BodyReader} :
    (decodeRequest v call).1 = .ok res ↔ 16 ≤ call.wire.length ∧
      ∃ uuid, v.candidate call.now call.authId = some uuid ∧ call.authId ∉ v.replay.seen ∧
        openRequest c uuid call.authId (call.wire.drop 16) call.fill = .ok res := by
  by_cases hlen : 16 ≤ call.wire.length
  · simp only [decodeRequest, readExact, hlen, if_true, he, true_and]
    rw [show call.wire.take 16 = call.authId from rfl]
    have hfst := matchId_fst v call.now call.authId
    generalize v.matchId call.now call.authId = m at hfst ⊢
    obtain ⟨out, v'⟩ := m
    simp only at hfst
    subst hfst
    cases v.candidate call.now call.authId with
    | none => simp
    | some uuid => by_cases hs : call.authId ∈ v.replay.seen <;> simp [hs]
  · simp [decodeRequest, readExact, hlen]

/-- A new validator that holds one user accepts what is fresh for that user. -/
theorem matchId_of_fresh {uuid : String} {authId : Bytes} {now : ℤ} (h : Fresh c uuid authId now) :
    (((AuthIDValidator.init c).addUser uuid).matchId now authId).1 = .ok (some uuid) := by
  obtain ⟨ck, t, hk, ht, h₀, hle⟩ := h
  have hf : AuthIDValidator.isFresh c now authId ck = true := isFresh_iff.2 ⟨t, ht, h₀, hle⟩
  have hkeys : ((AuthIDValidator.init c).addUser uuid).keys.entries = [(ck, uuid)] := by
    rw [AuthIDValidator.keys_addUser hk]; rfl
  have hseen : ((AuthIDValidator.init c).addUser uuid).replay = .init 120 :=
    AuthIDValidator.replay_addUser _ _
  rw [matchId_fst, AuthIDValidator.candidate, hkeys, hseen]
  simp [hf, ReplayFilter.init]

/-- **The condition of a step is exact**: in every state, the request accepted by an operation, if
any, is sound exactly when the operation is guarded. -/
theorem sound_iff_guarded (s : SessionState c) (op : SessionOp) : Sound s op ↔ Guarded s op := by
  cases op with
  | register | unregister => exact Iff.rfl
  | decode call =>
    cases he : call.expected with
    | some uuid =>
      simp only [Sound, Guarded, decodeRequest_expected he, he]
      constructor
      · rintro h hlen ck t hk ht ⟨res, hres⟩
        obtain ⟨⟨ck', t', hk', ht', h₀, hle⟩, hnew, -⟩ := h res ⟨hlen, ⟨ck, t, hk, ht⟩, hres⟩
        rw [uuid_of_openRequest hres] at hk'
        rw [hk] at hk'
        cases hk'
        rw [ht] at ht'
        cases ht'
        exact ⟨h₀, hle, hnew⟩
      · rintro h res ⟨hlen, ⟨ck, t, hk, ht⟩, hres⟩
        obtain ⟨h₀, hle, hnew⟩ := h hlen ck t hk ht ⟨res, hres⟩
        have hfresh : Fresh c uuid call.authId call.now := ⟨ck, t, hk, ht, h₀, hle⟩
        refine ⟨by rw [uuid_of_openRequest hres]; exact hfresh, hnew, fun u hu => ?_⟩
        cases he.symm.trans hu
        exact matchId_of_fresh hfresh
    | none =>
      simp only [Sound, Guarded, decodeRequest_match he, he]
      constructor
      · rintro h hlen uuid hc ⟨res, hres⟩ hacc
        by_contra hs
        exact (h res ⟨hlen, uuid, hc, hs, hres⟩).unseen hacc
      · rintro h res ⟨hlen, uuid, hc, hs, hres⟩
        refine ⟨?_, fun hacc => hs (h hlen uuid hc ⟨res, hres⟩ hacc), fun u hu => ?_⟩
        · rw [uuid_of_openRequest hres]
          exact AuthIDValidator.fresh_of_candidate hc
        · cases he.symm.trans hu

/-- **Freshness and anti-replay along runs**: the requests accepted in a run are sound exactly when
every operation of the run is guarded. -/
theorem runs_sound_iff (c : Crypto) (ops : List SessionOp) :
    (sessionMachine c).Along Sound (SessionState.init c) ops ↔
      (sessionMachine c).Along Guarded (SessionState.init c) ops :=
  Machine.along_iff (I := fun _ => True) (fun _ _ _ _ _ _ => trivial)
    (fun s op _ => sound_iff_guarded s op) trivial

/-- An AuthID with time 0, under the transparent primitives. -/
def sampleAuthId : Bytes := List.replicate 12 0 ++ Bytes.ofNatBE 4 (crc32 (List.replicate 12 0)).toNat

/-- A command header: TCP to 127.0.0.1:80, AES-128-GCM, no options but the chunk stream. -/
def sampleHeader : Bytes :=
  let b := [1] ++ List.replicate 32 0 ++ [0, 1, 3, 0, 1, 0, 80, 1, 127, 0, 0, 1]
  b ++ Bytes.ofNatBE 4 (fnv1a32 b)

/-- The request of a client of the user `00`, under the transparent primitives. -/
def sampleWire : Bytes :=
  let c := Crypto.transparent
  let ck := c.md5 ([0] ++ cmdKeyTail)
  let nonce := List.replicate 8 0
  let iv := fun salt => (kdf c ck [Bytes.ascii salt, sampleAuthId, nonce]).take gcmNonceSize
  sampleAuthId ++
    c.aead.encrypt ⟨.AESGCM, []⟩ (iv "VMess Header AEAD Nonce_Length")
      (Bytes.ofNatBE 2 sampleHeader.length) sampleAuthId ++ nonce ++
    c.aead.encrypt ⟨.AESGCM, []⟩ (iv "VMess Header AEAD Nonce") sampleHeader sampleAuthId

/-- The call that `handle_vmess_stream` makes for it at time `now`. -/
def sampleCall (now : ℤ) : Call := ⟨sampleWire, [], some "00", now⟩

/-- It is accepted at every time and after every history. -/
theorem sampleCall_accepted (s : SessionState Crypto.transparent) (now : ℤ) :
    ∃ res, (decodeRequest s.validator (sampleCall now)).1 = .ok res := by
  have hid : (sampleCall now).authId = sampleAuthId :=
    show sampleWire.take 16 = sampleAuthId by decide +kernel
  have hlen : 16 ≤ sampleWire.length := by decide +kernel
  have hdec : decodeAuthId Crypto.transparent (Crypto.transparent.md5 ([0] ++ cmdKeyTail))
      sampleAuthId = some 0 := by decide +kernel
  have hopen : (openRequest Crypto.transparent "00" sampleAuthId (sampleWire.drop 16) []).isOk =
      true := by decide +kernel
  cases hres : openRequest Crypto.transparent "00" sampleAuthId (sampleWire.drop 16) [] with
  | error e => rw [hres] at hopen; cases hopen
  | ok res =>
    have he : (sampleCall now).expected = some "00" := rfl
    refine ⟨res, (decodeRequest_expected he).2 ⟨hlen, ⟨_, 0, rfl, ?_⟩, ?_⟩⟩
    · rw [hid]; exact hdec
    · rw [hid]; exact hres

/-- A request is accepted, and accepted again when its AuthID has expired. -/
theorem replay_accepted : ¬ ∀ (c : Crypto) (ops : List SessionOp),
    (sessionMachine c).Along Sound (SessionState.init c) ops := by
  intro h
  have hrun := h Crypto.transparent [.decode (sampleCall 0), .decode (sampleCall 1000)]
  obtain ⟨-, hrest⟩ := hrun
  obtain ⟨hsound, -⟩ := hrest _ rfl
  obtain ⟨res, hres⟩ := sampleCall_accepted
    ((SessionState.init Crypto.transparent).next (.decode (sampleCall 0))) 1000
  obtain ⟨first, hfirst⟩ := sampleCall_accepted (SessionState.init Crypto.transparent) 0
  refine (hsound res hres).unseen ?_
  simp only [SessionState.next, hfirst]
  exact List.mem_cons_self

end Vmess

end RvgGateway
