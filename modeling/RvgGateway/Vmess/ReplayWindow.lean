import Mathlib.Data.List.DropRight
import Mathlib.Data.List.Nodup
import RvgGateway.Vmess.Session

/-!
# How long the replay filter remembers

`_AuthIDValidator.match` accepts an AuthID for some minutes around the time inside it, and the replay
filter in front of it remembers the last 120 AuthIDs that were accepted, whatever their times.  On a
busy server an AuthID leaves the filter while it is still fresh.

* `ReplayFilter.Holds` : the filter holds the newest items of a history, and nothing else.
* `ReplayFilter.slidingWindow` : **the filter is an exact sliding window**, whatever its size.
* `Refuses` : a call refuses an AuthID that was accepted before, and says so as long as it is fresh.
* `refuses_iff_recent` : **a run refuses all replays exactly when every fresh replay comes before
  120 other AuthIDs were accepted.**
-/

namespace RvgGateway

namespace Vmess

/-! ### The filter as a window on a history -/

namespace ReplayFilter

variable {α : Type*}

/-- The filter holds the `n` newest items of the history, which has the newest one first. -/
structure Holds (f : ReplayFilter α) (n : ℕ) (history : List α) : Prop where
  size : f.size = n
  order : f.order = (history.take n).reverse
  seen : ∀ x, x ∈ f.seen ↔ x ∈ history.take n
  nodup : (history.take n).Nodup

theorem holds_init (n : ℕ) : (ReplayFilter.init n : ReplayFilter α).Holds n [] where
  size := rfl
  order := by simp [init]
  seen x := by simp [init]
  nodup := by simp

variable {f : ReplayFilter α} {n : ℕ} {history : List α} {item : α}

theorem Holds.notMem (h : f.Holds n history) (hnew : item ∉ f.seen) : item ∉ history.take n :=
  fun hmem => hnew ((h.seen item).2 hmem)

theorem Holds.length_order (h : f.Holds n history) (item : α) :
    (f.order ++ [item]).length = min n history.length + 1 := by
  rw [h.order, List.length_append, List.length_reverse, List.length_take, List.length_singleton]

variable [DecidableEq α]

theorem checkAndAdd_of_mem (h : item ∈ f.seen) : f.checkAndAdd item = (false, f) := by
  unfold checkAndAdd
  rw [if_pos h]

/-- In a full filter, a new item pushes the oldest one out. -/
theorem Holds.checkAndAdd_full (h : f.Holds (n + 1) history) (hnew : item ∉ f.seen)
    (hlt : n < history.length) : (f.checkAndAdd item).2.Holds (n + 1) (item :: history) := by
  have hitem := h.notMem hnew
  -- the window is the newest `n` items and the oldest one
  have hwindow : history.take (n + 1) = history.take n ++ [history[n]] :=
    (List.take_append_getElem hlt).symm
  have horder : f.order ++ [item] = history[n] :: ((history.take n).reverse ++ [item]) := by
    rw [h.order, hwindow, List.reverse_append]
    rfl
  have hnodup := h.nodup
  rw [hwindow] at hnodup hitem
  obtain ⟨hold, -, hdisj⟩ := List.nodup_append.1 hnodup
  have hlong : f.size < (history[n] :: ((history.take n).reverse ++ [item])).length := by
    rw [← horder, h.length_order, h.size]
    omega
  unfold ReplayFilter.checkAndAdd
  rw [if_neg hnew, horder]
  simp only [if_pos hlong]
  refine ⟨h.size, by simp, fun x => ?_, ?_⟩
  · rw [Finset.mem_erase, Finset.mem_insert, h.seen, hwindow, List.take_succ_cons,
      List.mem_cons, List.mem_append, List.mem_singleton]
    constructor
    · rintro ⟨hne, hx | hx | hx⟩
      · exact .inl hx
      · exact .inr hx
      · exact absurd hx hne
    · rintro (hx | hx)
      · refine ⟨fun heq => hitem ?_, .inl hx⟩
        rw [← hx, heq]
        exact List.mem_append_right _ List.mem_cons_self
      · exact ⟨hdisj _ hx _ List.mem_cons_self, .inr (.inl hx)⟩
  · rw [List.take_succ_cons]
    exact List.nodup_cons.2 ⟨fun hmem => hitem (List.mem_append_left _ hmem), hold⟩

/-- While there is room, nothing is pushed out. -/
theorem Holds.checkAndAdd_room (h : f.Holds (n + 1) history) (hnew : item ∉ f.seen)
    (hle : history.length ≤ n) : (f.checkAndAdd item).2.Holds (n + 1) (item :: history) := by
  have hall : history.take (n + 1) = history := List.take_of_length_le (Nat.le_succ_of_le hle)
  have hnext : (item :: history).take (n + 1) = item :: history := by
    rw [List.take_succ_cons, List.take_of_length_le hle]
  have hshort : ¬ f.size < (f.order ++ [item]).length := by
    rw [h.length_order, h.size]
    omega
  have hitem := h.notMem hnew
  have hnodup := h.nodup
  rw [hall] at hnodup hitem
  unfold ReplayFilter.checkAndAdd
  rw [if_neg hnew]
  simp only [hshort, if_false]
  refine ⟨h.size, ?_, fun x => ?_, ?_⟩
  · rw [h.order, hall, hnext, List.reverse_cons]
  · rw [Finset.mem_insert, h.seen, hall, hnext, List.mem_cons]
  · rw [hnext]
    exact List.nodup_cons.2 ⟨hitem, hnodup⟩

theorem Holds.checkAndAdd (h : f.Holds (n + 1) history) (hnew : item ∉ f.seen) :
    (f.checkAndAdd item).2.Holds (n + 1) (item :: history) := by
  rcases Nat.lt_or_ge n history.length with hlt | hle
  · exact h.checkAndAdd_full hnew hlt
  · exact h.checkAndAdd_room hnew hle

/-! ### Sequences of calls -/

/-- The filter after some calls of `check_and_add`. -/
def calls (f : ReplayFilter α) (items : List α) : ReplayFilter α :=
  items.foldl (fun f item => (f.checkAndAdd item).2) f

/-- The items that were accepted in these calls, in order. -/
def accepted (f : ReplayFilter α) : List α → List α
  | [] => []
  | item :: items =>
    if (f.checkAndAdd item).1 then item :: accepted (f.checkAndAdd item).2 items
    else accepted (f.checkAndAdd item).2 items

/-- One call, with what it accepts in front of the history. -/
theorem Holds.call (h : f.Holds (n + 1) history) (item : α) :
    (f.checkAndAdd item).2.Holds (n + 1)
      (if (f.checkAndAdd item).1 then item :: history else history) := by
  rw [checkAndAdd_fst]
  by_cases hseen : item ∈ f.seen
  · rw [checkAndAdd_of_mem hseen]
    simpa [hseen] using h
  · simpa [hseen] using h.checkAndAdd hseen

/-- All calls. -/
theorem Holds.calls (h : f.Holds (n + 1) history) (items : List α) :
    (f.calls items).Holds (n + 1) ((f.accepted items).reverse ++ history) := by
  induction items generalizing f history with
  | nil => exact h
  | cons item items ih =>
    have hrest := ih (h.call item)
    rw [ReplayFilter.calls, List.foldl_cons, accepted]
    split
    · rename_i hok
      rw [if_pos hok] at hrest
      rw [List.reverse_cons, List.append_assoc]
      exact hrest
    · rename_i hok
      rw [if_neg hok] at hrest
      exact hrest

/-- The filter is an exact window on what was accepted. -/
structure ExactWindow (f : ReplayFilter α) (size : ℕ) (accepted : List α) : Prop where
  /-- The set has the elements of the queue. -/
  seen : f.seen = f.order.toFinset
  nodup : f.order.Nodup
  length_le : f.order.length ≤ size
  /-- An item is refused when it is among the last ones that were accepted. -/
  refuses_iff : ∀ item, (f.checkAndAdd item).1 = false ↔ item ∈ accepted.rtake size

theorem Holds.exactWindow {accepted : List α} (h : f.Holds n accepted.reverse) :
    f.ExactWindow n accepted where
  seen := by
    ext x
    rw [h.seen, h.order, List.toFinset_reverse, List.mem_toFinset]
  nodup := by
    rw [h.order, List.nodup_reverse]
    exact h.nodup
  length_le := by
    rw [h.order, List.length_reverse, List.length_take]
    exact Nat.min_le_left _ _
  refuses_iff item := by
    rw [checkAndAdd_fst, List.rtake_eq_reverse_take_reverse, List.mem_reverse, ← h.seen]
    simp

/-- **The filter is a sliding window**: after any calls on a new filter of any size, it is an exact
window on the items that these calls accepted. -/
theorem slidingWindow {size : ℕ} (hsize : 1 ≤ size) (items : List α) :
    ((init size).calls items).ExactWindow size ((init size).accepted items) := by
  obtain ⟨n, rfl⟩ := Nat.exists_eq_add_of_le' hsize
  have h := (holds_init (n + 1)).calls items
  rw [List.append_nil] at h
  exact h.exactWindow

/-- An item that was pushed out is accepted again. -/
theorem slidingWindow_readmitted :
    ((init 2).calls [1, 2, 1, 3, 1]).ExactWindow 2 ((init 2).accepted [1, 2, 1, 3, 1]) ∧
      (init 2).accepted [1, 2, 1, 3, 1] = [1, 2, 3, 1] :=
  ⟨slidingWindow (by decide) _, by decide⟩

end ReplayFilter

/-! ### Runs of the validator -/

/-- The validator, with the AuthIDs it accepted so far, the newest first. -/
structure WindowState (c : Crypto) where
  /-- `_validator`. -/
  validator : AuthIDValidator c
  /-- The program does not keep it. -/
  accepted : List Bytes

/-- What happens to the validator. -/
inductive WindowOp where
  /-- `match(auth_id)` at the time `now`. -/
  | present (now : ℤ) (authId : Bytes)
  /-- `add_user`. -/
  | register (uuid : String)
  /-- `remove_user`. -/
  | unregister (uuid : String)

variable {c : Crypto}

namespace WindowState

/-- A new validator for some users. -/
def init (c : Crypto) (users : List String) : WindowState c :=
  ⟨users.foldl AuthIDValidator.addUser (.init c), []⟩

/-- The state after one operation. -/
def next (s : WindowState c) : WindowOp → WindowState c
  | .present now authId =>
    { validator := (s.validator.matchId now authId).2
      accepted :=
        match (s.validator.matchId now authId).1 with
        | .ok (some _) => authId :: s.accepted
        | _ => s.accepted }
  | .register uuid => { s with validator := s.validator.addUser uuid }
  | .unregister uuid => { s with validator := s.validator.removeUser uuid }

/-- The filter holds what was accepted last. -/
def Recorded (s : WindowState c) : Prop := s.validator.replay.Holds 120 s.accepted

end WindowState

/-- Calls of `match` in any order, while users come and go. -/
def windowMachine (c : Crypto) : Machine (WindowState c) WindowOp where
  step s op := some (s.next op)

/-- An AuthID that was accepted before is not accepted, and is refused as a replay as long as it is
fresh for some user. -/
def Refuses (s : WindowState c) : WindowOp → Prop
  | .present now authId => authId ∈ s.accepted →
      (∀ uuid, (s.validator.matchId now authId).1 ≠ .ok (some uuid)) ∧
      ((s.validator.candidate now authId).isSome = true →
        (s.validator.matchId now authId).1 = .error (.vmessAuthError "replayed request"))
  | _ => True

/-- An AuthID that was accepted before and is still fresh for some user is one of the last 120 that
were accepted. -/
def Recent (s : WindowState c) : WindowOp → Prop
  | .present now authId => authId ∈ s.accepted →
      (s.validator.candidate now authId).isSome = true → authId ∈ s.accepted.take 120
  | _ => True

variable {s s' : WindowState c}

/-- The filter after the search: the AuthID is entered if some user was found. -/
theorem matchLoop_snd (now : ℤ) (authId : Bytes) (f : ReplayFilter Bytes)
    (keys : List (Bytes × String)) :
    (AuthIDValidator.matchLoop (c := c) now authId f keys).2 =
      if (keys.find? fun e => AuthIDValidator.isFresh c now authId e.1).isSome then
        (f.checkAndAdd authId).2
      else f := by
  induction keys with
  | nil => rfl
  | cons e keys ih =>
    rw [AuthIDValidator.matchLoop, List.find?_cons]
    cases AuthIDValidator.isFresh c now authId e.1 with
    | false => simpa using ih
    | true =>
      rcases f.checkAndAdd authId with ⟨ok, f'⟩
      cases ok <;> rfl

theorem replay_matchId (v : AuthIDValidator c) (now : ℤ) (authId : Bytes) :
    (v.matchId now authId).2.replay =
      if (v.candidate now authId).isSome then (v.replay.checkAndAdd authId).2 else v.replay := by
  unfold AuthIDValidator.candidate
  rw [Option.isSome_map]
  exact matchLoop_snd now authId v.replay v.keys.entries

theorem recorded_init (c : Crypto) (users : List String) : (WindowState.init c users).Recorded := by
  have hreplay : ∀ v : AuthIDValidator c,
      (users.foldl AuthIDValidator.addUser v).replay = v.replay := by
    induction users with
    | nil => intro v; rfl
    | cons uuid users ih =>
      intro v
      rw [List.foldl_cons, ih, AuthIDValidator.replay_addUser]
  unfold WindowState.Recorded WindowState.init
  rw [hreplay]
  exact ReplayFilter.holds_init 120

/-- What a call does to the filter and to the history. -/
theorem recorded_present (hs : s.Recorded) (now : ℤ) (authId : Bytes) :
    (s.next (.present now authId)).Recorded := by
  unfold WindowState.Recorded WindowState.next
  dsimp only
  rw [replay_matchId, matchId_fst]
  cases s.validator.candidate now authId with
  | none => exact hs
  | some uuid =>
    by_cases hseen : authId ∈ s.validator.replay.seen
    · simp only [hseen, if_true, Option.isSome_some, ReplayFilter.checkAndAdd_of_mem hseen]
      exact hs
    · simp only [hseen, if_false, Option.isSome_some, if_true]
      exact ReplayFilter.Holds.checkAndAdd hs hseen

theorem recorded_step {op : WindowOp} (hs : s.Recorded)
    (hstep : (windowMachine c).step s op = some s') : s'.Recorded := by
  cases hstep
  cases op with
  | present now authId => exact recorded_present hs now authId
  | register uuid =>
    unfold WindowState.Recorded WindowState.next
    rw [AuthIDValidator.replay_addUser]
    exact hs
  | unregister uuid =>
    unfold WindowState.Recorded WindowState.next
    rw [AuthIDValidator.replay_removeUser]
    exact hs

/-- **One call.**  Replays of AuthIDs in the filter are refused, the other ones are accepted as long
as they are fresh. -/
theorem refuses_iff_recent_step (hs : s.Recorded) (op : WindowOp) : Refuses s op ↔ Recent s op := by
  cases op with
  | register | unregister => exact Iff.rfl
  | present now authId =>
    have hseen : authId ∈ s.validator.replay.seen ↔ authId ∈ s.accepted.take 120 := hs.seen authId
    unfold Refuses Recent
    refine forall_congr' fun _ => ?_
    rw [matchId_fst]
    cases s.validator.candidate now authId with
    | none => simp
    | some uuid =>
      by_cases hmem : authId ∈ s.validator.replay.seen
      · simp [hmem, hseen.1 hmem]
      · have hold : authId ∉ s.accepted.take 120 := fun h => hmem (hseen.2 h)
        simp [hmem, hold]

/-- **Replays are refused in exactly the runs in which every fresh replay is one of the last 120
AuthIDs that were accepted.** -/
theorem refuses_iff_recent (c : Crypto) (users : List String) (ops : List WindowOp) :
    (windowMachine c).Along Refuses (.init c users) ops ↔
      (windowMachine c).Along Recent (.init c users) ops :=
  Machine.along_iff (I := WindowState.Recorded) (fun _ _ _ hs _ hstep => recorded_step hs hstep)
    (fun _ op hs => refuses_iff_recent_step hs op) (recorded_init c users)

/-! ### A busy server -/

/-- An AuthID with time 0 and the random part `n`, under the transparent primitives. -/
def busyAuthId (n : ℕ) : Bytes :=
  let pt := List.replicate 8 0 ++ Bytes.ofNatBE 4 n
  pt ++ Bytes.ofNatBE 4 (crc32 pt).toNat

/-- 121 clients present themselves at time 0. -/
def busyMinute : List WindowOp := (List.range 121).map fun n => .present 0 (busyAuthId n)

theorem decode_busyAuthId (ck : Bytes) (n : ℕ) :
    decodeAuthId Crypto.transparent ck (busyAuthId n) = some 0 := by
  set pt := List.replicate 8 0 ++ Bytes.ofNatBE 4 n with hpt
  have hlen : pt.length = 12 := by simp [hpt]
  have hid : busyAuthId n = pt ++ Bytes.ofNatBE 4 (crc32 pt).toNat := rfl
  have htotal : (busyAuthId n).length = 16 := by rw [hid]; simp [hlen]
  have hcrc : Bytes.toNatBE (Bytes.slice (busyAuthId n) 12 16) = (crc32 pt).toNat := by
    have hlt := (crc32 pt).toNat_lt
    rw [hid, Bytes.slice, List.drop_left' hlen, List.take_of_length_le (by simp),
      Bytes.toNatBE_ofNatBE, Nat.mod_eq_of_lt (by omega)]
  have htime : unpackQ ((busyAuthId n).take 8) = 0 := by
    have hfront : (busyAuthId n).take 8 = List.replicate 8 0 := by
      rw [hid, hpt, List.append_assoc, List.take_left' (by simp)]
    rw [hfront]
    decide
  have hpt' : (busyAuthId n).take 12 = pt := by rw [hid, List.take_left' hlen]
  unfold decodeAuthId
  simp only [Crypto.transparent, htotal, if_true, ne_eq, not_true_eq_false, if_false, hcrc, hpt',
    htime]

theorem busyAuthId_injOn {m n : ℕ} (hm : m < 2 ^ 32) (hn : n < 2 ^ 32)
    (h : busyAuthId m = busyAuthId n) : m = n := by
  have htake : ∀ k, ((busyAuthId k).drop 8).take 4 = Bytes.ofNatBE 4 k := by
    intro k
    unfold busyAuthId
    rw [List.append_assoc, List.drop_left' (by simp), List.take_left' (by simp)]
  have heq := congrArg Bytes.toNatBE ((htake m).symm.trans (h ▸ htake n))
  rw [Bytes.toNatBE_ofNatBE, Bytes.toNatBE_ofNatBE] at heq
  omega

/-- AuthIDs that are new and fresh for a user are all accepted. -/
theorem run_of_fresh {ids : List Bytes} {now : ℤ} (hs : s.Recorded) (hnodup : ids.Nodup)
    (hnew : ∀ authId ∈ ids, authId ∉ s.accepted)
    (hfresh : ∀ authId ∈ ids, ∃ e ∈ s.validator.keys.entries,
      AuthIDValidator.isFresh c now authId e.1 = true) :
    ∃ s', (windowMachine c).run s (ids.map fun authId => .present now authId) = some s' ∧
      s'.accepted = ids.reverse ++ s.accepted ∧ s'.validator.keys = s.validator.keys ∧
      s'.Recorded := by
  induction ids generalizing s with
  | nil => exact ⟨s, rfl, rfl, rfl, hs⟩
  | cons authId ids ih =>
    obtain ⟨hnotin, hnodup⟩ := List.nodup_cons.1 hnodup
    have hseen : authId ∉ s.validator.replay.seen := fun hmem =>
      hnew authId List.mem_cons_self (List.mem_of_mem_take ((hs.seen authId).1 hmem))
    obtain ⟨e, he, hef⟩ := hfresh authId List.mem_cons_self
    -- some user is found, and the AuthID is not in the filter
    have hcand : ∃ uuid, s.validator.candidate now authId = some uuid := by
      have hfound : (s.validator.keys.entries.find? fun e =>
          AuthIDValidator.isFresh c now authId e.1).isSome = true :=
        List.find?_isSome.2 ⟨e, he, hef⟩
      obtain ⟨e', he'⟩ := Option.isSome_iff_exists.1 hfound
      exact ⟨e'.2, by rw [AuthIDValidator.candidate, he']; rfl⟩
    obtain ⟨uuid, hcand⟩ := hcand
    have haccepted : (s.next (.present now authId)).accepted = authId :: s.accepted := by
      unfold WindowState.next
      dsimp only
      rw [matchId_fst, hcand]
      simp only [hseen, if_false]
    obtain ⟨s', hrun, hacc, hkeys, hrec⟩ := ih (recorded_present hs now authId) hnodup
      (fun authId' hmem => by
        rw [haccepted, List.mem_cons, not_or]
        refine ⟨?_, hnew authId' (List.mem_cons_of_mem _ hmem)⟩
        rintro rfl
        exact hnotin hmem)
      (fun authId' hmem => hfresh authId' (List.mem_cons_of_mem _ hmem))
    refine ⟨s', ?_, ?_, hkeys, hrec⟩
    · exact hrun
    · rw [hacc, haccepted]
      simp

/-- After 121 clients, the first AuthID is accepted again. -/
theorem evicted_authId_accepted : ¬ (windowMachine Crypto.transparent).Along Refuses
    (.init Crypto.transparent ["00"]) (busyMinute ++ [.present 0 (busyAuthId 0)]) := by
  intro h
  have hfresh : ∀ n, ∃ e ∈ (WindowState.init Crypto.transparent ["00"]).validator.keys.entries,
      AuthIDValidator.isFresh Crypto.transparent 0 (busyAuthId n) e.1 = true := by
    intro n
    refine ⟨(Crypto.transparent.md5 ([0] ++ cmdKeyTail), "00"), by decide +kernel, ?_⟩
    unfold AuthIDValidator.isFresh
    rw [decode_busyAuthId]
    rfl
  set ids := (List.range 121).map busyAuthId with hids
  have hnodup : ids.Nodup := by
    refine (List.nodup_range).map_on fun m hm n hn heq => ?_
    rw [List.mem_range] at hm hn
    exact busyAuthId_injOn (by omega) (by omega) heq
  have hfreshIds : ∀ authId ∈ ids,
      ∃ e ∈ (WindowState.init Crypto.transparent ["00"]).validator.keys.entries,
        AuthIDValidator.isFresh Crypto.transparent 0 authId e.1 = true := by
    intro authId hmem
    obtain ⟨n, -, rfl⟩ := List.mem_map.1 hmem
    exact hfresh n
  obtain ⟨s, hrun, hacc, hkeys, hrec⟩ := run_of_fresh (recorded_init Crypto.transparent ["00"])
    hnodup (fun _ _ hmem => by cases hmem) hfreshIds
  have hbusy : busyMinute = ids.map fun authId => .present 0 authId := by
    rw [hids, List.map_map]
    rfl
  -- the history is the 120 later AuthIDs, and behind them the first one
  have hsplit : ids = busyAuthId 0 :: (List.range 120).map (busyAuthId ∘ Nat.succ) := by
    rw [hids, List.range_succ_eq_map, List.map_cons, List.map_map]
  have hlast := h.last (hbusy ▸ hrun)
  have hmem : busyAuthId 0 ∈ s.accepted := by
    rw [hacc, hsplit]
    simp
  have hgone : busyAuthId 0 ∉ s.accepted.take 120 := by
    rw [hacc, hsplit, List.reverse_cons]
    rw [hsplit, List.nodup_cons] at hnodup
    rw [List.append_assoc, List.take_left' (by simp)]
    exact fun hmem => hnodup.1 (List.mem_reverse.1 hmem)
  refine hgone ((refuses_iff_recent_step hrec _).1 hlast hmem ?_)
  unfold AuthIDValidator.candidate
  rw [Option.isSome_map, List.find?_isSome, hkeys]
  exact hfresh 0

end Vmess

end RvgGateway
