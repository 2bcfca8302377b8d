import Mathlib.Data.Rat.Defs
import Mathlib.Algebra.Order.Ring.Rat
import RvgGateway.Lib.Dict
import RvgGateway.Lib.Json
import RvgGateway.Lib.Machine

/-!
# The sessions of the panel

`SESSIONS` maps the tokens that `api_login` has handed out to the times at which they expire.
`require_auth` looks a token up when a request arrives; `api_change_password` and `backup_import`
wait for their bodies after that, so that anything may happen between the look and the replacement
of the password.  No task is suspended while it holds `SESSIONS_LOCK`.

* `Panel` : `SESSIONS`, `AUTH`, the clock and the calls that `require_auth` has let through.
* `machine` : the requests in any order, one label for each step between suspensions.
* `live_step_iff` : what one step does to the session of a token.
* `valid_iff_since` : **a token is valid exactly when it was granted, by a login with the password
  then in force or to a call that replaced the password, at most a week ago, and since then neither
  was it logged out nor did a call of another token replace the password.**
* `authority_from_login` : **all authority comes from logins with the password in force.**
-/

namespace RvgGateway

namespace Auth

/-- `SESSION_TTL`. -/
def sessionTtl : ℚ := 60 * 60 * 24 * 7

/-- The endpoints that replace the password. -/
inductive Endpoint where
  | changePassword
  | backupImport
  deriving DecidableEq

/-- A call that `require_auth` has let through, with the token in its cookie. -/
structure Call where
  endpoint : Endpoint
  token : String
  token_ne : token ≠ ""

/-- The state of the panel. -/
structure Panel where
  /-- `time.time()` at the last step. -/
  now : ℚ
  /-- `AUTH["password_hash"]`; an import puts any value there that is truthy. -/
  passwordHash : Json
  sessions : Dict String ℚ
  /-- The calls that wait for their bodies. -/
  calls : Dict ℕ Call

/-- What happens. -/
inductive Event where
  /-- `api_login` has its body; `token` is what `token_urlsafe` draws. -/
  | login (password token : String)
  | logout (cookie : Option String)
  /-- `require_auth` of any other endpoint, or `api_me`. -/
  | request (cookie : Option String)
  /-- `require_auth` of an endpoint that replaces the password. -/
  | enter (id : ℕ) (endpoint : Endpoint) (cookie : Option String)
  /-- `api_change_password` has its body. -/
  | changePassword (id : ℕ) (current new : String)
  /-- `backup_import` has replaced the other tables. -/
  | restore (id : ℕ) (keepPassword : Bool) (newPwHash : Json)
  /-- A call that was let through raises before it gets to the password. -/
  | abandon (id : ℕ)

/-- An event and its time. -/
structure Label where
  now : ℚ
  event : Event

namespace Panel

variable (s : Panel) (hashPassword : String → String)

/-- A panel that has just been started. -/
def start (now : ℚ) (passwordHash : Json) : Panel := ⟨now, passwordHash, ∅, ∅⟩

/-- `hash_password(pw) == AUTH["password_hash"]`. -/
def knows (pw : String) : Bool := Json.isText (hashPassword pw) s.passwordHash

/-- `is_valid_session`. -/
def isValidSession (token : Option String) : Bool × Panel :=
  match token with
  | none => (false, s)
  | some t =>
    if t = "" then (false, s)
    else
      match s.sessions.get? t with
      | none => (false, s)
      | some exp =>
        if exp < s.now then (false, { s with sessions := s.sessions.erase t }) else (true, s)

/-- `destroy_session`. -/
def destroySession (token : Option String) : Panel :=
  match token with
  | none => s
  | some t => if t = "" then s else { s with sessions := s.sessions.erase t }

/-- `api_login` with `create_session`. -/
def login (password token : String) : Panel :=
  if !s.knows hashPassword password then s
  else { s with sessions := s.sessions.set token (s.now + sessionTtl) }

/-- `require_auth`, and the call goes on to wait for its body. -/
def enter (id : ℕ) (endpoint : Endpoint) (cookie : Option String) : Panel :=
  let (valid, s) := s.isValidSession cookie
  match cookie with
  | none => s
  | some t =>
    if ht : t = "" then s
    else if valid then { s with calls := s.calls.set id ⟨endpoint, t, ht⟩ } else s

/-- The new password and the sessions, in both endpoints. -/
def replacePassword (passwordHash : Json) (token : String) : Panel :=
  { s with passwordHash, sessions := Dict.set ∅ token (s.now + sessionTtl) }

/-- `api_change_password` once it has its body. -/
def changePassword (c : Call) (current new : String) : Panel :=
  if !s.knows hashPassword current then s
  else if new.length < 4 then s
  else s.replacePassword (.str (hashPassword new)) c.token

/-- The end of `backup_import`. -/
def restore (c : Call) (keepPassword : Bool) (newPwHash : Json) : Panel :=
  if !keepPassword && newPwHash.truthy then s.replacePassword newPwHash c.token else s

/-- A call returns or raises. -/
def leave (id : ℕ) : Panel := { s with calls := s.calls.erase id }

/-- The call with this number, if it is one of the endpoint. -/
def call? (id : ℕ) (endpoint : Endpoint) : Option Call :=
  (s.calls.get? id).filter fun c => c.endpoint = endpoint

end Panel

/-- The panel; its clock does not go back. -/
def machine (hashPassword : String → String) : Machine Panel Label where
  step s l :=
    if l.now < s.now then none
    else
      let s := { s with now := l.now }
      match l.event with
      | .login password token =>
        if token = "" then none else some (s.login hashPassword password token)
      | .logout cookie => some (s.destroySession cookie)
      | .request cookie => some (s.isValidSession cookie).2
      | .enter id endpoint cookie =>
        if s.calls.contains id then none else some (s.enter id endpoint cookie)
      | .changePassword id current new =>
        (s.call? id .changePassword).map fun c =>
          (s.changePassword hashPassword c current new).leave id
      | .restore id keepPassword newPwHash =>
        (s.call? id .backupImport).map fun c => (s.restore c keepPassword newPwHash).leave id
      | .abandon id => if s.calls.contains id then some (s.leave id) else none

/-! ### The property -/

/-- `is_valid_session(token)` at the time `now`. -/
def Valid (s : Panel) (token : String) (now : ℚ) : Prop :=
  ({ s with now }.isValidSession (some token)).1 = true

/-- The token of the call that replaces the password in this step, if one does. -/
def replacer (hashPassword : String → String) (s : Panel) : Event → Option String
  | .changePassword id current new =>
    ((s.call? id .changePassword).filter fun _ =>
      s.knows hashPassword current && 4 ≤ new.length).map Call.token
  | .restore id keepPassword newPwHash =>
    ((s.call? id .backupImport).filter fun _ => !keepPassword && newPwHash.truthy).map Call.token
  | _ => none

/-- The step is a login with the password in force that is handed this token, or the call of this
token replaces the password. -/
def Grants (hashPassword : String → String) (token : String) (s : Panel) (l : Label) : Prop :=
  (∃ password, l.event = .login password token ∧ s.knows hashPassword password = true) ∨
    replacer hashPassword s l.event = some token

/-- The step logs this token out, or the call of another token replaces the password. -/
def Revokes (hashPassword : String → String) (token : String) (s : Panel) (l : Label) : Prop :=
  l.event = .logout (some token) ∨ ∃ t ≠ token, replacer hashPassword s l.event = some t

/-! ### What a step does -/

section Step

variable {hashPassword : String → String} {s s' : Panel} {l : Label} {token : String}

/-- What a step that neither grants a session nor replaces the password leaves. -/
structure Kept (hashPassword : String → String) (s : Panel) (l : Label) (s' : Panel) : Prop where
  not_login : ∀ password token, l.event = .login password token →
    s.knows hashPassword password = false
  not_replacer : replacer hashPassword s l.event = none
  hash : s'.passwordHash = s.passwordHash
  /-- A session stays, or it was logged out or has expired. -/
  sessions : ∀ t, s'.sessions.get? t = s.sessions.get? t ∨ s'.sessions.get? t = none ∧
    (l.event = .logout (some t) ∨ ∃ exp, s.sessions.get? t = some exp ∧ exp < l.now)
  logout : ∀ t ≠ "", l.event = .logout (some t) → s'.sessions.get? t = none
  /-- A call was let through before, or its token is valid. -/
  calls : ∀ id c, s'.calls.get? id = some c → s.calls.get? id = some c ∨
    ∃ exp, s.sessions.get? c.token = some exp

/-- The three kinds of steps. -/
inductive Effect (hashPassword : String → String) (s : Panel) (l : Label) (s' : Panel) : Prop where
  | granted (password token : String) (event : l.event = .login password token)
      (knows : s.knows hashPassword password = true) (token_ne : token ≠ "")
      (eq : s' = { s with now := l.now, sessions := s.sessions.set token (l.now + sessionTtl) })
  | replaced (id : ℕ) (c : Call) (call : s.calls.get? id = some c)
      (replacer : replacer hashPassword s l.event = some c.token)
      (sessions : s'.sessions = Dict.set ∅ c.token (l.now + sessionTtl))
      (calls : s'.calls = s.calls.erase id)
  | kept (kept : Kept hashPassword s l s')

/-- Looking a token up removes it at most when it has expired. -/
theorem isValidSession_snd (s : Panel) (cookie : Option String) :
    (s.isValidSession cookie).2 = s ∨ ∃ t exp, s.sessions.get? t = some exp ∧ exp < s.now ∧
      (s.isValidSession cookie).2 = { s with sessions := s.sessions.erase t } := by
  unfold Panel.isValidSession
  cases cookie with
  | none => exact .inl rfl
  | some t =>
    dsimp only
    split_ifs with ht
    · exact .inl rfl
    · cases hget : s.sessions.get? t with
      | none => exact .inl rfl
      | some exp =>
        dsimp only
        split_ifs with hexp
        · exact .inr ⟨t, exp, hget, hexp, rfl⟩
        · exact .inl rfl

/-- Looking a token up touches nothing but the sessions. -/
theorem isValidSession_frame (s : Panel) (cookie : Option String) :
    (s.isValidSession cookie).2.now = s.now ∧
      (s.isValidSession cookie).2.passwordHash = s.passwordHash ∧
      (s.isValidSession cookie).2.calls = s.calls := by
  obtain h | ⟨t, exp, -, -, h⟩ := isValidSession_snd s cookie <;> rw [h] <;> exact ⟨rfl, rfl, rfl⟩

/-- A token is valid when it is there and has not expired. -/
theorem isValidSession_fst {t : String} :
    (s.isValidSession (some t)).1 = true ↔
      t ≠ "" ∧ ∃ exp, s.sessions.get? t = some exp ∧ s.now ≤ exp := by
  unfold Panel.isValidSession
  dsimp only
  split_ifs with ht
  · simp [ht]
  · cases hget : s.sessions.get? t with
    | none => simp
    | some exp =>
      dsimp only
      split_ifs with hexp
      · simp [ht, not_le.2 hexp]
      · simp [ht, not_lt.1 hexp]

theorem call?_eq_some {id : ℕ} {e : Endpoint} {c : Call} (h : s.call? id e = some c) :
    s.calls.get? id = some c :=
  (Option.filter_eq_some_iff.1 h).1

/-- A step that changes neither the password nor the sessions, for an event that is neither a login
with the password in force nor a logout nor a replacement. -/
theorem kept_of_sessions (hlogin : ∀ password token, l.event = .login password token →
      s.knows hashPassword password = false)
    (hreplacer : replacer hashPassword s l.event = none) (hlogout : ∀ t, l.event ≠ .logout (some t))
    (hash : s'.passwordHash = s.passwordHash) (hsessions : s'.sessions = s.sessions)
    (hcalls : ∀ id c, s'.calls.get? id = some c → s.calls.get? id = some c ∨
      ∃ exp, s.sessions.get? c.token = some exp) : Kept hashPassword s l s' where
  not_login := hlogin
  not_replacer := hreplacer
  hash := hash
  sessions t := .inl (by rw [hsessions])
  logout t _ ht := absurd ht (hlogout t)
  calls := hcalls

theorem get?_leave {id k : ℕ} {c : Call} (h : (s.leave id).calls.get? k = some c) :
    s.calls.get? k = some c := by
  unfold Panel.leave at h
  rw [Dict.get?_erase] at h
  split_ifs at h
  exact h

/-- A token that was looked up and found expired is gone. -/
theorem kept_isValidSession (cookie : Option String)
    (hlogin : ∀ password token, l.event ≠ .login password token)
    (hreplacer : replacer hashPassword s l.event = none) (hlogout : ∀ t, l.event ≠ .logout (some t))
    {calls : Dict ℕ Call} (hcalls : ∀ id c, calls.get? id = some c → s.calls.get? id = some c ∨
      ∃ exp, s.sessions.get? c.token = some exp) :
    Kept hashPassword s l
      { ({ s with now := l.now }.isValidSession cookie).2 with calls := calls } where
  not_login p t h := absurd h (hlogin p t)
  not_replacer := hreplacer
  hash := (isValidSession_frame _ cookie).2.1
  sessions t := by
    obtain h | ⟨t', exp, hget, hexp, h⟩ := isValidSession_snd { s with now := l.now } cookie
    · exact .inl (by rw [h])
    · rw [h]
      change (s.sessions.erase t').get? t = _ ∨ (s.sessions.erase t').get? t = none ∧ _
      rw [Dict.get?_erase]
      split_ifs with ht
      · subst ht
        exact .inr ⟨rfl, .inr ⟨exp, hget, hexp⟩⟩
      · exact .inl rfl
  logout t _ ht := absurd ht (hlogout t)
  calls := hcalls

/-- The call waits for its body if its token is valid. -/
theorem enter_cases (s : Panel) (id : ℕ) (e : Endpoint) (cookie : Option String) :
    s.enter id e cookie = (s.isValidSession cookie).2 ∨
      ∃ (t : String) (ht : t ≠ ""), (s.isValidSession (some t)).1 = true ∧
        s.enter id e cookie =
          { (s.isValidSession cookie).2 with
            calls := (s.isValidSession cookie).2.calls.set id ⟨e, t, ht⟩ } := by
  unfold Panel.enter
  cases cookie with
  | none => exact .inl rfl
  | some t =>
    dsimp only
    split_ifs with ht hvalid
    · exact .inl rfl
    · exact .inr ⟨t, ht, hvalid, rfl⟩
    · exact .inl rfl

/-- `require_auth` and the wait for the body. -/
theorem kept_enter (id : ℕ) (e : Endpoint) (cookie : Option String)
    (hevent : l.event = .enter id e cookie) :
    Kept hashPassword s l ({ s with now := l.now }.enter id e cookie) := by
  obtain ⟨-, -, hframe⟩ := isValidSession_frame { s with now := l.now } cookie
  have hkept : ∀ calls : Dict ℕ Call, (∀ k c, calls.get? k = some c → s.calls.get? k = some c ∨
      ∃ exp, s.sessions.get? c.token = some exp) → Kept hashPassword s l
        { ({ s with now := l.now }.isValidSession cookie).2 with calls := calls } :=
    fun calls => kept_isValidSession cookie (by simp [hevent]) (by simp [hevent, replacer])
      (by simp [hevent])
  obtain h | ⟨t, ht, hvalid, h⟩ := enter_cases { s with now := l.now } id e cookie
  · rw [h]
    exact hkept _ fun k c hk => .inl (by rwa [hframe] at hk)
  · rw [h]
    refine hkept _ fun k c hk => ?_
    obtain ⟨-, exp, hget, -⟩ := isValidSession_fst.1 hvalid
    rw [hframe, Dict.get?_set] at hk
    split_ifs at hk with hid
    · cases hk
      exact .inr ⟨exp, hget⟩
    · exact .inl hk

theorem now_enter (id : ℕ) (e : Endpoint) (cookie : Option String) :
    (s.enter id e cookie).now = s.now := by
  obtain h | ⟨t, ht, -, h⟩ := enter_cases s id e cookie <;> rw [h] <;>
    exact (isValidSession_frame s cookie).1

/-- The two refusals of `api_change_password` as one condition. -/
theorem changePassword_eq (c : Call) (current new : String) :
    s.changePassword hashPassword c current new =
      if s.knows hashPassword current && 4 ≤ new.length then
        s.replacePassword (.str (hashPassword new)) c.token
      else s := by
  unfold Panel.changePassword
  cases hknows : s.knows hashPassword current with
  | false => rfl
  | true =>
    by_cases hlen : new.length < 4
    · simp [hlen, Nat.not_le.2 hlen]
    · simp [hlen, Nat.not_lt.1 hlen]

/-- The end of a call that replaces the password or leaves it. -/
theorem effect_leave {id : ℕ} {c : Call} {hash : Json} {replaces : Bool}
    (hcall : s.calls.get? id = some c)
    (hreplacer : replacer hashPassword s l.event = if replaces then some c.token else none)
    (hlogin : ∀ password token, l.event ≠ .login password token)
    (hlogout : ∀ t, l.event ≠ .logout (some t)) :
    Effect hashPassword s l ((if replaces then
      ({ s with now := l.now } : Panel).replacePassword hash c.token else { s with now := l.now }).leave
        id) := by
  cases replaces with
  | true =>
    exact .replaced id c hcall hreplacer rfl rfl
  | false =>
    exact .kept (kept_of_sessions (fun p t h => absurd h (hlogin p t)) hreplacer hlogout rfl rfl
      fun k c h => .inl (get?_leave h))

/-- A login grants a session or leaves all as it is. -/
theorem effect_login {now : ℚ} {password token : String} (htoken : token ≠ "") :
    Effect hashPassword s ⟨now, .login password token⟩
      (({ s with now } : Panel).login hashPassword password token) := by
  cases hknows : s.knows hashPassword password with
  | false =>
    have hsame : ({ s with now } : Panel).login hashPassword password token = { s with now } :=
      if_pos (congrArg (!·) hknows)
    rw [hsame]
    refine .kept (kept_of_sessions (fun p t he => ?_) rfl (by simp) rfl rfl fun _ _ hc => .inl hc)
    cases he
    exact hknows
  | true =>
    have hnot : (!({ s with now } : Panel).knows hashPassword password) = false :=
      congrArg (!·) hknows
    exact .granted password token rfl hknows htoken
      (if_neg (by rw [hnot]; exact Bool.false_ne_true))

theorem now_login (password token : String) : (s.login hashPassword password token).now = s.now := by
  unfold Panel.login
  split_ifs <;> rfl

theorem now_destroySession (cookie : Option String) : (s.destroySession cookie).now = s.now := by
  unfold Panel.destroySession
  cases cookie with
  | none => rfl
  | some t =>
    dsimp only
    split_ifs <;> rfl

/-- A logout removes the session of its cookie alone. -/
theorem kept_logout {now : ℚ} (cookie : Option String) :
    Kept hashPassword s ⟨now, .logout cookie⟩ (({ s with now } : Panel).destroySession cookie) := by
  have hcalls : ∀ k c, s.calls.get? k = some c → s.calls.get? k = some c ∨
      ∃ exp, s.sessions.get? c.token = some exp := fun _ _ h => .inl h
  unfold Panel.destroySession
  cases cookie with
  | none => exact kept_of_sessions (by simp) rfl (by simp) rfl rfl hcalls
  | some t =>
    dsimp only
    split_ifs with ht
    · -- no session is of the empty token
      refine ⟨by simp, rfl, rfl, fun _ => .inl rfl, fun t' hne he => ?_, hcalls⟩
      cases he
      exact absurd ht hne
    · refine ⟨by simp, rfl, rfl, fun t' => ?_, fun t' _ he => ?_, hcalls⟩
      · change (s.sessions.erase t).get? t' = _ ∨ (s.sessions.erase t).get? t' = none ∧ _
        rw [Dict.get?_erase]
        split_ifs with heq
        · exact .inr ⟨rfl, .inl (by rw [heq])⟩
        · exact .inl rfl
      · cases he
        exact Dict.get?_erase_self _ _

/-- **What a step does**: it grants a session, or replaces the password, or leaves what it does not
remove. -/
theorem step_effect (h : (machine hashPassword).step s l = some s') :
    s.now ≤ l.now ∧ s'.now = l.now ∧ Effect hashPassword s l s' := by
  unfold machine at h
  dsimp only at h
  split_ifs at h with hnow
  refine ⟨not_lt.1 hnow, ?_⟩
  obtain ⟨now, event⟩ := l
  cases event with
  | login password token =>
    dsimp only at h
    split_ifs at h with htoken
    cases h
    exact ⟨now_login password token, effect_login htoken⟩
  | logout cookie =>
    cases h
    exact ⟨now_destroySession cookie, .kept (kept_logout cookie)⟩
  | request cookie =>
    cases h
    obtain ⟨hnow', -, hframe⟩ := isValidSession_frame { s with now } cookie
    exact ⟨hnow', .kept (kept_isValidSession cookie (by simp) rfl (by simp) fun k c hk =>
      .inl (by rwa [hframe] at hk))⟩
  | enter id e cookie =>
    dsimp only at h
    split_ifs at h with hid
    cases h
    exact ⟨now_enter id e cookie, .kept (kept_enter id e cookie rfl)⟩
  | changePassword id current new =>
    obtain ⟨c, hc, rfl⟩ := Option.map_eq_some_iff.1 h
    have hc' : s.call? id .changePassword = some c := hc
    have hreplacer : replacer hashPassword s (.changePassword id current new) =
        if s.knows hashPassword current && 4 ≤ new.length then some c.token else none := by
      simp only [replacer]
      rw [hc', Option.filter_some]
      split_ifs <;> rfl
    rw [changePassword_eq]
    exact ⟨by split_ifs <;> rfl, effect_leave (call?_eq_some hc') hreplacer (by simp) (by simp)⟩
  | restore id keepPassword newPwHash =>
    obtain ⟨c, hc, rfl⟩ := Option.map_eq_some_iff.1 h
    have hc' : s.call? id .backupImport = some c := hc
    have hreplacer : replacer hashPassword s (.restore id keepPassword newPwHash) =
        if !keepPassword && newPwHash.truthy then some c.token else none := by
      simp only [replacer]
      rw [hc', Option.filter_some]
      split_ifs <;> rfl
    unfold Panel.restore
    exact ⟨by split_ifs <;> rfl, effect_leave (call?_eq_some hc') hreplacer (by simp) (by simp)⟩
  | abandon id =>
    dsimp only at h
    split_ifs at h with hid
    cases h
    exact ⟨rfl, .kept (kept_of_sessions (by simp) rfl (by simp) rfl rfl fun k c hk =>
      .inl (get?_leave hk))⟩

/-! ### What a run keeps -/

/-- No session is of the empty token, and none lasts longer than a week. -/
structure Sound (s : Panel) : Prop where
  token_ne : ∀ t exp, s.sessions.get? t = some exp → t ≠ ""
  le : ∀ t exp, s.sessions.get? t = some exp → exp ≤ s.now + sessionTtl

theorem sound_start (now : ℚ) (passwordHash : Json) : Sound (.start now passwordHash) where
  token_ne _ _ h := by cases h
  le _ _ h := by cases h

theorem Kept.of_get? (h : Kept hashPassword s l s') {t : String} {exp : ℚ}
    (hget : s'.sessions.get? t = some exp) : s.sessions.get? t = some exp := by
  obtain hs | ⟨hs, -⟩ := h.sessions t <;> rw [hs] at hget
  · exact hget
  · cases hget

theorem get?_single {t t' : String} {e e' : ℚ}
    (h : (Dict.set ∅ t e : Dict String ℚ).get? t' = some e') : t = t' ∧ e = e' := by
  rw [Dict.get?_set] at h
  split_ifs at h with ht
  · exact ⟨ht, Option.some.inj h⟩
  · cases h

theorem sound_step (hs : Sound s) (h : (machine hashPassword).step s l = some s') : Sound s' := by
  obtain ⟨hnow, hnow', heffect⟩ := step_effect h
  cases heffect with
  | granted password token event knows token_ne eq =>
    subst eq
    constructor
    · intro t exp hget
      change (s.sessions.set token _).get? t = _ at hget
      rw [Dict.get?_set] at hget
      split_ifs at hget with ht
      · exact ht ▸ token_ne
      · exact hs.token_ne t exp hget
    · intro t exp hget
      change (s.sessions.set token _).get? t = _ at hget
      rw [Dict.get?_set] at hget
      split_ifs at hget with ht
      · exact (Option.some.inj hget).ge
      · exact (hs.le t exp hget).trans (by gcongr)
  | replaced id c call _ sessions _ =>
    constructor
    · intro t exp hget
      rw [sessions] at hget
      exact (get?_single hget).1 ▸ c.token_ne
    · intro t exp hget
      rw [sessions] at hget
      rw [hnow']
      exact (get?_single hget).2.ge
  | kept kept =>
    constructor
    · intro t exp hget
      exact hs.token_ne t exp (kept.of_get? hget)
    · intro t exp hget
      rw [hnow']
      exact (hs.le t exp (kept.of_get? hget)).trans (by gcongr)

/-- The session of a token lasts at least until `e`. -/
def Live (token : String) (e : ℚ) (s : Panel) : Prop :=
  ∃ exp, s.sessions.get? token = some exp ∧ e ≤ exp

/-- Where a call replaces the password, its token alone is granted a session. -/
theorem grants_iff_of_replacer {t : String} (h : replacer hashPassword s l.event = some t) :
    Grants hashPassword token s l ↔ t = token := by
  unfold Grants
  rw [h]
  refine ⟨?_, fun ht => .inr (congrArg some ht)⟩
  rintro (⟨password, hevent, -⟩ | ht)
  · rw [hevent] at h
    cases h
  · exact Option.some.inj ht

theorem Kept.not_grants (h : Kept hashPassword s l s') : ¬ Grants hashPassword token s l := by
  rintro (⟨password, hevent, hknows⟩ | hreplacer)
  · rw [h.not_login password token hevent] at hknows
    cases hknows
  · rw [h.not_replacer] at hreplacer
    cases hreplacer

theorem Kept.revokes_iff (h : Kept hashPassword s l s') :
    Revokes hashPassword token s l ↔ l.event = .logout (some token) := by
  refine ⟨?_, .inl⟩
  rintro (hlogout | ⟨t, -, hreplacer⟩)
  · exact hlogout
  · rw [h.not_replacer] at hreplacer
    cases hreplacer

/-- A step that neither grants nor replaces leaves a session that lasts, but for its logout. -/
theorem Kept.live_iff {e : ℚ} (h : Kept hashPassword s l s') (hs : Sound s) (he : l.now ≤ e) :
    Live token e s' ↔ Live token e s ∧ l.event ≠ .logout (some token) := by
  constructor
  · rintro ⟨exp, hget, hle⟩
    have hold := h.of_get? hget
    refine ⟨⟨exp, hold, hle⟩, fun hlogout => ?_⟩
    rw [h.logout token (hs.token_ne _ _ hold) hlogout] at hget
    cases hget
  · rintro ⟨⟨exp, hget, hle⟩, hlogout⟩
    obtain hs' | ⟨-, hlogout' | ⟨exp', hget', hexp⟩⟩ := h.sessions token
    · exact ⟨exp, hs'.trans hget, hle⟩
    · exact absurd hlogout' hlogout
    · -- it has not expired, since `e` has not come yet
      cases hget.symm.trans hget'
      exact absurd (hle.trans_lt hexp) (not_lt.2 he)

/-- **One step and the session of one token**, until a time that has not come yet. -/
theorem live_step_iff {e : ℚ} (hs : Sound s) (h : (machine hashPassword).step s l = some s')
    (he : s'.now ≤ e) :
    Live token e s' ↔ (Grants hashPassword token s l ∧ e ≤ l.now + sessionTtl) ∨
      Live token e s ∧ ¬ Revokes hashPassword token s l := by
  obtain ⟨hnow, hnow', heffect⟩ := step_effect h
  have hlate : ¬ e ≤ l.now + sessionTtl → ¬ Live token e s := by
    rintro hlt ⟨exp, hget, hle⟩
    exact hlt (hle.trans ((hs.le _ _ hget).trans (by gcongr)))
  cases heffect with
  | granted password t event knows token_ne eq =>
    have hrevokes : ¬ Revokes hashPassword token s l := by
      rintro (hlogout | ⟨_, -, hreplacer⟩)
      · rw [event] at hlogout
        cases hlogout
      · rw [event] at hreplacer
        cases hreplacer
    have hgrants : Grants hashPassword token s l ↔ t = token := by
      simp [Grants, event, replacer, knows]
    subst eq
    have hlive : Live token e
        { s with now := l.now, sessions := s.sessions.set t (l.now + sessionTtl) } ↔
        if t = token then e ≤ l.now + sessionTtl else Live token e s := by
      unfold Live
      rw [Dict.get?_set]
      split_ifs with ht
      · simp
      · rfl
    rw [hlive, hgrants]
    split_ifs with ht
    · refine ⟨fun h => .inl ⟨ht, h⟩, ?_⟩
      rintro (⟨-, h⟩ | ⟨h, -⟩)
      · exact h
      · exact by_contra fun hlt => hlate hlt h
    · simp [ht, hrevokes]
  | replaced id c call hreplacer sessions _ =>
    have hlive : Live token e s' ↔ c.token = token ∧ e ≤ l.now + sessionTtl := by
      unfold Live
      rw [sessions]
      constructor
      · rintro ⟨exp, hget, hle⟩
        obtain ⟨ht, rfl⟩ := get?_single hget
        exact ⟨ht, hle⟩
      · rintro ⟨rfl, hle⟩
        exact ⟨_, Dict.get?_set_self _ _ _, hle⟩
    rw [hlive, grants_iff_of_replacer hreplacer]
    refine ⟨.inl, ?_⟩
    rintro (h | ⟨h, hrevokes⟩)
    · exact h
    · -- the call is one of this token, which keeps its session
      have ht : c.token = token :=
        by_contra fun hne => hrevokes (.inr ⟨c.token, hne, hreplacer⟩)
      exact ⟨ht, by_contra fun hlt => hlate hlt h⟩
  | kept kept =>
    rw [kept.live_iff hs (hnow' ▸ he), kept.revokes_iff]
    simp [kept.not_grants]

end Step

/-- **Sessions are exact.**  In every run, with the calls that replace the password suspended
wherever they are, a token is valid at a time `now` exactly when some step granted it no longer than
a week before, and no step since revoked it. -/
theorem valid_iff_since (hashPassword : String → String) (t₀ : ℚ) (passwordHash : Json)
    (ls : List Label) (s : Panel)
    (hrun : (machine hashPassword).run (.start t₀ passwordHash) ls = some s) (token : String) (now : ℚ)
    (hnow : s.now ≤ now) :
    Valid s token now ↔ ∃ pre l post t u, ls = pre ++ l :: post ∧
      (machine hashPassword).run (.start t₀ passwordHash) pre = some t ∧
      (machine hashPassword).step t l = some u ∧
      (Grants hashPassword token t l ∧ now ≤ l.now + sessionTtl) ∧
      (machine hashPassword).Along (fun s l => ¬ Revokes hashPassword token s l) u post := by
  have hsound : Sound s := Machine.run_invariant (fun _ _ _ => sound_step) hrun
    (sound_start t₀ passwordHash)
  have hvalid : Valid s token now ↔ Live token now s := by
    refine isValidSession_fst.trans ⟨fun h => h.2, fun h => ⟨?_, h⟩⟩
    obtain ⟨exp, hget, -⟩ := h
    exact hsound.token_ne _ _ hget
  have hback : ∀ s l s', (machine hashPassword).step s l = some s' → s'.now ≤ now → s.now ≤ now := by
    intro s l s' h hle
    obtain ⟨hl, hl', -⟩ := step_effect h
    exact (hl.trans hl'.ge).trans hle
  have hnone : ¬ Live token now (.start t₀ passwordHash) := by
    rintro ⟨_, h, -⟩
    cases h
  rw [hvalid]
  exact Machine.held_iff_since (fun _ _ _ => sound_step) hback (fun _ _ _ => live_step_iff) hrun
    (sound_start t₀ passwordHash) hnow hnone

/-- A login, a change of the password by its session and a second login. -/
def sampleRun : List Label :=
  [⟨0, .login "123456" "T1"⟩, ⟨1, .enter 0 .changePassword (some "T1")⟩,
    ⟨2, .changePassword 0 "123456" "other"⟩, ⟨3, .login "other" "T2"⟩, ⟨4, .logout (some "T2")⟩]

theorem valid_iff_since_sampleRun : ∃ s,
    (machine id).run (.start 0 (.str "123456")) sampleRun = some s ∧
    (Valid s "T1" 100 ↔ ∃ pre l post t u, sampleRun = pre ++ l :: post ∧
      (machine id).run (.start 0 (.str "123456")) pre = some t ∧ (machine id).step t l = some u ∧
      (Grants id "T1" t l ∧ 100 ≤ l.now + sessionTtl) ∧
      (machine id).Along (fun s l => ¬ Revokes id "T1" s l) u post) := by
  have hrun : ((machine id).run (.start 0 (.str "123456")) sampleRun).map Panel.now = some 4 := by
    decide +kernel
  obtain ⟨s, hs, hnow⟩ := Option.map_eq_some_iff.1 hrun
  exact ⟨s, hs, valid_iff_since id 0 (.str "123456") sampleRun s hs "T1" 100
    (by rw [hnow]; norm_num)⟩

/-! ### Where authority comes from -/

/-- Some step of the run was a login with the password then in force, and was handed this token. -/
def Issued (hashPassword : String → String) (s₀ : Panel) (ls : List Label) (token : String) : Prop :=
  ∃ pre now password post t, ls = pre ++ ⟨now, .login password token⟩ :: post ∧
    (machine hashPassword).run s₀ pre = some t ∧ t.knows hashPassword password = true

section Authority

variable {hashPassword : String → String} {s₀ s s' : Panel} {ls : List Label} {l : Label}

theorem Issued.later {token : String} (h : Issued hashPassword s₀ ls token) :
    Issued hashPassword s₀ (ls ++ [l]) token := by
  obtain ⟨pre, now, password, post, t, rfl, ht, hknows⟩ := h
  exact ⟨pre, now, password, post ++ [l], t, by simp, ht, hknows⟩

/-- Sessions and calls are of tokens that were issued, and so is the token of whoever replaced the
password. -/
structure Authorized (hashPassword : String → String) (s₀ : Panel) (ls : List Label) (s : Panel) :
    Prop where
  run : (machine hashPassword).run s₀ ls = some s
  sessions : ∀ token exp, s.sessions.get? token = some exp → Issued hashPassword s₀ ls token
  calls : ∀ id c, s.calls.get? id = some c → Issued hashPassword s₀ ls c.token
  hash : s.passwordHash ≠ s₀.passwordHash → ∃ token, Issued hashPassword s₀ ls token

theorem Authorized.step (h : Authorized hashPassword s₀ ls s)
    (hstep : (machine hashPassword).step s l = some s') :
    Authorized hashPassword s₀ (ls ++ [l]) s' := by
  have hrun : (machine hashPassword).run s₀ (ls ++ [l]) = some s' :=
    Machine.run_append.2 ⟨s, h.run, Machine.run_cons.2 ⟨s', hstep, rfl⟩⟩
  obtain ⟨-, -, heffect⟩ := step_effect hstep
  cases heffect with
  | granted password token event knows token_ne eq =>
    subst eq
    refine ⟨hrun, fun t exp hget => ?_, fun id c hc => (h.calls id c hc).later,
      fun hne => (h.hash hne).imp fun _ => Issued.later⟩
    change (s.sessions.set token _).get? t = _ at hget
    rw [Dict.get?_set] at hget
    split_ifs at hget with ht
    · subst ht
      obtain ⟨now, event'⟩ := l
      cases event
      exact ⟨ls, now, password, [], s, rfl, h.run, knows⟩
    · exact (h.sessions t exp hget).later
  | replaced id c call _ sessions calls =>
    have hissued := (h.calls id c call).later (l := l)
    refine ⟨hrun, fun t exp hget => ?_, fun k c' hk => ?_, fun _ => ⟨c.token, hissued⟩⟩
    · rw [sessions] at hget
      exact (get?_single hget).1 ▸ hissued
    · rw [calls, Dict.get?_erase] at hk
      split_ifs at hk
      exact (h.calls k c' hk).later
  | kept kept =>
    refine ⟨hrun, fun t exp hget => (h.sessions t exp (kept.of_get? hget)).later, fun k c hk => ?_,
      fun hne => ?_⟩
    · obtain hk | ⟨exp, hget⟩ := kept.calls k c hk
      · exact (h.calls k c hk).later
      · exact (h.sessions c.token exp hget).later
    · rw [kept.hash] at hne
      exact (h.hash hne).imp fun _ => Issued.later

end Authority

/-- **Authority comes from logins.**  After every run, a token that is valid at any time, or that a
suspended call holds, was issued to a login with the password in force at that time; and the
password is no longer the first one only if somebody has logged in so. -/
theorem authority_from_login (hashPassword : String → String) (t₀ : ℚ) (passwordHash : Json)
    (ls : List Label) (s : Panel)
    (hrun : (machine hashPassword).run (.start t₀ passwordHash) ls = some s) :
    (∀ token now, Valid s token now →
      Issued hashPassword (.start t₀ passwordHash) ls token) ∧
    (∀ id c, s.calls.get? id = some c →
      Issued hashPassword (.start t₀ passwordHash) ls c.token) ∧
    (s.passwordHash ≠ passwordHash →
      ∃ token, Issued hashPassword (.start t₀ passwordHash) ls token) := by
  have h₀ : Authorized hashPassword (.start t₀ passwordHash) [] (.start t₀ passwordHash) :=
    ⟨rfl, fun _ _ h => (by cases h), fun _ _ h => (by cases h), fun h => absurd rfl h⟩
  have h : Authorized hashPassword (.start t₀ passwordHash) ls s :=
    Machine.run_history (fun _ _ _ _ _ h hs => h.step hs) hrun h₀
  refine ⟨fun token now hvalid => ?_, h.calls, h.hash⟩
  obtain ⟨-, exp, hget, -⟩ := isValidSession_fst.1 hvalid
  exact h.sessions token exp hget

/-- The run of a login, a change of the password and a second login. -/
theorem authority_from_login_sampleRun : ∃ s,
    (machine id).run (.start 0 (.str "123456")) sampleRun = some s ∧
    (∀ token now, Valid s token now → Issued id (.start 0 (.str "123456")) sampleRun token) ∧
    (∀ k c, s.calls.get? k = some c → Issued id (.start 0 (.str "123456")) sampleRun c.token) ∧
    (s.passwordHash ≠ .str "123456" →
      ∃ token, Issued id (.start 0 (.str "123456")) sampleRun token) := by
  obtain ⟨s, hs⟩ : ∃ s, (machine id).run (.start 0 (.str "123456")) sampleRun = some s :=
    Option.isSome_iff_exists.1 (by decide +kernel)
  exact ⟨s, hs, authority_from_login id 0 (.str "123456") sampleRun s hs⟩

end Auth

end RvgGateway
