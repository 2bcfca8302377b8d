import RvgGateway.Lib.Dict
import RvgGateway.Lib.Machine

/-!
# The Zeus proxy

`zeussocks5.py`: a SOCKS5 server that a request creates, and that a request or the end of its quota
deletes.  The handlers of its clients count themselves, per address and in all, against a limit per
address.  Creating and deleting suspend, and both clear the counts.

* `Tally` : the counts, with what a handler does to them.
* `machine` : the calls and the handlers, with one label for each step between suspensions.
* `Zeus.Sound` : the server that listens is the one in `_server`, and the counts are right.
* `Orderly` : calls overlap only where it does no harm, and the counts are cleared between handlers.
* `sound_of_orderly` : **a run of such steps stays sound, and keeps to an unchanged limit.**

`Server.close` ends the listening and no handler.
-/

namespace RvgGateway

namespace Zeus

/-! ### The counts -/

/-- `_connections_by_ip` and `active_connections`. -/
structure Tally where
  connectionsByIp : Dict String ℕ
  activeConnections : ℕ
  deriving DecidableEq

namespace Tally

/-- The counts after a reset. -/
def clear : Tally := ⟨∅, 0⟩

variable (t : Tally)

/-- `_connections_by_ip.get(ip, 0)`. -/
def of (ip : String) : ℕ := (t.connectionsByIp.get? ip).getD 0

/-- A handler begins. -/
def enter (ip : String) : Tally where
  connectionsByIp := t.connectionsByIp.set ip (t.of ip + 1)
  activeConnections := t.activeConnections + 1

/-- A handler ends; `max(0, …)` is the subtraction of natural numbers. -/
def leave (ip : String) : Tally where
  connectionsByIp :=
    let n := (t.connectionsByIp.get? ip).getD 1 - 1
    if n = 0 then t.connectionsByIp.erase ip else t.connectionsByIp.set ip n
  activeConnections := t.activeConnections - 1

/-- The counts are those of the handlers from these addresses. -/
structure Counts (handlers : List String) : Prop where
  byIp : ∀ ip, t.of ip = handlers.count ip
  active : t.activeConnections = handlers.length

variable {t} {handlers : List String}

theorem counts_clear : clear.Counts [] := ⟨fun _ => rfl, rfl⟩

theorem Counts.enter (h : t.Counts handlers) (ip : String) :
    (t.enter ip).Counts (ip :: handlers) where
  byIp := fun ip' => by
    rw [of, Tally.enter, Dict.get?_set]
    by_cases hip : ip = ip'
    · subst hip
      rw [if_pos rfl, Option.getD_some, h.byIp, List.count_cons_self]
    · rw [if_neg hip, List.count_cons_of_ne hip]
      exact h.byIp ip'
  active := by rw [Tally.enter, h.active, List.length_cons]

theorem Counts.leave (h : t.Counts handlers) {ip : String} (hip : ip ∈ handlers) :
    (t.leave ip).Counts (handlers.erase ip) where
  byIp := fun ip' => by
    have hcount : 0 < handlers.count ip := List.count_pos_iff.2 hip
    -- the handler is counted, so the default of the look-up plays no part
    have hget : t.connectionsByIp.get? ip = some (handlers.count ip) := by
      have hof := h.byIp ip
      unfold of at hof
      cases hg : t.connectionsByIp.get? ip with
      | none =>
        rw [hg, Option.getD_none] at hof
        omega
      | some n =>
        rw [hg, Option.getD_some] at hof
        rw [hof]
    simp only [of, Tally.leave, hget, Option.getD_some]
    by_cases hip' : ip = ip'
    · subst hip'
      rw [List.count_erase_self]
      split_ifs with hzero
      · rw [Dict.get?_erase_self, Option.getD_none, hzero]
      · rw [Dict.get?_set_self, Option.getD_some]
    · rw [List.count_erase_of_ne (Ne.symm hip'), ← h.byIp ip', of]
      split_ifs
      · rw [Dict.get?_erase_ne _ hip']
      · rw [Dict.get?_set_ne _ _ hip']
  active := by rw [Tally.leave, h.active, List.length_erase_of_mem hip]

end Tally

/-! ### The module -/

/-- `zeus_proxy_state["phase"]`. -/
inductive Phase where
  | idle
  | starting
  | done
  | error
  deriving DecidableEq

/-- What a call of `create_zeus_proxy` sets of the limit per address. -/
structure Config where
  maxConnectionsPerIp : Option ℤ
  deriving DecidableEq

/-- A call that is suspended. -/
inductive Call where
  /-- `delete_zeus_proxy` in `wait_closed`, called by itself or from `create_zeus_proxy`. -/
  | closing (create : Option Config)
  /-- `create_zeus_proxy` in `start_server`. -/
  | binding
  deriving DecidableEq

/-- The module and its tasks; servers are numbered. -/
structure Proxy where
  running : Bool
  phase : Phase
  /-- `_server`. -/
  server : Option ℕ
  /-- The servers that listen. -/
  listening : List ℕ
  /-- The number of servers started so far. -/
  servers : ℕ
  /-- `max_connections_per_ip`; zero is no limit. -/
  maxPerIp : ℕ
  tally : Tally
  /-- The addresses of the clients whose handler has not begun. -/
  arrived : List String
  /-- The addresses of the handlers that were admitted and run. -/
  handlers : List String
  /-- The calls that are suspended. -/
  calls : Dict ℕ Call
  deriving DecidableEq

/-- `DEFAULT_MAX_CONNECTIONS_PER_IP`. -/
def defaultMaxConnectionsPerIp : ℕ := 3

/-- A freshly imported module. -/
def Proxy.init : Proxy where
  running := false
  phase := .idle
  server := none
  listening := []
  servers := 0
  maxPerIp := defaultMaxConnectionsPerIp
  tally := .clear
  arrived := []
  handlers := []
  calls := ∅

/-- What happens. -/
inductive Label where
  /-- `create_zeus_proxy` is called; if it gets there now, it finds a port or not. -/
  | create (call : ℕ) (config : Config) (picked : Bool)
  /-- `delete_zeus_proxy` is called, by a request or by `_auto_delete`. -/
  | delete (call : ℕ)
  /-- `wait_closed` returns; in a `create_zeus_proxy` there is a port or not. -/
  | closed (call : ℕ) (picked : Bool)
  /-- `start_server` returns a server that listens, or raises. -/
  | bound (call : ℕ) (ok : Bool)
  /-- `update_zeus_config` is called. -/
  | config (config : Config)
  /-- A server accepts a client. -/
  | connect (server : ℕ) (ip : String)
  /-- `_handle_client` begins; the quota or the time may be used up. -/
  | handle (ip : String) (spent : Bool)
  /-- An admitted `_handle_client` ends. -/
  | finish (ip : String)
  deriving DecidableEq

namespace Proxy

variable (s : Proxy)

/-- The limit after `max(0, int(max_connections_per_ip))`. -/
def newLimit (config : Config) : ℕ :=
  match config.maxConnectionsPerIp with
  | some n => (max 0 n).toNat
  | none => s.maxPerIp

/-- `create_zeus_proxy` behind its deletion, up to its suspension. -/
def begin (call : ℕ) (config : Config) (picked : Bool) : Proxy :=
  let s := { s with maxPerIp := s.newLimit config, tally := .clear }
  if picked then { s with running := true, phase := .starting, calls := s.calls.set call .binding }
  else { s with running := false, phase := .error, calls := s.calls.erase call }

/-- The end of `delete_zeus_proxy`, and where `create_zeus_proxy` goes on behind it. -/
def deleted (call : ℕ) (picked : Bool) (create : Option Config) : Proxy :=
  let s := { s with server := none, running := false, phase := .idle, tally := .clear }
  match create with
  | none => { s with calls := s.calls.erase call }
  | some config => s.begin call config picked

/-- `delete_zeus_proxy`, up to its suspension. -/
def delete (call : ℕ) (picked : Bool) (create : Option Config) : Proxy :=
  match s.server with
  | some server =>
    { s with
      listening := s.listening.erase server
      calls := s.calls.set call (.closing create) }
  | none => s.deleted call picked create

/-- `create_zeus_proxy`, up to its suspension. -/
def create (call : ℕ) (config : Config) (picked : Bool) : Proxy :=
  if s.running && s.phase = .done then s.delete call picked (some config)
  else s.begin call config picked

/-- `create_zeus_proxy` behind `start_server`. -/
def bound (call : ℕ) (ok : Bool) : Proxy :=
  if ok then
    { s with
      server := some s.servers
      listening := s.servers :: s.listening
      servers := s.servers + 1
      running := true
      phase := .done
      calls := s.calls.erase call }
  else { s with running := false, phase := .error, calls := s.calls.erase call }

/-- `_handle_client`, up to the end of its checks. -/
def handle (ip : String) (spent : Bool) : Proxy :=
  let s := { s with arrived := s.arrived.erase ip }
  if spent then s
  else if s.maxPerIp ≠ 0 ∧ s.maxPerIp ≤ s.tally.of ip then s
  else { s with tally := s.tally.enter ip, handlers := ip :: s.handlers }

end Proxy

/-- The steps of the module, in any order. -/
def machine : Machine Proxy Label where
  step s
    | .create call config picked =>
      if s.calls.contains call then none else some (s.create call config picked)
    | .delete call => if s.calls.contains call then none else some (s.delete call false none)
    | .closed call picked =>
      match s.calls.get? call with
      | some (.closing create) => some (s.deleted call picked create)
      | _ => none
    | .bound call ok =>
      match s.calls.get? call with
      | some .binding => some (s.bound call ok)
      | _ => none
    | .config config => some { s with maxPerIp := s.newLimit config }
    | .connect server ip =>
      if server ∈ s.listening then some { s with arrived := ip :: s.arrived } else none
    | .handle ip spent => if ip ∈ s.arrived then some (s.handle ip spent) else none
    | .finish ip =>
      if ip ∈ s.handlers then
        some { s with tally := s.tally.leave ip, handlers := s.handlers.erase ip }
      else none

/-! ### What a step does -/

/-- A step, by what it does. -/
inductive ProxyTurn (s : Proxy) : Label → Proxy → Prop
  | creates {call : ℕ} (config : Config) (picked : Bool) :
    ProxyTurn s (.create call config picked) (s.create call config picked)
  | deletes {call : ℕ} : ProxyTurn s (.delete call) (s.delete call false none)
  | closed {call : ℕ} {create : Option Config} (picked : Bool)
    (hcall : s.calls.get? call = some (.closing create)) :
    ProxyTurn s (.closed call picked) (s.deleted call picked create)
  | bound {call : ℕ} (ok : Bool) (hcall : s.calls.get? call = some .binding) :
    ProxyTurn s (.bound call ok) (s.bound call ok)
  | configures (config : Config) :
    ProxyTurn s (.config config) { s with maxPerIp := s.newLimit config }
  | arrives {server : ℕ} {ip : String} :
    ProxyTurn s (.connect server ip) { s with arrived := ip :: s.arrived }
  | handles (ip : String) (spent : Bool) : ProxyTurn s (.handle ip spent) (s.handle ip spent)
  | finishes {ip : String} (hip : ip ∈ s.handlers) :
    ProxyTurn s (.finish ip) { s with tally := s.tally.leave ip, handlers := s.handlers.erase ip }

theorem proxy_turn {s s' : Proxy} {l : Label} (h : machine.step s l = some s') :
    ProxyTurn s l s' := by
  cases l with
  | create call config picked =>
    simp only [machine] at h
    split_ifs at h
    cases h
    exact .creates config picked
  | delete call =>
    simp only [machine] at h
    split_ifs at h
    cases h
    exact .deletes
  | closed call picked =>
    simp only [machine] at h
    split at h <;> cases h
    exact .closed picked ‹_›
  | bound call ok =>
    simp only [machine] at h
    split at h <;> cases h
    exact .bound ok ‹_›
  | config config =>
    cases h
    exact .configures config
  | connect server ip =>
    simp only [machine] at h
    split_ifs at h
    cases h
    exact .arrives
  | handle ip spent =>
    simp only [machine] at h
    split_ifs at h
    cases h
    exact .handles ip spent
  | finish ip =>
    simp only [machine] at h
    split_ifs at h with hip
    cases h
    exact .finishes hip

/-! ### The property and the condition -/

/-- What the module promises of its state. -/
structure Proxy.Sound (s : Proxy) : Prop where
  /-- A server that listens is the one in `_server`. -/
  held : ∀ server ∈ s.listening, s.server = some server
  counts : s.tally.Counts s.handlers

/-- No address has more handlers than the limit. -/
def Proxy.WithinLimit (s : Proxy) : Prop := s.maxPerIp ≠ 0 → ∀ ip, s.handlers.count ip ≤ s.maxPerIp

/-- The step clears the counts. -/
def Clears (s : Proxy) : Label → Prop
  | .create _ _ _ => (s.running && s.phase = .done) = false ∨ s.server = none
  | .delete _ => s.server = none
  | .closed _ _ => True
  | _ => False

/-- The call is a `create_zeus_proxy` in its deletion. -/
def Call.recreating : Call → Bool
  | .closing create => create.isSome
  | .binding => false

/-- The call begins while no other call is in its way: a creation only alone, a deletion at any time
but within the deletion that a creation makes. -/
def Unhindered (s : Proxy) : Label → Prop
  | .create _ _ _ => s.calls = ∅
  | .delete _ => ∀ call c, s.calls.get? call = some c → c.recreating = false
  | _ => True

/-- No call begins in the way of another one, and the counts are cleared when no handler runs. -/
def Orderly (s : Proxy) (l : Label) : Prop := Unhindered s l ∧ (Clears s l → s.handlers = [])

/-- The step leaves the limit as it is. -/
def SameLimit (s : Proxy) (l : Label) : Prop :=
  ∀ s', machine.step s l = some s' → s'.maxPerIp = s.maxPerIp

instance (s : Proxy) : (l : Label) → Decidable (Clears s l)
  | .create _ _ _ =>
    inferInstanceAs (Decidable ((s.running && s.phase = .done) = false ∨ s.server = none))
  | .delete _ => inferInstanceAs (Decidable (s.server = none))
  | .closed _ _ => .isTrue trivial
  | .bound _ _ => .isFalse id
  | .config _ => .isFalse id
  | .connect _ _ => .isFalse id
  | .handle _ _ => .isFalse id
  | .finish _ => .isFalse id

instance (s : Proxy) : (l : Label) → Decidable (Unhindered s l)
  | .create _ _ _ => inferInstanceAs (Decidable (s.calls = ∅))
  | .delete _ =>
    decidable_of_iff (∀ e ∈ s.calls.entries, e.2.recreating = false)
      ⟨fun h call c hget => h (call, c) (Dict.get?_eq_some.1 hget),
        fun h e he => h e.1 e.2 (Dict.get?_eq_some.2 he)⟩
  | .closed _ _ => .isTrue trivial
  | .bound _ _ => .isTrue trivial
  | .config _ => .isTrue trivial
  | .connect _ _ => .isTrue trivial
  | .handle _ _ => .isTrue trivial
  | .finish _ => .isTrue trivial

instance (s : Proxy) (l : Label) : Decidable (Orderly s l) :=
  inferInstanceAs (Decidable (Unhindered s l ∧ (Clears s l → s.handlers = [])))

instance (s : Proxy) (l : Label) : Decidable (SameLimit s l) :=
  decidable_of_iff (∀ s' ∈ machine.step s l, s'.maxPerIp = s.maxPerIp) Iff.rfl

/-! ### The servers -/

/-- The call is one of `create_zeus_proxy`. -/
def Call.creating : Call → Bool
  | .closing create => create.isSome
  | .binding => true

namespace Proxy

/-- What the calls keep to. -/
structure Inv (s : Proxy) : Prop where
  /-- No other server listens than the one in `_server`. -/
  held : s.listening = [] ∨ ∃ server, s.listening = [server] ∧ s.server = some server
  /-- There is a server only in the state that `create_zeus_proxy` deletes. -/
  up : ∀ server, s.server = some server → s.running = true ∧ s.phase = .done
  /-- While a deletion is suspended, nothing listens. -/
  closed : ∀ call create, s.calls.get? call = some (.closing create) → s.listening = []
  /-- While a creation waits for its server, there is none. -/
  unbound : ∀ call, s.calls.get? call = some .binding → s.server = none
  /-- A creation is the only call. -/
  alone : ∀ call c, s.calls.get? call = some c → c.creating = true →
    ∀ call' c', s.calls.get? call' = some c' → call' = call

variable {s : Proxy} {call : ℕ}

theorem inv_init : Proxy.init.Inv where
  held := .inl rfl
  up := fun _ h => by cases h
  closed := fun _ _ h => by cases h
  unbound := fun _ h => by cases h
  alone := fun _ _ h => by cases h

theorem Inv.silent (h : s.Inv) (hserver : s.server = none) : s.listening = [] := by
  refine h.held.resolve_right ?_
  rintro ⟨server, -, hsome⟩
  rw [hserver] at hsome
  cases hsome

/-- `create_zeus_proxy` goes on where no server is left and no other call is suspended. -/
theorem inv_begin (hserver : s.server = none) (hlisten : s.listening = [])
    (honly : ∀ call' c, s.calls.get? call' = some c → call' = call) (config : Config)
    (picked : Bool) : (s.begin call config picked).Inv := by
  cases picked with
  | true =>
    have hcalls : ∀ call' c, (s.calls.set call .binding).get? call' = some c →
        call' = call ∧ c = .binding := by
      intro call' c hget
      rw [Dict.get?_set] at hget
      split_ifs at hget with heq
      · exact ⟨heq.symm, (Option.some.inj hget).symm⟩
      · exact absurd (honly call' c hget).symm heq
    refine ⟨.inl hlisten, fun server hsome => ?_, fun _ _ _ => hlisten, fun _ _ => hserver,
      fun call₁ c₁ h₁ _ call₂ c₂ h₂ => ?_⟩
    · cases hserver.symm.trans hsome
    · rw [(hcalls call₁ c₁ h₁).1, (hcalls call₂ c₂ h₂).1]
  | false =>
    have hcalls : ∀ call' c, (s.calls.erase call).get? call' ≠ some c := by
      intro call' c hget
      rw [Dict.get?_erase] at hget
      split_ifs at hget with heq
      exact heq (honly call' c hget).symm
    exact ⟨.inl hlisten, fun server hsome => (by cases hserver.symm.trans hsome),
      fun _ _ _ => hlisten, fun _ _ => hserver,
      fun call₁ c₁ h₁ => absurd h₁ (hcalls call₁ c₁)⟩

/-- A call ends and leaves no server behind. -/
theorem Inv.leave (h : s.Inv) (hlisten : s.listening = []) {s' : Proxy} (hserver : s'.server = none)
    (hlisten' : s'.listening = s.listening) (hcalls : s'.calls = s.calls.erase call) : s'.Inv := by
  have hback : ∀ call' c, s'.calls.get? call' = some c → s.calls.get? call' = some c := by
    intro call' c hget
    rw [hcalls, Dict.get?_erase] at hget
    split_ifs at hget
    exact hget
  have hnil : s'.listening = [] := hlisten'.trans hlisten
  exact ⟨.inl hnil, fun server hsome => (by cases hserver.symm.trans hsome), fun _ _ _ => hnil,
    fun _ _ => hserver, fun call₁ c₁ h₁ hc call₂ c₂ h₂ =>
      h.alone call₁ c₁ (hback call₁ c₁ h₁) hc call₂ c₂ (hback call₂ c₂ h₂)⟩

theorem Inv.deleted (h : s.Inv) (hlisten : s.listening = []) {create : Option Config}
    (honly : create.isSome = true → ∀ call' c, s.calls.get? call' = some c → call' = call)
    (picked : Bool) : (s.deleted call picked create).Inv := by
  cases create with
  | none => exact h.leave hlisten rfl rfl rfl
  | some config =>
    let s₀ : Proxy := { s with server := none, running := false, phase := .idle, tally := .clear }
    exact inv_begin (s := s₀) rfl hlisten (honly rfl) config picked

/-- `delete_zeus_proxy` is called. -/
theorem Inv.delete (h : s.Inv) {create : Option Config}
    (halone : s.server ≠ none → ∀ call' c, s.calls.get? call' = some c → c.creating = false)
    (honly : create.isSome = true → ∀ call' c, s.calls.get? call' = some c → call' = call)
    (picked : Bool) : (s.delete call picked create).Inv := by
  unfold Proxy.delete
  cases hserver : s.server with
  | none => exact h.deleted (h.silent hserver) honly picked
  | some server =>
    have halone' := halone (by rw [hserver]; exact Option.some_ne_none server)
    have hlisten : s.listening.erase server = [] := by
      cases h.held with
      | inl hnil => rw [hnil, List.erase_nil]
      | inr hone =>
        obtain ⟨server', hlisten, hsome⟩ := hone
        cases hserver.symm.trans hsome
        rw [hlisten, List.erase_cons_head]
    have hcalls : ∀ call' c, (s.calls.set call (.closing create)).get? call' = some c →
        call' = call ∧ c = .closing create ∨ s.calls.get? call' = some c := by
      intro call' c hget
      rw [Dict.get?_set] at hget
      split_ifs at hget with heq
      · exact .inl ⟨heq.symm, (Option.some.inj hget).symm⟩
      · exact .inr hget
    refine ⟨.inl hlisten, fun server' hsome => h.up server' (hserver.trans hsome),
      fun _ _ _ => hlisten, fun call' hget => ?_, fun call₁ c₁ h₁ hc call₂ c₂ h₂ => ?_⟩
    · cases hcalls call' .binding hget with
      | inl hnew => cases hnew.2
      | inr hold => cases halone' call' _ hold
    · cases hcalls call₁ c₁ h₁ with
      | inr hold =>
        rw [halone' call₁ c₁ hold] at hc
        cases hc
      | inl hnew =>
        obtain ⟨rfl, rfl⟩ := hnew
        cases hcalls call₂ c₂ h₂ with
        | inl hnew' => exact hnew'.1
        | inr hold' => exact honly hc call₂ c₂ hold'

theorem Inv.create (h : s.Inv) (hnone : s.calls = ∅) (config : Config) (picked : Bool) :
    (s.create call config picked).Inv := by
  have hcalls : ∀ call' c, s.calls.get? call' ≠ some c := by
    intro call' c hget
    rw [hnone] at hget
    cases hget
  unfold Proxy.create
  split_ifs with hdone
  · exact h.delete (fun _ call' c hget => absurd hget (hcalls call' c))
      (fun _ call' c hget => absurd hget (hcalls call' c)) picked
  · have hserver : s.server = none := by
      cases hsome : s.server with
      | none => rfl
      | some server =>
        obtain ⟨hrunning, hphase⟩ := h.up server hsome
        exact absurd (by simp [hrunning, hphase]) hdone
    exact inv_begin hserver (h.silent hserver) (fun call' c hget => absurd hget (hcalls call' c))
      config picked

theorem Inv.bound (h : s.Inv) (hcall : s.calls.get? call = some .binding) (ok : Bool) :
    (s.bound call ok).Inv := by
  have hserver := h.unbound call hcall
  have hlisten := h.silent hserver
  have hcalls : ∀ call' c, (s.calls.erase call).get? call' ≠ some c := by
    intro call' c hget
    rw [Dict.get?_erase] at hget
    split_ifs at hget with heq
    exact heq (h.alone call _ hcall rfl call' c hget).symm
  cases ok with
  | false => exact h.leave hlisten hserver rfl rfl
  | true =>
    exact ⟨.inr ⟨s.servers, congrArg (s.servers :: ·) hlisten, rfl⟩, fun _ _ => ⟨rfl, rfl⟩,
      fun call' c hget => absurd hget (hcalls call' _),
      fun call' hget => absurd hget (hcalls call' _), fun call' c hget => absurd hget (hcalls call' c)⟩

/-- A handler does not touch the servers and the calls. -/
theorem handle_frame (ip : String) (spent : Bool) :
    (s.handle ip spent).listening = s.listening ∧ (s.handle ip spent).server = s.server ∧
      (s.handle ip spent).running = s.running ∧ (s.handle ip spent).phase = s.phase ∧
      (s.handle ip spent).calls = s.calls ∧ (s.handle ip spent).maxPerIp = s.maxPerIp := by
  unfold Proxy.handle
  simp only
  split_ifs <;> exact ⟨rfl, rfl, rfl, rfl, rfl, rfl⟩

theorem Inv.handle (h : s.Inv) (ip : String) (spent : Bool) : (s.handle ip spent).Inv := by
  obtain ⟨hlisten, hserver, hrunning, hphase, hcalls, -⟩ := handle_frame (s := s) ip spent
  constructor
  · rw [hlisten, hserver]
    exact h.held
  · rw [hserver, hrunning, hphase]
    exact h.up
  · rw [hcalls, hlisten]
    exact h.closed
  · rw [hcalls, hserver]
    exact h.unbound
  · rw [hcalls]
    exact h.alone

theorem Inv.step (h : s.Inv) {l : Label} (hl : Unhindered s l) {s' : Proxy}
    (hstep : machine.step s l = some s') : s'.Inv := by
  cases proxy_turn hstep with
  | creates config picked => exact h.create hl config picked
  | deletes =>
    refine h.delete (fun hserver call' c hget => ?_) (fun hsome => by cases hsome) false
    cases c with
    | binding => exact absurd (h.unbound call' hget) hserver
    | closing create => exact hl call' _ hget
  | closed picked hcall => exact h.deleted (h.closed _ _ hcall) (h.alone _ _ hcall) picked
  | bound ok hcall => exact h.bound hcall ok
  | handles ip spent => exact h.handle ip spent
  | configures | arrives | finishes => exact ⟨h.held, h.up, h.closed, h.unbound, h.alone⟩

/-! ### The counts of the module -/

@[simp] theorem begin_tally (config : Config) (picked : Bool) :
    (s.begin call config picked).tally = .clear := by
  cases picked <;> rfl

@[simp] theorem begin_handlers (config : Config) (picked : Bool) :
    (s.begin call config picked).handlers = s.handlers := by
  cases picked <;> rfl

@[simp] theorem deleted_tally (create : Option Config) (picked : Bool) :
    (s.deleted call picked create).tally = .clear := by
  cases create with
  | none => rfl
  | some config => exact begin_tally config picked

@[simp] theorem deleted_handlers (create : Option Config) (picked : Bool) :
    (s.deleted call picked create).handlers = s.handlers := by
  cases create with
  | none => rfl
  | some config => exact begin_handlers config picked

theorem counts_deleted (hnone : s.handlers = []) (create : Option Config) (picked : Bool) :
    (s.deleted call picked create).tally.Counts (s.deleted call picked create).handlers := by
  rw [deleted_tally, deleted_handlers, hnone]
  exact Tally.counts_clear

theorem counts_delete (h : s.tally.Counts s.handlers) (hnone : s.server = none → s.handlers = [])
    (create : Option Config) (picked : Bool) :
    (s.delete call picked create).tally.Counts (s.delete call picked create).handlers := by
  unfold Proxy.delete
  cases hserver : s.server with
  | none => exact counts_deleted (hnone hserver) create picked
  | some server => exact h

theorem counts_handle (h : s.tally.Counts s.handlers) (ip : String) (spent : Bool) :
    (s.handle ip spent).tally.Counts (s.handle ip spent).handlers := by
  unfold Proxy.handle
  simp only
  split_ifs
  · exact h
  · exact h
  · exact h.enter ip

/-- The counts stay right in every step that clears them only between handlers. -/
theorem counts_step (h : s.tally.Counts s.handlers) {l : Label} (hl : Clears s l → s.handlers = [])
    {s' : Proxy} (hstep : machine.step s l = some s') : s'.tally.Counts s'.handlers := by
  cases proxy_turn hstep with
  | creates config picked =>
    unfold Proxy.create
    split_ifs with hdone
    · exact counts_delete h (fun hserver => hl (.inr hserver)) _ picked
    · rw [begin_tally, begin_handlers, hl (.inl (by simpa using hdone))]
      exact Tally.counts_clear
  | deletes => exact counts_delete h hl _ false
  | closed picked hcall => exact counts_deleted (hl trivial) _ picked
  | bound ok hcall => cases ok <;> exact h
  | configures | arrives => exact h
  | handles ip spent => exact counts_handle h ip spent
  | finishes hip => exact h.leave hip

/-! ### The limit -/

@[simp] theorem delete_handlers (create : Option Config) (picked : Bool) :
    (s.delete call picked create).handlers = s.handlers := by
  unfold Proxy.delete
  split
  · rfl
  · exact deleted_handlers create picked

@[simp] theorem create_handlers (config : Config) (picked : Bool) :
    (s.create call config picked).handlers = s.handlers := by
  unfold Proxy.create
  split_ifs
  · exact delete_handlers _ picked
  · exact begin_handlers config picked

/-- A step admits a handler, or there are no more handlers from any address than before. -/
theorem handlers_step {l : Label} {s' : Proxy} (hstep : machine.step s l = some s') :
    (∃ ip, s'.handlers = ip :: s.handlers ∧ (s.maxPerIp ≠ 0 → s.tally.of ip < s.maxPerIp)) ∨
      ∀ ip, s'.handlers.count ip ≤ s.handlers.count ip := by
  cases proxy_turn hstep with
  | creates config picked => exact .inr fun ip => by rw [create_handlers]
  | deletes => exact .inr fun ip => by rw [delete_handlers]
  | closed picked hcall => exact .inr fun ip => by rw [deleted_handlers]
  | bound ok hcall =>
    refine .inr fun ip => ?_
    cases ok <;> exact le_refl _
  | configures | arrives => exact .inr fun ip => le_refl _
  | handles ip spent =>
    unfold Proxy.handle
    simp only
    split_ifs with hover hfull
    · exact .inr fun ip => le_refl _
    · exact .inr fun ip => le_refl _
    · exact .inl ⟨ip, rfl, fun hlimit => not_le.1 fun hle => hfull ⟨hlimit, hle⟩⟩
  | finishes hip => exact .inr fun ip' => List.erase_sublist.count_le ip'

theorem withinLimit_step (hcounts : s.tally.Counts s.handlers) (h : s.WithinLimit) {l : Label}
    (hl : SameLimit s l) {s' : Proxy} (hstep : machine.step s l = some s') : s'.WithinLimit := by
  intro hlimit ip
  rw [hl s' hstep] at hlimit ⊢
  cases handlers_step hstep with
  | inl hadmit =>
    obtain ⟨ip', hhandlers, hroom⟩ := hadmit
    rw [hhandlers]
    by_cases hip : ip' = ip
    · subst hip
      have hlt := hroom hlimit
      rw [hcounts.byIp] at hlt
      rw [List.count_cons_self]
      exact hlt
    · rw [List.count_cons_of_ne hip]
      exact h hlimit ip
  | inr hfewer => exact (hfewer ip).trans (h hlimit ip)

end Proxy

/-! ### Runs -/

theorem counts_run {ls : List Label} {s t : Proxy} (ht : t.tally.Counts t.handlers)
    (hord : machine.Along Orderly t ls) (hrun : machine.run t ls = some s) :
    s.tally.Counts s.handlers :=
  Machine.run_invariant_along (I := fun s => s.tally.Counts s.handlers)
    (fun _ _ _ h hl hstep => Proxy.counts_step h hl.2 hstep) hrun hord ht

/-- With right counts, a limit that does not change is kept. -/
theorem withinLimit_run {ls : List Label} {s t : Proxy} (ht : t.tally.Counts t.handlers)
    (hord : machine.Along Orderly t ls) (hrun : machine.run t ls = some s) (hwithin : t.WithinLimit)
    (hsame : machine.Along SameLimit t ls) : s.WithinLimit := by
  have hboth : s.tally.Counts s.handlers ∧ s.WithinLimit :=
    Machine.run_invariant_along (I := fun s => s.tally.Counts s.handlers ∧ s.WithinLimit)
      (fun _ _ _ h hl hstep => ⟨Proxy.counts_step h.1 hl.1.2 hstep,
        Proxy.withinLimit_step h.1 h.2 hl.2 hstep⟩) hrun (hord.and hsame) ⟨ht, hwithin⟩
  exact hboth.2

/-- The module stays sound in a run of orderly steps, and keeps to a limit that does not change. -/
theorem sound_of_orderly (ls : List Label) (hord : machine.Along Orderly .init ls) (s : Proxy)
    (hrun : machine.run .init ls = some s) :
    s.Sound ∧ ∀ ls₁ ls₂ t, ls = ls₁ ++ ls₂ → machine.run .init ls₁ = some t → t.WithinLimit →
      machine.Along SameLimit t ls₂ → s.WithinLimit := by
  have hinv : s.Inv := Machine.run_invariant_along (fun _ _ _ h hl hstep => h.step hl.1 hstep) hrun
    hord Proxy.inv_init
  refine ⟨⟨fun server hmem => ?_, counts_run Tally.counts_clear hord hrun⟩, ?_⟩
  · cases hinv.held with
    | inl hnil =>
      rw [hnil] at hmem
      cases hmem
    | inr hone =>
      obtain ⟨server', hlisten, hsome⟩ := hone
      rw [hlisten, List.mem_singleton] at hmem
      rw [hsome, hmem]
  · rintro ls₁ ls₂ t rfl ht hwithin hsame
    obtain ⟨hord₁, hord₂⟩ := (Machine.along_append ht).1 hord
    obtain ⟨t', ht', hrest⟩ := Machine.run_append.1 hrun
    cases ht.symm.trans ht'
    exact withinLimit_run (counts_run Tally.counts_clear hord₁ ht) hord₂ hrest hwithin hsame

/-- A proxy is created, serves a client and is deleted. -/
def servedClient : List Label :=
  [.create 0 ⟨none⟩ true, .bound 0 true, .connect 0 "198.51.100.1", .handle "198.51.100.1" false,
    .finish "198.51.100.1", .delete 1, .closed 1 true]

theorem sound_of_orderly_servedClient : ∃ s, machine.run .init servedClient = some s ∧ s.Sound ∧
    s.WithinLimit := by
  have h := sound_of_orderly servedClient (by decide +kernel) _ rfl
  refine ⟨_, rfl, h.1, h.2 [] servedClient .init rfl rfl (fun _ ip => ?_) (by decide +kernel)⟩
  exact Nat.zero_le _

/-- Two creations at once: the server of the first listens on, and nothing refers to it. -/
theorem overlapping_creations_leave_server :
    ¬ ∀ ls s, machine.run .init ls = some s → s.Sound := by
  intro h
  have hheld := (h [.create 0 ⟨none⟩ true, .create 1 ⟨none⟩ true, .bound 0 true, .bound 1 true] _
    rfl).held 0
  revert hheld
  decide

end Zeus

end RvgGateway
