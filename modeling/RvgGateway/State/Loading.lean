import RvgGateway.Lib.Machine
import RvgGateway.State.Persistence

/-!
# Does a failed load destroy data?

What the file holds is a set of *data*: its links, groups, node keys and nodes, its password hash and
its settings.  A process that starts with the file, and whose `load_state` raises, goes on to serve
requests and to save.

* `processMachine` : requests, which leave any memory behind, and saves.
* `Survives` : every save writes each datum of the file that no request has taken away.
* `Spared` : the condition on the file.
* `survives_iff_spared` : **a load that fails destroys nothing exactly when the file is spared.**
-/

namespace RvgGateway

namespace State

/-! ### The data of a file -/

/-- A datum: an entry of a table, the password hash or the settings. -/
inductive Datum where
  | link (uid : String) (v : Json)
  | sub (id : String) (v : Json)
  | nodeKey (id : String) (v : Json)
  | node (id : String) (v : Json)
  | password (v : Json)
  | settings (v : Json)

namespace Datum

/-- The stage that reads the datum. -/
def part : Datum → Part
  | link _ _ => .links
  | sub _ _ => .subs
  | nodeKey _ _ => .nodeKeys
  | node _ _ => .nodes
  | password _ => .password
  | settings _ => .settings

/-- The file holds the datum. -/
def In (data : Json) : Datum → Prop
  | link uid v => (data.getD "links" .null).get? uid = some v
  | sub id v => (data.getD "subs" .null).get? id = some v
  | nodeKey id v => (data.getD "node_keys" .null).get? id = some v
  | node id v => (data.getD "nodes" .null).get? id = some v
  | password v => data.get? "password_hash" = some v
  | settings v => data.get? "server_settings" = some v ∧ v.truthy = true

/-- The host of the settings is saved, unless it comes from `RVG_HOST`. -/
def HostWritten (env : Environment) (v : Json) (s : ServerSettings) : Prop :=
  env.rvgHost = "" → ∀ host, v.get? "host" = some host → host.truthy = true →
    s.host = Str.strip (env.str host)

/-- The TLS mode of the settings is saved, unless it comes from `RVG_TLS`. -/
def TlsWritten (env : Environment) (v : Json) (s : ServerSettings) : Prop :=
  env.rvgTls = "" → ∀ tls, v.get? "tls" = some tls → s.tls = tls.truthy

/-- The range of ports of the settings is saved, or at least not replaced by the default. -/
def RangeWritten (env : Environment) (v : Json) (s : ServerSettings) : Prop :=
  ∀ range, v.get? "port_range" = some range → range.truthy = true →
    match rangeField env range with
    | .range lo hi => s.portRange = (lo, hi)
    | _ => s.portRange ≠ (20000, 40000)

/-- The settings are saved; if they are no object, they are at least not replaced by the defaults. -/
def SettingsWritten (env : Environment) (v : Json) (s : ServerSettings) : Prop :=
  if v.isObj then HostWritten env v s ∧ TlsWritten env v s ∧ RangeWritten env v s
  else s ≠ (saveState (fresh env)).serverSettings

/-- A save writes the datum. -/
def Written (env : Environment) (file : StateFile) : Datum → Prop
  | link uid v => file.links.get? (.str uid) = some v
  | sub id v => file.subs.get? (.str id) = some v
  | nodeKey id v => file.nodeKeys.get? (.str id) = some v
  | node id v => ∃ n, normalizeNode env v = some n ∧ file.nodes.get? id = some n
  | password v => file.passwordHash = v
  | settings v => SettingsWritten env v file.serverSettings

/-- The datum is in memory: the next save writes it. -/
def Held (env : Environment) (m : Memory) (d : Datum) : Prop := d.Written env (saveState m)

end Datum

/-! ### Runs -/

/-- What happens in a process that has started. -/
inductive Event where
  /-- Requests and tasks leave this memory. -/
  | request (after : Memory)
  | save

/-- The process. -/
def processMachine : Machine Memory Event where
  step m
    | .request after => some after
    | .save => some m

/-- The event does not take the datum away. -/
def LeavesAlone (env : Environment) (d : Datum) (m : Memory) : Event → Prop
  | .request after => d.Held env m → d.Held env after
  | .save => True

/-- Every save of every run from `m` writes each datum of the file that no request of the run has
taken away. -/
def Survives (env : Environment) (data : Json) (m : Memory) : Prop :=
  ∀ (d : Datum), d.In data → ∀ (es : List Event) (m' : Memory),
    processMachine.run m es = some m' → processMachine.Along (LeavesAlone env d) m es →
      d.Written env (saveState m')

/-! ### The condition -/

/-- The stage of `load_state` runs to its end. -/
def partOk (env : Environment) (readable : Bool) (data : Json) : Part → Bool
  | .read => readable && data.isObj
  | .links => (data.getD "links" (.obj [])).updates
  | .subs => (data.getD "subs" (.obj [])).updates
  | .nodeKeys => (data.getD "node_keys" (.obj [])).updates
  | .nodes =>
    let nodes := orElse (data.getD "nodes" .null) (.obj [])
    nodes.isObj && nodes.dict.values.all fun n => (normalizeNode env n).isSome
  | .password => true
  | .settings =>
    let settings := orElse (data.getD "server_settings" .null) (.obj [])
    settings.isObj &&
      match rangeField env (settings.getD "port_range" .null) with
      | .raises => false
      | _ => true

/-- The position of the stage. -/
def Part.index : Part → ℕ
  | read => 0
  | links => 1
  | subs => 2
  | nodeKeys => 3
  | nodes => 4
  | password => 5
  | settings => 6

/-- The stage at which the file stops `load_state`. -/
def firstBad (env : Environment) (readable : Bool) (file : DataFile) : Option Part :=
  match file with
  | .absent => none
  | file => parts.find? fun p => !partOk env readable file.data p

/-- The memory of a process that started without a file. -/
def blank (env : Environment) : Memory :=
  { fresh env with links := (∅ : Json.Table).set (.str env.defaultUid) (defaultLink env) }

/-- `ensure_default_link` raises at the links that were read. -/
def StartStops (data : Json) : Prop :=
  anyDefault ((data.getD "links" (.obj [])).update ∅).1.values = none

/-- Where the load stops, the file holds no more than what a process has without a file; or the
process does not start. -/
def Spared (env : Environment) (readable : Bool) (file : DataFile) : Prop :=
  ∀ p, firstBad env readable file = some p →
    (p ≠ .read ∧ StartStops file.data) ∨
      ∀ d : Datum, p.index ≤ d.part.index → d.In file.data → d.Held env (blank env)

/-! ### Stages -/

section Stages

variable {env : Environment} {readable : Bool} {data : Json} {p : Part} {d : Datum} {m : Memory}

theorem loadNodes_ran (es : List (String × Json)) (nodes : Dict String Node) :
    (loadNodes env es nodes).2 = es.all fun e => (normalizeNode env e.2).isSome := by
  induction es generalizing nodes with
  | nil => rfl
  | cons e es ih =>
    cases hn : normalizeNode env e.2 with
    | none => simp [loadNodes, hn]
    | some n => simp [loadNodes, hn, ih]

/-- The memory does not decide whether a stage runs to its end. -/
theorem loadPart_ran (env : Environment) (readable : Bool) (data : Json) (p : Part) (m : Memory) :
    (loadPart env readable data p m).2 = partOk env readable data p := by
  cases p with
  | read => rfl
  | links => exact Json.update_ran _ _
  | subs => exact Json.update_ran _ _
  | nodeKeys => exact Json.update_ran _ _
  | nodes =>
    simp only [loadPart, partOk]
    split_ifs with hobj
    · simp [loadNodes_ran, hobj, Dict.values, List.all_map, Function.comp_def]
    · simp [hobj]
  | password => rfl
  | settings =>
    simp only [loadPart, partOk]
    split_ifs with hobj
    · rw [hobj, Bool.true_and]
      cases rangeField env ((orElse (data.getD "server_settings" .null) (.obj [])).getD
        "port_range" .null) <;> rfl
    · simp [hobj]

/-- A stage does not touch the data of the others. -/
theorem held_loadPart (h : p ≠ d.part) :
    d.Held env (loadPart env readable data p m).1 ↔ d.Held env m := by
  cases p with
  | read => rfl
  | links => cases d <;> first | rfl | exact absurd rfl h
  | subs => cases d <;> first | rfl | exact absurd rfl h
  | nodeKeys => cases d <;> first | rfl | exact absurd rfl h
  | password => cases d <;> first | rfl | exact absurd rfl h
  | nodes =>
    simp only [loadPart]
    split_ifs
    · cases d <;> first | rfl | exact absurd rfl h
    · rfl
  | settings =>
    simp only [loadPart]
    split_ifs
    · split <;> cases d <;> first | rfl | exact absurd rfl h
    · rfl

/-- An absent field reads as another default as long as nothing is looked up in it. -/
theorem getD_eq_of_get? {name id : String} {v : Json}
    (h : (data.getD name .null).get? id = some v) (default : Json) :
    data.getD name default = data.getD name .null := by
  unfold Json.getD at h ⊢
  cases hget : data.get? name with
  | none => rw [hget] at h; cases h
  | some w => rfl

theorem isObj_of_get? {v w : Json} {id : String} (h : v.get? id = some w) : v.isObj = true := by
  cases v with
  | obj pairs => rfl
  | _ => cases h

theorem truthy_of_get? {v w : Json} {id : String} (h : v.get? id = some w) : v.truthy = true := by
  cases v with
  | obj pairs =>
    cases pairs with
    | nil => cases h
    | cons e es => rfl
  | _ => cases h

theorem get?_loadNodes_ne {es : List (String × Json)} {id : String} (h : ∀ e ∈ es, e.1 ≠ id)
    (nodes : Dict String Node) : (loadNodes env es nodes).1.get? id = nodes.get? id := by
  induction es generalizing nodes with
  | nil => rfl
  | cons e es ih =>
    rw [loadNodes]
    split
    · rw [ih fun e' he' => h e' (List.mem_cons_of_mem _ he')]
      exact Dict.get?_set_ne _ _ (h e List.mem_cons_self)
    · rfl

/-- The nodes that the loop reads. -/
theorem get?_loadNodes {es : List (String × Json)} (hnodup : (es.map Prod.fst).Nodup)
    (hok : ∀ e ∈ es, (normalizeNode env e.2).isSome = true) {id : String} {v : Json}
    (hmem : (id, v) ∈ es) (nodes : Dict String Node) :
    (loadNodes env es nodes).1.get? id = normalizeNode env v := by
  induction es generalizing nodes with
  | nil => cases hmem
  | cons e es ih =>
    obtain ⟨hnot, hnodup'⟩ := List.nodup_cons.1 hnodup
    obtain ⟨n, hn⟩ := Option.isSome_iff_exists.1 (hok e List.mem_cons_self)
    have hok' := fun e' he' => hok e' (List.mem_cons_of_mem _ he')
    have hstep : loadNodes env (e :: es) nodes = loadNodes env es (nodes.set e.1 n) := by
      simp [loadNodes, hn]
    rw [hstep]
    rcases List.mem_cons.1 hmem with rfl | hmem
    · rw [hn, get?_loadNodes_ne (fun e' he' heq => hnot (List.mem_map.2 ⟨e', he', heq⟩))]
      exact Dict.get?_set_self _ _ _
    · exact ih hnodup' hok' hmem _

/-- A stage that runs to its end takes over its data. -/
theorem held_of_partOk (hok : partOk env readable data d.part = true) (hd : d.In data)
    (hne : d.part ≠ .settings) (m : Memory) :
    d.Held env (loadPart env readable data d.part m).1 := by
  cases d with
  | link uid v =>
    change ((data.getD "links" (.obj [])).update m.links).1.get? _ = _
    rw [getD_eq_of_get? hd]
    exact Json.get?_update hd _
  | sub id v =>
    change ((data.getD "subs" (.obj [])).update m.subs).1.get? _ = _
    rw [getD_eq_of_get? hd]
    exact Json.get?_update hd _
  | nodeKey id v =>
    change ((data.getD "node_keys" (.obj [])).update m.nodeKeys).1.get? _ = _
    rw [getD_eq_of_get? hd]
    exact Json.get?_update hd _
  | node id v =>
    have hnodes : orElse (data.getD "nodes" .null) (.obj []) = data.getD "nodes" .null :=
      if_pos (truthy_of_get? hd)
    have hobj := isObj_of_get? hd
    simp only [Datum.part, partOk, hnodes, hobj, Bool.true_and, List.all_eq_true, Dict.values,
      List.forall_mem_map] at hok
    have hmem := Dict.get?_eq_some.1 hd
    obtain ⟨n, hn⟩ := Option.isSome_iff_exists.1 (hok _ hmem)
    refine ⟨n, hn, ?_⟩
    simp only [Datum.part, loadPart, hnodes, hobj, if_true, saveState]
    rw [get?_loadNodes (data.getD "nodes" .null).dict.nodup hok hmem, hn]
  | password v =>
    change data.getD "password_hash" _ = v
    rw [Json.getD, show data.get? "password_hash" = some v from hd]
    rfl
  | settings v => exact absurd rfl hne

/-- A table that stops its stage holds nothing. -/
theorem not_in_of_bad {v : Json} {name id : String}
    (hbad : (data.getD name (.obj [])).updates = false) :
    (data.getD name .null).get? id ≠ some v := by
  intro hd
  rw [getD_eq_of_get? hd, Json.updates_of_get? hd] at hbad
  cases hbad

/-- Nodes that stop their stage include one that is never saved. -/
theorem exists_bad_node {v : Json} {id : String}
    (hbad : partOk env readable data .nodes = false) (hd : (Datum.node id v).In data) :
    ∃ id' v', (Datum.node id' v').In data ∧ ∀ m, ¬ (Datum.node id' v').Held env m := by
  have hnodes : orElse (data.getD "nodes" .null) (.obj []) = data.getD "nodes" .null :=
    if_pos (truthy_of_get? hd)
  simp only [partOk, hnodes, isObj_of_get? hd, Bool.true_and, List.all_eq_false, Dict.values,
    List.mem_map] at hbad
  obtain ⟨n, ⟨e, he, rfl⟩, hn⟩ := hbad
  refine ⟨e.1, e.2, Dict.get?_eq_some.2 he, fun m hheld => ?_⟩
  obtain ⟨node, hnode, -⟩ := hheld
  exact hn (by rw [hnode]; rfl)

/-- The settings are still those of a fresh process. -/
def FreshSettings (env : Environment) (m : Memory) : Prop :=
  (saveState m).serverSettings = (saveState (fresh env)).serverSettings

theorem freshSettings_loadPart (h : p ≠ .settings) (hm : FreshSettings env m) :
    FreshSettings env (loadPart env readable data p m).1 := by
  cases p with
  | nodes =>
    simp only [loadPart]
    split_ifs <;> exact hm
  | settings => exact absurd rfl h
  | _ => exact hm

/-- Settings that stop their stage do not survive it. -/
theorem not_held_settings {v : Json} (hbad : partOk env readable data .settings = false)
    (hd : (Datum.settings v).In data) (hm : FreshSettings env m) :
    ¬ (Datum.settings v).Held env m ∧
      ¬ (Datum.settings v).Held env (loadPart env readable data .settings m).1 := by
  obtain ⟨hget, htruthy⟩ := hd
  have hsettings : orElse (data.getD "server_settings" .null) (.obj []) = v := by
    rw [Json.getD, hget]
    exact if_pos htruthy
  simp only [partOk, hsettings] at hbad
  cases hobj : v.isObj with
  | false =>
    have hnot : ¬ (Datum.settings v).Held env m := by
      simp only [Datum.Held, Datum.Written, Datum.SettingsWritten, hobj]
      exact fun h => h hm
    refine ⟨hnot, ?_⟩
    simpa only [loadPart, hsettings, hobj, Bool.false_eq_true, if_false] using hnot
  | true =>
    rw [hobj, Bool.true_and] at hbad
    -- only a number out of range can have stopped the stage
    have hraises : rangeField env (v.getD "port_range" .null) = .raises := by
      cases hrange : rangeField env (v.getD "port_range" .null) with
      | raises => rfl
      | _ => rw [hrange] at hbad; cases hbad
    obtain ⟨range, hfield, hrange⟩ : ∃ range, v.get? "port_range" = some range ∧
        v.getD "port_range" .null = range := by
      cases hfield : v.get? "port_range" with
      | none => rw [Json.getD, hfield] at hraises; cases hraises
      | some range => exact ⟨range, rfl, by rw [Json.getD, hfield]; rfl⟩
    rw [hrange] at hraises
    have htrue : range.truthy = true := by
      cases range with
      | arr items =>
        cases items with
        | nil => cases hraises
        | cons => rfl
      | _ => cases hraises
    have hnot (m' : Memory) (hportRange : m'.portRange = (20000, 40000)) :
        ¬ (Datum.settings v).Held env m' := by
      simp only [Datum.Held, Datum.Written, Datum.SettingsWritten, hobj, if_true]
      rintro ⟨-, -, hwritten⟩
      have h := hwritten range hfield htrue
      rw [hraises] at h
      exact h hportRange
    have hportRange : m.portRange = (20000, 40000) := congrArg ServerSettings.portRange hm
    refine ⟨hnot m hportRange, hnot _ ?_⟩
    simp only [loadPart, hsettings, hobj, if_true, hrange, hraises]
    exact hportRange

end Stages

/-! ### The load -/

/-- The stages in front of a stage. -/
def before (p : Part) : List Part := parts.takeWhile (· ≠ p)

section Load

variable {env : Environment} {readable : Bool} {file : DataFile} {p : Part} {d : Datum}

theorem Part.index_injective : Function.Injective Part.index := by
  intro p q h
  cases p <;> cases q <;> first | rfl | exact absurd h (by decide)

theorem mem_before {q : Part} : q ∈ before p ↔ q.index < p.index := by
  cases p <;> cases q <;> decide

/-- Where the load stops: behind the stages in front of the first bad one, and inside that one. -/
theorem loadState_of_firstBad (h : firstBad env readable file = some p) (m : Memory) :
    loadState env readable file m =
        ((loadPart env readable file.data p
          (applyAll (loadPart env readable file.data) (before p) m)).1, false) ∧
      (∀ q ∈ before p, partOk env readable file.data q = true) ∧
      partOk env readable file.data p = false := by
  have hfind : parts.find? (fun q => !partOk env readable file.data q) = some p := by
    cases file with
    | absent => cases h
    | garbled => exact h
    | json data => exact h
  have hload : loadState env readable file m =
      runStages (loadPart env readable file.data) parts m := by
    cases file with
    | absent => cases h
    | garbled => rfl
    | json data => rfl
  obtain ⟨hp, as, bs, hsplit, has⟩ := List.find?_eq_some_iff_append.1 hfind
  have hpok : partOk env readable file.data p = false := by simpa using hp
  have hbefore : before p = as := by
    have hnodup : (as ++ p :: bs).Nodup := hsplit ▸ (by decide : parts.Nodup)
    have hne : ∀ a ∈ as, decide (a ≠ p) = true := by
      rintro a ha
      simpa using (List.nodup_append.1 hnodup).2.2 a ha p List.mem_cons_self
    rw [before, hsplit, List.takeWhile_append_of_pos hne]
    simp
  rw [hbefore]
  have hasok : ∀ a ∈ as, partOk env readable file.data a = true := by simpa using has
  refine ⟨?_, hasok, hpok⟩
  rw [hload, hsplit]
  exact runStages_stop (loadPart_ran env readable file.data) hasok hpok m

theorem loadState_of_not_firstBad (h : firstBad env readable file = none) (m : Memory) :
    (loadState env readable file m).2 = true := by
  have hrun (data : Json) (hnone : parts.find? (fun q => !partOk env readable data q) = none) :
      (runStages (loadPart env readable data) parts m).2 = true := by
    have hall : ∀ q ∈ parts, partOk env readable data q = true := by
      simpa using List.find?_eq_none.1 hnone
    rw [runStages_all (loadPart_ran env readable data) hall]
  cases file with
  | absent => rfl
  | garbled => exact hrun _ h
  | json data => exact hrun _ h

theorem links_loadPart {data : Json} {m : Memory} (h : p ≠ .links) :
    (loadPart env readable data p m).1.links = m.links := by
  cases p with
  | nodes => simp only [loadPart]; split_ifs <;> rfl
  | links => exact absurd rfl h
  | settings =>
    simp only [loadPart]
    split_ifs
    · split <;> rfl
    · rfl
  | _ => rfl

/-- The links that were read when the load stopped. -/
theorem links_stopped (data : Json) (hp : p ≠ .read) :
    (loadPart env readable data p
      (applyAll (loadPart env readable data) (before p) (fresh env))).1.links =
        ((data.getD "links" (.obj [])).update ∅).1 := by
  have hlinks (q : Part) (m : Memory) (hq : q ≠ .links) :
      (loadPart env readable data q m).1.links = m.links := links_loadPart hq
  cases p with
  | read => exact absurd rfl hp
  | links => rfl
  | subs => rfl
  | nodeKeys => rfl
  | nodes => rw [hlinks _ _ (by decide)]; rfl
  | password =>
    rw [hlinks _ _ (by decide)]
    exact hlinks .nodes _ (by decide)
  | settings =>
    rw [hlinks _ _ (by decide)]
    exact hlinks .nodes _ (by decide)

/-! ### The default link -/

theorem ensureDefaultLink_fresh (env : Environment) :
    ensureDefaultLink env (fresh env) = some (blank env, true) := rfl

/-- The default link takes nothing away … -/
theorem held_ensureDefaultLink {m m' : Memory} {b : Bool}
    (h : ensureDefaultLink env m = some (m', b)) (hd : d.Held env m) : d.Held env m' := by
  rw [ensureDefaultLink] at h
  cases hany : anyDefault m.links.values with
  | none => rw [hany] at h; cases h
  | some found =>
    rw [hany] at h
    cases found with
    | true => cases h; exact hd
    | false =>
      simp only at h
      split_ifs at h with hcontains
      · cases h; exact hd
      · cases h
        cases d with
        | link uid v =>
          change (m.links.set _ _).get? _ = _
          rw [Dict.get?_set_ne _ _ fun heq => ?_]
          · exact hd
          · exact hcontains (heq ▸ Option.isSome_iff_exists.2 ⟨v, hd⟩)
        | _ => exact hd

/-- … and adds at most a link. -/
theorem held_ensureDefaultLink_iff {m m' : Memory} {b : Bool}
    (h : ensureDefaultLink env m = some (m', b)) (hd : d.part ≠ .links) :
    d.Held env m' ↔ d.Held env m := by
  rw [ensureDefaultLink] at h
  cases hany : anyDefault m.links.values with
  | none => rw [hany] at h; cases h
  | some found =>
    rw [hany] at h
    cases found with
    | true => cases h; rfl
    | false =>
      simp only at h
      split_ifs at h
      · cases h; rfl
      · cases h
        cases d <;> first | rfl | exact absurd rfl hd

theorem held_blank_iff (hd : d.part ≠ .links) : d.Held env (blank env) ↔ d.Held env (fresh env) :=
  held_ensureDefaultLink_iff (ensureDefaultLink_fresh env) hd

/-- What was read before the load stopped is there. -/
theorem held_of_read (hbad : firstBad env readable file = some p)
    (hlt : d.part.index < p.index) (hd : d.In file.data) :
    d.Held env (loadState env readable file (fresh env)).1 := by
  obtain ⟨hload, hok, -⟩ := loadState_of_firstBad hbad (fresh env)
  have hmem : d.part ∈ before p := mem_before.2 hlt
  have hne : d.part ≠ .settings := fun heq => by
    rw [heq] at hlt
    cases p <;> exact absurd hlt (by decide)
  rw [hload]
  refine (held_loadPart fun heq => absurd hlt (by rw [heq]; exact lt_irrefl _)).2 ?_
  exact applyAll_reaches (P := fun m => d.Held env m) hmem (held_of_partOk (hok _ hmem) hd hne)
    (fun q hq m hm => (held_loadPart hq).2 hm) _

/-- What comes behind is as in a fresh process. -/
theorem held_unread_iff (hbad : firstBad env readable file = some p)
    (hlt : p.index < d.part.index) :
    d.Held env (loadState env readable file (fresh env)).1 ↔ d.Held env (fresh env) := by
  obtain ⟨hload, -, -⟩ := loadState_of_firstBad hbad (fresh env)
  rw [hload]
  rw [held_loadPart fun heq => absurd hlt (by rw [heq]; exact lt_irrefl _)]
  refine applyAll_keeps (P := fun m => d.Held env m ↔ d.Held env (fresh env)) ?_ Iff.rfl
  intro q hq m hm
  rw [held_loadPart fun heq => ?_, hm]
  have hq' := mem_before.1 hq
  rw [heq] at hq'
  omega

/-- When the stage that stopped has data in the file, one of them is lost. -/
theorem exists_lost (hbad : firstBad env readable file = some p) (heq : d.part = p)
    (hd : d.In file.data) :
    p ≠ .links ∧ ∃ d' : Datum, d'.part = p ∧ d'.In file.data ∧ ¬ d'.Held env (blank env) ∧
      ¬ d'.Held env (loadState env readable file (fresh env)).1 := by
  obtain ⟨hload, -, hpok⟩ := loadState_of_firstBad hbad (fresh env)
  rw [hload]
  subst heq
  cases d with
  | link uid v => exact absurd hd (not_in_of_bad hpok)
  | sub id v => exact absurd hd (not_in_of_bad hpok)
  | nodeKey id v => exact absurd hd (not_in_of_bad hpok)
  | node id v =>
    obtain ⟨id', v', hin, hnot⟩ := exists_bad_node hpok hd
    exact ⟨(by decide : Part.nodes ≠ .links), .node id' v', rfl, hin, hnot _, hnot _⟩
  | password v => cases hpok
  | settings v =>
    have hfresh : FreshSettings env (applyAll (loadPart env readable file.data)
        (before .settings) (fresh env)) := by
      refine applyAll_keeps (fun q hq m hm => freshSettings_loadPart (fun heq => ?_) hm) rfl
      exact absurd (mem_before.1 hq) (by rw [heq]; exact lt_irrefl _)
    exact ⟨(by decide : Part.settings ≠ .links), .settings v, rfl, hd,
      (not_held_settings hpok hd (show FreshSettings env (blank env) from rfl)).1,
      (not_held_settings hpok hd hfresh).2⟩

/-! ### Startup -/

/-- A file that stops the load stops the process exactly when the links that were read do. -/
theorem startup_eq_none_iff (hbad : firstBad env readable file = some p) :
    startup env readable file = none ↔ p ≠ .read ∧ StartStops file.data := by
  obtain ⟨hload, -, -⟩ := loadState_of_firstBad hbad (fresh env)
  rw [startup, hload]
  by_cases hp : p = .read
  · subst hp
    exact iff_of_false (by simp [before, parts, applyAll, loadPart, ensureDefaultLink_fresh])
      fun h => h.1 rfl
  · have hlinks : (loadPart env readable file.data p
        (applyAll (loadPart env readable file.data) (before p) (fresh env))).1.links = _ :=
      links_stopped file.data hp
    rw [StartStops, ← hlinks]
    simp only [ne_eq, hp, not_false_eq_true, true_and, Option.map_eq_none_iff]
    rw [ensureDefaultLink]
    split <;> rename_i hany
    · simp [hany]
    · simp [hany]
    · split_ifs <;> simp [hany]

/-- Of the data at and behind the stage that stopped, the process has what it has without a file. -/
theorem held_startup_iff (hbad : firstBad env readable file = some p) {m : Memory}
    (hm : startup env readable file = some m) (hlt : p.index < d.part.index) :
    d.Held env m ↔ d.Held env (blank env) := by
  obtain ⟨⟨m', b⟩, hensure, rfl⟩ := Option.map_eq_some_iff.1 hm
  by_cases hp : p = .read
  · subst hp
    obtain ⟨hload, -, -⟩ := loadState_of_firstBad hbad (fresh env)
    rw [hload] at hensure
    cases (hensure.symm.trans (ensureDefaultLink_fresh env) : some (m', b) = _)
    rfl
  · have hlinks : d.part ≠ .links := fun heq => by
      rw [heq] at hlt
      cases p <;> first | exact hp rfl | exact absurd hlt (by decide)
    rw [held_ensureDefaultLink_iff hensure hlinks, held_unread_iff hbad hlt, held_blank_iff hlinks]

theorem survives_iff_held {data : Json} {m : Memory} :
    Survives env data m ↔ ∀ d : Datum, d.In data → d.Held env m := by
  constructor
  · intro h d hd
    exact h d hd [] m rfl trivial
  · intro h d hd es
    have hm := h d hd
    clear h
    induction es generalizing m with
    | nil =>
      intro m' hrun _
      cases hrun
      exact hm
    | cons e es ih =>
      intro m' hrun halong
      obtain ⟨m₁, hstep, hrest⟩ := Machine.run_cons.1 hrun
      refine ih ?_ m' hrest (halong.2 m₁ hstep)
      cases e with
      | request after => cases hstep; exact halong.1 hm
      | save => cases hstep; exact hm

end Load

/-- **A load that fails destroys nothing that the file holds exactly when the file is spared:** where
it stops the load, the file holds no more than what a process has without a file, or the process does
not start. -/
theorem survives_iff_spared (env : Environment) (readable : Bool) (file : DataFile) :
    ((loadState env readable file (fresh env)).2 = false →
      ∀ m, startup env readable file = some m → Survives env file.data m) ↔
        Spared env readable file := by
  constructor
  · intro h p hbad
    cases hm : startup env readable file with
    | none => exact .inl ((startup_eq_none_iff hbad).1 hm)
    | some m =>
      right
      have hfailed := congrArg Prod.snd (loadState_of_firstBad hbad (fresh env)).1
      have hheld := survives_iff_held.1 (h hfailed m hm)
      intro d hle hd
      rcases hle.lt_or_eq with hlt | heq
      · exact (held_startup_iff hbad hm hlt).1 (hheld d hd)
      · -- the stage that stopped has lost a datum, and the default link does not bring it back
        obtain ⟨hlinks, d', hpart, hin, -, hlost⟩ :=
          exists_lost hbad (Part.index_injective heq.symm) hd
        obtain ⟨⟨m', b⟩, hensure, rfl⟩ := Option.map_eq_some_iff.1 hm
        refine absurd (hheld d' hin) ?_
        rwa [held_ensureDefaultLink_iff hensure (hpart ▸ hlinks)]
  · intro hspared hfailed m hm
    cases hbad : firstBad env readable file with
    | none => rw [loadState_of_not_firstBad hbad] at hfailed; cases hfailed
    | some p =>
      have hhold := (hspared p hbad).resolve_left fun hstops => by
        rw [(startup_eq_none_iff hbad).2 hstops] at hm
        cases hm
      refine survives_iff_held.2 fun d hd => ?_
      rcases lt_trichotomy d.part.index p.index with hlt | heq | hlt
      · obtain ⟨⟨m', b⟩, hensure, rfl⟩ := Option.map_eq_some_iff.1 hm
        exact held_ensureDefaultLink hensure (held_of_read hbad hlt hd)
      · obtain ⟨-, d', hpart, hin, hnot, -⟩ := exists_lost hbad (Part.index_injective heq) hd
        exact absurd (hhold d' (by rw [hpart]) hin) hnot
      · exact (held_startup_iff hbad hm hlt).2 (hhold d hlt.le hd)

/-! ### Examples -/

/-- A state file with a node that is no object. -/
def brokenNodes : Json :=
  .obj
    [("links", .obj []), ("subs", .obj []), ("node_keys", .obj []),
      ("nodes", .obj [("n1", .null)]), ("password_hash", .str "5e88")]

/-- A server without settings in its environment. -/
def plainServer : Environment where
  rvgHost := ""
  rvgTls := ""
  adminHash := "8d96"
  defaultUid := "00000000-0000-0000-0000-000000000000"
  now := "2025-01-01T00:00:00"
  repr _ := ""
  intOfStr _ := none

/-- **A node that cannot be read costs the panel its password.** -/
theorem broken_node_resets_password :
    ¬ ∀ (env : Environment) (readable : Bool) (file : DataFile),
      (loadState env readable file (fresh env)).2 = false →
        ∀ m, startup env readable file = some m → Survives env file.data m := by
  intro hall
  have hsurvives := hall plainServer true (.json brokenNodes) rfl _ rfl
  have hheld : (Datum.password (.str "5e88")).Held plainServer _ :=
    survives_iff_held.1 hsurvives _ rfl
  have hhash : Json.str "8d96" = Json.str "5e88" := hheld
  exact absurd (Json.str.inj hhash) (by decide)

end State

end RvgGateway
