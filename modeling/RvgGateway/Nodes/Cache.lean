import Mathlib.Algebra.Order.Ring.Rat
import RvgGateway.Lib.Lines
import RvgGateway.Nodes.Connect
import RvgGateway.Nodes.Subscription

/-!
# The cache of snapshots

`_fetch_node_snapshot` keeps the answers of the connected panels in `_NODE_CACHE` for eight seconds,
under a key made of the node and the parts that are shared with it.  While a request is on its way
the entry of its node can be changed or removed, and the cache cleared; every write that goes through
this panel to another one clears it.

* `cacheMachine` : requests for snapshots, their answers, and all that changes `NODES` or clears the
  cache, in any order.
* `cacheKey_injective` : the key tells nodes and parts apart, whatever the identifier of the node.
* `cached_iff_since` : **what the cache answers is the last answer of the same node to a request for
  the very same parts, not older than eight seconds, and nothing has cleared the cache since.**
* `shown_iff_since` : **the error that is shown for a node is what the last answer said that found
  the node there**; answers that come late do not bring a node back.
-/

namespace RvgGateway

namespace Nodes

open RvgGateway.State (Node Environment orElse)

/-- `NODE_CACHE_TTL`. -/
def nodeCacheTtl : ℚ := 8

/-- What `_fetch_node_snapshot` returns. -/
structure NodeData where
  online : Bool
  error : Option String
  lastSyncAt : Option String
  peerVersion : Json
  stats : Json
  links : Json
  subs : Json
  logs : Json

/-- What comes back from the other panel. -/
inductive SnapshotAnswer where
  /-- `_node_request` or `r.json()` raises; the text of the exception, or the name of its class. -/
  | raised (exc : String)
  | response (status : ℕ) (payload : Json)

/-- The answer for a node that shares nothing. -/
def NodeData.blank : NodeData :=
  ⟨true, none, none, .null, .obj [], .arr [], .arr [], .arr []⟩

/-- The answer for a node that cannot be reached. -/
def NodeData.failed (msg : String) : NodeData :=
  ⟨false, some msg, none, .null, .obj [], .arr [], .arr [], .arr []⟩

/-- The body of the `try`: the payload, or the message. -/
def SnapshotAnswer.payload : SnapshotAnswer → Except String Json
  | raised exc => .error (String.ofList (exc.toList.take 200))
  | response status payload =>
    if status = 401 then .error "کلید نود روی پنل مقابل ابطال شده است"
    else if status ≠ 200 then .error ("HTTP " ++ toString status)
    else .ok payload

/-- `data`. -/
def NodeData.ofPayload (nowIso : String) (payload : Json) : NodeData where
  online := true
  error := none
  lastSyncAt := some nowIso
  peerVersion := payload.getD "version" .null
  stats := orElse (payload.getD "stats" .null) (.obj [])
  links := orElse (payload.getD "links" .null) (.arr [])
  subs := orElse (payload.getD "subs" .null) (.arr [])
  logs := orElse (payload.getD "logs" .null) (.arr [])

/-- `cache_key`. -/
def cacheKey (nodeId : String) (parts : List Part) : String :=
  nodeId ++ "|" ++ String.intercalate "," (parts.map Part.name)

/-- An entry of `_NODE_CACHE`. -/
structure CacheEntry where
  /-- `at`. -/
  time : ℚ
  data : NodeData

/-- A call that waits for the other panel. -/
structure FetchCall where
  nodeId : String
  parts : List Part

/-- The state. -/
structure Fetcher where
  /-- `time.time()` at the last step. -/
  now : ℚ
  nodes : Dict String Node
  cache : Dict String CacheEntry
  calls : Dict ℕ FetchCall

/-- What happens. -/
inductive CacheEvent where
  /-- `_fetch_node_snapshot` is called. -/
  | fetch (id : ℕ) (nodeId : String) (node : Node) (fresh : Bool)
  /-- The other panel answers; `nowIso` is the time in the dashboard's format. -/
  | answered (id : ℕ) (answer : SnapshotAnswer) (nowIso : String)
  /-- `connect_node` ends, with the entry that it makes. -/
  | connect (nodeId : String) (node : Node)
  /-- `update_node` of a node that is there, with a body that does not raise. -/
  | update (nodeId : String) (env : Environment) (body : Json)
  | disconnect (nodeId : String)
  /-- A write to another panel has been carried out. -/
  | clear
  /-- `backup_import` with nodes; the loop over them may raise, and the cache is kept then. -/
  | restored (nodes : Dict String Node) (ran : Bool)

/-- An event and its time. -/
structure CacheLabel where
  now : ℚ
  event : CacheEvent

namespace Fetcher

variable (s : Fetcher)

/-- The cache has been asked: the data of an entry that is young enough. -/
def cached (nodeId : String) (parts : List Part) : Option NodeData :=
  match s.cache.get? (cacheKey nodeId parts) with
  | some entry => if s.now - entry.time < nodeCacheTtl then some entry.data else none
  | none => none

/-- `_fetch_node_snapshot` up to its request: what it returns at once, if anything. -/
def fetch (id : ℕ) (nodeId : String) (node : Node) (fresh : Bool) : Option NodeData × Fetcher :=
  let parts := sharedParts node
  match if fresh then none else s.cached nodeId parts with
  | some data => (some data, s)
  | none =>
    if parts = [] then (some .blank, s)
    else (none, { s with calls := s.calls.set id ⟨nodeId, parts⟩ })

/-- `_fetch_node_snapshot` from its answer on; a payload that is no object raises, like the last
`none`. -/
def answered (id : ℕ) (c : FetchCall) (answer : SnapshotAnswer) (nowIso : String) :
    Option NodeData × Fetcher :=
  let s := { s with calls := s.calls.erase id }
  match answer.payload with
  | .error msg =>
    (some (.failed msg),
      { s with nodes := s.nodes.modify c.nodeId fun n => { n with lastError := .str msg } })
  | .ok payload =>
    if !payload.isObj then
      -- raised inside the lock, behind the first two assignments if the node is there
      (none, { s with nodes := s.nodes.modify c.nodeId fun n =>
        { n with lastSyncAt := .str nowIso, lastError := .null } })
    else
      let data := NodeData.ofPayload nowIso payload
      (some data, { s with
        nodes := s.nodes.modify c.nodeId fun n =>
          { n with lastSyncAt := .str nowIso, lastError := .null, peerVersion := data.peerVersion }
        cache := s.cache.set (cacheKey c.nodeId c.parts) ⟨s.now, data⟩ })

end Fetcher

/-- The fetcher. -/
def cacheMachine : Machine Fetcher CacheLabel where
  step s l :=
    let s := { s with now := l.now }
    match l.event with
    | .fetch id nodeId node fresh =>
      if s.calls.contains id then none else some (s.fetch id nodeId node fresh).2
    | .answered id answer nowIso =>
      (s.calls.get? id).map fun c => (s.answered id c answer nowIso).2
    | .connect nodeId node => some { s with nodes := s.nodes.set nodeId node, cache := ∅ }
    | .update nodeId env body =>
      ((s.nodes.get? nodeId).bind (updateNode env body)).map fun node =>
        { s with nodes := s.nodes.set nodeId node, cache := ∅ }
    | .disconnect nodeId =>
      if s.nodes.contains nodeId then some { s with nodes := s.nodes.erase nodeId, cache := ∅ }
      else none
    | .clear => some { s with cache := ∅ }
    | .restored nodes ran => some { s with nodes, cache := if ran then ∅ else s.cache }

/-- A fetcher that has just been started. -/
def Fetcher.start (now : ℚ) : Fetcher := ⟨now, ∅, ∅, ∅⟩

/-! ### The key -/

theorem cut_last {c : Char} {a a' b b' : List Char} (hb : c ∉ b) (hb' : c ∉ b')
    (h : a ++ c :: b = a' ++ c :: b') : a = a' ∧ b = b' := by
  have hrev : b.reverse ++ c :: a.reverse = b'.reverse ++ c :: a'.reverse := by
    simpa using congrArg List.reverse h
  obtain ⟨hcut, hrest⟩ := Str.cut_append (c := c) (a := b.reverse) (by simpa using hb) a.reverse
  obtain ⟨hcut', hrest'⟩ := Str.cut_append (c := c) (a := b'.reverse) (by simpa using hb') a'.reverse
  rw [hrev, hcut'] at hcut
  rw [hrev, hrest'] at hrest
  exact ⟨(List.reverse_injective (List.cons.inj hrest).2).symm, (List.reverse_injective hcut).symm⟩

theorem Part.name_injective : Function.Injective Part.name := by
  intro p q h
  cases p <;> cases q <;> first | rfl | exact absurd h (by decide)

/-- The names of parts have neither separator in them. -/
theorem Part.name_chars (p : Part) :
    ',' ∉ p.name.toList ∧ '|' ∉ p.name.toList ∧ p.name.toList ≠ [] := by
  cases p <;> decide

/-- The parts in a key. -/
def partChars (parts : List Part) : List Char :=
  List.intercalate [','] (parts.map fun p => p.name.toList)

theorem toList_cacheKey (nodeId : String) (parts : List Part) :
    (cacheKey nodeId parts).toList = nodeId.toList ++ '|' :: partChars parts := by
  unfold cacheKey partChars
  rw [String.toList_append, String.toList_append, String.toList_intercalate, List.map_map,
    List.append_assoc]
  rfl

theorem partChars_cons_cons (p q : Part) (parts : List Part) :
    partChars (p :: q :: parts) = p.name.toList ++ ',' :: partChars (q :: parts) := by
  simp [partChars]

theorem not_mem_partChars (parts : List Part) : '|' ∉ partChars parts := by
  induction parts with
  | nil => simp [partChars]
  | cons p parts ih =>
    cases parts with
    | nil => simpa [partChars] using p.name_chars.2.1
    | cons q parts =>
      rw [partChars_cons_cons, List.mem_append, List.mem_cons]
      rintro (h | h | h)
      · exact p.name_chars.2.1 h
      · exact absurd h (by decide)
      · exact ih h

/-- Names without a comma can be read back from a list of them. -/
theorem partChars_injective : Function.Injective partChars := by
  have hsplit : ∀ p parts, (partChars (p :: parts)).splitOn ',' =
      (p :: parts).map fun q => q.name.toList := by
    intro p parts
    refine List.splitOn_intercalate ',' (fun l hl => ?_) (by simp)
    obtain ⟨q, -, rfl⟩ := List.mem_map.1 hl
    exact q.name_chars.1
  have hne : ∀ p parts, partChars (p :: parts) ≠ [] := by
    intro p parts
    cases parts with
    | nil => simpa [partChars] using p.name_chars.2.2
    | cons q parts =>
      rw [partChars_cons_cons]
      simp
  have hname : Function.Injective fun q : Part => q.name.toList :=
    fun _ _ h => Part.name_injective (String.toList_inj.1 h)
  intro parts parts' h
  cases parts with
  | nil =>
    cases parts' with
    | nil => rfl
    | cons p parts' => exact absurd h.symm (hne p parts')
  | cons p parts =>
    cases parts' with
    | nil => exact absurd h (hne p parts)
    | cons p' parts' =>
      have hmap := congrArg (List.splitOn ',') h
      rw [hsplit, hsplit] at hmap
      exact hname.list_map hmap

/-- **The key tells nodes and parts apart**, also where the identifier has separators in it. -/
theorem cacheKey_injective {nodeId nodeId' : String} {parts parts' : List Part}
    (h : cacheKey nodeId parts = cacheKey nodeId' parts') : nodeId = nodeId' ∧ parts = parts' := by
  have hchars := congrArg String.toList h
  rw [toList_cacheKey, toList_cacheKey] at hchars
  obtain ⟨hid, hparts⟩ := cut_last (not_mem_partChars parts) (not_mem_partChars parts') hchars
  exact ⟨String.toList_inj.1 hid, partChars_injective hparts⟩

/-! ### What a step does to an entry -/

/-- The call and the data of an answer that is kept. -/
def completion (s : Fetcher) : CacheEvent → Option (FetchCall × NodeData)
  | .answered id answer nowIso =>
    (s.calls.get? id).bind fun c =>
      match answer.payload with
      | .error _ => none
      | .ok payload => if payload.isObj then some (c, .ofPayload nowIso payload) else none
  | _ => none

/-- The event empties the cache. -/
def Clears : CacheEvent → Prop
  | .connect .. | .update .. | .disconnect _ => True
  | .clear => True
  | .restored _ ran => ran = true
  | _ => False

/-- A request touches neither the cache nor the nodes. -/
theorem fetch_frame (s : Fetcher) (id : ℕ) (nodeId : String) (node : Node) (fresh : Bool) :
    (s.fetch id nodeId node fresh).2.cache = s.cache ∧
      (s.fetch id nodeId node fresh).2.nodes = s.nodes := by
  unfold Fetcher.fetch
  dsimp only
  split
  · exact ⟨rfl, rfl⟩
  · split_ifs <;> exact ⟨rfl, rfl⟩

/-- **What a step does to the cache.** -/
theorem cache_step {s s' : Fetcher} {l : CacheLabel} (h : cacheMachine.step s l = some s') :
    completion s l.event = none ∧ Clears l.event ∧ s'.cache = ∅ ∨
      (∃ c d, completion s l.event = some (c, d) ∧ ¬ Clears l.event ∧
        s'.cache = s.cache.set (cacheKey c.nodeId c.parts) ⟨l.now, d⟩) ∨
      completion s l.event = none ∧ ¬ Clears l.event ∧ s'.cache = s.cache := by
  obtain ⟨now, event⟩ := l
  cases event with
  | fetch id nodeId node fresh =>
    unfold cacheMachine at h
    dsimp only at h
    split_ifs at h
    cases h
    exact .inr (.inr ⟨rfl, by simp [Clears], (fetch_frame _ id nodeId node fresh).1⟩)
  | answered id answer nowIso =>
    obtain ⟨c, hc, rfl⟩ := Option.map_eq_some_iff.1 h
    have hc' : s.calls.get? id = some c := hc
    refine .inr ?_
    unfold Fetcher.answered
    simp only [completion, hc', Option.bind_some, Clears, not_false_eq_true, true_and]
    cases answer.payload with
    | error msg => exact .inr ⟨rfl, rfl⟩
    | ok payload =>
      dsimp only
      by_cases hobj : payload.isObj = true
      · rw [if_pos hobj, if_neg (by simp [hobj])]
        exact .inl ⟨c, _, rfl, rfl⟩
      · rw [if_neg hobj, if_pos (by simpa using hobj)]
        exact .inr ⟨rfl, rfl⟩
  | connect nodeId node =>
    cases h
    exact .inl ⟨rfl, trivial, rfl⟩
  | update nodeId env body =>
    obtain ⟨node, -, rfl⟩ := Option.map_eq_some_iff.1 h
    exact .inl ⟨rfl, trivial, rfl⟩
  | disconnect nodeId =>
    unfold cacheMachine at h
    dsimp only at h
    split_ifs at h
    cases h
    exact .inl ⟨rfl, trivial, rfl⟩
  | clear =>
    cases h
    exact .inl ⟨rfl, trivial, rfl⟩
  | restored nodes ran =>
    cases h
    cases ran with
    | true => exact .inl ⟨rfl, rfl, rfl⟩
    | false => exact .inr (.inr ⟨rfl, by simp [Clears], rfl⟩)

/-! ### The properties -/

/-- The step keeps an answer of the node to a request for the parts. -/
def Keeps (nodeId : String) (parts : List Part) (d : NodeData) (s : Fetcher) (l : CacheLabel) :
    Prop :=
  completion s l.event = some (⟨nodeId, parts⟩, d)

/-- The step clears the cache or keeps another answer in the place of the first. -/
def Supersedes (nodeId : String) (parts : List Part) (s : Fetcher) (l : CacheLabel) : Prop :=
  Clears l.event ∨ ∃ d, Keeps nodeId parts d s l

/-- The cache holds an answer that is young enough at the time `now`. -/
def Holds (nodeId : String) (parts : List Part) (d : NodeData) (now : ℚ) (s : Fetcher) : Prop :=
  ∃ entry, s.cache.get? (cacheKey nodeId parts) = some entry ∧ now - entry.time < nodeCacheTtl ∧
    entry.data = d

theorem cached_eq_some {s : Fetcher} {nodeId : String} {parts : List Part} {d : NodeData} :
    s.cached nodeId parts = some d ↔ Holds nodeId parts d s.now s := by
  unfold Fetcher.cached Holds
  cases s.cache.get? (cacheKey nodeId parts) with
  | none => simp
  | some entry => simp

theorem holds_step_iff {nodeId : String} {parts : List Part} {d : NodeData} {now : ℚ}
    {s s' : Fetcher} {l : CacheLabel} (h : cacheMachine.step s l = some s') :
    Holds nodeId parts d now s' ↔
      (Keeps nodeId parts d s l ∧ now - l.now < nodeCacheTtl) ∨
        Holds nodeId parts d now s ∧ ¬ Supersedes nodeId parts s l := by
  obtain ⟨hcompletion, hclears, hcache⟩ | ⟨c, d', hcompletion, hclears, hcache⟩ |
    ⟨hcompletion, hclears, hcache⟩ := cache_step h
  · have hkeeps : ¬ Keeps nodeId parts d s l := by simp [Keeps, hcompletion]
    have hnone : ¬ Holds nodeId parts d now s' := by
      rintro ⟨entry, hget, -⟩
      rw [hcache] at hget
      cases hget
    simp [hnone, hkeeps, Supersedes, hclears]
  · by_cases hc : c = ⟨nodeId, parts⟩
    · -- an answer of this node for these parts takes the place
      subst hc
      have hsuper : Supersedes nodeId parts s l := .inr ⟨d', hcompletion⟩
      have hkeeps : Keeps nodeId parts d s l ↔ d' = d := by simp [Keeps, hcompletion]
      rw [hkeeps]
      constructor
      · rintro ⟨entry, hget, hnow, hd⟩
        rw [hcache, Dict.get?_set_self] at hget
        cases hget
        exact .inl ⟨hd, hnow⟩
      · rintro (⟨hd, hnow⟩ | ⟨-, hno⟩)
        · exact ⟨⟨l.now, d'⟩, by rw [hcache, Dict.get?_set_self], hnow, hd⟩
        · exact absurd hsuper hno
    · -- the entry of another key is written
      have hkey : cacheKey c.nodeId c.parts ≠ cacheKey nodeId parts := by
        intro heq
        obtain ⟨hid, hparts⟩ := cacheKey_injective heq
        obtain ⟨nodeId', parts'⟩ := c
        exact hc (by rw [show nodeId' = nodeId from hid, show parts' = parts from hparts])
      have hkeeps : ∀ d, ¬ Keeps nodeId parts d s l := by
        intro d hk
        unfold Keeps at hk
        rw [hcompletion] at hk
        cases hk
        exact hc rfl
      have hsuper : ¬ Supersedes nodeId parts s l := by
        rintro (hcl | ⟨d, hk⟩)
        · exact hclears hcl
        · exact hkeeps d hk
      simp only [Holds, hcache, Dict.get?_set_ne _ _ hkey, hkeeps d, hsuper, false_and, false_or,
        not_false_eq_true, and_true]
  · have hkeeps : ∀ d, ¬ Keeps nodeId parts d s l := by simp [Keeps, hcompletion]
    have hsuper : ¬ Supersedes nodeId parts s l := by
      rintro (hcl | ⟨d, hk⟩)
      · exact hclears hcl
      · exact hkeeps d hk
    simp only [Holds, hcache, hkeeps d, hsuper, false_and, false_or, not_false_eq_true, and_true]

/-- **The cache is exact.**  In every run, whatever requests are on their way when entries change and
the cache is cleared, a request at the time `now` for some parts of a node gets from the cache the
last answer of this node that was kept for exactly these parts, if it is younger than eight seconds
and nothing has cleared the cache since; and nothing else. -/
theorem cached_iff_since (t₀ : ℚ) (ls : List CacheLabel) (s : Fetcher)
    (hrun : cacheMachine.run (.start t₀) ls = some s) (nodeId : String) (parts : List Part)
    (now : ℚ) (d : NodeData) :
    ({ s with now } : Fetcher).cached nodeId parts = some d ↔ ∃ pre l post t u,
      ls = pre ++ l :: post ∧ cacheMachine.run (.start t₀) pre = some t ∧
      cacheMachine.step t l = some u ∧
      (Keeps nodeId parts d t l ∧ now - l.now < nodeCacheTtl) ∧
      cacheMachine.Along (fun s l => ¬ Supersedes nodeId parts s l) u post := by
  have hnone : ¬ Holds nodeId parts d now (.start t₀) := by
    rintro ⟨_, h, -⟩
    cases h
  rw [cached_eq_some]
  change Holds nodeId parts d now s ↔ _
  exact Machine.held_iff_since (I := fun _ => True) (J := fun _ => True)
    (Q := Holds nodeId parts d now) (fun _ _ _ _ _ => trivial) (fun _ _ _ _ _ => trivial)
    (fun _ _ _ _ h _ => holds_step_iff h) hrun trivial trivial hnone

/-- A request for the links of a node, and its answer. -/
def answeredRequest : List CacheLabel :=
  [⟨0, .connect "n" linksNode⟩, ⟨1, .fetch 0 "n" linksNode false⟩,
    ⟨2, .answered 0 (.response 200 (.obj [])) "2024-01-01"⟩]

theorem cached_iff_since_answeredRequest : ∃ s,
    cacheMachine.run (.start 0) answeredRequest = some s ∧
    (({ s with now := 9 } : Fetcher).cached "n" [.links] = some (.ofPayload "2024-01-01" (.obj [])) ↔
      ∃ pre l post t u, answeredRequest = pre ++ l :: post ∧
        cacheMachine.run (.start 0) pre = some t ∧ cacheMachine.step t l = some u ∧
        (Keeps "n" [.links] (.ofPayload "2024-01-01" (.obj [])) t l ∧ 9 - l.now < nodeCacheTtl) ∧
        cacheMachine.Along (fun s l => ¬ Supersedes "n" [.links] s l) u post) := by
  obtain ⟨s, hs⟩ : ∃ s, cacheMachine.run (.start 0) answeredRequest = some s :=
    Option.isSome_iff_exists.1 (by decide +kernel)
  exact ⟨s, hs, cached_iff_since 0 answeredRequest s hs "n" [.links] 9 _⟩

/-! ### What is shown of a node -/

/-- The node is there, and `last_error` is shown for it. -/
def Shows (nodeId : String) (lastError : Json) (s : Fetcher) : Prop :=
  ∃ n, s.nodes.get? nodeId = some n ∧ n.lastError = lastError

/-- What an answer says of its node. -/
def SnapshotAnswer.lastError (answer : SnapshotAnswer) : Json :=
  match answer.payload with
  | .error msg => .str msg
  | .ok _ => .null

/-- The event answers a request for the node. -/
def Answers (nodeId : String) (s : Fetcher) : CacheEvent → Prop
  | .answered id .. => ∃ c, s.calls.get? id = some c ∧ c.nodeId = nodeId
  | _ => False

/-- The step says this of the node: an answer that finds it there, or an entry that comes with it. -/
def Reports (nodeId : String) (lastError : Json) (s : Fetcher) (l : CacheLabel) : Prop :=
  match l.event with
  | .connect k node => k = nodeId ∧ node.lastError = lastError
  | .restored nodes _ => ∃ n, nodes.get? nodeId = some n ∧ n.lastError = lastError
  | .answered _ answer _ => Answers nodeId s l.event ∧ s.nodes.contains nodeId = true ∧
      answer.lastError = lastError
  | _ => False

/-- What was said of the node before does not count any more. -/
def Forgets (nodeId : String) (s : Fetcher) (l : CacheLabel) : Prop :=
  match l.event with
  | .connect k _ => k = nodeId
  | .disconnect k => k = nodeId
  | .restored .. => True
  | _ => Answers nodeId s l.event

theorem updateNode_lastError {env : Environment} {body : Json} {n n' : Node}
    (h : updateNode env body n = some n') : n'.lastError = n.lastError := by
  unfold updateNode at h
  split at h
  · cases h
  · cases h
    rfl

/-- An answer changes at most its node, and says how the request ended. -/
theorem nodes_answered (s : Fetcher) (id : ℕ) (c : FetchCall) (answer : SnapshotAnswer)
    (nowIso : String) : ∃ f : Node → Node, (∀ n, (f n).lastError = answer.lastError) ∧
      (s.answered id c answer nowIso).2.nodes = s.nodes.modify c.nodeId f := by
  unfold Fetcher.answered SnapshotAnswer.lastError
  cases answer.payload with
  | error msg => exact ⟨fun n => { n with lastError := .str msg }, fun _ => rfl, rfl⟩
  | ok payload =>
    dsimp only
    split_ifs
    · exact ⟨fun n => { n with lastSyncAt := .str nowIso, lastError := .null }, fun _ => rfl, rfl⟩
    · refine ⟨fun n => { n with
        lastSyncAt := .str nowIso, lastError := .null
        peerVersion := (NodeData.ofPayload nowIso payload).peerVersion }, fun _ => rfl, rfl⟩

/-- **What a step shows**: what it reports, or what was shown before, unless it makes it forgotten. -/
theorem shows_step_iff {nodeId : String} {lastError : Json} {s s' : Fetcher} {l : CacheLabel}
    (h : cacheMachine.step s l = some s') :
    Shows nodeId lastError s' ↔ Reports nodeId lastError s l ∨
      Shows nodeId lastError s ∧ ¬ Forgets nodeId s l := by
  obtain ⟨now, event⟩ := l
  cases event with
  | fetch id k node fresh =>
    unfold cacheMachine at h
    dsimp only at h
    split_ifs at h
    cases h
    unfold Shows
    rw [(fetch_frame _ id k node fresh).2]
    simp [Reports, Forgets, Answers]
  | answered id answer nowIso =>
    obtain ⟨c, hc, rfl⟩ := Option.map_eq_some_iff.1 h
    have hcall : s.calls.get? id = some c := hc
    have hanswers : Answers nodeId s (.answered id answer nowIso) ↔ c.nodeId = nodeId := by
      simp [Answers, hcall]
    obtain ⟨f, hf, hnodes⟩ := nodes_answered { s with now } id c answer nowIso
    unfold Shows Reports Forgets
    simp only [hnodes, hanswers, Dict.get?_modify]
    by_cases hid : nodeId = c.nodeId
    · subst hid
      cases hget : s.nodes.get? c.nodeId <;> simp [hf, hget, Dict.contains]
    · simp [hid, Ne.symm hid]
  | connect k node =>
    cases h
    unfold Shows Reports Forgets
    simp only [Dict.get?_set]
    split_ifs with hk <;> simp [hk]
  | update k env body =>
    obtain ⟨node, hnode, rfl⟩ := Option.map_eq_some_iff.1 h
    obtain ⟨n, hn, hupdate⟩ := Option.bind_eq_some_iff.1 hnode
    have hget : s.nodes.get? k = some n := hn
    unfold Shows Reports Forgets
    simp only [Dict.get?_set, Answers]
    split_ifs with hk
    · subst hk
      simp [hget, updateNode_lastError hupdate]
    · simp
  | disconnect k =>
    unfold cacheMachine at h
    dsimp only at h
    split_ifs at h
    cases h
    unfold Shows Reports Forgets
    simp only [Dict.get?_erase]
    split_ifs with hk <;> simp [hk]
  | clear =>
    cases h
    simp [Shows, Reports, Forgets, Answers]
  | restored nodes ran =>
    cases h
    simp [Shows, Reports, Forgets]

/-- **What is shown of a node is what was said last.**  Whatever requests are on their way when nodes
are connected, edited, removed and restored, an error is shown for a node exactly when the last
answer to a request for it said so and found it there, or its entry came with it, and since then the
node was not answered for, connected, removed or restored. -/
theorem shown_iff_since (t₀ : ℚ) (ls : List CacheLabel) (s : Fetcher)
    (hrun : cacheMachine.run (.start t₀) ls = some s) (nodeId : String) (lastError : Json) :
    Shows nodeId lastError s ↔ ∃ pre l post t u,
      ls = pre ++ l :: post ∧ cacheMachine.run (.start t₀) pre = some t ∧
      cacheMachine.step t l = some u ∧ Reports nodeId lastError t l ∧
      cacheMachine.Along (fun s l => ¬ Forgets nodeId s l) u post :=
  Machine.held_iff_since (I := fun _ => True) (J := fun _ => True) (Q := Shows nodeId lastError)
    (fun _ _ _ _ _ => trivial) (fun _ _ _ _ _ => trivial) (fun _ _ _ _ h _ => shows_step_iff h) hrun
    trivial trivial (by rintro ⟨n, h, -⟩; cases h)

/-- A node answers with an error, and is removed while the next request is on its way. -/
def removedNode : List CacheLabel :=
  [⟨0, .connect "n" linksNode⟩, ⟨1, .fetch 0 "n" linksNode false⟩,
    ⟨2, .answered 0 (.response 500 .null) "2024-01-01"⟩, ⟨3, .fetch 1 "n" linksNode false⟩,
    ⟨4, .disconnect "n"⟩, ⟨5, .answered 1 (.response 200 (.obj [])) "2024-01-02"⟩]

/-- The error is shown behind the first answer, and nothing behind the second one. -/
theorem shown_iff_since_removedNode :
    (∃ s, cacheMachine.run (.start 0) (removedNode.take 3) = some s ∧
      Shows "n" (.str "HTTP 500") s) ∧
    ∃ s, cacheMachine.run (.start 0) removedNode = some s ∧ ∀ e, ¬ Shows "n" e s := by
  constructor
  · obtain ⟨t, ht⟩ : ∃ t, cacheMachine.run (.start 0) (removedNode.take 2) = some t :=
      Option.isSome_iff_exists.1 (by decide +kernel)
    obtain ⟨s, hs⟩ : ∃ s, cacheMachine.run (.start 0) (removedNode.take 3) = some s :=
      Option.isSome_iff_exists.1 (by decide +kernel)
    refine ⟨s, hs, (shown_iff_since 0 _ s hs "n" _).2 ⟨removedNode.take 2, _, [], t, s, rfl, ht, ?_,
      ?_, trivial⟩⟩
    · obtain ⟨t', ht', hlast⟩ := Machine.run_append.1
        (show cacheMachine.run (.start 0) (removedNode.take 2 ++ [_]) = some s from hs)
      cases ht.symm.trans ht'
      obtain ⟨_, hstep, hnil⟩ := Machine.run_cons.1 hlast
      cases hnil
      exact hstep
    · cases ht
      exact ⟨⟨_, rfl, rfl⟩, rfl, rfl⟩
  · obtain ⟨s, hs⟩ : ∃ s, cacheMachine.run (.start 0) removedNode = some s :=
      Option.isSome_iff_exists.1 (by decide +kernel)
    refine ⟨s, hs, fun e => ?_⟩
    rintro ⟨n, hn, -⟩
    cases hs
    cases hn

end Nodes

end RvgGateway
