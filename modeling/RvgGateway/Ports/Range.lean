import Mathlib.Order.Bounds.Defs
import RvgGateway.Ports.Distinct
import RvgGateway.State.HostDetection

/-!
# The range of automatic ports

`set_server_settings` stores a range `[lo, hi]` of ports and accepts `lo = hi`, so that both ends
belong to it; `find_free_port` walks over `range(lo, hi)` and never looks at `hi`.  It leaves out the
`listen_port`s of the links, but not the `mtproto_port` of a link whose proxy is not up.

* `Registries.findFreePort_eq_some_iff`, `Registries.findFreePort_eq_none_iff` : the search finds
  the least free port of the half-open range.
* `wholeRange_iff` : **an allocation uses the whole range exactly when the last port is not the only
  free one, and a free port comes before every port that the search takes for free and is not.**
-/

namespace RvgGateway

namespace Ports

/-! ### The ranges that can be set -/

/-- The ranges of ports that `set_server_settings` stores. -/
def AcceptedRange (range : ℤ × ℤ) : Prop := 1 ≤ range.1 ∧ range.1 ≤ range.2 ∧ range.2 ≤ 65535

/-- A request leaves the range as it is or stores one of these. -/
theorem setPortRange_accepted (env : State.Environment) (body : Json) (m : State.Memory) :
    (State.setPortRange env body m).1.portRange = m.portRange ∨
      AcceptedRange (State.setPortRange env body m).1.portRange := by
  unfold State.setPortRange
  split
  · rename_i lo hi _
    cases lo.toInt env.intOfStr with
    | overflow => exact .inl rfl
    | rejected => exact .inl rfl
    | ok lo =>
      cases hi.toInt env.intOfStr with
      | overflow => exact .inl rfl
      | rejected => exact .inl rfl
      | ok hi =>
        dsimp only
        split_ifs with hrange
        · exact .inr hrange
        · exact .inl rfl
  · exact .inl rfl

/-- Each of these can be stored. -/
theorem setPortRange_of_accepted (env : State.Environment) (m : State.Memory) {lo hi : ℤ}
    (h : AcceptedRange (lo, hi)) :
    State.setPortRange env (.obj [("port_range", .arr [.int lo, .int hi])]) m =
      ({ m with portRange := (lo, hi) }, none) := if_pos h

/-! ### The search -/

section Search

variable {osFree : ℤ → Bool} {r : Registries} {start stop p : ℤ} {exclude : List ℤ}

/-- What the search looks for. -/
def Registries.Passes (osFree : ℤ → Bool) (r : Registries) (exclude : List ℤ) (p : ℤ) : Prop :=
  p ∉ exclude ∧ r.portInUseByUs p = false ∧ osFree p = true

theorem Registries.passes_iff : r.Passes osFree exclude p ↔
    (!(exclude.contains p || r.portInUseByUs p) && osFree p) = true := by
  simp [Registries.Passes, and_assoc]

theorem Registries.findFreePort_eq :
    r.findFreePort osFree start stop exclude =
      ((List.range (stop - start).toNat).find? fun i : ℕ =>
        !(exclude.contains (start + (i : ℤ)) || r.portInUseByUs (start + (i : ℤ))) &&
          osFree (start + (i : ℤ))).map fun i : ℕ => start + (i : ℤ) := by
  have hports : (List.range (stop - start).toNat >>= fun i : ℕ => pure (i : ℤ)) =
      (List.range (stop - start).toNat).map fun i : ℕ => (i : ℤ) := List.flatMap_pure_eq_map _ _
  unfold Registries.findFreePort
  rw [hports, List.map_map, List.find?_map]
  rfl

/-- The search finds the least port of the half-open range that passes. -/
theorem Registries.findFreePort_eq_some_iff :
    r.findFreePort osFree start stop exclude = some p ↔
      IsLeast {q | start ≤ q ∧ q < stop ∧ r.Passes osFree exclude q} p := by
  rw [Registries.findFreePort_eq, Option.map_eq_some_iff]
  constructor
  · rintro ⟨i, hfind, rfl⟩
    obtain ⟨hpass, hmem, hbefore⟩ := List.find?_range_eq_some.1 hfind
    rw [List.mem_range] at hmem
    refine ⟨⟨by omega, by omega, Registries.passes_iff.2 hpass⟩, ?_⟩
    rintro q ⟨hstart, -, hq⟩
    by_contra hlt
    -- a smaller port would have been found before
    have hfound := hbefore (q - start).toNat (by omega)
    have hcast : start + ((q - start).toNat : ℤ) = q := by omega
    simp only [hcast] at hfound
    rw [Registries.passes_iff.1 hq] at hfound
    cases hfound
  · rintro ⟨⟨hstart, hstop, hp⟩, hleast⟩
    have hcast : start + ((p - start).toNat : ℤ) = p := by omega
    refine ⟨(p - start).toNat, List.find?_range_eq_some.2 ⟨?_, ?_, fun j hj => ?_⟩, hcast⟩
    · simp only [hcast]
      exact Registries.passes_iff.1 hp
    · rw [List.mem_range]
      omega
    · rw [Bool.not_eq_true']
      by_contra hpass
      have hq : r.Passes osFree exclude (start + (j : ℤ)) :=
        Registries.passes_iff.2 (Bool.of_not_eq_false hpass)
      have hle := hleast ⟨by omega, by omega, hq⟩
      omega

/-- The search finds nothing when no port of the half-open range passes. -/
theorem Registries.findFreePort_eq_none_iff :
    r.findFreePort osFree start stop exclude = none ↔
      ∀ q, start ≤ q → q < stop → ¬ r.Passes osFree exclude q := by
  rw [Registries.findFreePort_eq, Option.map_eq_none_iff, List.find?_range_eq_none]
  constructor
  · intro hnone q hstart hstop hq
    have hfound := hnone (q - start).toNat (by omega)
    have hcast : start + ((q - start).toNat : ℤ) = q := by omega
    simp only [hcast] at hfound
    rw [Registries.passes_iff.1 hq] at hfound
    cases hfound
  · intro hnone i hi
    rw [Bool.not_eq_true']
    by_contra hpass
    exact hnone (start + (i : ℤ)) (by omega) (by omega)
      (Registries.passes_iff.2 (Bool.of_not_eq_false hpass))

end Search

/-! ### The allocation -/

section Allocation

variable (h : Host) (s : Server) (osFree : ℤ → Bool)

/-- Nothing claims, holds or occupies the port. -/
structure Free (p : ℤ) : Prop where
  not_claimed : ∀ u d, s.links.get? u = some d → ¬ d.Claims p
  not_panel : p ≠ h.port
  not_held : s.ports.portInUseByUs p = false
  not_busy : osFree p = true

/-- The free ports of the configured range. -/
def freePorts : Set ℤ := {p | h.portRange.1 ≤ p ∧ p ≤ h.portRange.2 ∧ Free h s osFree p}

/-- An automatic allocation uses the whole range. -/
structure WholeRange (protocol core : String) : Prop where
  /-- It takes the least free port. -/
  least : ∀ p, allocateListenPort h s.panel osFree protocol .absent core = .ok p ↔
    IsLeast (freePorts h s osFree) p
  /-- It answers 503 when there is none. -/
  unavailable : (∃ detail,
      allocateListenPort h s.panel osFree protocol .absent core = .error (.error 503 detail)) ↔
    ¬ ∃ p, p ∈ freePorts h s osFree

/-- The port is kept for the proxy of a link. -/
def Proxied (s : Server) (p : ℤ) : Prop := ∃ u d, s.links.get? u = some d ∧ d.mtprotoPort = p

/-- The search takes the port for free: no link has it as `listen_port`, and it is not that of the
panel, not held and not busy. -/
structure Vacant (p : ℤ) : Prop where
  not_listened : ∀ u d, s.links.get? u = some d → d.listenPort ≠ p
  not_panel : p ≠ h.port
  not_held : s.ports.portInUseByUs p = false
  not_busy : osFree p = true

/-- The last port of the range is only free when a smaller one is, and so is every port below it that
is kept for a proxy and otherwise vacant. -/
structure SmallerFree : Prop where
  last : Free h s osFree h.portRange.2 →
    ∃ p, h.portRange.1 ≤ p ∧ p < h.portRange.2 ∧ Free h s osFree p
  proxied : ∀ q, h.portRange.1 ≤ q → q < h.portRange.2 → Vacant h s osFree q → Proxied s q →
    ∃ p, h.portRange.1 ≤ p ∧ p < q ∧ Free h s osFree p

variable {h s osFree}

theorem free_iff {p : ℤ} (h0 : p ≠ 0) :
    Free h s osFree p ↔ Vacant h s osFree p ∧ ¬ Proxied s p := by
  constructor
  · intro hfree
    refine ⟨⟨fun u d hd hp => hfree.not_claimed u d hd ⟨h0, .inl hp⟩, hfree.not_panel,
      hfree.not_held, hfree.not_busy⟩, ?_⟩
    rintro ⟨u, d, hd, hp⟩
    exact hfree.not_claimed u d hd ⟨h0, .inr hp⟩
  · rintro ⟨hvacant, hproxied⟩
    refine ⟨?_, hvacant.not_panel, hvacant.not_held, hvacant.not_busy⟩
    rintro u d hd ⟨-, hp | hp⟩
    · exact hvacant.not_listened u d hd hp
    · exact hproxied ⟨u, d, hd, hp⟩

theorem vacant_iff {p : ℤ} :
    Vacant h s osFree p ↔ s.ports.Passes osFree (usedPorts h s.panel) p := by
  have hheld : s.ports.portInUseByUs p = false ↔
      p ∉ s.ports.uvicornServers.keys ∧ p ∉ s.ports.tcpServers.keys := by
    rw [Registries.portInUseByUs, Bool.or_eq_false_iff, ← Bool.not_eq_true, ← Bool.not_eq_true,
      Dict.contains_iff, Dict.contains_iff]
  constructor
  · intro hvacant
    obtain ⟨huvi, htcp⟩ := hheld.1 hvacant.not_held
    refine ⟨?_, hvacant.not_held, hvacant.not_busy⟩
    unfold usedPorts
    simp only [List.mem_append, List.mem_singleton, not_or]
    refine ⟨⟨⟨fun hmem => ?_, huvi⟩, htcp⟩, hvacant.not_panel⟩
    obtain ⟨d, hd, hp⟩ := List.mem_map.1 hmem
    obtain ⟨⟨u, d'⟩, hentry, rfl⟩ := List.mem_map.1 hd
    have hget : (s.links.get? u).map ProxyLink.toLink = some d' :=
      (Dict.get?_mapValues _ s.links u).symm.trans (Dict.get?_eq_some.2 hentry)
    obtain ⟨e, he, rfl⟩ := Option.map_eq_some_iff.1 hget
    exact hvacant.not_listened u e he hp
  · rintro ⟨hnot, hheld, hbusy⟩
    have hlisten := (not_mem_usedPorts hnot).1
    refine ⟨fun u d hd => hlisten u _ (get?_panel hd), ?_, hheld, hbusy⟩
    rintro rfl
    exact hnot (by simp [usedPorts])

/-- A protocol that needs its own port gets what the search finds. -/
theorem allocateListenPort_needs_own (h : Host) (s : Panel) (osFree : ℤ → Bool)
    {protocol core : String} (hneeds : core ≠ "unicorn" ∨ protocol ∈ ownPortProtocols) :
    (∃ detail, s.ports.findFreePort osFree h.portRange.1 h.portRange.2 (usedPorts h s) = none ∧
        allocateListenPort h s osFree protocol .absent core = .error (.error 503 detail)) ∨
      ∃ p, s.ports.findFreePort osFree h.portRange.1 h.portRange.2 (usedPorts h s) = some p ∧
        allocateListenPort h s osFree protocol .absent core = .ok p := by
  have hown : (core ≠ "unicorn" || ownPortProtocols.contains protocol) = true := by
    simpa using hneeds
  unfold allocateListenPort
  simp only [hown, if_true]
  cases s.ports.findFreePort osFree h.portRange.1 h.portRange.2 (usedPorts h s) with
  | none => exact .inl ⟨_, rfl, rfl⟩
  | some p => exact .inr ⟨p, rfl, rfl⟩

/-- What an automatic allocation answers: the least vacant port below the last one, or 503. -/
theorem allocation_cases (s : Server) (osFree : ℤ → Bool) {protocol core : String}
    (hneeds : core ≠ "unicorn" ∨ protocol ∈ ownPortProtocols) :
    (∃ detail, (∀ q, h.portRange.1 ≤ q → q < h.portRange.2 → ¬ Vacant h s osFree q) ∧
        allocateListenPort h s.panel osFree protocol .absent core = .error (.error 503 detail)) ∨
      ∃ p, IsLeast {q | h.portRange.1 ≤ q ∧ q < h.portRange.2 ∧ Vacant h s osFree q} p ∧
        allocateListenPort h s.panel osFree protocol .absent core = .ok p := by
  simp only [vacant_iff]
  obtain ⟨detail, hfind, hreply⟩ | ⟨p, hfind, hreply⟩ :=
    allocateListenPort_needs_own h s.panel osFree hneeds
  · exact .inl ⟨detail, Registries.findFreePort_eq_none_iff.1 hfind, hreply⟩
  · exact .inr ⟨p, Registries.findFreePort_eq_some_iff.1 hfind, hreply⟩

/-- Every port of an accepted range is a port. -/
theorem AcceptedRange.ne_zero {p : ℤ} (hrange : AcceptedRange h.portRange)
    (hp : h.portRange.1 ≤ p) : p ≠ 0 := by
  have hlo := hrange.1
  omega

/-- A range that is used as a whole meets the condition. -/
theorem SmallerFree.of_wholeRange {protocol core : String}
    (hneeds : core ≠ "unicorn" ∨ protocol ∈ ownPortProtocols) (hrange : AcceptedRange h.portRange)
    (hwhole : WholeRange h s osFree protocol core) : SmallerFree h s osFree := by
  obtain ⟨detail, hnone, hreply⟩ | ⟨p, ⟨⟨hlo, hhi, hvacant⟩, hmin⟩, hreply⟩ :=
    allocation_cases (h := h) s osFree hneeds
  · refine ⟨fun hlast => ?_, fun q hlo hhi hvacant => absurd hvacant (hnone q hlo hhi)⟩
    exact absurd ⟨h.portRange.2, hrange.2.1, le_rfl, hlast⟩ (hwhole.unavailable.1 ⟨detail, hreply⟩)
  · have hfree : Free h s osFree p := ((hwhole.least p).1 hreply).1.2.2
    refine ⟨fun _ => ⟨p, hlo, hhi, hfree⟩, fun q hqlo hqhi hq hproxied => ⟨p, hlo, ?_, hfree⟩⟩
    -- the search stops at `q` at the latest, and `q` is not free
    refine lt_of_le_of_ne (hmin ⟨hqlo, hqhi, hq⟩) ?_
    rintro rfl
    exact ((free_iff (hrange.ne_zero hlo)).1 hfree).2 hproxied

/-- Under the condition the search finds the least free port of the whole range. -/
theorem SmallerFree.isLeast (hsmaller : SmallerFree h s osFree) (hrange : AcceptedRange h.portRange)
    {p : ℤ} (hp : IsLeast {q | h.portRange.1 ≤ q ∧ q < h.portRange.2 ∧ Vacant h s osFree q} p) :
    IsLeast (freePorts h s osFree) p := by
  obtain ⟨⟨hlo, hhi, hvacant⟩, hmin⟩ := hp
  have hbelow : ∀ q, h.portRange.1 ≤ q → Free h s osFree q → p ≤ q := by
    intro q hqlo hq
    rcases lt_or_ge q h.portRange.2 with hqhi | hqhi
    · exact hmin ⟨hqlo, hqhi, ((free_iff (hrange.ne_zero hqlo)).1 hq).1⟩
    · omega
  have hfree : Free h s osFree p := by
    refine (free_iff (hrange.ne_zero hlo)).2 ⟨hvacant, fun hproxied => ?_⟩
    obtain ⟨q, hqlo, hlt, hq⟩ := hsmaller.proxied p hlo hhi hvacant hproxied
    exact absurd (hbelow q hqlo hq) (not_le.2 hlt)
  exact ⟨⟨hlo, hhi.le, hfree⟩, fun q ⟨hqlo, _, hq⟩ => hbelow q hqlo hq⟩

/-- **An automatic allocation uses the whole range exactly when a smaller port is free wherever the
search goes wrong**: at the last port, which it leaves out, and at the ports of proxies, which it
hands out. -/
theorem wholeRange_iff (h : Host) (s : Server) (osFree : ℤ → Bool) (protocol core : String)
    (hneeds : core ≠ "unicorn" ∨ protocol ∈ ownPortProtocols) (hrange : AcceptedRange h.portRange) :
    WholeRange h s osFree protocol core ↔ SmallerFree h s osFree := by
  refine ⟨SmallerFree.of_wholeRange hneeds hrange, fun hsmaller => ?_⟩
  obtain ⟨detail, hnone, hreply⟩ | ⟨p, hp, hreply⟩ := allocation_cases (h := h) s osFree hneeds
  · have hempty : ¬ ∃ p, p ∈ freePorts h s osFree := by
      have hbelow : ∀ p, h.portRange.1 ≤ p → p < h.portRange.2 → ¬ Free h s osFree p :=
        fun p hlo hhi hfree => hnone p hlo hhi ((free_iff (hrange.ne_zero hlo)).1 hfree).1
      rintro ⟨p, hlo, hhi, hfree⟩
      rcases hhi.lt_or_eq with hlt | heq
      · exact hbelow p hlo hlt hfree
      · obtain ⟨q, hqlo, hqhi, hq⟩ := hsmaller.last (heq ▸ hfree)
        exact hbelow q hqlo hqhi hq
    refine ⟨fun p => ⟨fun hok => ?_, fun hp => absurd ⟨p, hp.1⟩ hempty⟩,
      fun _ => hempty, fun _ => ⟨detail, hreply⟩⟩
    rw [hreply] at hok
    cases hok
  · have hleast := hsmaller.isLeast hrange hp
    refine ⟨fun q => ⟨fun hok => ?_, fun hq => ?_⟩, fun ⟨detail, herror⟩ => ?_,
      fun hempty => absurd ⟨p, hleast.1⟩ hempty⟩
    · rw [hreply] at hok
      cases hok
      exact hleast
    · rw [hreply, hleast.unique hq]
    · rw [hreply] at herror
      cases herror

/-- A link on port 20000, the link of a proxy on port 20001 and one of a proxy that is not up. -/
def crowded : Server :=
  { Server.init with
    links :=
      (((∅ : Dict String ProxyLink).set "a" ⟨{ webSocketLink with listenPort := 20000 }, 0⟩).set
        "b" ⟨{ proxyLink with listenPort := 0 }, 20001⟩).set
        "c" ⟨{ proxyLink with listenPort := 0, active := false }, 20004⟩
    ports := ⟨∅, (∅ : Dict ℤ Unit).set 20000 ()⟩ }

/-- The ports of the links that are up are busy, and so is 20002. -/
def crowdedFree (p : ℤ) : Bool := [20000, 20001, 20002].all (· ≠ p)

/-- Port 20003 is the least free one of a range of which half is claimed or busy. -/
theorem wholeRange_iff_crowded :
    let h : Host := ⟨8000, (20000, 20005), true, fun _ => true⟩
    Free h crowded crowdedFree 20003 ∧ WholeRange h crowded crowdedFree "vmess-tcp" "unicorn" := by
  intro h
  have hfree : Free h crowded crowdedFree 20003 := by
    refine ⟨fun u d hd => ?_, by decide, by decide, by decide⟩
    have hnone : ∀ e ∈ crowded.links.entries, e.2.listenPort ≠ 20003 ∧ e.2.mtprotoPort ≠ 20003 := by
      decide
    obtain ⟨hlisten, hproxy⟩ := hnone (u, d) (Dict.get?_eq_some.1 hd)
    exact fun hclaims => hclaims.2.elim hlisten hproxy
  refine ⟨hfree, (wholeRange_iff h crowded crowdedFree _ _ (.inr (by decide))
    ⟨by decide, by decide, by decide⟩).2 ⟨fun _ => ⟨20003, by decide, by decide, hfree⟩, ?_⟩⟩
  rintro q hlo - hvacant ⟨u, d, hd, rfl⟩
  have hports : ∀ e ∈ crowded.links.entries, e.2.mtprotoPort = 0 ∨ e.2.mtprotoPort = 20001 ∨
      e.2.mtprotoPort = 20004 := by
    decide
  have hbusy := hvacant.not_busy
  rcases hports (u, d) (Dict.get?_eq_some.1 hd) with heq | heq | heq
  · exact absurd (heq ▸ hlo) (by decide)
  · exact absurd (heq ▸ hbusy) (by decide)
  · exact ⟨20003, by decide, heq ▸ (by decide), hfree⟩

/-- The port of the proxy that is not up is given to another link. -/
example : allocateListenPort ⟨8000, (20004, 20005), true, fun _ => true⟩ crowded.panel crowdedFree
    "vmess-tcp" .absent "unicorn" = .ok 20004 := rfl

/-- A range of one port, which is free, and the answer is 503. -/
theorem single_port_unavailable :
    let h : Host := ⟨8000, (20000, 20000), true, fun _ => true⟩
    AcceptedRange h.portRange ∧ Free h Server.init (fun _ => true) 20000 ∧
      ¬ WholeRange h Server.init (fun _ => true) "vmess-tcp" "unicorn" := by
  intro h
  have hrange : AcceptedRange h.portRange := ⟨by decide, by decide, by decide⟩
  have hfree : Free h Server.init (fun _ => true) 20000 :=
    ⟨fun _ _ hd => (by cases hd), by decide, rfl, rfl⟩
  refine ⟨hrange, hfree, fun hwhole => ?_⟩
  obtain ⟨p, hlo, hhi, -⟩ := (SmallerFree.of_wholeRange (.inr (by decide)) hrange hwhole).last hfree
  dsimp only [h] at hlo hhi
  omega

end Allocation

end Ports

end RvgGateway
