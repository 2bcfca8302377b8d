import RvgGateway.Links.UpdateLink
import RvgGateway.Ports.Admin
import RvgGateway.State.Backup

/-!
# Links and their records

`LINKS` holds records with values of JSON, and `Links.Call.updateLink` and
`State.restartMtprotoInstances` work on these.  The same requests of `Ports.Admin` work on links, with
the fields that the listeners depend on.  They do the same.

* `Holds` : the record holds the link.
* `listenPort_eq` : the branch of `update_link` for `listen_port`.
* `edited_holds`, `updateLink_holds` : a call of `update_link` that does not raise.
* `restart_holds` : `_restart_mtproto_instances`.
-/

namespace RvgGateway

namespace Links

open Ports (Host Panel PatchBody PortEdit PortField)
open State (orElse)

/-! ### Records -/

/-- A field with a number; `None` and an absent field count as 0. -/
def IntField (v : Json) (n : ℤ) : Prop := v = .int n ∨ v = .null ∧ n = 0

/-- `expires_at`, where `date` reads a date. -/
def expiry (date : String → Expiry) : Json → Expiry
  | .str s => if s = "" then .never else date s
  | v => if v.truthy then .malformed else .never

/-- The record holds the link, as far as the listeners depend on it. -/
structure Holds (date : String → Expiry) (d : Dict String Json) (link : Link) : Prop where
  protocol : Json.isText "mtproto" (read d "protocol") = decide (link.protocol = "mtproto")
  active : (d.get? "active").getD (.bool true) = .bool link.active
  listenPort : IntField (read d "listen_port") link.listenPort
  limitBytes : IntField (read d "limit_bytes") link.limitBytes
  usedBytes : IntField (read d "used_bytes") link.usedBytes
  expiresAt : expiry date (read d "expires_at") = link.expiresAt

/-- The entries that `Holds` reads. -/
def held : List String :=
  ["protocol", "active", "listen_port", "limit_bytes", "used_bytes", "expires_at"]

section Holds

variable {date : String → Expiry} {d d' : Dict String Json} {link : Link} {rt : Runtime} {n : ℤ}

theorem read_congr {k : String} (h : d'.get? k = d.get? k) : read d' k = read d k := by
  rw [read, read, h]

theorem Holds.congr (h : Holds date d link) (heq : ∀ k ∈ held, d'.get? k = d.get? k) :
    Holds date d' link where
  protocol := by rw [read_congr (heq "protocol" (by decide)), h.protocol]
  active := by rw [heq "active" (by decide), h.active]
  listenPort := by rw [read_congr (heq "listen_port" (by decide))]; exact h.listenPort
  limitBytes := by rw [read_congr (heq "limit_bytes" (by decide))]; exact h.limitBytes
  usedBytes := by rw [read_congr (heq "used_bytes" (by decide))]; exact h.usedBytes
  expiresAt := by rw [read_congr (heq "expires_at" (by decide)), h.expiresAt]

/-- `int(link.get("listen_port") or 0)`. -/
theorem IntField.int (h : IntField (read d "listen_port") n) :
    rt.int (orElse (read d "listen_port") (.int 0)) = .ok n := by
  rcases h with h | ⟨h, rfl⟩
  · rw [h, orElse]
    split_ifs with hn
    · rfl
    · rw [show n = 0 by simpa [Json.truthy] using hn]
      rfl
  · rw [h]
    rfl

theorem IntField.truthy {v : Json} (h : IntField v n) : v.truthy = decide (n ≠ 0) := by
  rcases h with rfl | ⟨rfl, rfl⟩ <;> rfl

/-- The records hold the links, one by one. -/
def TableHolds (date : String → Expiry) (links : Dict Json.Key Entry) (ls : RvgGateway.Links) :
    Prop :=
  List.Forall₂ (fun e l => ∃ d, e = (Json.Key.str l.1, Entry.link d) ∧ Holds date d l.2)
    links.entries ls.entries

variable {links : Dict Json.Key Entry} {ls : RvgGateway.Links} {uid : String}

theorem TableHolds.get? (h : TableHolds date links ls) (hlink : ls.get? uid = some link) :
    ∃ d, links.get? (.str uid) = some (.link d) ∧ Holds date d link := by
  unfold Dict.get? at hlink ⊢
  unfold TableHolds at h
  generalize links.entries = es at h ⊢
  generalize ls.entries = ls at h hlink
  induction h with
  | nil => cases hlink
  | @cons e l es ls he _ ih =>
    obtain ⟨d, rfl, hd⟩ := he
    rw [Dict.lookupL] at hlink ⊢
    by_cases hl : l.1 = uid
    · rw [if_pos hl] at hlink
      cases hlink
      exact ⟨d, if_pos (congrArg _ hl), hd⟩
    · rw [if_neg hl] at hlink
      rw [if_neg (fun heq => hl (Json.Key.str_injective heq))]
      exact ih hlink

theorem TableHolds.set (h : TableHolds date links ls) (hd : Holds date d link) :
    TableHolds date (links.set (.str uid) (.link d)) (ls.set uid link) := by
  unfold Dict.set TableHolds
  unfold TableHolds at h
  dsimp only
  generalize links.entries = es at h ⊢
  generalize ls.entries = ls at h ⊢
  induction h with
  | nil => exact .cons ⟨d, rfl, hd⟩ .nil
  | @cons e l es ls he hes ih =>
    obtain ⟨d', rfl, hd'⟩ := he
    rw [Dict.insertL, Dict.insertL]
    by_cases hl : l.1 = uid
    · rw [if_pos (congrArg _ hl), if_pos hl]
      exact .cons ⟨d, rfl, hd⟩ hes
    · rw [if_neg (fun heq => hl (Json.Key.str_injective heq)), if_neg hl]
      exact .cons ⟨d', rfl, hd'⟩ ih

end Holds

/-! ### `listen_port` -/

section ListenPort

variable {c : Call} {h : Host} {s : Panel} {date : String → Expiry} {d : Dict String Json}
  {link : Link}

/-- The call meets the panel. -/
structure Meets (c : Call) (h : Host) (s : Panel) (date : String → Expiry) : Prop where
  panelPort : c.panelPort = h.port
  portInUseByUs : c.portInUseByUs = s.ports.portInUseByUs
  links : TableHolds date c.links s.links

/-- The port in the body of the request. -/
def portField (rt : Runtime) (raw : Json) : PortField :=
  match portNumber rt raw with
  | .ok n => if n = 0 then .absent else .number n
  | .rejected | .overflow => .malformed

/-- The ports of the other links. -/
theorem usedPorts_eq {es : List (Json.Key × Entry)} {ls : List (String × Link)} {uid : String}
    (hes : List.Forall₂ (fun e l => ∃ d, e = (Json.Key.str l.1, Entry.link d) ∧ Holds date d l.2)
      es ls) :
    usedPorts c.rt ((es.filter fun e => e.1 ≠ .str uid).map Prod.snd) =
      .ok ((ls.filter fun l => l.1 ≠ uid).map fun l => l.2.listenPort) := by
  induction hes with
  | nil => rfl
  | @cons e l es ls he _ ih =>
    obtain ⟨d, rfl, hd⟩ := he
    by_cases hl : l.1 = uid
    · rw [List.filter_cons_of_neg (by simp [hl]), List.filter_cons_of_neg (by simp [hl]), ih]
    · rw [List.filter_cons_of_pos (by simpa using hl), List.filter_cons_of_pos (by simpa using hl),
        List.map_cons, List.map_cons, usedPorts, hd.listenPort.int, ih]
      rfl

/-- What the branch for `listen_port` does to the record. -/
def portChange (mtproto : Bool) : PortEdit → Except UpdateError Change
  | .unchanged => .ok nothing
  | .moved port =>
    .ok
      { entry := some ("listen_port", .int port)
        effects := [if mtproto then .restart else .sync] }
  | .refused (.error status detail) => .error (.http status detail)
  | .refused .ok | .refused .crashed => .error .conversion

/-- **The branch for `listen_port`**, for a value that is not out of range. -/
theorem listenPort_eq (hm : Meets c h s date) (hd : Holds date d link) {raw : Json}
    (hraw : c.body.get? "listen_port" = some raw) (hfinite : portNumber c.rt raw ≠ .overflow) :
    c.listenPort d = portChange (link.protocol = "mtproto")
      (Ports.editPort h s c.uid link.listenPort (some (portField c.rt raw))) := by
  have hused : usedPorts c.rt ((c.links.entries.filter fun e => e.1 ≠ .str c.uid).map Prod.snd) =
      .ok ((s.links.erase c.uid).values.map Link.listenPort) := by
    rw [usedPorts_eq hm.links, Dict.values, List.map_map]
    rfl
  unfold Call.listenPort Call.given portField
  rw [hraw]
  dsimp only
  cases hport : portNumber c.rt raw with
  | overflow => exact absurd hport hfinite
  | rejected => rfl
  | ok n =>
    dsimp only
    rw [hd.listenPort.int, hd.protocol]
    by_cases hn : n = 0
    · subst hn
      rw [if_neg (fun hrange => hrange.1 rfl), if_pos rfl]
      by_cases hold : link.listenPort = 0
      · simp [Ports.editPort, hold, portChange, bind, Except.bind]
      · simp [Ports.editPort, hold, portChange, bind, Except.bind, Ne.symm hold, Call.checkPort]
    · by_cases hrange : 1 ≤ n ∧ n ≤ 65535
      · have hin : (1 ≤ n && n ≤ 65535) = true := by simpa using hrange
        rw [if_neg (fun hout => hout.2 hrange), if_neg hn]
        simp only [bind, Except.bind, Ports.editPort, hin, Bool.not_true, Bool.and_false,
          Bool.false_eq_true, if_false]
        by_cases hold : n = link.listenPort
        · rw [if_pos hold, if_pos hold]
          rfl
        · have htaken : ((decide (n ≠ 0) && (((s.links.erase c.uid).values.map Link.listenPort ++
              [h.port]).contains n || s.ports.portInUseByUs n)) = true) ↔
              n ∈ (s.links.erase c.uid).values.map Link.listenPort ∨ n = c.panelPort ∨
                c.portInUseByUs n = true := by
            rw [hm.panelPort, hm.portInUseByUs]
            simp [hn, or_assoc]
          rw [if_neg hold, if_neg hold, Call.checkPort, if_neg hn, hused]
          simp only [bind, Except.bind, if_congr htaken rfl rfl]
          by_cases hin : n ∈ (s.links.erase c.uid).values.map Link.listenPort ∨ n = c.panelPort ∨
              c.portInUseByUs n = true
          · rw [if_pos hin, if_pos hin]
            rfl
          · rw [if_neg hin, if_neg hin]
            rfl
      · have hout : (1 ≤ n && n ≤ 65535) = false := by simpa using hrange
        rw [if_pos ⟨hn, hrange⟩, if_neg hn]
        simp only [Ports.editPort, hout, Bool.not_false, Bool.and_true, decide_eq_true_eq, ne_eq, hn,
          not_false_eq_true, if_true]
        rfl

end ListenPort

/-! ### The whole request -/

section Request

variable {c : Call} {h : Host} {s : Panel} {date : String → Expiry} {d : Dict String Json}
  {link : Link}

/-- The number of bytes in an assignment. -/
def limitOf : Except UpdateError Change → Option ℤ
  | .ok ⟨some (_, .int n), _⟩ => some n
  | _ => none

/-- The date in an assignment. -/
def dateOf (date : String → Expiry) : Except UpdateError Change → Option Expiry
  | .ok ⟨some (_, v), _⟩ => some (expiry date v)
  | _ => none

/-- The body of the request, as far as the listeners depend on it. -/
def patchBody (c : Call) (date : String → Expiry) : PatchBody where
  active := (c.body.get? "active").map Json.truthy
  resetUsage := ((c.body.get? "reset_usage").map Json.truthy).getD false
  limitBytes := (c.body.get? "limit_value").map fun _ => limitOf c.limitValue
  expiresAt := (c.body.get? "expires_days").map fun _ => dateOf date c.expiresDays
  listenPort := (c.body.get? "listen_port").map (portField c.rt)
  subOk := true

/-- The record behind the fields. -/
def Call.edited (c : Call) (d : Dict String Json) : Dict String Json :=
  Dict.setAll (entries (writes (c.outcome d) fields)) d

variable (hran : raised (c.outcome d) fields = none)

include hran

theorem outcome_ok (f : Field) : ∃ w, w ∈ writes (c.outcome d) fields ∧ c.outcome d f = .ok w :=
  mem_writes_of_raised hran (by cases f <;> decide)

/-- What a field leaves in its entry, when no field raises. -/
theorem get?_target {f : Field} {w : Change} (hw : c.outcome d f = .ok w) :
    (c.edited d).get? f.target = (w.entry.map Prod.snd).or (d.get? f.target) := by
  have hnodup : ((entries (writes (c.outcome d) fields)).map Prod.fst).Nodup :=
    nodup_keys (List.append_nil fields).symm
  obtain ⟨w', hmem, hw'⟩ := outcome_ok hran f
  obtain rfl : w = w' := Except.ok.inj (hw.symm.trans hw')
  rw [Call.edited, Dict.setAll, Dict.get?_foldl_set hnodup]
  cases hentry : w.entry with
  | some e =>
    have he : e = (f.target, e.2) := Prod.ext (outcome_target f w e hw hentry) rfl
    rw [(Dict.lookupL_eq_some hnodup).2
      (List.mem_filterMap.2 ⟨w, hmem, hentry.trans (congrArg some he)⟩)]
    rfl
  | none =>
    cases hlook : Dict.lookupL f.target (entries (writes (c.outcome d) fields)) with
    | none => rfl
    | some v =>
      -- another field would have the same entry
      obtain ⟨w'', hmem'', hentry''⟩ := List.mem_filterMap.1 ((Dict.lookupL_eq_some hnodup).1 hlook)
      obtain ⟨g, hg, hw''⟩ := mem_writes hmem''
      have htarget : f.target = g.target := outcome_target g w'' _ hw'' hentry''
      obtain rfl := List.inj_on_of_nodup_map nodup_target (by cases f <;> decide) hg htarget
      rw [← Except.ok.inj (hw.symm.trans hw''), hentry] at hentry''
      cases hentry''

section Given

variable {f : Field} {name : String} {g : Json → Except UpdateError Change}
  (hf : c.outcome d f = c.given name g)

include hf

/-- A field that the body does not have. -/
theorem edited_absent (hbody : c.body.get? name = none) :
    (c.edited d).get? f.target = d.get? f.target := by
  have hw : c.outcome d f = .ok nothing := by rw [hf, Call.given, hbody]
  rw [get?_target hran hw]
  rfl

/-- A field that the body has. -/
theorem edited_present {v : Json} (hbody : c.body.get? name = some v) : ∃ w, g v = .ok w ∧
    (c.edited d).get? f.target = (w.entry.map Prod.snd).or (d.get? f.target) := by
  obtain ⟨w, -, hw⟩ := outcome_ok hran f
  refine ⟨w, ?_, get?_target hran hw⟩
  rwa [hf, Call.given, hbody] at hw

end Given

theorem edited_active (hd : Holds date d link) : ((c.edited d).get? "active").getD (.bool true) =
    .bool ((patchBody c date).active.getD link.active) := by
  have hf : c.outcome d .active = c.given "active" _ := rfl
  unfold patchBody
  cases hbody : c.body.get? "active" with
  | none =>
    have habsent : (c.edited d).get? "active" = d.get? "active" := edited_absent hran hf hbody
    rw [habsent]
    exact hd.active
  | some v =>
    obtain ⟨w, hw, hget : (c.edited d).get? "active" = _⟩ := edited_present hran hf hbody
    rw [hget]
    cases hw
    rfl

theorem edited_usedBytes (hd : Holds date d link) : IntField (read (c.edited d) "used_bytes")
    (if (patchBody c date).resetUsage then 0 else link.usedBytes) := by
  have hf : c.outcome d .resetUsage = c.given "reset_usage" _ := rfl
  unfold patchBody
  cases hbody : c.body.get? "reset_usage" with
  | none =>
    have habsent : (c.edited d).get? "used_bytes" = d.get? "used_bytes" := edited_absent hran hf hbody
    rw [read_congr habsent]
    exact hd.usedBytes
  | some v =>
    obtain ⟨w, hw, hget : (c.edited d).get? "used_bytes" = _⟩ := edited_present hran hf hbody
    cases hw
    rw [read, hget]
    dsimp only [Option.map_some, Option.getD_some]
    split_ifs
    · exact .inl rfl
    · exact hd.usedBytes

theorem edited_limitBytes (hd : Holds date d link) : (patchBody c date).limitBytes ≠ some none ∧
    IntField (read (c.edited d) "limit_bytes")
      (((patchBody c date).limitBytes.bind id).getD link.limitBytes) := by
  have hf : c.outcome d .limitValue = c.given "limit_value" _ := rfl
  unfold patchBody
  cases hbody : c.body.get? "limit_value" with
  | none =>
    have habsent : (c.edited d).get? "limit_bytes" = d.get? "limit_bytes" := edited_absent hran hf hbody
    rw [read_congr habsent]
    exact ⟨fun h => (by cases h), hd.limitBytes⟩
  | some v =>
    obtain ⟨w, hw, hget : (c.edited d).get? "limit_bytes" = _⟩ := edited_present hran hf hbody
    have hvalue : c.limitValue = .ok w := by rw [Call.limitValue, Call.given, hbody]; exact hw
    obtain ⟨n, rfl⟩ : ∃ n, w = assign "limit_bytes" (.int n) := by
      simp only [bind, Except.bind] at hw
      split at hw
      · cases hw
      · split at hw
        · cases hw
        · cases hw
          exact ⟨_, rfl⟩
    rw [read, hget, hvalue]
    exact ⟨fun h => (by cases h), .inl rfl⟩

theorem edited_expiresAt (hd : Holds date d link) : (patchBody c date).expiresAt ≠ some none ∧
    expiry date (read (c.edited d) "expires_at") =
      ((patchBody c date).expiresAt.bind id).getD link.expiresAt := by
  have hf : c.outcome d .expiresDays = c.given "expires_days" _ := rfl
  unfold patchBody
  cases hbody : c.body.get? "expires_days" with
  | none =>
    have habsent : (c.edited d).get? "expires_at" = d.get? "expires_at" := edited_absent hran hf hbody
    rw [read_congr habsent]
    exact ⟨fun h => (by cases h), hd.expiresAt⟩
  | some v =>
    obtain ⟨w, hw, hget : (c.edited d).get? "expires_at" = _⟩ := edited_present hran hf hbody
    have hdays : c.expiresDays = .ok w := by rw [Call.expiresDays, Call.given, hbody]; exact hw
    obtain ⟨stamp, rfl⟩ : ∃ stamp, w = assign "expires_at" stamp := by
      simp only [bind, Except.bind] at hw
      split at hw
      · cases hw
      · split_ifs at hw
        · split at hw
          · cases hw
            exact ⟨_, rfl⟩
          · cases hw
        · cases hw
          exact ⟨_, rfl⟩
    rw [read, hget, hdays]
    exact ⟨fun h => (by cases h), rfl⟩

theorem edited_listenPort (hm : Meets c h s date) (hd : Holds date d link) :
    ∃ p, IntField (read (c.edited d) "listen_port") p ∧
      (p = link.listenPort ∧
          Ports.editPort h s c.uid link.listenPort (patchBody c date).listenPort = .unchanged ∨
        Ports.editPort h s c.uid link.listenPort (patchBody c date).listenPort = .moved p) := by
  obtain ⟨w, -, hw⟩ := outcome_ok hran .listenPort
  rw [read, show "listen_port" = Field.target .listenPort from rfl, get?_target hran hw]
  change c.listenPort d = .ok w at hw
  unfold patchBody
  cases hbody : c.body.get? "listen_port" with
  | none =>
    rw [Call.listenPort, Call.given, hbody] at hw
    cases hw
    exact ⟨link.listenPort, hd.listenPort, .inl ⟨rfl, rfl⟩⟩
  | some raw =>
    have hfinite : portNumber c.rt raw ≠ .overflow := fun hover => by
      rw [Call.listenPort, Call.given, hbody] at hw
      dsimp only at hw
      rw [hover] at hw
      cases hw
    rw [listenPort_eq hm hd hbody hfinite] at hw
    dsimp only [Option.map_some]
    cases hedit : Ports.editPort h s c.uid link.listenPort (some (portField c.rt raw)) with
    | unchanged =>
      rw [hedit] at hw
      cases hw
      exact ⟨link.listenPort, hd.listenPort, .inl ⟨rfl, rfl⟩⟩
    | moved port =>
      rw [hedit] at hw
      cases hw
      exact ⟨port, .inl rfl, .inr rfl⟩
    | refused reply => cases reply <;> (rw [hedit] at hw; cases hw)

omit hran in
/-- The edit of the fields before the port, when all conversions succeed. -/
theorem editFields_eq {body : PatchBody} (hlimit : body.limitBytes ≠ some none)
    (hdays : body.expiresAt ≠ some none) : Ports.editFields link body =
      ({ link with
        active := body.active.getD link.active
        usedBytes := if body.resetUsage then 0 else link.usedBytes
        limitBytes := (body.limitBytes.bind id).getD link.limitBytes
        expiresAt := (body.expiresAt.bind id).getD link.expiresAt }, true) := by
  unfold Ports.editFields
  generalize body.limitBytes = limit at hlimit ⊢
  generalize body.expiresAt = days at hdays ⊢
  rcases limit with _ | _ | limit
  case some.none => exact absurd rfl hlimit
  all_goals
    rcases days with _ | _ | days
    all_goals
      first
      | exact absurd rfl hdays
      | cases body.resetUsage <;> rfl

/-- **A call of `update_link` that does not raise**: behind the locked section the record holds the
link with the fields and the port edited. -/
theorem edited_holds (hm : Meets c h s date) (hd : Holds date d link) :
    ∃ link' p, Ports.editFields link (patchBody c date) = (link', true) ∧
      link'.protocol = link.protocol ∧ Holds date (c.edited d) { link' with listenPort := p } ∧
      (p = link'.listenPort ∧
          Ports.editPort h s c.uid link'.listenPort (patchBody c date).listenPort = .unchanged ∨
        Ports.editPort h s c.uid link'.listenPort (patchBody c date).listenPort = .moved p) := by
  obtain ⟨hlimit, hbytes⟩ := edited_limitBytes hran hd
  obtain ⟨hdays, hdate⟩ := edited_expiresAt hran hd
  obtain ⟨p, hport, hedit⟩ := edited_listenPort hran hm hd
  have hprotocol : (c.edited d).get? "protocol" = d.get? "protocol" :=
    get?_setAll_writes outcome_target (by decide)
  refine ⟨_, p, editFields_eq hlimit hdays, rfl, ?_, hedit⟩
  exact
    { protocol := (congrArg _ (read_congr hprotocol)).trans hd.protocol
      active := edited_active hran hd
      listenPort := hport
      limitBytes := hbytes
      usedBytes := edited_usedBytes hran hd
      expiresAt := hdate }

omit hran in
/-- **`update_link`** of a link that is not of MTProto: a call that does not raise leaves the records
those of the links. -/
theorem updateLink_holds (hm : Meets c h s date) (hlink : s.links.get? c.uid = some link)
    (hother : link.protocol ≠ "mtproto") (hran : c.updateLink.error = none)
    (mt : Ports.MtprotoStart) :
    TableHolds date c.updateLink.links
      (Ports.updateLink h s c.uid (patchBody c date) mt).2.1.links := by
  obtain ⟨d, hget, hd⟩ := hm.links.get? hlink
  have hlocked : c.updateLink = ⟨c.links.set (.str c.uid) (.link (c.edited d)),
      (writes (c.outcome d) fields).flatMap Write.effects, raised (c.outcome d) fields⟩ := by
    unfold Call.updateLink
    simp only [hget, run_eq]
    rfl
  rw [hlocked] at hran ⊢
  obtain ⟨link', p, hfields, hprotocol, hholds, hedit⟩ := edited_holds hran hm hd
  have hfinish : ∀ link'' : Link, link''.protocol = link.protocol → ∀ moved,
      (Ports.finishPatch s c.uid link.active link'' moved (patchBody c date) mt).link = link'' := by
    intro link'' heq moved
    unfold Ports.finishPatch
    simp [patchBody, heq, hother]
  have hpatch : (Ports.patchLink h s c.uid link (patchBody c date) mt).link =
      { link' with listenPort := p } := by
    unfold Ports.patchLink
    rw [hfields]
    dsimp only
    rcases hedit with ⟨rfl, hedit⟩ | hedit
    · rw [hedit]
      exact hfinish link' hprotocol false
    · rw [hedit]
      exact hfinish { link' with listenPort := p } hprotocol true
  unfold Ports.updateLink
  rw [hlink]
  dsimp only
  rw [hpatch, ← Dict.set_eq_modify hlink]
  exact hm.links.set hholds

end Request

/-! ### `_restart_mtproto_instances` -/

section Restart

variable {date : String → Expiry}

/-- The object holds the link. -/
def ObjectHolds (date : String → Expiry) (v : Json) (link : Link) : Prop :=
  v.isObj = true ∧ Holds date v.dict link

/-- The link of a proxy that has been started. -/
theorem proxyStarted_holds {v : Json} {link : Link} (hv : ObjectHolds date v link) (port : ℤ)
    (secret : String) :
    ObjectHolds date (State.proxyStarted port secret v) (Ports.mtprotoPort port link) := by
  obtain ⟨-, hd⟩ := hv
  have hkeep : ∀ k, k ∉ State.proxyFields →
      (State.proxyStarted port secret v).dict.get? k = v.dict.get? k := fun k hk =>
    State.Import.proxyStarted_get? hk
  have hport : IntField (read (State.proxyStarted port secret v).dict "listen_port")
      (Ports.mtprotoPort port link).listenPort := by
    have htruthy : (v.getD "listen_port" .null).truthy = decide (link.listenPort ≠ 0) :=
      hd.listenPort.truthy
    have hget : ∀ fields : Dict String Json,
        (Json.obj fields.entries).dict.get? "listen_port" = fields.get? "listen_port" := fun fields =>
      Json.get?_obj_entries fields "listen_port"
    unfold State.proxyStarted Ports.mtprotoPort
    rw [read, hget, htruthy]
    by_cases hzero : link.listenPort = 0
    · simp only [hzero, ne_eq, not_true_eq_false, decide_false, Bool.false_eq_true, if_false]
      rw [Dict.get?_set_ne _ _ (by decide), Dict.get?_set_ne _ _ (by decide)]
      exact hzero ▸ hd.listenPort
    · simp only [hzero, ne_eq, not_false_eq_true, decide_true, if_true, Dict.get?_set_self,
        Option.getD_some]
      exact .inl rfl
  have hrest : Ports.mtprotoPort port link =
      { link with listenPort := (Ports.mtprotoPort port link).listenPort } := by
    unfold Ports.mtprotoPort
    split_ifs <;> rfl
  rw [hrest]
  exact ⟨rfl,
    { protocol := (congrArg _ (read_congr (hkeep "protocol" (by decide)))).trans hd.protocol
      active := (congrArg (Option.getD · _) (hkeep "active" (by decide))).trans hd.active
      listenPort := hport
      limitBytes := by rw [read_congr (hkeep "limit_bytes" (by decide))]; exact hd.limitBytes
      usedBytes := by rw [read_congr (hkeep "used_bytes" (by decide))]; exact hd.usedBytes
      expiresAt := (congrArg _ (read_congr (hkeep "expires_at" (by decide)))).trans hd.expiresAt }⟩

/-- **`_restart_mtproto_instances`**. -/
theorem restart_holds {links : Json.Table} {ls : RvgGateway.Links}
    (hlinks : List.Forall₂ (fun e l => e.1 = Json.Key.str l.1 ∧ ObjectHolds date e.2 l.2)
      links.entries ls.entries) (started : String → Option (ℤ × String)) :
    List.Forall₂ (fun e l => e.1 = Json.Key.str l.1 ∧ ObjectHolds date e.2 l.2)
      (State.restartMtprotoInstances started links).entries
      (Ports.restartMtprotoInstances (fun uid => (started uid).map Prod.fst) ls).entries := by
  have hobjects : links.values.all Json.isObj = true := by
    unfold Dict.values
    generalize links.entries = es at hlinks ⊢
    generalize ls.entries = ls at hlinks
    induction hlinks with
    | nil => rfl
    | cons he _ ih => rw [List.map_cons, List.all_cons, he.2.1, ih, Bool.and_self]
  rw [State.restartMtprotoInstances, if_pos hobjects]
  refine List.forall₂_map_left_iff.2 (List.forall₂_map_right_iff.2 (hlinks.imp ?_))
  rintro ⟨key, v⟩ ⟨uid, link⟩ ⟨rfl, hv⟩
  refine ⟨rfl, ?_⟩
  have hproxy : State.isProxyLink v = (decide (link.protocol = "mtproto") && link.active) := by
    have hactive : v.getD "active" (.bool true) = .bool link.active := hv.2.active
    have hprotocol : Json.isText "mtproto" (v.getD "protocol" .null) =
        decide (link.protocol = "mtproto") := hv.2.protocol
    rw [State.isProxyLink, hprotocol, hactive]
    rfl
  dsimp only
  rw [hproxy]
  split_ifs
  · cases started uid with
    | none => exact hv
    | some r => exact proxyStarted_holds hv r.1 r.2
  · exact hv

end Restart

end Links

end RvgGateway
