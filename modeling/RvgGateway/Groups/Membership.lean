import RvgGateway.Lib.Machine
import RvgGateway.Links.Link

/-!
# Links and their groups

Which links belong to which group is written down twice: a group in `SUBS` lists its `link_ids`, and
a link in `LINKS` has the group as its `sub_id`.  Seven requests of `main.py` maintain the two tables
by hand.

* `machine` : the seven requests, of which each names only links and groups that exist.
* `Consistent` : listed links exist, and the group of a link lists it.
* `consistent_step_iff` : a request keeps that exactly when it is `Safe`.
* `consistent_iff_safe` : **a run is consistent throughout exactly when all its requests are safe.**
* `deleted_link_stays_listed` : a link that was assigned to two groups and then deleted stays in the
  list of the first.
-/

namespace RvgGateway

namespace Groups

/-- An entry of `LINKS`: the group that the link belongs to, and the other fields. -/
structure Entry (L : Type) where
  link : L
  subId : Option String
  deriving DecidableEq, Repr

/-- An entry of `SUBS`: the links of the group, and the other fields. -/
structure Sub (G : Type) where
  group : G
  linkIds : List String
  deriving DecidableEq, Repr

/-- `LINKS` and `SUBS`. -/
structure Tables (L G : Type) where
  links : Dict String (Entry L)
  subs : Dict String (Sub G)
  deriving DecidableEq

/-- `sub_id` in the body of a request. -/
inductive SubField where
  | absent
  /-- `None`. -/
  | null
  | text (s : String)
  deriving DecidableEq, Repr

/-- `s or None`. -/
def textOrNone (s : String) : Option String := if s = "" then none else some s

/-- `body.get("sub_id") or None`. -/
def SubField.orNone : SubField → Option String
  | .text s => textOrNone s
  | _ => none

/-- `body.get("sub_id", "UNCHANGED")`, where `none` is `"UNCHANGED"`. -/
def SubField.change : SubField → Option (Option String)
  | .absent => none
  | .null => some none
  | .text s => if s = "UNCHANGED" then none else some (textOrNone s)

namespace Tables

variable {L G : Type}

/-- `if uid not in ids: ids.append(uid)` on the list of a group, if there is the group. -/
def addMember (subs : Dict String (Sub G)) (sid uid : String) : Dict String (Sub G) :=
  subs.modify sid fun s =>
    { s with linkIds := if uid ∈ s.linkIds then s.linkIds else s.linkIds ++ [uid] }

/-- `if uid in ids: ids.remove(uid)`, which removes the first occurrence. -/
def removeMember (subs : Dict String (Sub G)) (sid uid : String) : Dict String (Sub G) :=
  subs.modify sid fun s => { s with linkIds := s.linkIds.erase uid }

/-- `_create_link_core` with the new identifier `uid`; `link` is what it makes of the rest of its
body, if it does not raise. -/
def createLink (t : Tables L G) (uid : String) (link : Option L) (subId : SubField) : Tables L G :=
  match link with
  | none => t
  | some link =>
    { links := t.links.set uid ⟨link, subId.orNone⟩
      subs := match subId.orNone with
        | none => t.subs
        | some sid => addMember t.subs sid uid }

/-- `update_link`; `edit` is what it does to the other fields.  A body that makes it raise leaves the
group alone. -/
def updateLink (t : Tables L G) (uid : String) (edit : L → L) (raises : Bool)
    (subId : SubField) : Tables L G :=
  match t.links.get? uid with
  | none => t
  | some old =>
    match if raises then none else subId.change with
    | none => { t with links := t.links.set uid { old with link := edit old.link } }
    | some new =>
      let subs := match old.subId with
        | none => t.subs
        | some sid => removeMember t.subs sid uid
      { links := t.links.set uid ⟨edit old.link, new⟩
        subs := match new with
          | none => subs
          | some sid => addMember subs sid uid }

/-- `delete_link`. -/
def deleteLink (t : Tables L G) (uid : String) : Tables L G :=
  match t.links.get? uid with
  | none => t
  | some old =>
    { links := t.links.erase uid
      subs := match old.subId with
        | none => t.subs
        | some sid => removeMember t.subs sid uid }

/-- `_create_sub_core` with the new identifier `sid`. -/
def createSub (t : Tables L G) (sid : String) (group : G) : Tables L G :=
  { t with subs := t.subs.set sid ⟨group, []⟩ }

/-- `update_sub`; `edit` is what it does to the other fields, and `linkIds` is `none` when the body
does not have it. -/
def updateSub (t : Tables L G) (sid : String) (edit : G → G) (linkIds : Option (List String)) :
    Tables L G :=
  { t with subs := t.subs.modify sid fun s => ⟨edit s.group, linkIds.getD s.linkIds⟩ }

/-- `delete_sub`. -/
def deleteSub (t : Tables L G) (sid : String) : Tables L G :=
  match t.subs.get? sid with
  | none => t
  | some _ =>
    { links := t.links.mapValues fun _ e => if e.subId = some sid then { e with subId := none } else e
      subs := t.subs.erase sid }

/-- `assign_link_to_sub`; every action but `add` removes. -/
def assignLinkToSub (t : Tables L G) (sid uid : String) (add : Bool) : Tables L G :=
  match t.subs.get? sid with
  | none => t
  | some _ =>
    { links := t.links.modify uid fun e => { e with subId := if add then some sid else none }
      subs := if add then addMember t.subs sid uid else removeMember t.subs sid uid }

end Tables

/-- The requests. -/
inductive Op (L G : Type)
  | createLink (uid : String) (link : Option L) (subId : SubField)
  | updateLink (uid : String) (edit : L → L) (raises : Bool) (subId : SubField)
  | deleteLink (uid : String)
  | createSub (sid : String) (group : G)
  | updateSub (sid : String) (edit : G → G) (linkIds : Option (List String))
  | deleteSub (sid : String)
  | assignLinkToSub (sid uid : String) (add : Bool)

variable {L G : Type}

/-- Perform a request. -/
def Op.perform (t : Tables L G) : Op L G → Tables L G
  | .createLink uid link subId => t.createLink uid link subId
  | .updateLink uid edit raises subId => t.updateLink uid edit raises subId
  | .deleteLink uid => t.deleteLink uid
  | .createSub sid group => t.createSub sid group
  | .updateSub sid edit linkIds => t.updateSub sid edit linkIds
  | .deleteSub sid => t.deleteSub sid
  | .assignLinkToSub sid uid add => t.assignLinkToSub sid uid add

/-- The links and groups that a request names exist, and the identifier of a new group is new. -/
def Op.Named (t : Tables L G) : Op L G → Prop
  | .createLink _ _ subId => ∀ sid ∈ subId.orNone, t.subs.contains sid
  | .updateLink uid _ _ subId =>
    t.links.contains uid ∧ ∀ new ∈ subId.change, ∀ sid ∈ new, t.subs.contains sid
  | .deleteLink uid => t.links.contains uid
  | .createSub sid _ => t.subs.contains sid = false
  | .updateSub sid _ linkIds =>
    t.subs.contains sid ∧ ∀ ids ∈ linkIds, ∀ u ∈ ids, t.links.contains u
  | .deleteSub sid => t.subs.contains sid
  | .assignLinkToSub sid uid _ => t.subs.contains sid ∧ t.links.contains uid

instance (t : Tables L G) (op : Op L G) : Decidable (op.Named t) := by
  cases op <;> unfold Op.Named <;> infer_instance

/-- The requests one after the other. -/
def machine : Machine (Tables L G) (Op L G) where
  step t op := if op.Named t then some (op.perform t) else none

/-- The group `sid` lists the link `uid`. -/
def Tables.Lists (subs : Dict String (Sub G)) (sid uid : String) : Prop :=
  ∃ sub, subs.get? sid = some sub ∧ uid ∈ sub.linkIds

/-- The link `uid` has the group `sid`. -/
def Tables.InGroup (links : Dict String (Entry L)) (uid sid : String) : Prop :=
  ∃ e, links.get? uid = some e ∧ e.subId = some sid

/-- Listed links exist, and the group of a link lists it. -/
structure Tables.Consistent (t : Tables L G) : Prop where
  listed : ∀ sid uid, Lists t.subs sid uid → t.links.contains uid
  grouped : ∀ uid sid, InGroup t.links uid sid → Lists t.subs sid uid

/-- A link may be deleted when only its own group lists it, and lists it once; the list of a group
may be replaced by one with all the links that have the group. -/
def Safe (t : Tables L G) : Op L G → Prop
  | .deleteLink uid => ∀ sid sub, t.subs.get? sid = some sub → uid ∈ sub.linkIds →
      Tables.InGroup t.links uid sid ∧ sub.linkIds.count uid = 1
  | .updateSub sid _ linkIds => ∀ ids ∈ linkIds, ∀ uid, Tables.InGroup t.links uid sid → uid ∈ ids
  | _ => True

theorem safe_deleteLink_iff {t : Tables L G} {uid : String} :
    Safe t (.deleteLink uid) ↔ ∀ e ∈ t.subs.entries, uid ∈ e.2.linkIds →
      ((t.links.get? uid).bind Entry.subId = some e.1) ∧ e.2.linkIds.count uid = 1 := by
  have hgroup : ∀ sid, Tables.InGroup t.links uid sid ↔
      (t.links.get? uid).bind Entry.subId = some sid := fun sid => Option.bind_eq_some_iff.symm
  constructor
  · intro h e he hu
    rw [← hgroup]
    exact h e.1 e.2 (Dict.get?_eq_some.2 he) hu
  · intro h sid sub hsub hu
    rw [hgroup]
    exact h (sid, sub) (Dict.get?_eq_some.1 hsub) hu

theorem safe_updateSub_iff {t : Tables L G} {sid : String} {edit : G → G}
    {linkIds : Option (List String)} :
    Safe t (.updateSub sid edit linkIds) ↔ ∀ ids ∈ linkIds, ∀ e ∈ t.links.entries,
      e.2.subId = some sid → e.1 ∈ ids := by
  constructor
  · intro h ids hids e he hsub
    exact h ids hids e.1 ⟨e.2, Dict.get?_eq_some.2 he, hsub⟩
  · rintro h ids hids uid ⟨e, he, hsub⟩
    exact h ids hids (uid, e) (Dict.get?_eq_some.1 he) hsub

instance (t : Tables L G) : DecidablePred (Safe t)
  | .deleteLink _ => decidable_of_iff' _ safe_deleteLink_iff
  | .updateSub .. => decidable_of_iff' _ safe_updateSub_iff
  | .createLink .. | .updateLink .. | .createSub .. | .deleteSub _ | .assignLinkToSub .. =>
    isTrue trivial

namespace Tables

section Lists

variable {subs : Dict String (Sub G)} {sid sid' uid uid' : String}

/-! ### Lists of groups -/

/-- The lists after an edit of one group. -/
theorem lists_modify {f : Sub G → Sub G} :
    Lists (subs.modify sid f) sid' uid ↔
      (sid' ≠ sid ∧ Lists subs sid' uid) ∨
        (sid' = sid ∧ ∃ sub, subs.get? sid = some sub ∧ uid ∈ (f sub).linkIds) := by
  simp only [Lists, Dict.get?_modify]
  by_cases h : sid' = sid
  · subst h; simp
  · simp [h]

theorem lists_addMember :
    Lists (addMember subs sid uid) sid' uid' ↔
      Lists subs sid' uid' ∨ (sid' = sid ∧ uid' = uid ∧ subs.contains sid) := by
  rw [addMember, lists_modify]
  by_cases h : sid' = sid
  · subst h
    simp only [ne_eq, not_true_eq_false, false_and, true_and, false_or, Lists, Dict.contains]
    cases hsub : subs.get? sid' with
    | none => simp
    | some sub =>
      by_cases hm : uid ∈ sub.linkIds
      · simp only [if_pos hm, Option.some.injEq, exists_eq_left', Option.isSome_some, and_true]
        exact (or_iff_left_of_imp fun hu => hu ▸ hm).symm
      · simp [hm]
  · simp [h]

/-- Removing a link from a group does not concern other links. -/
theorem lists_removeMember_ne (h : uid' ≠ uid) :
    Lists (removeMember subs sid uid) sid' uid' ↔ Lists subs sid' uid' := by
  rw [removeMember, lists_modify]
  by_cases hs : sid' = sid
  · subst hs
    simp [Lists, List.mem_erase_of_ne h]
  · simp [hs]

theorem Lists.of_removeMember (h : Lists (removeMember subs sid uid) sid' uid') :
    Lists subs sid' uid' := by
  rw [removeMember, lists_modify] at h
  rcases h with ⟨-, h⟩ | ⟨rfl, sub, hsub, hm⟩
  · exact h
  · exact ⟨sub, hsub, List.mem_of_mem_erase hm⟩

@[simp] theorem contains_addMember : (addMember subs sid uid).contains sid' = subs.contains sid' := by
  rw [addMember, Dict.contains, Dict.get?_modify, Dict.contains]
  split_ifs <;> simp

@[simp] theorem contains_removeMember :
    (removeMember subs sid uid).contains sid' = subs.contains sid' := by
  rw [removeMember, Dict.contains, Dict.get?_modify, Dict.contains]
  split_ifs <;> simp

end Lists

/-! ### What a request keeps -/

section Step

variable {t : Tables L G}

/-- A link of its own is written with a group that lists it. -/
theorem Consistent.set_link (ht : t.Consistent) {uid : String} {e : Entry L} {subs : Dict String (Sub G)}
    (hothers : ∀ sid u, u ≠ uid → (Lists subs sid u ↔ Lists t.subs sid u))
    (hown : ∀ sid, e.subId = some sid → Lists subs sid uid) :
    (Tables.mk (t.links.set uid e) subs).Consistent where
  listed sid u hu := by
    by_cases h : u = uid
    · subst h; simp [Dict.contains]
    · rw [Dict.contains, Dict.get?_set_ne _ _ (Ne.symm h)]
      exact ht.listed sid u ((hothers sid u h).1 hu)
  grouped u sid := by
    rintro ⟨e', he', hsub⟩
    by_cases h : u = uid
    · subst h
      rw [Dict.get?_set_self, Option.some.injEq] at he'
      exact hown sid (he' ▸ hsub)
    · rw [Dict.get?_set_ne _ _ (Ne.symm h)] at he'
      exact (hothers sid u h).2 (ht.grouped u sid ⟨e', he', hsub⟩)

theorem createLink_consistent (ht : t.Consistent) {uid : String} {link : Option L}
    {subId : SubField} (hn : (Op.createLink uid link subId).Named t) :
    (t.createLink uid link subId).Consistent := by
  cases link with
  | none => exact ht
  | some link =>
    cases hs : subId.orNone with
    | none =>
      simp only [createLink, hs]
      exact ht.set_link (fun _ _ _ => Iff.rfl) fun sid h => by cases h
    | some sid =>
      simp only [createLink, hs]
      refine ht.set_link (fun sid' u hu => ?_) fun sid' h => ?_
      · rw [lists_addMember]
        simp [hu]
      · cases h
        exact lists_addMember.2 (.inr ⟨rfl, rfl, hn sid hs⟩)

theorem updateLink_consistent (ht : t.Consistent) {uid : String} {edit : L → L}
    {raises : Bool} {subId : SubField} (hn : (Op.updateLink uid edit raises subId).Named t) :
    (t.updateLink uid edit raises subId).Consistent := by
  obtain ⟨old, hold⟩ := Option.isSome_iff_exists.1 hn.1
  cases hnew : (if raises then none else subId.change) with
  | none =>
    simp only [updateLink, hold, hnew]
    refine ht.set_link (fun _ _ _ => Iff.rfl) fun sid h => ht.grouped uid sid ⟨old, hold, h⟩
  | some new =>
    have hchange : subId.change = some new := by
      split_ifs at hnew
      exact hnew
    simp only [updateLink, hold, hnew]
    -- first the link leaves its old group, which concerns no other link
    set subs := (match old.subId with
      | none => t.subs
      | some sid => removeMember t.subs sid uid) with hsubs
    have hothers : ∀ sid u, u ≠ uid → (Lists subs sid u ↔ Lists t.subs sid u) := by
      intro sid u hu
      rw [hsubs]
      split
      · exact Iff.rfl
      · exact lists_removeMember_ne hu
    have hcontains : ∀ sid, subs.contains sid = t.subs.contains sid := by
      intro sid
      rw [hsubs]
      split
      · rfl
      · exact contains_removeMember
    cases new with
    | none => exact ht.set_link hothers fun sid h => by cases h
    | some sid =>
      refine ht.set_link (fun sid' u hu => ?_) fun sid' h => ?_
      · rw [lists_addMember, hothers sid' u hu]
        simp [hu]
      · cases h
        exact lists_addMember.2 (.inr ⟨rfl, rfl, by
          rw [hcontains]; exact hn.2 _ hchange sid rfl⟩)

theorem createSub_consistent (ht : t.Consistent) {sid : String} {group : G}
    (hn : (Op.createSub sid group).Named t) : (t.createSub sid group).Consistent := by
  have hnone : t.subs.get? sid = none := by simpa [Op.Named, Dict.contains] using hn
  have hlists : ∀ sid' u, Lists (t.subs.set sid ⟨group, []⟩) sid' u ↔
      Lists t.subs sid' u := by
    intro sid' u
    rw [Lists, Lists, Dict.get?_set]
    by_cases h : sid = sid'
    · subst h; simp [hnone]
    · simp [h]
  exact ⟨fun sid' u hu => ht.listed sid' u ((hlists sid' u).1 hu),
    fun u sid' hu => (hlists sid' u).2 (ht.grouped u sid' hu)⟩

theorem deleteSub_consistent (ht : t.Consistent) (sid : String) : (t.deleteSub sid).Consistent := by
  cases hsub : t.subs.get? sid with
  | none => simpa [deleteSub, hsub] using ht
  | some sub =>
    simp only [deleteSub, hsub]
    have hlists : ∀ sid' u, Lists (t.subs.erase sid) sid' u ↔ Lists t.subs sid' u ∧ sid' ≠ sid := by
      intro sid' u
      rw [Lists, Lists, Dict.get?_erase]
      by_cases h : sid = sid'
      · subst h; simp
      · simp [h, Ne.symm h]
    constructor
    · intro sid' u hu
      have hc := ht.listed sid' u ((hlists sid' u).1 hu).1
      rw [Dict.contains, Dict.get?_mapValues, Option.isSome_map]
      exact hc
    · rintro u sid' ⟨e, he, hes⟩
      rw [Dict.get?_mapValues, Option.map_eq_some_iff] at he
      obtain ⟨e', he', rfl⟩ := he
      split_ifs at hes with h
      refine (hlists sid' u).2 ⟨ht.grouped u sid' ⟨e', he', hes⟩, ?_⟩
      rintro rfl
      exact h hes

theorem assignLinkToSub_consistent (ht : t.Consistent) {sid uid : String} (add : Bool)
    (hn : t.links.contains uid) : (t.assignLinkToSub sid uid add).Consistent := by
  cases hsub : t.subs.get? sid with
  | none => simpa [assignLinkToSub, hsub] using ht
  | some sub =>
    simp only [assignLinkToSub, hsub]
    have hcontains : ∀ f u, (t.links.modify uid f).contains u = t.links.contains u := by
      intro f u
      rw [Dict.contains, Dict.get?_modify, Dict.contains]
      split_ifs <;> simp
    constructor
    · intro sid' u hu
      rw [hcontains]
      cases add with
      | false => exact ht.listed sid' u (Lists.of_removeMember hu)
      | true =>
        rcases lists_addMember.1 hu with hu | ⟨-, rfl, -⟩
        · exact ht.listed sid' u hu
        · exact hn
    · rintro u sid' ⟨e, he, hes⟩
      rw [Dict.get?_modify] at he
      by_cases hu : u = uid
      · subst hu
        rw [if_pos rfl, Option.map_eq_some_iff] at he
        obtain ⟨e', he', rfl⟩ := he
        cases add with
        | false => cases hes
        | true =>
          cases hes
          exact lists_addMember.2 (.inr ⟨rfl, rfl, by rw [Dict.contains, hsub]; rfl⟩)
      · rw [if_neg hu] at he
        have hl := ht.grouped u sid' ⟨e, he, hes⟩
        cases add with
        | false => exact (lists_removeMember_ne hu).2 hl
        | true => exact lists_addMember.2 (.inl hl)

/-- The lists after a link was deleted. -/
theorem deleteLink_consistent_iff (ht : t.Consistent) {uid : String}
    (hn : t.links.contains uid) :
    (t.deleteLink uid).Consistent ↔ Safe t (.deleteLink uid) := by
  obtain ⟨old, hold⟩ := Option.isSome_iff_exists.1 hn
  simp only [deleteLink, hold]
  set subs := (match old.subId with
    | none => t.subs
    | some sid => removeMember t.subs sid uid) with hsubs
  have hothers : ∀ sid u, u ≠ uid → (Lists subs sid u ↔ Lists t.subs sid u) := by
    intro sid u hu
    rw [hsubs]
    split
    · exact Iff.rfl
    · exact lists_removeMember_ne hu
  -- the deleted link itself is still listed exactly where the deletion was not safe
  have hself : (∀ sid, ¬ Lists subs sid uid) ↔ Safe t (.deleteLink uid) := by
    have hown : ∀ sid, InGroup t.links uid sid ↔ old.subId = some sid := by
      intro sid
      simp [InGroup, hold]
    simp only [Safe, hown, hsubs]
    cases old.subId with
    | none => simp [Lists]
    | some own =>
      simp only [removeMember, lists_modify, Option.some.injEq]
      constructor
      · intro h sid sub hsub hm
        have hsid : own = sid := by
          by_contra hne
          exact h sid (.inl ⟨Ne.symm hne, sub, hsub, hm⟩)
        refine ⟨hsid, ?_⟩
        subst hsid
        have hnot : uid ∉ sub.linkIds.erase uid := fun hm' => h own (.inr ⟨rfl, sub, hsub, hm'⟩)
        rw [← List.count_eq_zero, List.count_erase_self] at hnot
        have hpos := List.count_pos_iff.2 hm
        omega
      · rintro h sid (⟨hne, sub, hsub, hm⟩ | ⟨rfl, sub, hsub, hm⟩)
        · exact hne (h sid sub hsub hm).1.symm
        · have hcount := (h sid sub hsub (List.mem_of_mem_erase hm)).2
          rw [← List.count_pos_iff, List.count_erase_self] at hm
          omega
  rw [← hself]
  constructor
  · intro h sid hl
    have hc := h.listed sid uid hl
    simp [Dict.contains] at hc
  · intro h
    constructor
    · intro sid u hu
      have hne : u ≠ uid := by
        rintro rfl
        exact h sid hu
      rw [Dict.contains, Dict.get?_erase_ne _ (Ne.symm hne)]
      exact ht.listed sid u ((hothers sid u hne).1 hu)
    · rintro u sid ⟨e, he, hes⟩
      rw [Dict.get?_erase] at he
      split_ifs at he with hne
      exact (hothers sid u (Ne.symm hne)).2 (ht.grouped u sid ⟨e, he, hes⟩)

/-- The lists after the list of a group was replaced. -/
theorem updateSub_consistent_iff (ht : t.Consistent) {sid : String} {edit : G → G}
    {linkIds : Option (List String)} (hn : (Op.updateSub sid edit linkIds).Named t) :
    (t.updateSub sid edit linkIds).Consistent ↔ Safe t (.updateSub sid edit linkIds) := by
  obtain ⟨sub, hsub⟩ := Option.isSome_iff_exists.1 hn.1
  have hlists : ∀ sid' u, Lists (t.updateSub sid edit linkIds).subs sid' u ↔
      (sid' ≠ sid ∧ Lists t.subs sid' u) ∨ (sid' = sid ∧ u ∈ linkIds.getD sub.linkIds) := by
    intro sid' u
    rw [updateSub, lists_modify]
    simp [hsub]
  have hlisted : ∀ u, u ∈ sub.linkIds → t.links.contains u := fun u hu =>
    ht.listed sid u ⟨sub, hsub, hu⟩
  have hgrouped : ∀ u, InGroup t.links u sid → u ∈ sub.linkIds := by
    intro u hu
    obtain ⟨sub', hsub', hm⟩ := ht.grouped u sid hu
    rw [hsub, Option.some.injEq] at hsub'
    exact hsub' ▸ hm
  constructor
  · intro h ids hids u hu
    have hl := (hlists sid u).1 (h.grouped u sid hu)
    simpa [Option.mem_def.1 hids] using hl
  · intro h
    constructor
    · intro sid' u hu
      rcases (hlists sid' u).1 hu with ⟨-, hu⟩ | ⟨-, hu⟩
      · exact ht.listed sid' u hu
      · cases hids : linkIds with
        | none => exact hlisted u (by simpa [hids] using hu)
        | some ids => exact hn.2 ids hids u (by simpa [hids] using hu)
    · intro u sid' hu
      by_cases hs : sid' = sid
      · subst hs
        refine (hlists sid' u).2 (.inr ⟨rfl, ?_⟩)
        cases hids : linkIds with
        | none => exact hgrouped u hu
        | some ids => exact h ids hids u hu
      · exact (hlists sid' u).2 (.inl ⟨hs, ht.grouped u sid' hu⟩)

end Step

end Tables

/-- **One request** keeps the tables consistent exactly when it is safe. -/
theorem consistent_step_iff {t t' : Tables L G} {op : Op L G} (ht : t.Consistent)
    (h : machine.step t op = some t') : t'.Consistent ↔ Safe t op := by
  simp only [machine] at h
  split_ifs at h with hn
  cases h
  cases op with
  | createLink uid link subId => exact iff_of_true (Tables.createLink_consistent ht hn) trivial
  | updateLink uid edit raises subId => exact iff_of_true (Tables.updateLink_consistent ht hn) trivial
  | deleteLink uid => exact Tables.deleteLink_consistent_iff ht hn
  | createSub sid group => exact iff_of_true (Tables.createSub_consistent ht hn) trivial
  | updateSub sid edit linkIds => exact Tables.updateSub_consistent_iff ht hn
  | deleteSub sid => exact iff_of_true (Tables.deleteSub_consistent ht sid) trivial
  | assignLinkToSub sid uid add =>
    exact iff_of_true (Tables.assignLinkToSub_consistent ht add hn.2) trivial

theorem empty_consistent : (Tables.mk ∅ ∅ : Tables L G).Consistent where
  listed := by rintro sid uid ⟨sub, hsub, -⟩; cases hsub
  grouped := by rintro uid sid ⟨e, he, -⟩; cases he

/-- **The tables are consistent throughout a run from the empty state exactly when every request of
the run is safe.** -/
theorem consistent_iff_safe {ops : List (Op L G)} {t : Tables L G}
    (h : machine.run ⟨∅, ∅⟩ ops = some t) :
    (∀ ops' t', ops' <+: ops → machine.run ⟨∅, ∅⟩ ops' = some t' → t'.Consistent) ↔
      machine.Along Safe ⟨∅, ∅⟩ ops :=
  Machine.invariant_iff_along (fun _ _ _ ht hstep => consistent_step_iff ht hstep) h empty_consistent

/-- The link of the runs below. -/
def someLink : Link := ⟨"vless-ws", none, 0, true, .never, 0, 0⟩

/-- A link is created in the group `g` and moved to `h`, the lists of the groups are replaced, and the
link is taken out of its group and deleted; another one is deleted from its group. -/
def movesAndDeletes : List (Op Link String) :=
  [.createSub "g" "family", .createSub "h" "friends",
    .createLink "u" (some someLink) (.text "g"), .createLink "v" (some someLink) (.text ""),
    .updateLink "u" id false (.text "h"), .assignLinkToSub "g" "v" true,
    .updateSub "h" id (some ["u"]), .updateSub "g" (fun _ => "home") none,
    .assignLinkToSub "h" "u" false, .deleteLink "u", .deleteLink "v", .deleteSub "h"]

/-- Behind every request the two tables agree. -/
theorem consistent_iff_safe_movesAndDeletes : ∃ t, machine.run ⟨∅, ∅⟩ movesAndDeletes = some t ∧
    t.subs.entries = [("g", ⟨"home", []⟩)] ∧
      ∀ ops' t', ops' <+: movesAndDeletes → machine.run ⟨∅, ∅⟩ ops' = some t' → t'.Consistent := by
  have hview : (machine.run ⟨∅, ∅⟩ movesAndDeletes).map (fun t => t.subs.entries) =
      some [("g", ⟨"home", []⟩)] := by
    decide +kernel
  obtain ⟨t, ht, hentries⟩ := Option.map_eq_some_iff.1 hview
  have hsafe : machine.Along Safe ⟨∅, ∅⟩ movesAndDeletes := by decide +kernel
  exact ⟨t, ht, hentries, (consistent_iff_safe ht).2 hsafe⟩

/-- A link is assigned to the group `g` and then to the group `h`, which is its group from then on.
When it is deleted, `g` still lists it. -/
theorem deleted_link_stays_listed :
    ¬ ∀ (ops : List (Op Link String)) t, machine.run ⟨∅, ∅⟩ ops = some t → t.Consistent := by
  let ops : List (Op Link String) :=
    [.createSub "g" "family", .createSub "h" "friends",
      .createLink "u" (some someLink) .absent, .assignLinkToSub "g" "u" true,
      .assignLinkToSub "h" "u" true, .deleteLink "u"]
  intro h
  obtain ⟨t, ht⟩ := Option.isSome_iff_exists.1
    (by decide +kernel : (machine.run ⟨∅, ∅⟩ ops).isSome = true)
  have hend : (machine.run ⟨∅, ∅⟩ ops).map (fun t => (t.links.contains "u", t.subs.get? "g")) =
      some (false, some ⟨"family", ["u"]⟩) := by
    decide +kernel
  rw [ht, Option.map_some, Option.some.injEq, Prod.mk.injEq] at hend
  have hlisted := (h ops t ht).listed "g" "u" ⟨_, hend.2, by simp⟩
  rw [hend.1] at hlisted
  cases hlisted

end Groups

end RvgGateway
