import RvgGateway.Ports.Sync
import RvgGateway.Trojan.HashCache

/-!
# Is the table of password hashes up to date?

`find_uuid_by_trojan_hash` rebuilds its table when the number of links differs from the number at
the last rebuild.  Requests that leave the number as it was go unnoticed: one link deleted and
another one created, or a backup with as many links.

* `HashCache.get?_rebuild` : right after a rebuild the table is right.
* `Coherent` : the lookup answers what `LINKS` says.
* `coherent_iff_unmoved` : **a run is coherent exactly when every lookup that finds the old number of
  links asks for a user who was in `LINKS` at the last rebuild if and only if he is now.**
-/

namespace RvgGateway

namespace Trojan

open Ports (Panel Host)

/-- A table that was built from the keys `uids`. -/
def HashCache.ofKeys (sha224 : String → String) (uids : List String) : HashCache :=
  ⟨Dict.collect (fun uid => some (sha224 uid, uid)) uids, uids.length⟩

/-- With distinct hashes the table holds exactly the users that it was built from. -/
theorem HashCache.get?_ofKeys {sha224 : String → String} (hinj : Function.Injective sha224)
    {uids : List String} {pwHash uid : String} :
    (HashCache.ofKeys sha224 uids).cache.get? pwHash = some uid ↔
      uid ∈ uids ∧ sha224 uid = pwHash := by
  have hentry : ∀ uid', Dict.entryAt pwHash (some (sha224 uid', uid')) =
      if sha224 uid' = pwHash then some uid' else none := fun _ => rfl
  unfold HashCache.ofKeys
  rw [Dict.get?_collect]
  constructor
  · intro hlast
    obtain ⟨uid', hmem, hsome⟩ := List.mem_filterMap.1 (List.mem_of_getLast? hlast)
    rw [hentry] at hsome
    split_ifs at hsome with hsha
    cases hsome
    exact ⟨hmem, hsha⟩
  · rintro ⟨hmem, hsha⟩
    -- no other user has this hash
    rw [Dict.getLast?_filterMap_of_unique hmem fun uid' _ => ?_, hentry, if_pos hsha]
    rw [hentry]
    by_cases hsha' : sha224 uid' = pwHash
    · exact .inl (hinj (hsha'.trans hsha.symm))
    · exact .inr (if_neg hsha')

theorem HashCache.rebuild_eq (sha224 : String → String) (links : Links) :
    HashCache.rebuild sha224 links = HashCache.ofKeys sha224 links.keys := by
  unfold HashCache.rebuild HashCache.ofKeys Dict.size Dict.keys
  rw [List.length_map]

/-! ### The panel with its cache -/

/-- `LINKS` and the cache. -/
structure Directory where
  panel : Panel
  /-- `_hash_cache`. -/
  cache : HashCache
  /-- The keys of `LINKS` at the last `_rebuild`.  The program does not keep them. -/
  built : Option (List String)

/-- What happens to them. -/
inductive DirectoryOp where
  /-- A request that changes `LINKS`. -/
  | request (op : Ports.Op)
  /-- `find_uuid_by_trojan_hash(pw_hash)`. -/
  | lookup (pwHash : String)

namespace Directory

/-- A panel whose cache was not used yet. -/
def init (panel : Panel) : Directory := ⟨panel, .init, none⟩

/-- `find_uuid_by_trojan_hash`. -/
def findUuidByTrojanHash (sha224 : String → String) (s : Directory) (pwHash : String) :
    Option String × Directory :=
  let res := s.cache.findUuid sha224 s.panel.links pwHash
  let built :=
    if (s.panel.links.size : ℤ) ≠ s.cache.snapshotLen then some s.panel.links.keys else s.built
  (res.1, { s with cache := res.2, built })

end Directory

/-- Requests and lookups in any order. -/
def directoryMachine (h : Host) (sha224 : String → String) : Machine Directory DirectoryOp where
  step s
    | .request op => some { s with panel := Ports.complete h s.panel op }
    | .lookup pwHash => some (s.findUuidByTrojanHash sha224 pwHash).2

/-- A lookup answers `uid` exactly when `uid` is in `LINKS` and has the hash. -/
def Coherent (sha224 : String → String) (s : Directory) : DirectoryOp → Prop
  | .request _ => True
  | .lookup pwHash => ∀ uid, (s.findUuidByTrojanHash sha224 pwHash).1 = some uid ↔
      uid ∈ s.panel.links.keys ∧ sha224 uid = pwHash

/-- A lookup that finds as many links as there were at the last rebuild asks for a user who was in
`LINKS` then if and only if he is now. -/
def Unmoved (sha224 : String → String) (s : Directory) : DirectoryOp → Prop
  | .request _ => True
  | .lookup pwHash => ∀ uids, s.built = some uids → uids.length = s.panel.links.size →
      ∀ uid, sha224 uid = pwHash → (uid ∈ s.panel.links.keys ↔ uid ∈ uids)

/-! ### Runs -/

variable {sha224 : String → String} {s s' : Directory} {h : Host} {op : DirectoryOp}

/-- The cache is the table for the keys of the last rebuild. -/
def Directory.Built (sha224 : String → String) (s : Directory) : Prop :=
  match s.built with
  | none => s.cache = .init
  | some uids => s.cache = .ofKeys sha224 uids

theorem built_lookup (hs : s.Built sha224) (pwHash : String) :
    (s.findUuidByTrojanHash sha224 pwHash).2.Built sha224 := by
  unfold Directory.findUuidByTrojanHash HashCache.findUuid
  by_cases hsize : (s.panel.links.size : ℤ) ≠ s.cache.snapshotLen
  · simp only [if_pos hsize]
    exact HashCache.rebuild_eq sha224 s.panel.links
  · simp only [if_neg hsize]
    exact hs

theorem built_step (hs : s.Built sha224) (hstep : (directoryMachine h sha224).step s op = some s') :
    s'.Built sha224 := by
  cases op with
  | request op =>
    cases hstep
    exact hs
  | lookup pwHash =>
    cases hstep
    exact built_lookup hs pwHash

/-- **One lookup.**  After a rebuild the answer is right; without one it is the answer for the keys
of the last rebuild. -/
theorem coherent_lookup_iff (hinj : Function.Injective sha224) (hs : s.Built sha224)
    (pwHash : String) : Coherent sha224 s (.lookup pwHash) ↔ Unmoved sha224 s (.lookup pwHash) := by
  unfold Coherent Unmoved Directory.findUuidByTrojanHash HashCache.findUuid
  unfold Directory.Built at hs
  cases hbuilt : s.built with
  | none =>
    -- no table yet: the first lookup builds it
    rw [hbuilt] at hs
    have hsize : (s.panel.links.size : ℤ) ≠ s.cache.snapshotLen := by
      rw [hs]
      show (_ : ℤ) ≠ -1
      omega
    rw [if_pos hsize, HashCache.rebuild_eq]
    refine ⟨fun _ uids heq => (by cases heq), fun _ uid => HashCache.get?_ofKeys hinj⟩
  | some uids =>
    rw [hbuilt] at hs
    have hlen : s.cache.snapshotLen = uids.length := by rw [hs, HashCache.ofKeys]
    by_cases hsize : uids.length = s.panel.links.size
    · rw [if_neg (by rw [hlen, hsize]; simp), hs]
      constructor
      · intro hcoherent uids' heq _ uid hsha
        cases heq
        have hanswer := (HashCache.get?_ofKeys hinj).symm.trans (hcoherent uid)
        simpa [hsha] using hanswer.symm
      · intro hsame uid
        refine (HashCache.get?_ofKeys hinj).trans (and_congr_left fun hsha => ?_)
        exact (hsame uids rfl hsize uid hsha).symm
    · rw [if_pos (by rw [hlen]; exact_mod_cast Ne.symm hsize), HashCache.rebuild_eq]
      refine ⟨fun _ uids' heq hsame => ?_, fun _ uid => HashCache.get?_ofKeys hinj⟩
      cases heq
      exact absurd hsame hsize

/-- **The cache is coherent in exactly the runs in which no lookup asks for a user that came or went
unnoticed.** -/
theorem coherent_iff_unmoved (h : Host) (hinj : Function.Injective sha224) (panel : Panel)
    (ops : List DirectoryOp) :
    (directoryMachine h sha224).Along (Coherent sha224) (.init panel) ops ↔
      (directoryMachine h sha224).Along (Unmoved sha224) (.init panel) ops := by
  refine Machine.along_iff (I := Directory.Built sha224) (fun _ _ _ hs _ hstep => built_step hs hstep)
    (fun s op hs => ?_) rfl
  cases op with
  | request op => exact Iff.rfl
  | lookup pwHash => exact coherent_lookup_iff hinj hs pwHash

/-- A user is created and looked up. -/
def createAndFind : List DirectoryOp :=
  [.request (.createLink "a" (fun _ => true) Ports.webSocketBody (.started 0)), .lookup "a"]

/-- Then the user is disabled and looked up again, and deleted and looked up once more. -/
def findAgain : List DirectoryOp :=
  createAndFind ++ [.request (.updateLink "a" Ports.disableBody (.started 0)), .lookup "a",
    .request (.deleteLink "a"), .lookup "a"]

/-- The second lookup finds the number of links unchanged, and the user still among them; the third
one rebuilds the table. -/
theorem coherent_iff_unmoved_findAgain :
    (directoryMachine Ports.openHost id).Along (Coherent id)
      (.init (Ports.started Ports.openHost ∅ Ports.firstBoot)) findAgain := by
  refine (coherent_iff_unmoved Ports.openHost Function.injective_id _ findAgain).2
    ⟨trivial, fun s₁ h₁ => ?_⟩
  cases h₁
  refine ⟨fun uids heq => (by cases heq), fun s₂ h₂ => ?_⟩
  cases h₂
  refine ⟨trivial, fun s₃ h₃ => ?_⟩
  cases h₃
  refine ⟨fun uids heq _ uid hsha => ?_, fun s₄ h₄ => ?_⟩
  · cases heq
    obtain rfl : uid = "a" := hsha
    exact iff_of_true (by decide +kernel) (by decide +kernel)
  · cases h₄
    refine ⟨trivial, fun s₅ h₅ => ?_⟩
    cases h₅
    refine ⟨fun uids heq hsize => ?_, fun _ _ => trivial⟩
    cases heq
    exact absurd hsize (by decide +kernel)

/-- After `createAndFind` the user is deleted and another one created. -/
def replaceUser : List DirectoryOp :=
  createAndFind ++ [.request (.deleteLink "a"),
    .request (.createLink "b" (fun _ => true) Ports.webSocketBody (.started 0))]

/-- The deleted user is still found. -/
theorem deleted_user_is_found :
    ¬ (directoryMachine Ports.openHost id).Along (Coherent id)
      (.init (Ports.started Ports.openHost ∅ Ports.firstBoot)) (replaceUser ++ [.lookup "a"]) := by
  intro hrun
  have hanswer : ((directoryMachine Ports.openHost id).run
      (.init (Ports.started Ports.openHost ∅ Ports.firstBoot)) replaceUser).map (fun s =>
        ((s.findUuidByTrojanHash id "a").1, s.panel.links.keys)) =
        some (some "a", ["b"]) := by
    decide +kernel
  obtain ⟨s, hs, heq⟩ := Option.map_eq_some_iff.1 hanswer
  obtain ⟨hfound, hkeys⟩ := Prod.mk.inj heq
  have hcoherent : Coherent id s (.lookup "a") := hrun.last hs
  have hin := ((hcoherent "a").1 hfound).1
  rw [hkeys] at hin
  exact absurd hin (by decide)

end Trojan

end RvgGateway
