import RvgGateway.Links.Link

/-!
# The table of Trojan password hashes

`_TrojanHashCache` of `protocol/trojan/trojan.py`.  A Trojan client names its user by the SHA-224 of
the user's identifier; the cache maps hashes back to identifiers and is rebuilt when the number of
links differs from the one it was built from.
-/

namespace RvgGateway

namespace Trojan

/-- `_TrojanHashCache`. -/
structure HashCache where
  /-- `_cache`. -/
  cache : Dict String String
  /-- `_snapshot_len`. -/
  snapshotLen : ℤ

namespace HashCache

/-- `__init__`. -/
def init : HashCache := ⟨∅, -1⟩

/-- `_rebuild`; `sha224` is `hashlib.sha224(uid.encode()).hexdigest()`. -/
def rebuild (sha224 : String → String) (links : Links) : HashCache :=
  ⟨Dict.collect (fun uid => some (sha224 uid, uid)) links.keys, links.size⟩

/-- `find_uuid`: the user with this hash, and the cache afterwards. -/
def findUuid (sha224 : String → String) (c : HashCache) (links : Links) (pwHash : String) :
    Option String × HashCache :=
  let c := if (links.size : ℤ) ≠ c.snapshotLen then rebuild sha224 links else c
  (c.cache.get? pwHash, c)

/-- A lookup asks the links for their keys only. -/
theorem findUuid_congr (sha224 : String → String) (c : HashCache) {links links' : Links}
    (h : links'.keys = links.keys) (pwHash : String) :
    c.findUuid sha224 links' pwHash = c.findUuid sha224 links pwHash := by
  have hsize : links'.size = links.size := by
    simpa [Dict.size, Dict.keys] using congrArg List.length h
  unfold findUuid rebuild
  rw [h, hsize]

end HashCache

end Trojan

end RvgGateway
