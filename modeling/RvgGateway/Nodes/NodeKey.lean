import RvgGateway.Lib.Lines
import RvgGateway.Lib.ReadBack
import RvgGateway.Nodes.Access

/-!
# The text of a node key

A node key carries the host of its panel in Base64, without padding, and a secret behind a dot.
`build_node_key` writes it, and `parse_node_key` of the other panel reads it.

* `buildNodeKey` : `build_node_key`.
* `HostText`, `SecretText` : what a key can carry, which is what `parse_node_key` returns.
* `nodeKey_roundTrip` : **keys are read back**, and what is read from a key is what a key can carry.
-/

namespace RvgGateway

namespace Nodes

/-- `_b64u_encode`. -/
def b64uEncode (s : String) : String := Str.rstrip '=' (Str.urlsafeB64encode s)

/-- `build_node_key`. -/
def buildNodeKey (host secret : String) : String :=
  nodeKeyPrefix ++ b64uEncode host ++ "." ++ secret

/-- A host that a key can carry. -/
structure HostText (host : String) : Prop where
  nonempty : host ≠ ""
  stripped : Str.strip host = host
  no_slash : Str.contains "/" host = false
  no_space : Str.contains " " host = false

/-- A secret that a key can carry. -/
structure SecretText (secret : String) : Prop where
  nonempty : secret ≠ ""
  /-- There is no white space behind it. -/
  last : ∀ ch ∈ secret.toList.getLast?, Str.isSpace ch = false

theorem b64uDecode_encode (s : String) : b64uDecode (b64uEncode s) = some s := by
  have hbytes := Str.urlsafeB64decode_padded s
  unfold b64uDecode b64uEncode
  dsimp only at hbytes ⊢
  rw [hbytes, Option.bind_some, Bytes.decodeStrict_encode, Option.map_some, String.ofList_toList]

/-! ### Reading a key -/

/-- A key that is accepted consists of the prefix, a coded host, a dot and a secret. -/
theorem parseNodeKey_eq_ok {key host secret : String}
    (h : parseNodeKey key = .ok (host, secret)) :
    ∃ front text, (Str.strip key).toList = front ++ secret.toList ∧ secret ≠ "" ∧
      host = Str.strip text ∧ host ≠ "" ∧ Str.contains "/" host = false ∧
      Str.contains " " host = false := by
  simp only [parseNodeKey] at h
  split_ifs at h with hpre hdot hsecret
  cases htext : b64uDecode (String.ofList
      ((List.drop nodeKeyPrefix.toList.length (Str.strip key).toList).takeWhile (· ≠ '.'))) with
  | none =>
    rw [htext] at h
    cases h
  | some text =>
    rw [htext] at h
    dsimp only at h
    split_ifs at h with hhost
    cases h
    simp only [Bool.or_eq_true, decide_eq_true_eq, not_or, Bool.not_eq_true] at hhost
    set body := List.drop nodeKeyPrefix.toList.length (Str.strip key).toList with hbody
    have hmem : '.' ∈ body := by simpa using hdot
    refine ⟨(Str.strip key).toList.take nodeKeyPrefix.toList.length ++
      (body.takeWhile (· ≠ '.') ++ ['.']), text, ?_, hsecret, rfl, hhost.1.1, hhost.1.2, hhost.2⟩
    rw [String.toList_ofList, List.append_assoc, List.append_assoc, List.singleton_append,
      ← Str.eq_cut hmem, hbody, List.take_append_drop]

/-- A key that is built is read back. -/
theorem parseNodeKey_build {host secret : String} (hh : HostText host) (hs : SecretText secret) :
    parseNodeKey (buildNodeKey host secret) = .ok (host, secret) := by
  have htext : (buildNodeKey host secret).toList =
      nodeKeyPrefix.toList ++ ((b64uEncode host).toList ++ '.' :: secret.toList) := by
    rw [buildNodeKey, String.toList_append, String.toList_append, String.toList_append,
      List.append_assoc, List.append_assoc]
    rfl
  have hne : secret.toList ≠ [] := fun hnil => hs.nonempty (String.toList_eq_nil_iff.1 hnil)
  have hstrip : Str.strip (buildNodeKey host secret) = buildNodeKey host secret := by
    refine Str.strip_of_trimmed ⟨?_, ?_⟩
    · rw [htext]
      intro ch hch
      cases hch
      decide
    · rw [htext, List.getLast?_append_of_ne_nil _ (by simp),
        List.getLast?_append_of_ne_nil _ (by simp), List.getLast?_cons_of_ne_nil hne]
      exact hs.last
  have hpre : Str.startsWith nodeKeyPrefix (buildNodeKey host secret) = true := by
    rw [Str.startsWith, htext, List.isPrefixOf_iff_prefix]
    exact List.prefix_append _ _
  have hnodot : '.' ∉ (b64uEncode host).toList := Str.dot_notMem_rstrip host
  obtain ⟨htake, hdrop⟩ := Str.cut_append hnodot secret.toList
  have hdot : ((b64uEncode host).toList ++ '.' :: secret.toList).contains '.' = true := by simp
  have hhost : ¬ (decide (host = "") || Str.contains "/" host || Str.contains " " host) = true := by
    simp [hh.nonempty, hh.no_slash, hh.no_space]
  unfold parseNodeKey
  dsimp only
  rw [hstrip, hpre, htext, List.drop_left' rfl, hdot, htake, hdrop, List.tail_cons,
    String.ofList_toList, String.ofList_toList, b64uDecode_encode]
  simp only [Bool.not_true, Bool.false_eq_true, if_false, if_neg hs.nonempty, hh.stripped,
    if_neg hhost]

/-- What is read from a key is what a key can carry. -/
theorem texts_of_parseNodeKey {key host secret : String}
    (h : parseNodeKey key = .ok (host, secret)) : HostText host ∧ SecretText secret := by
  obtain ⟨front, text, hkey, hsecret, rfl, hhost, hslash, hspace⟩ := parseNodeKey_eq_ok h
  refine ⟨⟨hhost, Str.strip_strip text, hslash, hspace⟩, hsecret, ?_⟩
  have hne : secret.toList ≠ [] := fun hnil => hsecret (String.toList_eq_nil_iff.1 hnil)
  have hlast := (Str.trimmed_strip key).last
  rw [hkey, List.getLast?_append_of_ne_nil _ hne] at hlast
  exact hlast

/-- **Node keys are read back**: a host and a secret that a key can carry, and whatever was read from
a key before. -/
theorem nodeKey_roundTrip :
    (∀ host secret, HostText host → SecretText secret →
      parseNodeKey (buildNodeKey host secret) = .ok (host, secret)) ∧
    ∀ key host secret, parseNodeKey key = .ok (host, secret) →
      parseNodeKey (buildNodeKey host secret) = .ok (host, secret) := by
  refine ⟨fun host secret hh hs => parseNodeKey_build hh hs, fun key host secret h => ?_⟩
  obtain ⟨hh, hs⟩ := texts_of_parseNodeKey h
  exact parseNodeKey_build hh hs

/-- The key of the panel `localhost`, and a key with padding and with a dot in its secret. -/
theorem nodeKey_roundTrip_localhost :
    parseNodeKey (buildNodeKey "localhost" "secret") = .ok ("localhost", "secret") ∧
      parseNodeKey (buildNodeKey "b.io" "s.t") = .ok ("b.io", "s.t") := by
  have hpadded : (parseNodeKey " rvg-Yi5pbw==.s.t").toOption = some ("b.io", "s.t") := by
    decide +kernel
  have hlast : ∀ ch ∈ "secret".toList.getLast?, Str.isSpace ch = false :=
    (by decide : Str.Trimmed "secret".toList).last
  exact ⟨nodeKey_roundTrip.1 _ _ ⟨by decide, by decide, by decide, by decide⟩ ⟨by decide, hlast⟩,
    nodeKey_roundTrip.2 " rvg-Yi5pbw==.s.t" _ _ (ok_of_toOption hpadded)⟩

end Nodes

end RvgGateway
