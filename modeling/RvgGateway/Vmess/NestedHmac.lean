import RvgGateway.Vmess.Kdf

/-!
# The key derivation is a nested HMAC

The chain of `kdf` shares one mutable object between all its hashes: summing a link sums the link
below it, resets it, and sums it again.  What comes out is nevertheless the textbook function: HMAC
over HMAC over … over SHA-256, one level for every salt.

* `hmac H k` : HMAC with the key `k` over the hash function `H`.
* `nestedHmac` : the levels for a list of salts.
* `BaseHMAC.Holds` : the bottom of a chain after some writes, which is all the state there is.
* `kdf_eq_nestedHmac` : **`kdf` computes the nested HMAC.**
-/

namespace RvgGateway

namespace Vmess

/-- HMAC over `H` with a key of at most 64 bytes. -/
def hmac (H : Bytes → Bytes) (k m : Bytes) : Bytes := H (pad 0x5C k ++ H (pad 0x36 k ++ m))

variable (c : Crypto)

/-- HMAC over SHA-256 with the key `VMess AEAD KDF`, and one HMAC over that for every salt. -/
def nestedHmac (salts : List Bytes) : Bytes → Bytes :=
  salts.foldl hmac (hmac c.sha256 kdfSaltVmessAeadKdf)

/-- `closed_form_kdf1`. -/
def closedFormKdf1 (key salt : Bytes) : Bytes :=
  let ipadK := pad 0x36 kdfSaltVmessAeadKdf
  let opadK := pad 0x5C kdfSaltVmessAeadKdf
  let ipadS := pad 0x36 salt
  let opadS := pad 0x5C salt
  let s := c.sha256 (ipadK ++ ipadS ++ key)
  let db := c.sha256 (opadK ++ s)
  let s := c.sha256 (ipadK ++ opadS ++ db)
  c.sha256 (opadK ++ s)

/-! ### The state of a chain -/

/-- The pads at the bottom of every chain. -/
def basePads : Pads := padsOf kdfSaltVmessAeadKdf

/-- What is written to the bottom before any message: the inner pads from the bottom up. -/
def preamble : List Pads → Bytes
  | [] => basePads.ipad
  | l :: links => preamble links ++ l.ipad

/-- The function that a chain with these links computes. -/
def digest : List Pads → Bytes → Bytes
  | [], m => c.sha256 (basePads.opad ++ c.sha256 (basePads.ipad ++ m))
  | l :: links, m => digest links (l.opad ++ digest links (l.ipad ++ m))

/-- The bottom of a chain to which `written` was written since the last reset; its outer hash does
not matter, and what it has saved are its pads. -/
structure BaseHMAC.Holds (b : BaseHMAC) (written : Bytes) : Prop where
  pads : b.pads = basePads
  inner : b.inner = written
  marshaled : b.marshaled = none ∨ b.marshaled = some (basePads.ipad, basePads.opad)

variable {c} {b : BaseHMAC} {written m : Bytes}

theorem BaseHMAC.holds_init : (BaseHMAC.init c kdfSaltVmessAeadKdf).Holds basePads.ipad :=
  ⟨rfl, rfl, .inl rfl⟩

theorem BaseHMAC.Holds.write (h : b.Holds written) (p : Bytes) :
    (b.write p).Holds (written ++ p) :=
  ⟨h.pads, congrArg (· ++ p) h.inner, h.marshaled⟩

theorem BaseHMAC.Holds.reset (h : b.Holds written) : b.reset.Holds basePads.ipad := by
  unfold BaseHMAC.reset
  rcases h.marshaled with hm | hm
  · rw [hm, h.pads]
    exact ⟨rfl, rfl, .inr rfl⟩
  · rw [hm]
    exact ⟨h.pads, rfl, .inr rfl⟩

/-- Both ways of preparing the outer hash give the outer pad. -/
theorem BaseHMAC.Holds.sum (h : b.Holds written) :
    (b.sum c).1 = c.sha256 (basePads.opad ++ c.sha256 written) ∧ ∃ w, (b.sum c).2.Holds w := by
  unfold BaseHMAC.sum
  refine ⟨?_, written, h.pads, h.inner, h.marshaled⟩
  rcases h.marshaled with hm | hm
  · rw [hm, h.pads, h.inner]
  · rw [hm, h.inner]

/-- A reset of the link on top resets the bottom and writes the inner pads again. -/
theorem resetAux_holds (links : List Pads) (h : b.Holds written) :
    (Chain.resetAux links b).Holds (preamble links) := by
  induction links with
  | nil => exact h.reset
  | cons l links ih => exact ih.write l.ipad

/-- **Summing a link** gives the digest of the message behind the inner pads.  The links below are
summed twice, with a reset in between, so the induction is on the links for all states. -/
theorem sumAux_holds (links : List Pads) (h : b.Holds (preamble links ++ m)) :
    (Chain.sumAux c links b).1 = digest c links m ∧ ∃ w, (Chain.sumAux c links b).2.Holds w := by
  induction links generalizing b m with
  | nil => exact h.sum
  | cons l links ih =>
    -- the inner sum: the pad of this link is the start of the message of the link below
    rw [preamble, List.append_assoc] at h
    obtain ⟨hinner, w, hw⟩ := ih h
    -- the outer sum, on the same object
    have houter := ((resetAux_holds links hw).write l.opad).write (Chain.sumAux c links b).1
    rw [List.append_assoc] at houter
    obtain ⟨hsum, hrest⟩ := ih houter
    refine ⟨?_, hrest⟩
    rw [digest, ← hinner]
    exact hsum

/-! ### Chains of salts -/

/-- A chain that is ready for a message. -/
def Chain.Ready (h : Chain) : Prop := h.base.Holds (preamble h.links)

theorem Chain.Ready.sum {h : Chain} (hr : h.Ready) (key : Bytes) :
    ((h.write key).sum c).1 = digest c h.links key :=
  (sumAux_holds h.links (hr.write key)).1

/-- A link for a salt that needs no hashing. -/
theorem Chain.Ready.link {h : Chain} (hr : h.Ready) {salt : Bytes} (hsalt : salt.length ≤ 64) :
    (h.link c salt).Ready ∧ digest c (h.link c salt).links = hmac (digest c h.links) salt := by
  have heq : h.link c salt =
      { links := padsOf salt :: h.links, base := h.base.write (padsOf salt).ipad } := by
    unfold Chain.link
    rw [if_neg (Nat.not_lt.2 hsalt)]
  rw [heq]
  refine ⟨hr.write _, ?_⟩
  funext m
  rfl

theorem Chain.Ready.links {h : Chain} (hr : h.Ready) {salts : List Bytes}
    (hsalts : ∀ s ∈ salts, s.length ≤ 64) :
    (salts.foldl (Chain.link c) h).Ready ∧
      digest c (salts.foldl (Chain.link c) h).links = salts.foldl hmac (digest c h.links) := by
  induction salts generalizing h with
  | nil => exact ⟨hr, rfl⟩
  | cons salt salts ih =>
    obtain ⟨hsalt, hrest⟩ := List.forall_mem_cons.1 hsalts
    obtain ⟨hready, hdigest⟩ := hr.link (c := c) hsalt
    obtain ⟨hready', hdigest'⟩ := ih hready hrest
    rw [hdigest] at hdigest'
    exact ⟨hready', hdigest'⟩

/-- **The key derivation is the nested HMAC**, for any number of salts of at most 64 bytes. -/
theorem kdf_eq_nestedHmac (c : Crypto) (key : Bytes) (salts : List Bytes)
    (hsalts : ∀ s ∈ salts, s.length ≤ 64) : kdf c key salts = nestedHmac c salts key := by
  have hbase : Chain.Ready ⟨[], BaseHMAC.init c kdfSaltVmessAeadKdf⟩ := BaseHMAC.holds_init
  obtain ⟨hready, hdigest⟩ := hbase.links (c := c) hsalts
  calc kdf c key salts
      = digest c (salts.foldl (Chain.link c) ⟨[], BaseHMAC.init c kdfSaltVmessAeadKdf⟩).links key :=
        hready.sum key
    _ = salts.foldl hmac (digest c []) key := by rw [hdigest]
    _ = nestedHmac c salts key := rfl

/-- The derivation of the key that seals the length of a header, with its three salts. -/
theorem kdf_eq_nestedHmac_three : ∃ s₁ s₂ s₃ : Bytes, s₁ ≠ s₂ ∧ s₂ ≠ s₃ ∧
    kdf Crypto.transparent [1, 2, 3] [s₁, s₂, s₃] =
      nestedHmac Crypto.transparent [s₁, s₂, s₃] [1, 2, 3] :=
  ⟨Bytes.ascii "VMess Header AEAD Key_Length", List.replicate 16 7, List.replicate 8 9, by decide,
    by decide, kdf_eq_nestedHmac Crypto.transparent [1, 2, 3] _ (by decide)⟩

/-- The closed form beside the derivation, which has one salt only. -/
theorem kdf_eq_closedForm (c : Crypto) (key : Bytes) {salt : Bytes} (hsalt : salt.length ≤ 64) :
    kdf c key [salt] = closedFormKdf1 c key salt := by
  have hbase : Chain.Ready ⟨[], BaseHMAC.init c kdfSaltVmessAeadKdf⟩ := BaseHMAC.holds_init
  obtain ⟨hready, hdigest⟩ := hbase.link (c := c) hsalt
  refine (hready.sum key).trans ?_
  rw [hdigest]
  unfold hmac digest closedFormKdf1
  simp only [List.append_assoc]
  rfl

end Vmess

end RvgGateway
