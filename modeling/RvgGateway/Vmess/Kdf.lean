import RvgGateway.Crypto
import RvgGateway.Lib.Text

/-!
# The VMess key derivation

`protocol/vmess/vmess.py` rebuilds the chained HMAC of the reference implementation: the hash of a
link of the chain is the link before it, and one object serves both as inner and as outer hash.
Writing to, resetting and summing that object therefore interferes, and the code follows the
reference operation by operation.

All objects of a chain delegate to the one at its bottom, an HMAC over SHA-256 with two separate
hash objects (`BaseHMAC`); a link on top of it consists of its two pads.  So the state of a chain
is the state of its bottom, and the methods of the link on top are recursive in the list of pads.
-/

namespace RvgGateway

namespace Vmess

/-- The two pads of a `_GoHMAC`. -/
structure Pads where
  /-- `ipad`. -/
  ipad : Bytes
  /-- `opad`. -/
  opad : Bytes
  deriving DecidableEq, Repr

/-- A `_GoHMAC` with two `_GoSHA256` objects, of which it keeps what was written to them. -/
structure BaseHMAC where
  pads : Pads
  /-- Written to `inner`. -/
  inner : Bytes
  /-- Written to `outer`. -/
  outer : Bytes
  /-- `_ipad_state` and `_opad_state`, once `_marshaled`. -/
  marshaled : Option (Bytes × Bytes)
  deriving DecidableEq, Repr

/-- `k.ljust(64, b"\x00")`, every byte XORed with `x`. -/
def pad (x : UInt8) (k : Bytes) : Bytes := (k ++ List.replicate (64 - k.length) 0).map (· ^^^ x)

/-- The pads of a key of at most 64 bytes. -/
def padsOf (k : Bytes) : Pads := ⟨pad 0x36 k, pad 0x5C k⟩

variable (c : Crypto)

namespace BaseHMAC

/-- `_GoHMAC(_GoSHA256, key)`. -/
def init (key : Bytes) : BaseHMAC :=
  let k := if 64 < key.length then c.sha256 key else key
  { pads := padsOf k, inner := (padsOf k).ipad
    outer := if 64 < key.length then key else []
    marshaled := none }

/-- `write`. -/
def write (h : BaseHMAC) (p : Bytes) : BaseHMAC := { h with inner := h.inner ++ p }

/-- `sum()`. -/
def sum (h : BaseHMAC) : Bytes × BaseHMAC :=
  let t := c.sha256 h.inner
  let outer :=
    match h.marshaled with
    | some (_, opadState) => opadState ++ t
    | none => h.pads.opad ++ t
  (c.sha256 outer, { h with outer := outer })

/-- `reset()`; `_GoSHA256` can be marshaled, so both states are kept from the first call on. -/
def reset (h : BaseHMAC) : BaseHMAC :=
  match h.marshaled with
  | some (ipadState, _) => { h with inner := ipadState }
  | none =>
    { h with inner := h.pads.ipad, outer := h.pads.opad, marshaled := some (h.pads.ipad, h.pads.opad) }

end BaseHMAC

/-- A chain of `_GoHMAC` objects: the links, the last created first, and the object below them. -/
structure Chain where
  /-- The pads of the links, from the top. -/
  links : List Pads
  /-- The bottom. -/
  base : BaseHMAC
  deriving DecidableEq, Repr

namespace Chain

/-- `write` of the link on top. -/
def write (h : Chain) (p : Bytes) : Chain := { h with base := h.base.write p }

/-- `reset()` of a link whose chain continues with `links`; a `_GoHMAC` cannot be marshaled. -/
def resetAux : List Pads → BaseHMAC → BaseHMAC
  | [], b => b.reset
  | l :: links, b => (resetAux links b).write l.ipad

/-- `sum()` of a link whose chain continues with `links`. -/
def sumAux : List Pads → BaseHMAC → Bytes × BaseHMAC
  | [], b => b.sum c
  | l :: links, b =>
    let (t, b) := sumAux links b
    let b := (resetAux links b).write l.opad
    sumAux links (b.write t)

/-- `sum()` of the link on top. -/
def sum (h : Chain) : Bytes × Chain :=
  let (d, b) := sumAux c h.links h.base
  (d, { h with base := b })

/-- `_GoHMAC(lambda: prev, key)`: a link on top of `prev`, which is its inner and outer hash. -/
def link (prev : Chain) (key : Bytes) : Chain :=
  let (k, prev) := if 64 < key.length then (prev.write key).sum c else (key, prev)
  { links := padsOf k :: prev.links, base := prev.base.write (padsOf k).ipad }

end Chain

/-- `KDF_SALT_VMESS_AEAD_KDF`. -/
def kdfSaltVmessAeadKdf : Bytes := Bytes.ascii "VMess AEAD KDF"

/-- `kdf`. -/
def kdf (key : Bytes) (salts : List Bytes) : Bytes :=
  let h := salts.foldl (Chain.link c) ⟨[], BaseHMAC.init c kdfSaltVmessAeadKdf⟩
  ((h.write key).sum c).1

/-- `kdf16`. -/
def kdf16 (key : Bytes) (salts : List Bytes) : Bytes := (kdf c key salts).take 16

end Vmess

end RvgGateway
