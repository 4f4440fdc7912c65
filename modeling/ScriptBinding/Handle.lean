import ScriptBinding.Text.Hex

/-
Handles: the names of running script VMs.

* `Handle`: a non-zero 64-bit id, compared and ordered by that id.
* `Handle.ofId?`, `Handle.ofAddress?`: the handle of an id and of the address
  of a VM; zero and the null address have none.
* `Handle.text`, `Handle.label`: its two texts, `0x40` and `VmHandle(0x40)`.
* `Handle.ofText?`: the handle that a text names.
-/
namespace ScriptBinding

/-- The name of one running VM. It is a look-up key only and keeps nothing
alive. -/
structure Handle where
  id : UInt64
  id_ne_zero : id ≠ 0
  deriving DecidableEq

/-- The place of an object in memory. -/
structure Address where
  bits : UInt64
  deriving DecidableEq

namespace Address

/-- The address of no object. -/
def null : Address :=
  ⟨0⟩

end Address

namespace Handle

/-- The handle with a given id, unless that is zero. -/
def ofId? (id : UInt64) : Option Handle :=
  if h : id = 0 then none else some ⟨id, h⟩

/-- The handle of the VM at an address, unless that is null. -/
def ofAddress? (a : Address) : Option Handle :=
  if a = Address.null then none else ofId? a.bits

/-- The id as a hexadecimal number. -/
def text (h : Handle) : String :=
  "0x" ++ String.ofList (Hex.digits h.id.toNat)

/-- The text for diagnostics. -/
def label (h : Handle) : String :=
  "VmHandle(" ++ h.text ++ ")"

/-- The handle that a text written by `text` names. -/
def ofText? (s : String) : Option Handle :=
  match s.toList with
  | '0' :: 'x' :: cs => do
    let n ← Hex.read? cs
    if n < UInt64.size then ofId? (UInt64.ofNat n) else none
  | _ => none

/-- How two handles compare: as their ids do. -/
def order (a b : Handle) : Ordering :=
  compare a.id b.id

instance : LE Handle := ⟨fun a b => a.id ≤ b.id⟩

instance (a b : Handle) : Decidable (a ≤ b) :=
  inferInstanceAs (Decidable (a.id ≤ b.id))

/-- Handles in ascending order, repetitions kept. -/
def sort (hs : List Handle) : List Handle :=
  hs.mergeSort fun a b => a ≤ b

/-- Handles without repetitions. -/
def distinct (hs : List Handle) : List Handle :=
  hs.eraseDups

end Handle

end ScriptBinding
