import ScriptBinding.Text.Quoted
import ScriptBinding.Handle

/-
Keys of a registry: what a listing needs to know of them. The registry itself
only compares keys for equality.

* `Key.label`: the text of a key in logs and listings.
* `Key.le`: the order in which listings show keys.
-/
namespace ScriptBinding

/-- A type whose values can be shown, and sorted, in listings. -/
class Key (κ : Type) where
  label : κ → String
  le : κ → κ → Bool

instance : Key Handle := ⟨Handle.label, fun a b => a ≤ b⟩

instance : Key UInt32 := ⟨fun n => toString n.toNat, fun a b => a ≤ b⟩

instance : Key Int64 := ⟨fun n => toString n.toInt, fun a b => a.toInt ≤ b.toInt⟩

instance : Key Bool := ⟨fun b => if b then "true" else "false", fun a b => !a || b⟩

instance : Key Unit := ⟨fun _ => "()", fun _ _ => true⟩

instance : Key Char := ⟨Quoted.char, fun a b => a ≤ b⟩

instance : Key String := ⟨Quoted.string, fun a b => !decide (b < a)⟩

instance : Key UInt8 := ⟨fun n => toString n.toNat, fun a b => a ≤ b⟩

/-- An absent key comes before all others. -/
instance {κ : Type} [Key κ] : Key (Option κ) where
  label
    | none => "None"
    | some k => "Some(" ++ Key.label k ++ ")"
  le
    | none, _ => true
    | some _, none => false
    | some a, some b => Key.le a b

/-- Pairs are sorted by their first components, then by their second. -/
instance {κ ι : Type} [Key κ] [Key ι] : Key (κ × ι) where
  label p := "(" ++ Key.label p.1 ++ ", " ++ Key.label p.2 ++ ")"
  le p q := Key.le p.1 q.1 && (!Key.le q.1 p.1 || Key.le p.2 q.2)

end ScriptBinding
