/-
Layouts: the shape of a value's diagnostic text, written either on one line or
spread over several with four spaces for each level.

* `Layout`: a text, or a bracketed group of items, each after a lead such as
  the name of a field.
* `Layout.record`, `Layout.tuple`, `Layout.list`, `Layout.map`: the groups in
  use.
* `Layout.compact`, `Layout.spread`: the two written forms.
-/
namespace ScriptBinding

/-- A diagnostic text before it is written: a group keeps its brackets and its
items, and `padded` asks for a blank inside the brackets on one line. -/
inductive Layout where
  | text (s : String)
  | group (opening closing : String) (padded : Bool) (items : List (String × Layout))

namespace Layout

/-- A record: a name and its named fields between braces. -/
def record (name : String) (fields : List (String × Layout)) : Layout :=
  .group (name ++ " \x7b") "\x7d" true (fields.map fun f => (f.1 ++ ": ", f.2))

/-- A name, possibly empty, and its components between parentheses. -/
def tuple (name : String) (components : List Layout) : Layout :=
  .group (name ++ "(") ")" false (components.map (("", ·)))

/-- Elements between square brackets. -/
def list (elements : List Layout) : Layout :=
  .group "[" "]" false (elements.map (("", ·)))

/-- Keys with their values between braces. -/
def map (entries : List (String × Layout)) : Layout :=
  .group "\x7b" "\x7d" false (entries.map fun e => (e.1 ++ ": ", e.2))

/-- An optional value. -/
def option : Option Layout → Layout
  | none => .text "None"
  | some l => tuple "Some" [l]

/-- A truth value. -/
def bool (b : Bool) : Layout :=
  .text (if b then "true" else "false")

mutual

/-- The text on one line. -/
def compact : Layout → String
  | .text s => s
  | .group opening closing padded items =>
    let blank := if padded && !items.isEmpty then " " else ""
    opening ++ blank ++ ", ".intercalate (compactItems items) ++ blank ++ closing

/-- The items of a group, each on one line. -/
def compactItems : List (String × Layout) → List String
  | [] => []
  | (lead, l) :: items => (lead ++ compact l) :: compactItems items

end

/-- The blanks in front of a line at a level. -/
def indent (level : Nat) : String :=
  "".pushn ' ' (4 * level)

mutual

/-- The text with each item of a group on lines of its own and a comma after
it; `level` is that of the line the text starts on. -/
def spreadAt (level : Nat) : Layout → String
  | .text s => s
  | .group opening closing _ items =>
    if items.isEmpty then opening ++ closing
    else opening ++ "\n" ++ spreadItems (level + 1) items ++ indent level ++ closing

/-- The lines of the items of a group. -/
def spreadItems (level : Nat) : List (String × Layout) → String
  | [] => ""
  | (lead, l) :: items =>
    indent level ++ lead ++ spreadAt level l ++ ",\n" ++ spreadItems level items

end

/-- The text spread over several lines, from the left margin. -/
def spread (l : Layout) : String :=
  l.spreadAt 0

end Layout

end ScriptBinding
