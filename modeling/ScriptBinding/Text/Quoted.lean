import ScriptBinding.Text.Hex
import ScriptBinding.Text.Hidden

/-
Quoted text: strings between double quotes and characters between single
quotes, with every character that a reader could not see written as an escape.

* `Quoted.escape`: the written form of one character, given the quote that
  surrounds it; only that quote needs an escape.
* `Quoted.string`, `Quoted.char`: a string and a character with their quotes.
-/
namespace ScriptBinding.Quoted

/-- The written form of a character inside a pair of `quote`s: the short
escapes, then the code point in braces for a hidden one, else the character
itself. -/
def escape (quote c : Char) : List Char :=
  if c = '\x00' then ['\\', '0']
  else if c = '\t' then ['\\', 't']
  else if c = '\r' then ['\\', 'r']
  else if c = '\n' then ['\\', 'n']
  else if c = '\\' ∨ c = quote then ['\\', c]
  else if Hidden.isHidden c then ['\\', 'u', '\x7b'] ++ Hex.digits c.toNat ++ ['\x7d']
  else [c]

/-- A text between `quote`s. -/
def enclose (quote : Char) (cs : List Char) : String :=
  String.ofList (quote :: cs.flatMap (escape quote) ++ [quote])

/-- A string between double quotes. -/
def string (s : String) : String :=
  enclose '\x22' s.toList

/-- A character between single quotes. -/
def char (c : Char) : String :=
  enclose '\x27' [c]

end ScriptBinding.Quoted
