/-
Log entries: what a subscriber to the log receives.

* `Log.Level`: how grave an entry is.
* `Log.Entry`: a level, the part of the library that speaks, and named texts in
  the order in which they were given; a name may come twice.
-/
namespace ScriptBinding.Log

/-- How grave an entry is. -/
inductive Level where
  | trace
  | debug
  | warn
  deriving DecidableEq, Repr

/-- One entry of the log. -/
structure Entry where
  level : Level
  target : String
  fields : List (String × String)
  deriving DecidableEq, Repr

/-- An entry whose first field is its headline. -/
def entry (level : Level) (target headline : String) (fields : List (String × String)) : Entry where
  level := level
  target := target
  fields := ("message", headline) :: fields

end ScriptBinding.Log
