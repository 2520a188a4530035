import DatasetCache.Arguments

/-!
# Keys

A key names one cacheable dataset: its name and the arguments it is loaded with.
Keys are compared by content; they are ordered by name and then by their
arguments, taken as a sequence of name and value pairs.
-/

namespace DatasetCache

structure Key where
  name : String
  arguments : Arguments := Table.empty
  deriving DecidableEq, Repr, Inhabited

namespace Key

def named (name : String) : Key := { name }

/-! ## Order -/

instance argumentOrder : Ord (String × String) := lexOrd

instance : Ord Key where
  compare := compareLex (compareOn Key.name) (compareOn fun key => key.arguments.entries)

instance : Std.TransOrd Key :=
  inferInstanceAs (Std.TransCmp
    (compareLex (compareOn Key.name) (compareOn fun key => key.arguments.entries)))

instance : Std.LawfulEqOrd Key where
  eq_of_compare {a b} h := by
    obtain ⟨sameName, sameEntries⟩ := compareLex_eq_eq.1 h
    cases a; cases b
    congr
    · exact Std.LawfulEqOrd.eq_of_compare sameName
    · exact Table.ext (Std.LawfulEqOrd.eq_of_compare sameEntries)

/-! ## Text -/

/-- The name, followed by the arguments in braces unless there are none. -/
def display (key : Key) : String :=
  if key.arguments.isEmpty then key.name
  else
    let arguments := key.arguments.entries.map fun entry => entry.1 ++ "=" ++ entry.2
    key.name ++ "\x7b" ++ ", ".intercalate arguments ++ "\x7d"

end Key

end DatasetCache
