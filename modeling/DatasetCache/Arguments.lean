import DatasetCache.Table

/-!
# Scoped arguments

A program passes one table of runtime arguments for everything it runs.  Those
written `dataset.*.NAME` reach every dataset and those written
`dataset.DATASET.NAME` reach the dataset of that name; all others reach none.
Nothing marks where a name with dots ends, so the scope of one dataset may lie in
the scope of another.  The effective arguments of a dataset are built in three
layers, each over the one before: the wildcard scope, the scope of the dataset's
own name, and what the request itself passes.
-/

namespace DatasetCache

abbrev Arguments := Table String String

namespace Arguments

/-- The scope whose arguments reach every dataset. -/
def wildcard : String := "*"

def scopeOf (name : String) : String := "dataset." ++ name ++ "."

/-- What follows a scope in an argument's name, if anything does. -/
def localName? (scope name : String) : Option String :=
  match scope.toList.isPrefixOf? name.toList with
  | some (c :: rest) => some (String.ofList (c :: rest))
  | _ => none

/-- The arguments of one scope under their local names. -/
def within (scope : String) (runtime : Arguments) : List (String × String) :=
  runtime.entries.filterMap fun entry =>
    (localName? scope entry.1).map fun name => (name, entry.2)

def effective (name : String) (runtime explicit : Arguments) : Arguments :=
  Table.ofList (within (scopeOf wildcard) runtime)
    |>.insertAll (within (scopeOf name) runtime)
    |>.insertAll explicit.entries

end Arguments

end DatasetCache
