/-!
# TOML values

Numbers other than integers, and dates and times, are kept as text.  A table
knows how it was written, which decides what may still be added to it: a table
that only a longer header or a dotted key mentioned is open, one that has a
header of its own or stands in braces is not.
-/

namespace DatasetCache.Toml

inductive Origin where
  | braces
  /-- With a header of its own. -/
  | header
  /-- As part of the header of a table inside it. -/
  | path
  | dotted
  deriving DecidableEq, Repr

inductive Value where
  | string (text : String)
  | integer (value : Int)
  | float (literal : String)
  | boolean (value : Bool)
  | moment (text : String)
  | array (items : List Value)
  | table (origin : Origin) (entries : List (String × Value))
  /-- Tables under one repeated header. -/
  | tables (elements : List (List (String × Value)))
  deriving Repr, Inhabited

abbrev Entries := List (String × Value)

namespace Entries

def get? (entries : Entries) (key : String) : Option Value :=
  (entries.find? (·.1 = key)).map (·.2)

def replace (entries : Entries) (key : String) (value : Value) : Entries :=
  entries.map fun entry => if entry.1 = key then (key, value) else entry

/-! ## Adding keys and tables -/

/-- Adds a value under a dotted key.  The key may only lead through tables made by
dotted keys, and through tables that a longer header mentioned on its way to one. -/
def define? (entries : Entries) : List String → String → Value → Option Entries
  | [], key, value =>
    match entries.get? key with
    | none => some (entries ++ [(key, value)])
    | some _ => none
  | step :: path, key, value =>
    match entries.get? step with
    | none => do
      return entries ++ [(step, .table .dotted (← define? [] path key value))]
    | some (.table .dotted inner) => do
      return entries.replace step (.table .dotted (← define? inner path key value))
    | some (.table .path inner) =>
      if path.isEmpty then none
      else do return entries.replace step (.table .path (← define? inner path key value))
    | some (.tables elements) =>
      match elements.getLast? with
      | none => none
      | some last =>
        if path.isEmpty then none
        else do
          return entries.replace step
            (.tables (elements.dropLast ++ [← define? last path key value]))
    | some _ => none

/-- Changes the table that a header path leads to, making tables on the way.  Of
tables under one header the last is meant. -/
def alter? (entries : Entries) (change : Entries → Option Entries) :
    List String → Option Entries
  | [] => change entries
  | step :: path =>
    match entries.get? step with
    | none => do
      return entries ++ [(step, .table .path (← alter? [] change path))]
    | some (.table .braces _) => none
    | some (.table origin inner) => do
      return entries.replace step (.table origin (← alter? inner change path))
    | some (.tables elements) =>
      match elements.getLast? with
      | none => none
      | some last => do
        return entries.replace step (.tables (elements.dropLast ++ [← alter? last change path]))
    | some _ => none

/-- Opens the table of a header, which may have been mentioned but not written. -/
def openTable? (entries : Entries) (path : List String) (key : String) : Option Entries :=
  alter? entries (fun entries =>
    match entries.get? key with
    | none => some (entries ++ [(key, .table .header [])])
    | some (.table .path inner) => some (entries.replace key (.table .header inner))
    | some _ => none) path

def openElement? (entries : Entries) (path : List String) (key : String) : Option Entries :=
  alter? entries (fun entries =>
    match entries.get? key with
    | none => some (entries ++ [(key, .tables [[]])])
    | some (.tables elements) => some (entries.replace key (.tables (elements ++ [[]])))
    | some _ => none) path

end Entries

end DatasetCache.Toml
