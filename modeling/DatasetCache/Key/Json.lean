import DatasetCache.Json.Reader
import DatasetCache.Key

/-!
# Keys as JSON

A key is written as an object of its name and its arguments.  It is read from
such an object, with the members in any order and others beside them, or from an
array of the two.
-/

namespace DatasetCache.Key

def toJson (key : Key) : Json :=
  .obj [
    ("name", .str key.name),
    ("arguments", .obj (key.arguments.entries.map fun entry => (entry.1, .str entry.2)))]

def jsonText (key : Key) : String := key.toJson.compact

/-! ## Reading -/

open Json

/-- Reads the members of an arguments object after the first quote, onto those
read before.  Each member takes characters off the input. -/
def argumentsTail? : Nat → Arguments → List Char → Option (Arguments × List Char)
  | 0, _, _ => none
  | steps + 1, read, input => do
    let (name, input) ← stringTail? [] input
    let input ← expect? ':' input
    let (value, input) ← string? input
    let read := read.insert name value
    match skipBlanks input with
    | ',' :: input => argumentsTail? steps read (← expect? '"' input)
    | '\x7d' :: input => some (read, input)
    | _ => none

def arguments? (input : List Char) : Option (Arguments × List Char) := do
  let input ← expect? '\x7b' input
  match skipBlanks input with
  | '\x7d' :: input => some (Table.empty, input)
  | '"' :: input => argumentsTail? (input.length + 1) Table.empty input
  | _ => none

structure Members where
  name : Option String := none
  arguments : Option Arguments := none

/-- Reads the value of one member; a name or arguments may not come twice. -/
def member? (read : Members) (name : String) (input : List Char) : Option (Members × List Char) :=
  if name = "name" then
    if read.name.isSome then none
    else (string? input).map fun (value, input) => ({ read with name := some value }, input)
  else if name = "arguments" then
    if read.arguments.isSome then none
    else (arguments? input).map fun (value, input) => ({ read with arguments := some value }, input)
  else
    (skipValue? input).map fun input => (read, input)

def membersTail? : Nat → Members → List Char → Option (Members × List Char)
  | 0, _, _ => none
  | steps + 1, read, input => do
    let (name, input) ← stringTail? [] input
    let input ← expect? ':' input
    let (read, input) ← member? read name input
    match skipBlanks input with
    | ',' :: input => membersTail? steps read (← expect? '"' input)
    | '\x7d' :: input => some (read, input)
    | _ => none

def ofPair? (input : List Char) : Option (Key × List Char) := do
  let (name, input) ← string? input
  let input ← expect? ',' input
  let (arguments, input) ← arguments? input
  let input ← expect? ']' input
  return (⟨name, arguments⟩, input)

def ofMembers? (input : List Char) : Option (Key × List Char) := do
  let (read, input) ← membersTail? (input.length + 1) {} input
  return (⟨← read.name, ← read.arguments⟩, input)

/-- The key that a text denotes, if the whole text denotes one. -/
def ofJsonText? (text : String) : Option Key := do
  let (key, input) ←
    match skipBlanks text.toList with
    | '[' :: input => ofPair? input
    | '\x7b' :: input => (expect? '"' input).bind ofMembers?
    | _ => none
  if (skipBlanks input).isEmpty then some key else none

end DatasetCache.Key
