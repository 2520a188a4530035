import DatasetCache.Toml.Scalar

/-!
# Reading TOML documents

Values, with arrays and tables in braces, and documents made of lines.  A document
is read into one table by adding each line to what the lines before it made.
-/

namespace DatasetCache.Toml

/-! ## Values -/

mutual

/-- Reads a value at a given depth of nesting.  The calls between two characters
taken off the input are at most two, which bounds the steps. -/
def value? : Nat → Nat → Reader Value
  | 0, _, _ => none
  | steps + 1, depth, '[' :: rest =>
    if depth + 1 < depthLimit then items? steps (depth + 1) [] rest else none
  | steps + 1, depth, '\x7b' :: rest =>
    if depth + 1 < depthLimit then
      match skipBlanks rest with
      | '\x7d' :: rest => some (.table .braces [], rest)
      | rest => members? steps (depth + 1) [] rest
    else none
  | _ + 1, _, input => scalarValue? input

def items? : Nat → Nat → List Value → Reader Value
  | 0, _, _, _ => none
  | steps + 1, depth, read, input =>
    match skipLines false input with
    | none => none
    | some (']' :: rest) => some (.array read.reverse, rest)
    | some input =>
      match value? steps depth input with
      | none => none
      | some (value, rest) =>
        match skipLines false rest with
        | some (',' :: rest) => items? steps depth (value :: read) rest
        | some (']' :: rest) => some (.array (value :: read).reverse, rest)
        | _ => none

def members? : Nat → Nat → Entries → Reader Value
  | 0, _, _, _ => none
  | steps + 1, depth, entries, input =>
    match key? input with
    | some ((path, key), '=' :: rest) =>
      match value? steps depth (skipBlanks rest) with
      | none => none
      | some (value, rest) =>
        match entries.define? path key value, skipBlanks rest with
        | some entries, ',' :: rest => members? steps depth entries rest
        | some entries, '\x7d' :: rest => some (.table .braces entries, rest)
        | _, _ => none
    | _ => none

end

/-! ## Documents -/

/-- A document read so far: its table and the header under which lines stand. -/
structure Draft where
  root : Entries := []
  header : List String := []

namespace Draft

def define? (draft : Draft) (path : List String) (key : String) (value : Value) :
    Option Draft := do
  let root ← draft.root.alter? (·.define? path key value) draft.header
  return { draft with root }

def openTable? (draft : Draft) (path : List String) (key : String) : Option Draft := do
  return ⟨← draft.root.openTable? path key, path ++ [key]⟩

def openElement? (draft : Draft) (path : List String) (key : String) : Option Draft := do
  return ⟨← draft.root.openElement? path key, path ++ [key]⟩

end Draft

def header? (close : List Char) (open? : List String → String → Option Draft)
    (input : List Char) : Option (Draft × List Char) := do
  let ((path, key), rest) ← key? input
  let rest ← close.isPrefixOf? rest
  let draft ← open? path key
  return (draft, ← lineTail? rest)

def line? (draft : Draft) (input : List Char) : Option (Draft × List Char) :=
  match input with
  | '#' :: _ | '\n' :: _ | '\r' :: _ => (lineTail? input).map (draft, ·)
  | '[' :: '[' :: rest => header? [']', ']'] draft.openElement? rest
  | '[' :: rest => header? [']'] draft.openTable? rest
  | _ =>
    match key? input with
    | some ((path, key), '=' :: rest) => do
      let (value, rest) ← value? (2 * rest.length + 2) 0 (skipBlanks rest)
      let draft ← draft.define? path key value
      return (draft, ← lineTail? rest)
    | _ => none

def lines? : Nat → Draft → List Char → Option Entries
  | 0, _, _ => none
  | steps + 1, draft, input =>
    match skipBlanks input with
    | [] => some draft.root
    | input =>
      match line? draft input with
      | none => none
      | some (draft, rest) => lines? steps draft rest

/-- A byte order mark in front of a document is no part of it. -/
def dropMark : List Char → List Char
  | '\uFEFF' :: rest => rest
  | input => input

def document? (text : String) : Option Entries :=
  let input := dropMark text.toList
  lines? (input.length + 1) {} input

end DatasetCache.Toml
