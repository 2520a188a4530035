import DatasetCache.Text.Hex

/-!
# The text level of TOML

Blanks, newlines, comments, strings and keys.  Readers take the input and return
what they read together with the rest of the input.
-/

namespace DatasetCache.Toml

open Text (hexValue?)

abbrev Reader (α : Type) := List Char → Option (α × List Char)

/-! ## Blanks and newlines -/

def isBlank (c : Char) : Bool := c == ' ' || c == '\t'

def skipBlanks (input : List Char) : List Char := input.dropWhile isBlank

/-- Whether a character may stand in a comment; a string has few more exclusions. -/
def isPlain (c : Char) : Bool := c == '\t' || (0x20 ≤ c.toNat && c.toNat != 0x7F)

def newline? : List Char → Option (List Char)
  | '\n' :: rest => some rest
  | '\r' :: '\n' :: rest => some rest
  | _ => none

def lineEnd? : List Char → Option (List Char)
  | [] => some []
  | input => newline? input

def skipComment : List Char → List Char
  | '#' :: rest => rest.dropWhile isPlain
  | input => input

/-- What may follow a key and its value, or a header, on the same line. -/
def lineTail? (input : List Char) : Option (List Char) :=
  lineEnd? (skipComment (skipBlanks input))

/-- Skips blanks, newlines and comments up to something else.  A comment has to end
with a newline. -/
def skipLines : Bool → List Char → Option (List Char)
  | _, '\n' :: rest => skipLines false rest
  | _, '\r' :: '\n' :: rest => skipLines false rest
  | true, c :: rest => if isPlain c then skipLines true rest else none
  | true, [] => none
  | false, c :: rest =>
    if isBlank c then skipLines false rest
    else if c = '#' then skipLines true rest
    else some (c :: rest)
  | false, [] => some []

/-! ## Strings -/

def scalar? (digits : List Char) : Option Char := do
  let code ← digits.foldlM (fun code digit => (hexValue? digit).map (code * 16 + ·)) 0
  if code.isValidChar then some (Char.ofNat code) else none

def simpleEscape? : Char → Option Char
  | 'b' => some '\x08'
  | 't' => some '\t'
  | 'n' => some '\n'
  | 'f' => some '\x0c'
  | 'r' => some '\r'
  | '"' => some '"'
  | '\\' => some '\\'
  | _ => none

def escape? : Reader Char
  | 'u' :: a :: b :: c :: d :: rest => (scalar? [a, b, c, d]).map (·, rest)
  | 'U' :: a :: b :: c :: d :: e :: f :: g :: h :: rest =>
    (scalar? [a, b, c, d, e, f, g, h]).map (·, rest)
  | c :: rest => (simpleEscape? c).map (·, rest)
  | [] => none

/-- Reads up to the closing quote of a basic string, onto the reverse of what was
read.  An escape takes characters off the input, whose length bounds the steps. -/
def basicTail? : Nat → List Char → Reader String
  | 0, _, _ => none
  | _, read, '"' :: rest => some (String.ofList read.reverse, rest)
  | steps + 1, read, '\\' :: rest => do
    let (c, rest) ← escape? rest
    basicTail? steps (c :: read) rest
  | steps + 1, read, c :: rest => if isPlain c then basicTail? steps (c :: read) rest else none
  | _, _, [] => none

def literalTail? (read : List Char) : Reader String
  | '\'' :: rest => some (String.ofList read.reverse, rest)
  | c :: rest => if isPlain c then literalTail? (c :: read) rest else none
  | [] => none

/-- Skips what an escaped newline swallows: all blanks and newlines after it. -/
def skipSwallowed : List Char → List Char
  | '\n' :: rest => skipSwallowed rest
  | '\r' :: '\n' :: rest => skipSwallowed rest
  | c :: rest => if isBlank c then skipSwallowed rest else c :: rest
  | [] => []

/-- Splits off the quotes at the front, at most five of them. -/
def quoteRun (quote : Char) (input : List Char) : Nat :=
  (input.take 5).takeWhile (· = quote) |>.length

/-- Reads a run of quotes inside a string of several lines: three of them close it,
and up to two more may stand before those. -/
def closing (quote : Char) (input : List Char) : Nat × Bool :=
  let run := quoteRun quote input
  if run < 3 then (run, false) else (run - 3, true)

def longBasicTail? : Nat → List Char → Reader String
  | 0, _, _ => none
  | steps + 1, read, '"' :: rest =>
    let (inner, closes) := closing '"' ('"' :: rest)
    let read := List.replicate inner '"' ++ read
    if closes then some (String.ofList read.reverse, ('"' :: rest).drop (inner + 3))
    else longBasicTail? steps read (('"' :: rest).drop inner)
  | steps + 1, read, '\\' :: rest =>
    match newline? (skipBlanks rest) with
    | some rest => longBasicTail? steps read (skipSwallowed rest)
    | none => do
      let (c, rest) ← escape? rest
      longBasicTail? steps (c :: read) rest
  | steps + 1, read, '\r' :: '\n' :: rest => longBasicTail? steps ('\n' :: read) rest
  | steps + 1, read, c :: rest =>
    if c = '\n' ∨ isPlain c then longBasicTail? steps (c :: read) rest else none
  | _, _, [] => none

def longLiteralTail? : Nat → List Char → Reader String
  | 0, _, _ => none
  | steps + 1, read, '\'' :: rest =>
    let (inner, closes) := closing '\'' ('\'' :: rest)
    let read := List.replicate inner '\'' ++ read
    if closes then some (String.ofList read.reverse, ('\'' :: rest).drop (inner + 3))
    else longLiteralTail? steps read (('\'' :: rest).drop inner)
  | steps + 1, read, '\r' :: '\n' :: rest => longLiteralTail? steps ('\n' :: read) rest
  | steps + 1, read, c :: rest =>
    if c = '\n' ∨ isPlain c then longLiteralTail? steps (c :: read) rest else none
  | _, _, [] => none

def dropNewline (input : List Char) : List Char := (newline? input).getD input

def string? : Reader String
  | '"' :: '"' :: '"' :: rest => longBasicTail? (rest.length + 1) [] (dropNewline rest)
  | '\'' :: '\'' :: '\'' :: rest => longLiteralTail? (rest.length + 1) [] (dropNewline rest)
  | '"' :: rest => basicTail? (rest.length + 1) [] rest
  | '\'' :: rest => literalTail? [] rest
  | _ => none

/-! ## Keys -/

def isBare (c : Char) : Bool := c.isAlphanum || c == '_' || c == '-'

/-- One part of a key; a quoted part is a string on one line. -/
def keyPart? : Reader String
  | '"' :: rest => basicTail? (rest.length + 1) [] rest
  | '\'' :: rest => literalTail? [] rest
  | input =>
    match input.takeWhile isBare with
    | [] => none
    | part => some (String.ofList part, input.dropWhile isBare)

def depthLimit : Nat := 80

def keyParts? : Nat → List String → Reader (List String × String)
  | 0, _, _ => none
  | steps + 1, read, input => do
    let (part, rest) ← keyPart? (skipBlanks input)
    match skipBlanks rest with
    | '.' :: rest => keyParts? steps (part :: read) rest
    | rest => some ((read.reverse, part), rest)

/-- A dotted key, as the parts before the last one and the last one. -/
def key? (input : List Char) : Option ((List String × String) × List Char) :=
  keyParts? (depthLimit - 1) [] input

end DatasetCache.Toml
