import DatasetCache.Json

/-!
# Reading JSON text

The pieces from which readers of particular shapes are made: blanks, strings, and
values whose content does not matter.  A value that does not matter has to be
written correctly, except that the escapes in its strings need not pair up into
characters.
-/

namespace DatasetCache.Json

open Text (hexValue?)

def isBlank (c : Char) : Bool := c == ' ' || c == '\t' || c == '\n' || c == '\r'

def skipBlanks (input : List Char) : List Char := input.dropWhile isBlank

def expect? (c : Char) (input : List Char) : Option (List Char) :=
  match skipBlanks input with
  | d :: rest => if d = c then some rest else none
  | [] => none

/-! ## Strings -/

def codeUnit? (a b c d : Char) : Option Nat := do
  let a ← hexValue? a
  let b ← hexValue? b
  let c ← hexValue? c
  let d ← hexValue? d
  return ((a * 16 + b) * 16 + c) * 16 + d

def isLeading (unit : Nat) : Bool := 0xD800 ≤ unit && unit < 0xDC00

def isTrailing (unit : Nat) : Bool := 0xDC00 ≤ unit && unit < 0xE000

def simpleEscape? : Char → Option Char
  | '"' => some '"'
  | '\\' => some '\\'
  | '/' => some '/'
  | 'b' => some '\x08'
  | 'f' => some '\x0c'
  | 'n' => some '\n'
  | 'r' => some '\r'
  | 't' => some '\t'
  | _ => none

/-- Reads a string up to its closing quote, onto the reverse of what was read. -/
def stringTail? (read : List Char) : List Char → Option (String × List Char)
  | [] => none
  | '"' :: rest => some (String.ofList read.reverse, rest)
  | '\\' :: 'u' :: a :: b :: c :: d :: rest =>
    match codeUnit? a b c d with
    | none => none
    | some unit =>
      if isTrailing unit then none
      else if isLeading unit then
        match rest with
        | '\\' :: 'u' :: e :: f :: g :: h :: rest =>
          match codeUnit? e f g h with
          | none => none
          | some low =>
            if isTrailing low then
              stringTail?
                (Char.ofNat (0x10000 + (unit - 0xD800) * 0x400 + (low - 0xDC00)) :: read) rest
            else none
        | _ => none
      else stringTail? (Char.ofNat unit :: read) rest
  | '\\' :: c :: rest =>
    match simpleEscape? c with
    | some c => stringTail? (c :: read) rest
    | none => none
  | c :: rest => if c = '\\' ∨ c.toNat < 0x20 then none else stringTail? (c :: read) rest

def string? (input : List Char) : Option (String × List Char) :=
  (expect? '"' input).bind (stringTail? [])

/-! ## Values that do not matter -/

def skipString? : List Char → Option (List Char)
  | [] => none
  | '"' :: rest => some rest
  | '\\' :: 'u' :: a :: b :: c :: d :: rest =>
    if (codeUnit? a b c d).isSome then skipString? rest else none
  | '\\' :: c :: rest => if (simpleEscape? c).isSome then skipString? rest else none
  | c :: rest => if c = '\\' ∨ c.toNat < 0x20 then none else skipString? rest

def skipDigits? : List Char → Option (List Char)
  | c :: rest => if c.isDigit then some (rest.dropWhile Char.isDigit) else none
  | [] => none

def skipExponent? : List Char → Option (List Char)
  | e :: rest =>
    if e = 'e' ∨ e = 'E' then
      match rest with
      | s :: rest => if s = '+' ∨ s = '-' then skipDigits? rest else skipDigits? (s :: rest)
      | [] => none
    else some (e :: rest)
  | [] => some []

def skipFraction? : List Char → Option (List Char)
  | '.' :: rest => skipDigits? rest
  | rest => some rest

def skipNumber? : List Char → Option (List Char)
  | '0' :: rest =>
    match rest with
    | c :: _ => if c.isDigit then none else (skipFraction? rest).bind skipExponent?
    | [] => some []
  | rest => (skipDigits? rest).bind fun rest => (skipFraction? rest).bind skipExponent?

def skipScalar? : List Char → Option (List Char)
  | 'n' :: 'u' :: 'l' :: 'l' :: rest => some rest
  | 't' :: 'r' :: 'u' :: 'e' :: rest => some rest
  | 'f' :: 'a' :: 'l' :: 's' :: 'e' :: rest => some rest
  | '"' :: rest => skipString? rest
  | '-' :: rest => skipNumber? rest
  | c :: rest => if c.isDigit then skipNumber? (c :: rest) else none
  | [] => none

/-- What a skip waits for: a value, a value or the end of a fresh array, a member
or the end of a fresh object, the next member, or what follows a value. -/
inductive Awaited where
  | value
  | firstItem
  | firstMember
  | member
  | separator
  deriving DecidableEq, Repr

inductive Bracket where
  | array
  | object
  deriving DecidableEq, Repr

def afterComma : Bracket → Awaited
  | .array => .value
  | .object => .member

/-- Skips the rest of a value inside open brackets, innermost first.  Every step
takes a character off the input, whose length therefore bounds the steps. -/
def skipFrom? : Nat → Awaited → List Bracket → List Char → Option (List Char)
  | 0, _, _, _ => none
  | steps + 1, awaited, brackets, input =>
    match awaited, brackets, skipBlanks input with
    | .value, _, '[' :: rest => skipFrom? steps .firstItem (.array :: brackets) rest
    | .value, _, '\x7b' :: rest => skipFrom? steps .firstMember (.object :: brackets) rest
    | .value, _, rest =>
      match skipScalar? rest with
      | none => none
      | some rest =>
        if brackets.isEmpty then some rest else skipFrom? steps .separator brackets rest
    | .firstItem, _ :: outer, ']' :: rest =>
      if outer.isEmpty then some rest else skipFrom? steps .separator outer rest
    | .firstItem, _, '[' :: rest => skipFrom? steps .firstItem (.array :: brackets) rest
    | .firstItem, _, '\x7b' :: rest => skipFrom? steps .firstMember (.object :: brackets) rest
    | .firstItem, _, rest =>
      match skipScalar? rest with
      | none => none
      | some rest => skipFrom? steps .separator brackets rest
    | .firstMember, _ :: outer, '\x7d' :: rest =>
      if outer.isEmpty then some rest else skipFrom? steps .separator outer rest
    | .firstMember, _, '"' :: rest | .member, _, '"' :: rest =>
      match (skipString? rest).bind (expect? ':') with
      | none => none
      | some rest => skipFrom? steps .value brackets rest
    | .separator, bracket :: _, ',' :: rest => skipFrom? steps (afterComma bracket) brackets rest
    | .separator, .array :: outer, ']' :: rest | .separator, .object :: outer, '\x7d' :: rest =>
      if outer.isEmpty then some rest else skipFrom? steps .separator outer rest
    | _, _, _ => none

def skipValue? (input : List Char) : Option (List Char) :=
  skipFrom? (input.length + 1) .value [] input

end DatasetCache.Json
