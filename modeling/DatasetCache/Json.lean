import DatasetCache.Text.Hex

/-!
# JSON values and their compact text

Objects keep the order in which their members are given.  The text has no blanks.
In strings a quote, a backslash and the control characters below U+0020 are
escaped; every other character stands for itself.
-/

namespace DatasetCache

inductive Json where
  | null
  | bool (value : Bool)
  | num (value : Int)
  | str (text : String)
  | arr (items : List Json)
  | obj (members : List (String × Json))
  deriving Repr, Inhabited

namespace Json

def nat (n : Nat) : Json := .num n

def ofOption {α : Type} (f : α → Json) : Option α → Json
  | some a => f a
  | none => .null

def strings (texts : List String) : Json := .arr (texts.map .str)

/-- An object whose members are listed in the order of their names. -/
def record (members : List (String × Json)) : Json :=
  .obj (members.mergeSort fun a b => (compare a.1 b.1).isLE)

/-! ## Strings -/

def escape (c : Char) : List Char :=
  if c = '"' then ['\\', '"']
  else if c = '\\' then ['\\', '\\']
  else if c = '\x08' then ['\\', 'b']
  else if c = '\x0c' then ['\\', 'f']
  else if c = '\n' then ['\\', 'n']
  else if c = '\r' then ['\\', 'r']
  else if c = '\t' then ['\\', 't']
  else if c.toNat < 0x20 then Text.codeEscape false c
  else [c]

def quoted (text : String) : List Char :=
  '"' :: (text.toList.flatMap escape ++ ['"'])

/-! ## Values -/

def separated (items : List (List Char)) : List Char := [','].intercalate items

mutual

def chars : Json → List Char
  | .null => "null".toList
  | .bool true => "true".toList
  | .bool false => "false".toList
  | .num value => (toString value).toList
  | .str text => quoted text
  | .arr items => '[' :: (separated (itemChars items) ++ [']'])
  | .obj members => '\x7b' :: (separated (memberChars members) ++ ['\x7d'])

def itemChars : List Json → List (List Char)
  | [] => []
  | item :: rest => chars item :: itemChars rest

def memberChars : List (String × Json) → List (List Char)
  | [] => []
  | (name, value) :: rest => (quoted name ++ ':' :: chars value) :: memberChars rest

end

def compact (json : Json) : String := String.ofList json.chars

end Json

end DatasetCache
