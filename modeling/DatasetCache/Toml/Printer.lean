import DatasetCache.Toml.Text

/-!
# Writing TOML strings and keys

A string is written in the plainest of four styles that needs no escape: in double
quotes, in single quotes, in three double quotes, in three single quotes.  If every
style needs one, it is written in double quotes, three of them if it has a newline.
A key is written bare if possible.
-/

namespace DatasetCache.Toml

inductive Style where
  | basic
  | literal
  | longBasic
  | longLiteral
  deriving DecidableEq, Repr

/-! ## Choosing a style -/

/-- Whether a character cannot be written without an escape, newlines apart. -/
def isControl (c : Char) : Bool := !isPlain c && c != '\n'

/-- The length of the longest run of a character, given the run just before. -/
def longestRun (c : Char) : Nat → List Char → Nat
  | run, [] => run
  | run, d :: rest => if d = c then longestRun c (run + 1) rest else max run (longestRun c 0 rest)

def valueStyle (text : List Char) : Style :=
  let controls := text.any isControl
  let backslash := text.contains '\\'
  let newline := text.contains '\n'
  let quotes := longestRun '"' 0 text
  let apostrophes := longestRun '\'' 0 text
  if !controls && !backslash && quotes = 0 && !newline then .basic
  else if !controls && apostrophes = 0 && !newline then .literal
  else if !controls && !backslash && quotes ≤ 2 then .longBasic
  else if !controls && apostrophes ≤ 2 then .longLiteral
  else if newline then .longBasic
  else .basic

def keyStyle (text : List Char) : Style :=
  let controls := text.any fun c => isControl c || c == '\n'
  if !controls && !text.contains '\\' && !text.contains '"' then .basic
  else if !controls && !text.contains '\'' then .literal
  else .basic

/-! ## Writing -/

def escapeOf? (c : Char) : Option (List Char) :=
  if c = '\x08' then some ['\\', 'b']
  else if c = '\t' then some ['\\', 't']
  else if c = '\x0c' then some ['\\', 'f']
  else if c = '\r' then some ['\\', 'r']
  else if c = '\\' then some ['\\', '\\']
  else if isControl c then some (Text.codeEscape true c)
  else none

/-- Escapes a text.  So many double quotes in a row stand for themselves, counted
anew after every escape. -/
def escaped (long : Bool) (run : Nat) : List Char → List Char
  | [] => []
  | c :: rest =>
    if c = '"' then
      if (if long then 2 else 0) < run + 1 then '\\' :: '"' :: escaped long 0 rest
      else '"' :: escaped long (run + 1) rest
    else if c = '\n' then
      if long then '\n' :: escaped long 0 rest else '\\' :: 'n' :: escaped long 0 rest
    else
      match escapeOf? c with
      | some text => text ++ escaped long 0 rest
      | none => c :: escaped long 0 rest

def delimiter : Style → List Char
  | .basic => ['"']
  | .literal => ['\'']
  | .longBasic => ['"', '"', '"']
  | .longLiteral => ['\'', '\'', '\'']

def Style.write (style : Style) (text : List Char) : List Char :=
  let body :=
    match style with
    | .basic => escaped false 0 text
    | .longBasic => escaped true 0 text
    | .literal | .longLiteral => text
  let opening :=
    match style with
    | .basic | .literal => []
    | .longBasic | .longLiteral => if text.contains '\n' then ['\n'] else []
  delimiter style ++ opening ++ body ++ delimiter style

def writeString (text : String) : List Char :=
  (valueStyle text.toList).write text.toList

def writeKey (key : String) : List Char :=
  if !key.toList.isEmpty && key.toList.all isBare then key.toList
  else (keyStyle key.toList).write key.toList

def writeEntry (key value : String) : List Char :=
  writeKey key ++ " = ".toList ++ writeString value ++ ['\n']

def writeHeader (path : List String) : List Char :=
  ['\n', '['] ++ ['.'].intercalate (path.map writeKey) ++ [']', '\n']

end DatasetCache.Toml
