import DatasetCache.Text.Unprintable

/-!
# Quoted text

A text between double quotes.  Quotes, backslashes and the commonest control
characters are escaped by a backslash; characters that cannot be told from their
looks are written by their number, in braces; all others stand for themselves.
-/

namespace DatasetCache.Text

def escapeLetter? : Char → Option Char
  | '\x00' => some '0'
  | '\t' => some 't'
  | '\n' => some 'n'
  | '\r' => some 'r'
  | '"' => some '"'
  | '\\' => some '\\'
  | _ => none

def byNumber (c : Char) : List Char :=
  ['\\', 'u', '\x7b'] ++ Nat.toDigits 16 c.toNat ++ ['\x7d']

def escape (c : Char) : List Char :=
  match escapeLetter? c with
  | some letter => ['\\', letter]
  | none => if isUnprintable c then byNumber c else [c]

def quoted (text : String) : String :=
  String.ofList ('"' :: (text.toList.flatMap escape ++ ['"']))

end DatasetCache.Text
