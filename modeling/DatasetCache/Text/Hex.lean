/-!
# Hexadecimal digits

Digits are written in small letters or in capitals, and read in both.
-/

namespace DatasetCache.Text

def hexDigit (capital : Bool) (n : Nat) : Char :=
  (if capital then "0123456789ABCDEF" else "0123456789abcdef").toList.getD n '0'

/-- The escape by number of a character below U+0100, which JSON and TOML share. -/
def codeEscape (capital : Bool) (c : Char) : List Char :=
  ['\\', 'u', '0', '0', hexDigit capital (c.toNat / 16), hexDigit capital (c.toNat % 16)]

def hexValue? (c : Char) : Option Nat :=
  if '0' ≤ c ∧ c ≤ '9' then some (c.toNat - '0'.toNat)
  else if 'a' ≤ c ∧ c ≤ 'f' then some (c.toNat - 'a'.toNat + 10)
  else if 'A' ≤ c ∧ c ≤ 'F' then some (c.toNat - 'A'.toNat + 10)
  else none

theorem hexValue?_hexDigit (capital : Bool) :
    ∀ n < 16, hexValue? (hexDigit capital n) = some n := by
  cases capital <;> decide

end DatasetCache.Text
