import DatasetCache.Toml.Text
import DatasetCache.Toml.Value

/-!
# Numbers, dates and times

Integers have 64 bits.  A number with a fraction or an exponent may not exceed the
largest binary fraction of double precision.  Dates have to exist, and a moment is
kept in its plainest spelling.
-/

namespace DatasetCache.Toml

open Text (hexValue?)

/-! ## Digits -/

/-- Reads the digits after a first one; an underscore may stand between two. -/
def digitsTail (isDigit : Char → Bool) : List Char → List Char × List Char
  | '_' :: c :: rest =>
    if isDigit c then
      let (digits, rest) := digitsTail isDigit rest
      (c :: digits, rest)
    else ([], '_' :: c :: rest)
  | c :: rest =>
    if isDigit c then
      let (digits, rest) := digitsTail isDigit rest
      (c :: digits, rest)
    else ([], c :: rest)
  | [] => ([], [])

def digits? (isDigit : Char → Bool) : Reader (List Char)
  | c :: rest =>
    if isDigit c then
      let (digits, rest) := digitsTail isDigit rest
      some (c :: digits, rest)
    else none
  | [] => none

/-- Decimal digits without a superfluous zero in front. -/
def wholeDigits? : Reader (List Char)
  | '0' :: rest => some (['0'], rest)
  | input => digits? Char.isDigit input

def ofDigits (base : Nat) (digits : List Char) : Nat :=
  digits.foldl (fun n c => n * base + (hexValue? c).getD 0) 0

/-- Splits off a sign; `true` is minus. -/
def sign : List Char → Bool × List Char
  | '-' :: rest => (true, rest)
  | '+' :: rest => (false, rest)
  | input => (false, input)

/-! ## Integers -/

def integerOf? (negative : Bool) (magnitude : Nat) : Option Value :=
  if negative then
    if magnitude ≤ Nat.pow 2 63 then some (.integer (-(magnitude : Int))) else none
  else
    if magnitude < Nat.pow 2 63 then some (.integer magnitude) else none

def radixInteger? (base : Nat) (input : List Char) : Option (Value × List Char) := do
  let (digits, rest) ← digits? (fun c => (hexValue? c).any (· < base)) input
  return (← integerOf? false (ofDigits base digits), rest)

def integer? : Reader Value
  | '0' :: 'x' :: rest => radixInteger? 16 rest
  | '0' :: 'o' :: rest => radixInteger? 8 rest
  | '0' :: 'b' :: rest => radixInteger? 2 rest
  | input => do
    let (negative, rest) := sign input
    let (digits, rest) ← wholeDigits? rest
    return (← integerOf? negative (ofDigits 10 digits), rest)

/-! ## Numbers with a fraction or an exponent -/

/-- Whether a decimal number lies beyond every finite number of double precision:
`mantissa * 10 ^ exponent` rounds to a power of two with exponent 1024. -/
def isTooLarge (mantissa : Nat) (exponent : Int) : Bool :=
  if mantissa = 0 then false
  else
    let magnitude : Int := (Nat.toDigits 10 mantissa).length + exponent
    if magnitude > 310 then true
    else if magnitude < 300 then false
    else
      let bound := Nat.pow 2 1024 - Nat.pow 2 970
      match exponent with
      | .ofNat e => bound ≤ mantissa * Nat.pow 10 e
      | .negSucc e => bound * Nat.pow 10 (e + 1) ≤ mantissa

def fraction? : Reader (List Char)
  | '.' :: rest => digits? Char.isDigit rest
  | _ => none

def exponent? : Reader Int
  | c :: rest =>
    if c = 'e' ∨ c = 'E' then do
      let (negative, rest) := sign rest
      let (digits, rest) ← digits? Char.isDigit rest
      let magnitude : Int := ofDigits 10 digits
      return (if negative then -magnitude else magnitude, rest)
    else none
  | [] => none

/-- The literal between two points of the input, the later being a rest of the first. -/
def literalBetween (input rest : List Char) : String :=
  String.ofList (input.take (input.length - rest.length))

def special? (input : List Char) : Option (List Char) :=
  match (sign input).2 with
  | 'i' :: 'n' :: 'f' :: rest => some rest
  | 'n' :: 'a' :: 'n' :: rest => some rest
  | _ => none

def float? (input : List Char) : Option (Value × List Char) :=
  match special? input with
  | some rest => some (.float (literalBetween input rest), rest)
  | none => do
    let (negative, rest) := sign input
    let (whole, rest) ← wholeDigits? rest
    let (fraction, exponent, rest) ←
      match fraction? rest with
      | some (fraction, rest) =>
        match exponent? rest with
        | some (exponent, rest) => some (fraction, exponent, rest)
        | none => some (fraction, 0, rest)
      | none => (exponent? rest).map fun (exponent, rest) => ([], exponent, rest)
    if !negative && isTooLarge (ofDigits 10 (whole ++ fraction)) (exponent - fraction.length)
    then none
    else some (.float (literalBetween input rest), rest)

/-! ## Dates and times -/

def fixedNumber? : Nat → Nat → Reader Nat
  | 0, read, input => some (read, input)
  | count + 1, read, c :: rest =>
    if c.isDigit then fixedNumber? count (read * 10 + (c.toNat - '0'.toNat)) rest else none
  | _, _, [] => none

def numberIn? (count low high : Nat) (input : List Char) : Option (Nat × List Char) := do
  let (n, rest) ← fixedNumber? count 0 input
  if low ≤ n ∧ n ≤ high then some (n, rest) else none

def char? (c : Char) : List Char → Option (List Char)
  | d :: rest => if d = c then some rest else none
  | [] => none

def padded (width n : Nat) : String :=
  let digits := Nat.toDigits 10 n
  String.ofList (List.replicate (width - digits.length) '0' ++ digits)

def isLeapYear (year : Nat) : Bool := year % 4 = 0 && (year % 100 != 0 || year % 400 = 0)

def daysIn (year month : Nat) : Nat :=
  if month = 2 then if isLeapYear year then 29 else 28
  else if month = 4 ∨ month = 6 ∨ month = 9 ∨ month = 11 then 30
  else 31

def date? (input : List Char) : Option (String × List Char) := do
  let (year, rest) ← fixedNumber? 4 0 input
  let rest ← char? '-' rest
  let (month, rest) ← numberIn? 2 1 12 rest
  let rest ← char? '-' rest
  let (day, rest) ← numberIn? 2 1 (daysIn year month) rest
  return (padded 4 year ++ "-" ++ padded 2 month ++ "-" ++ padded 2 day, rest)

/-- The fraction of a second, to the nanosecond, without zeros at its end. -/
def nanoseconds (digits : List Char) : String :=
  match ((digits.take 9).reverse.dropWhile (· = '0')).reverse with
  | [] => ""
  | digits => "." ++ String.ofList digits

def time? (input : List Char) : Option (String × List Char) := do
  let (hour, rest) ← numberIn? 2 0 23 input
  let rest ← char? ':' rest
  let (minute, rest) ← numberIn? 2 0 59 rest
  let rest ← char? ':' rest
  let (second, rest) ← numberIn? 2 0 60 rest
  let text := padded 2 hour ++ ":" ++ padded 2 minute ++ ":" ++ padded 2 second
  match rest with
  | '.' :: c :: more =>
    if c.isDigit then
      let digits := (c :: more).takeWhile Char.isDigit
      return (text ++ nanoseconds digits, (c :: more).dropWhile Char.isDigit)
    else none
  | ['.'] => none
  | rest => return (text, rest)

def offset? : Reader String
  | c :: rest =>
    if c = 'Z' ∨ c = 'z' then some ("Z", rest)
    else if c = '+' ∨ c = '-' then do
      let (hours, rest) ← numberIn? 2 0 23 rest
      let rest ← char? ':' rest
      let (minutes, rest) ← numberIn? 2 0 59 rest
      let mark := if c = '-' ∧ (hours ≠ 0 ∨ minutes ≠ 0) then "-" else "+"
      return (mark ++ padded 2 hours ++ ":" ++ padded 2 minutes, rest)
    else none
  | [] => none

/-- The time that may follow a date, after a letter or a single blank. -/
def timeOfDay? : Reader String
  | c :: rest =>
    if c = 'T' ∨ c = 't' ∨ c = ' ' then do
      let (time, rest) ← time? rest
      match offset? rest with
      | some (offset, rest) => some ("T" ++ time ++ offset, rest)
      | none => some ("T" ++ time, rest)
    else none
  | [] => none

def moment? (input : List Char) : Option (Value × List Char) :=
  match date? input with
  | some (date, rest) =>
    match timeOfDay? rest with
    | some (time, rest) => some (.moment (date ++ time), rest)
    | none => some (.moment date, rest)
  | none => (time? input).map fun (time, rest) => (.moment time, rest)

/-! ## All scalars -/

def scalarValue? (input : List Char) : Option (Value × List Char) :=
  match input with
  | 't' :: 'r' :: 'u' :: 'e' :: rest => some (.boolean true, rest)
  | 'f' :: 'a' :: 'l' :: 's' :: 'e' :: rest => some (.boolean false, rest)
  | '"' :: _ | '\'' :: _ => (string? input).map fun (text, rest) => (.string text, rest)
  | _ => (moment? input).orElse fun _ => (float? input).orElse fun _ => integer? input

end DatasetCache.Toml
