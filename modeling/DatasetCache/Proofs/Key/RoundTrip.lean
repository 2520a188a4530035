import Mathlib.Tactic.SplitIfs
import DatasetCache.Key.Json
import DatasetCache.Proofs.Table

/-!
# Keys survive JSON

A key is read back from its text as it was written, whatever characters its name, the names
of its arguments and their values hold.  Reading a string undoes the escapes one character
at a time; reading an object follows the members as they were written, so it stops at the
brace that ends them.
-/

namespace DatasetCache.Json

open Text

/-! ## Strings -/

theorem codeUnit?_hexDigit {n : Nat} (small : n < 0x20) :
    codeUnit? '0' '0' (hexDigit false (n / 16)) (hexDigit false (n % 16)) = some n := by
  have high := hexValue?_hexDigit false (n / 16) (by omega)
  have low := hexValue?_hexDigit false (n % 16) (by omega)
  have zero : hexValue? '0' = some 0 := by decide
  simp only [codeUnit?, zero, high, low, Option.bind_eq_bind, Option.bind_some, Option.pure_def]
  congr 1
  omega

variable (read rest : List Char)

theorem stringTail?_simpleEscape {c d : Char} (simple : simpleEscape? d = some c)
    (short : d ≠ 'u') :
    stringTail? read ('\\' :: d :: rest) = stringTail? (c :: read) rest := by
  simp [stringTail?, simple, short]

theorem stringTail?_codeEscape {c : Char} (small : c.toNat < 0x20) :
    stringTail? read (codeEscape false c ++ rest) = stringTail? (c :: read) rest := by
  have trailing : isTrailing c.toNat = false := by simp [isTrailing]; omega
  have leading : isLeading c.toNat = false := by simp [isLeading]; omega
  simp [codeEscape, stringTail?, codeUnit?_hexDigit small, trailing, leading, Char.ofNat_toNat]

theorem stringTail?_escape (c : Char) :
    stringTail? read (escape c ++ rest) = stringTail? (c :: read) rest := by
  rw [escape]
  split_ifs with quote backslash backspace feed newline carriage tab control
  · subst quote; exact stringTail?_simpleEscape read rest rfl (by decide)
  · subst backslash; exact stringTail?_simpleEscape read rest rfl (by decide)
  · subst backspace; exact stringTail?_simpleEscape read rest rfl (by decide)
  · subst feed; exact stringTail?_simpleEscape read rest rfl (by decide)
  · subst newline; exact stringTail?_simpleEscape read rest rfl (by decide)
  · subst carriage; exact stringTail?_simpleEscape read rest rfl (by decide)
  · subst tab; exact stringTail?_simpleEscape read rest rfl (by decide)
  · exact stringTail?_codeEscape read rest control
  · simp [stringTail?, backslash, control]

theorem stringTail?_escaped (text : List Char) :
    stringTail? read (text.flatMap escape ++ '"' :: rest) =
      some (String.ofList (read.reverse ++ text), rest) := by
  induction text generalizing read with
  | nil => simp [stringTail?]
  | cons c text ih => simp [stringTail?_escape, ih]

theorem skipBlanks_cons {c : Char} (visible : isBlank c = false) (input : List Char) :
    skipBlanks (c :: input) = c :: input := by
  simp [skipBlanks, visible]

theorem expect?_cons {c : Char} (visible : isBlank c = false) (input : List Char) :
    expect? c (c :: input) = some input := by
  simp [expect?, skipBlanks_cons visible]

theorem string?_quoted (text : String) : string? (quoted text ++ rest) = some (text, rest) := by
  simp [string?, expect?_cons (c := '"') rfl, quoted, stringTail?_escaped]

/-! ## Members -/

theorem separated_cons (first : List Char) (others : List (List Char)) :
    separated (first :: others) = first ++ others.flatMap (',' :: ·) := by
  induction others generalizing first with
  | nil => simp [separated]
  | cons second others ih =>
      rw [separated, List.intercalate_cons_cons, ← separated, ih]
      simp

/-- A member after its first quote, up to its value and what follows that. -/
def afterQuote (name : String) (input : List Char) : List Char :=
  name.toList.flatMap escape ++ '"' :: ':' :: input

theorem quoted_append (name : String) (input : List Char) :
    quoted name ++ ':' :: input = '"' :: afterQuote name input := by
  simp [quoted, afterQuote]

def stringMember (member : String × String) : List Char :=
  quoted member.1 ++ ':' :: quoted member.2

theorem stringMember_append (member : String × String) (rest : List Char) :
    stringMember member ++ rest = '"' :: afterQuote member.1 (quoted member.2 ++ rest) := by
  rw [← quoted_append, stringMember]
  simp

theorem chars_strings (members : List (String × String)) :
    (obj (members.map fun member => (member.1, str member.2))).chars =
      '\x7b' :: (separated (members.map stringMember) ++ ['\x7d']) := by
  have written : memberChars (members.map fun member => (member.1, str member.2)) =
      members.map stringMember := by
    induction members with
    | nil => rfl
    | cons member members ih => simp [memberChars, stringMember, chars, ih]
  rw [chars, written]

end DatasetCache.Json

namespace DatasetCache.Key

open Json

/-! ## Arguments -/

def others (members : List (String × String)) (rest : List Char) : List Char :=
  members.flatMap (',' :: stringMember ·) ++ '\x7d' :: rest

theorem length_lt_length_others (members : List (String × String)) (rest : List Char) :
    members.length < (others members rest).length := by
  induction members with
  | nil => simp [others]
  | cons member members ih =>
      simp only [others, List.flatMap_cons, List.length_append, List.length_cons] at ih ⊢
      omega

variable (read : Arguments) (member : String × String)

theorem argumentsTail?_comma (steps : Nat) {rest input : List Char}
    (goesOn : skipBlanks rest = ',' :: input) :
    argumentsTail? (steps + 1) read (afterQuote member.1 (quoted member.2 ++ rest)) =
      (expect? '"' input).bind (argumentsTail? steps (read.insert member.1 member.2)) := by
  simp [argumentsTail?, afterQuote, stringTail?_escaped, expect?_cons (c := ':') rfl,
    string?_quoted, goesOn]

theorem argumentsTail?_brace (steps : Nat) {rest input : List Char}
    (ends : skipBlanks rest = '\x7d' :: input) :
    argumentsTail? (steps + 1) read (afterQuote member.1 (quoted member.2 ++ rest)) =
      some (read.insert member.1 member.2, input) := by
  simp [argumentsTail?, afterQuote, stringTail?_escaped, expect?_cons (c := ':') rfl,
    string?_quoted, ends]

theorem argumentsTail?_others (members : List (String × String)) (rest : List Char)
    {steps : Nat} (enough : members.length < steps) :
    argumentsTail? steps read (afterQuote member.1 (quoted member.2 ++ others members rest)) =
      some (read.insertAll (member :: members), rest) := by
  induction members generalizing steps read member with
  | nil =>
      obtain ⟨steps, rfl⟩ := Nat.exists_eq_add_of_lt enough
      exact argumentsTail?_brace read member _ (skipBlanks_cons rfl rest)
  | cons next members ih =>
      obtain ⟨steps, rfl⟩ := Nat.exists_eq_add_of_lt enough
      have fewer : members.length < members.length + 1 + steps := by omega
      have remaining := ih (read.insert member.1 member.2) next fewer
      have goesOn : others (next :: members) rest =
          ',' :: '"' :: afterQuote next.1 (quoted next.2 ++ others members rest) := by
        rw [← stringMember_append]
        simp [others]
      rw [List.length_cons, goesOn, argumentsTail?_comma read member _ (skipBlanks_cons rfl _),
        expect?_cons rfl, Option.bind_some, remaining]
      rfl

theorem arguments?_chars (arguments : Arguments) (rest : List Char) :
    arguments? ((obj (arguments.entries.map fun entry => (entry.1, str entry.2))).chars ++ rest) =
      some (arguments, rest) := by
  rw [chars_strings]
  cases written : arguments.entries with
  | nil =>
      have empty : Table.empty = arguments := Table.ext written.symm
      simp [arguments?, separated, expect?_cons (c := '\x7b') rfl,
        skipBlanks_cons (c := '\x7d') rfl, empty]
  | cons member members =>
      have same : Table.empty.insertAll (member :: members) = arguments := by
        rw [← written]
        exact Table.ofList_entries arguments
      have braced :
          '\x7b' :: (separated ((member :: members).map stringMember) ++ ['\x7d']) ++ rest =
            '\x7b' :: '"' :: afterQuote member.1 (quoted member.2 ++ others members rest) := by
        rw [← stringMember_append, List.map_cons, separated_cons]
        simp [others, List.flatMap_map]
      have enough : members.length <
          (afterQuote member.1 (quoted member.2 ++ others members rest)).length + 1 := by
        have short := length_lt_length_others members rest
        simp only [afterQuote, List.length_append, List.length_cons]
        omega
      rw [braced, arguments?, expect?_cons rfl]
      simp only [Option.bind_eq_bind, Option.bind_some, skipBlanks_cons (c := '"') rfl]
      rw [argumentsTail?_others _ _ _ _ enough, same]

/-! ## Keys -/

section Members

variable {before after : Members} {name : String} {input rest more : List Char}
  (value : member? before name input = some (after, rest)) (steps : Nat)

include value

theorem membersTail?_comma (goesOn : skipBlanks rest = ',' :: more) :
    membersTail? (steps + 1) before (afterQuote name input) =
      (expect? '"' more).bind (membersTail? steps after) := by
  simp [membersTail?, afterQuote, stringTail?_escaped, expect?_cons (c := ':') rfl, value, goesOn]

theorem membersTail?_brace (ends : skipBlanks rest = '\x7d' :: more) :
    membersTail? (steps + 1) before (afterQuote name input) = some (after, more) := by
  simp [membersTail?, afterQuote, stringTail?_escaped, expect?_cons (c := ':') rfl, value, ends]

end Members

variable (key : Key) (rest : List Char)

/-- A key after its first quote. -/
def members : List Char :=
  afterQuote "name" (quoted key.name ++ ',' :: '"' :: afterQuote "arguments"
    ((obj (key.arguments.entries.map fun entry => (entry.1, str entry.2))).chars ++
      '\x7d' :: rest))

theorem chars_toJson : key.toJson.chars = '\x7b' :: '"' :: members key [] := by
  rw [members, ← quoted_append, ← quoted_append]
  simp [toJson, chars, memberChars, separated]

theorem membersTail?_members (steps : Nat) :
    membersTail? (steps + 2) {} (members key rest) =
      some ({ name := some key.name, arguments := some key.arguments }, rest) := by
  have name : ∀ input, member? {} "name" (quoted key.name ++ input) =
      some ({ name := some key.name }, input) := by
    simp [member?, string?_quoted]
  have arguments : ∀ input, member? { name := some key.name } "arguments"
      ((obj (key.arguments.entries.map fun entry => (entry.1, str entry.2))).chars ++ input) =
      some ({ name := some key.name, arguments := some key.arguments }, input) := by
    simp [member?, arguments?_chars]
  rw [members, membersTail?_comma (name _) _ (skipBlanks_cons rfl _), expect?_cons rfl,
    Option.bind_some, membersTail?_brace (arguments _) _ (skipBlanks_cons rfl rest)]

theorem ofMembers?_members : ofMembers? (members key rest) = some (key, rest) := by
  have nonempty : (members key rest).length ≠ 0 := by
    rw [members, afterQuote, List.length_append, List.length_cons]
    omega
  obtain ⟨steps, long⟩ := Nat.exists_eq_succ_of_ne_zero nonempty
  rw [ofMembers?, long, membersTail?_members]
  rfl

theorem ofJsonText?_jsonText : ofJsonText? key.jsonText = some key := by
  rw [ofJsonText?, jsonText, compact, String.toList_ofList, chars_toJson, skipBlanks_cons rfl]
  simp only [expect?_cons (c := '"') rfl, Option.bind_some, ofMembers?_members,
    Option.bind_eq_bind]
  rfl

/-- **Keys survive JSON.** Every key is read back from its text as it was written, so two
keys have the same text only if they are equal. -/
theorem json_round_trip (key : Key) :
    ofJsonText? key.jsonText = some key ∧
      ∀ other : Key, key.jsonText = other.jsonText ↔ key = other := by
  refine ⟨ofJsonText?_jsonText key, fun other => ⟨fun same => ?_, congrArg jsonText⟩⟩
  have back := ofJsonText?_jsonText key
  rw [same, ofJsonText?_jsonText] at back
  exact (Option.some.inj back).symm

end DatasetCache.Key
