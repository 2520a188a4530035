import Mathlib.Tactic.SplitIfs
import DatasetCache.Toml.Printer

/-!
# Strings and keys that read back

A text is read back from each of the four styles that it may be written in.  A reader takes
an escape or a character at a time; only quotes inside a string of several lines are taken
as a whole run, so what the writer counted as a run has to be what the reader finds.
-/

namespace DatasetCache.Toml

open Text

/-! ## Characters -/

theorem isPlain_of_not_isControl {c : Char} (printable : isControl c = false) (inLine : c ≠ '\n') :
    isPlain c = true := by
  simpa [isControl, inLine] using printable

theorem not_isPlain_of_isControl {c : Char} (control : isControl c = true) :
    isPlain c = false := by
  simp only [isControl, Bool.and_eq_true, Bool.not_eq_true'] at control
  exact control.1

theorem isControl_lt {c : Char} (control : isControl c = true) : c.toNat < 0x80 := by
  have notPlain := not_isPlain_of_isControl control
  simp only [isPlain, Bool.or_eq_false_iff, Bool.and_eq_false_iff, decide_eq_false_iff_not]
    at notPlain
  rcases notPlain.2 with low | delete
  · omega
  · simp at delete
    omega

/-! ## Escapes -/

/-- Whether a text stands for a character that it escapes.  Nothing after its backslash
looks like the end of a line. -/
def Escapes (text : List Char) (c : Char) : Prop :=
  ∃ first more, text = '\\' :: first :: more ∧ isBlank first = false ∧ first ≠ '\n' ∧
    first ≠ '\r' ∧ ∀ rest, escape? (first :: (more ++ rest)) = some (c, rest)

theorem escapes_simple {first c : Char} (simple : simpleEscape? first = some c)
    (letter : isBlank first = false ∧ first ≠ '\n' ∧ first ≠ '\r' ∧ first ≠ 'u' ∧ first ≠ 'U') :
    Escapes ['\\', first] c := by
  obtain ⟨visible, newline, carriage, short, long⟩ := letter
  refine ⟨first, [], rfl, visible, newline, carriage, fun rest => ?_⟩
  simp [escape?, simple, short, long]

theorem escapes_code {c : Char} (small : c.toNat < 0x80) : Escapes (codeEscape true c) c := by
  refine ⟨'u', _, rfl, by decide, by decide, by decide, fun rest => ?_⟩
  have zero : hexValue? '0' = some 0 := by decide
  have high := hexValue?_hexDigit true (c.toNat / 16) (by omega)
  have low := hexValue?_hexDigit true (c.toNat % 16) (by omega)
  have code : c.toNat / 16 * 16 + c.toNat % 16 = c.toNat := by omega
  have valid : c.toNat.isValidChar := c.valid
  simp [escape?, scalar?, zero, high, low, code, valid, Char.ofNat_toNat]

theorem escapes_of_escapeOf? {c : Char} {text : List Char} (escaped : escapeOf? c = some text) :
    Escapes text c := by
  rw [escapeOf?] at escaped
  split_ifs at escaped with backspace tab feed carriage backslash control <;> cases escaped
  · subst backspace; exact escapes_simple rfl (by decide)
  · subst tab; exact escapes_simple rfl (by decide)
  · subst feed; exact escapes_simple rfl (by decide)
  · subst carriage; exact escapes_simple rfl (by decide)
  · subst backslash; exact escapes_simple rfl (by decide)
  · exact escapes_code (isControl_lt control)

theorem escaped_cons {c : Char} (unquoted : c ≠ '"') (long : Bool) (run : Nat) (text : List Char) :
    (∃ written, Escapes written c ∧
      escaped long run (c :: text) = written ++ escaped long 0 text) ∨
    (c ≠ '\\' ∧ c ≠ '\r' ∧ (isPlain c = true ∨ c = '\n' ∧ long = true) ∧
      escaped long run (c :: text) = c :: escaped long 0 text) := by
  rw [escaped, if_neg unquoted]
  split_ifs with newline isLong
  · exact .inr ⟨by simp [newline], by simp [newline], .inr ⟨newline, isLong⟩, by rw [newline]⟩
  · refine .inl ⟨['\\', 'n'], ?_, rfl⟩
    rw [newline]
    exact escapes_simple rfl (by decide)
  · cases kind : escapeOf? c with
    | some written => exact .inl ⟨written, escapes_of_escapeOf? kind, rfl⟩
    | none =>
        rw [escapeOf?] at kind
        split_ifs at kind with backspace tab feed carriage backslash control
        exact .inr ⟨backslash, carriage,
          .inl (isPlain_of_not_isControl (by simpa using control) newline), rfl⟩

/-! ## Strings on one line -/

theorem basicTail?_escape {written : List Char} {c : Char} (escapes : Escapes written c)
    (steps : Nat) (read rest : List Char) :
    basicTail? (steps + 1) read (written ++ rest) = basicTail? steps (c :: read) rest := by
  obtain ⟨first, more, rfl, -, -, -, reads⟩ := escapes
  simp [basicTail?, reads]

theorem basicTail?_escaped (text rest : List Char) {steps : Nat} (enough : text.length < steps)
    (run : Nat) (read : List Char) :
    basicTail? steps read (escaped false run text ++ '"' :: rest) =
      some (String.ofList (read.reverse ++ text), rest) := by
  induction text generalizing steps run read with
  | nil =>
      obtain ⟨steps, rfl⟩ := Nat.exists_eq_add_of_lt enough
      simp [escaped, basicTail?]
  | cons c text ih =>
      obtain ⟨steps, rfl⟩ := Nat.exists_eq_add_of_lt enough
      have remaining := @ih (text.length + 1 + steps) (by omega)
      rw [List.length_cons]
      by_cases quote : c = '"'
      · subst quote
        have split : escaped false run ('"' :: text) = ['\\', '"'] ++ escaped false 0 text := by
          simp [escaped]
        rw [split, List.append_assoc, basicTail?_escape (escapes_simple rfl (by decide)), remaining]
        simp
      · rcases escaped_cons quote false run text with
          ⟨written, escapes, split⟩ | ⟨backslash, -, plain | ⟨-, impossible⟩, split⟩
        · rw [split, List.append_assoc, basicTail?_escape escapes, remaining]
          simp
        · simp [split, basicTail?, plain, remaining]
        · cases impossible

theorem literalTail?_text (text rest : List Char) (plain : ∀ c ∈ text, isPlain c = true)
    (unquoted : '\'' ∉ text) (read : List Char) :
    literalTail? read (text ++ '\'' :: rest) =
      some (String.ofList (read.reverse ++ text), rest) := by
  induction text generalizing read with
  | nil => simp [literalTail?]
  | cons c text ih =>
      obtain ⟨other, unquoted⟩ := List.ne_and_not_mem_of_not_mem_cons unquoted
      have remaining := ih (fun c member => plain c (List.mem_cons_of_mem _ member)) unquoted
      simp [literalTail?, Ne.symm other, plain c List.mem_cons_self, remaining]

/-! ## Runs of quotes -/

theorem quoteRun_replicate {quote : Char} {count : Nat} (short : count ≤ 5) {rest : List Char}
    (ends : rest.head? ≠ some quote) :
    quoteRun quote (List.replicate count quote ++ rest) = count := by
  have none : (rest.take (5 - count)).takeWhile (· = quote) = [] := by
    cases rest with
    | nil => simp
    | cons c rest => cases left : 5 - count <;> simp_all
  rw [quoteRun, List.take_append, List.length_replicate,
    List.take_of_length_le (by simpa using short), List.takeWhile_append_of_pos (by simp), none]
  simp

theorem closing_run {quote : Char} {count : Nat} (short : count ≤ 2) {rest : List Char}
    (ends : rest.head? ≠ some quote) :
    closing quote (List.replicate count quote ++ rest) = (count, false) := by
  rw [closing, quoteRun_replicate (by omega) ends]
  simp; omega

theorem closing_end {quote : Char} {count : Nat} (short : count ≤ 2) {rest : List Char}
    (ends : rest.head? ≠ some quote) :
    closing quote (List.replicate (count + 3) quote ++ rest) = (count, true) := by
  rw [closing, quoteRun_replicate (by omega) ends]
  simp

/-- What the readers of the two kinds of strings on several lines do at a quote. -/
def TakesRuns (quote : Char) (tail? : Nat → List Char → Reader String) : Prop :=
  ∀ steps read rest, tail? (steps + 1) read (quote :: rest) =
    let (inner, closes) := closing quote (quote :: rest)
    let read := List.replicate inner quote ++ read
    if closes then some (String.ofList read.reverse, (quote :: rest).drop (inner + 3))
    else tail? steps read ((quote :: rest).drop inner)

section TakesRuns

variable {quote : Char} {tail? : Nat → List Char → Reader String} (takes : TakesRuns quote tail?)
  {steps run : Nat} (read : List Char)

include takes

theorem TakesRuns.keep (short : run ≤ 2) {input : List Char} (ends : input.head? ≠ some quote)
    (enough : run < steps) :
    ∃ left, steps ≤ left + run ∧
      tail? steps read (List.replicate run quote ++ input) =
        tail? left (List.replicate run quote ++ read) input := by
  cases run with
  | zero => exact ⟨steps, by omega, rfl⟩
  | succ run =>
      obtain ⟨left, rfl⟩ := Nat.exists_eq_add_of_lt enough
      refine ⟨run + 1 + left, by omega, ?_⟩
      have goesOn := closing_run short ends
      rw [List.replicate_succ, List.cons_append] at goesOn ⊢
      rw [takes, goesOn]
      simp [List.replicate_succ]

theorem TakesRuns.close (short : run ≤ 2) {rest : List Char} (ends : rest.head? ≠ some quote)
    (enough : run < steps) :
    tail? steps read (List.replicate run quote ++ quote :: quote :: quote :: rest) =
      some (String.ofList (List.replicate run quote ++ read).reverse, rest) := by
  obtain ⟨left, rfl⟩ := Nat.exists_eq_add_of_lt enough
  have closes := closing_end short ends
  have joined : List.replicate run quote ++ quote :: quote :: quote :: rest =
      List.replicate (run + 3) quote ++ rest := by
    rw [← List.replicate_append_replicate, List.append_assoc]
    rfl
  rw [joined]
  rw [List.replicate_succ, List.cons_append] at closes ⊢
  rw [takes, closes]
  simp

end TakesRuns

/-! ## Strings on several lines -/

theorem longBasicTail?_takesRuns : TakesRuns '"' longBasicTail? := fun _ _ _ => by
  rw [longBasicTail?]

theorem longLiteralTail?_takesRuns : TakesRuns '\'' longLiteralTail? := fun _ _ _ => by
  rw [longLiteralTail?]

theorem longBasicTail?_escape {written : List Char} {c : Char} (escapes : Escapes written c)
    (steps : Nat) (read rest : List Char) :
    longBasicTail? (steps + 1) read (written ++ rest) = longBasicTail? steps (c :: read) rest := by
  obtain ⟨first, more, rfl, visible, newline, carriage, reads⟩ := escapes
  simp [longBasicTail?, skipBlanks, visible, newline?, newline, carriage, reads]

/-- What ends a run of quotes is read in one step, whichever way it is written: another
character, or the quote that would be the third. -/
theorem longBasicTail?_ends {c : Char} {run : Nat} (ends : c = '"' → run = 2) (text : List Char) :
    ∃ written, escaped true run (c :: text) = written ++ escaped true 0 text ∧
      (∀ rest, (written ++ rest).head? ≠ some '"') ∧
      ∀ steps read rest, longBasicTail? (steps + 1) read (written ++ rest) =
        longBasicTail? steps (c :: read) rest := by
  by_cases quote : c = '"'
  · have full := ends quote
    subst quote full
    exact ⟨['\\', '"'], by simp [escaped], by simp,
      longBasicTail?_escape (escapes_simple rfl (by decide))⟩
  · rcases escaped_cons quote true run text with
      ⟨written, escapes, split⟩ | ⟨backslash, carriage, plain, split⟩
    · have step := longBasicTail?_escape escapes
      obtain ⟨first, more, rfl, -⟩ := escapes
      exact ⟨_, split, by simp, step⟩
    · refine ⟨[c], split, by simpa using quote, fun steps read rest => ?_⟩
      have kept : c = '\n' ∨ isPlain c = true := plain.symm.imp And.left id
      simp [longBasicTail?, carriage, kept]

theorem longBasicTail?_escaped (text : List Char) {rest : List Char} (ends : rest.head? ≠ some '"')
    {run : Nat} (short : run ≤ 2) {steps : Nat} (enough : run + text.length < steps)
    (read : List Char) :
    longBasicTail? steps read (List.replicate run '"' ++ (escaped true run text ++
      '"' :: '"' :: '"' :: rest)) =
      some (String.ofList (read.reverse ++ (List.replicate run '"' ++ text)), rest) := by
  induction text generalizing run steps read with
  | nil =>
      rw [escaped, List.nil_append, longBasicTail?_takesRuns.close read short ends enough]
      simp
  | cons c text ih =>
      rw [List.length_cons] at enough
      by_cases goesOn : c = '"' ∧ run ≠ 2
      · obtain ⟨rfl, more⟩ := goesOn
        have split : escaped true run ('"' :: text) = '"' :: escaped true (run + 1) text := by
          rw [escaped, if_pos rfl, if_neg (by simp; omega)]
        have longer := @ih (run + 1) (by omega) steps (by omega) read
        rw [List.replicate_succ'] at longer
        simpa [split] using longer
      · have ends : c = '"' → run = 2 := by grind
        obtain ⟨written, split, front, step⟩ := longBasicTail?_ends ends text
        have any : run < steps := by omega
        obtain ⟨left, many, kept⟩ := longBasicTail?_takesRuns.keep read short (front _) any
        obtain ⟨left, rfl⟩ : ∃ fewer, left = fewer + 1 := ⟨left - 1, by omega⟩
        have remaining := @ih 0 (by omega) left (by omega) (c :: (List.replicate run '"' ++ read))
        rw [split, List.append_assoc, kept, step]
        simpa using remaining

theorem longestRun_ge (c : Char) (run : Nat) (text : List Char) : run ≤ longestRun c run text := by
  induction text generalizing run with
  | nil => simp [longestRun]
  | cons d text ih =>
      rw [longestRun]
      split
      · have more := ih (run + 1)
        omega
      · omega

theorem longLiteralTail?_text (text : List Char) {rest : List Char} (ends : rest.head? ≠ some '\'')
    (plain : ∀ c ∈ text, c = '\n' ∨ isPlain c = true) {run : Nat}
    (short : longestRun '\'' run text ≤ 2) {steps : Nat} (enough : run + text.length < steps)
    (read : List Char) :
    longLiteralTail? steps read (List.replicate run '\'' ++
      (text ++ '\'' :: '\'' :: '\'' :: rest)) =
      some (String.ofList (read.reverse ++ (List.replicate run '\'' ++ text)), rest) := by
  have few := Nat.le_trans (longestRun_ge '\'' run text) short
  induction text generalizing run steps read with
  | nil =>
      rw [List.nil_append, longLiteralTail?_takesRuns.close read few ends enough]
      simp
  | cons c text ih =>
      rw [List.length_cons] at enough
      have plainRest : ∀ c ∈ text, c = '\n' ∨ isPlain c = true :=
        fun c member => plain c (List.mem_cons_of_mem _ member)
      rw [longestRun] at short
      split at short
      next quote =>
        subst quote
        have longer := @ih plainRest (run + 1) short steps (by omega) read
          (Nat.le_trans (longestRun_ge _ _ _) short)
        rw [List.replicate_succ'] at longer
        simpa using longer
      next other =>
        have any : run < steps := by omega
        have front : ((c :: text) ++ '\'' :: '\'' :: '\'' :: rest).head? ≠ some '\'' := by
          simpa using other
        obtain ⟨left, many, kept⟩ := longLiteralTail?_takesRuns.keep read few front any
        obtain ⟨left, rfl⟩ : ∃ fewer, left = fewer + 1 := ⟨left - 1, by omega⟩
        have carriage : c ≠ '\r' := by
          rintro rfl
          have bad := plain _ List.mem_cons_self
          revert bad
          decide
        have remaining := @ih plainRest 0 (by omega) left (by omega)
          (c :: (List.replicate run '\'' ++ read)) (by omega)
        rw [kept]
        simpa [longLiteralTail?, carriage, plain c List.mem_cons_self] using remaining

/-! ## The four styles -/

theorem length_le_length_escaped (long : Bool) (run : Nat) (text : List Char) :
    text.length ≤ (escaped long run text).length := by
  induction text generalizing run with
  | nil => simp
  | cons c text ih =>
      have shorter := ih 0
      by_cases quote : c = '"'
      · have stands := ih (run + 1)
        rw [escaped, if_pos quote]
        split_ifs <;> simp only [List.length_cons] <;> omega
      · rcases escaped_cons quote long run text with
          ⟨written, ⟨first, more, rfl, -⟩, split⟩ | ⟨-, -, -, split⟩
        · simp only [split, List.length_append, List.length_cons]
          omega
        · simp only [split, List.length_cons]
          omega

theorem dropNewline_of_head {input : List Char}
    (starts : ∀ c ∈ input.head?, c ≠ '\n' ∧ c ≠ '\r') : dropNewline input = input := by
  cases input with
  | nil => rfl
  | cons c input =>
      obtain ⟨newline, carriage⟩ := starts c rfl
      simp [dropNewline, newline?, newline, carriage]

theorem escaped_head (long : Bool) {text : List Char} (newline : '\n' ∉ text) (rest : List Char) :
    ∀ c ∈ (escaped long 0 text ++ '"' :: rest).head?, c ≠ '\n' ∧ c ≠ '\r' := by
  cases text with
  | nil => simp [escaped]
  | cons d text =>
      by_cases quote : d = '"'
      · cases long <;> simp [escaped, quote]
      · rcases escaped_cons quote long 0 text with
          ⟨written, ⟨first, more, rfl, -⟩, split⟩ | ⟨-, carriage, -, split⟩
        · simp [split]
        · have other := (List.ne_and_not_mem_of_not_mem_cons newline).1
          simp [split, carriage, other.symm]

theorem write_basic (text rest : List Char) :
    Style.basic.write text ++ rest = '"' :: (escaped false 0 text ++ '"' :: rest) := by
  simp [Style.write, delimiter]

theorem write_literal (text rest : List Char) :
    Style.literal.write text ++ rest = '\'' :: (text ++ '\'' :: rest) := by
  simp [Style.write, delimiter]

theorem length_lt_written (long : Bool) (text closing : List Char) :
    text.length < (escaped long 0 text ++ closing).length + 1 := by
  have longer := length_le_length_escaped long 0 text
  rw [List.length_append]
  omega

variable (text : List Char) {rest : List Char}

theorem string?_basic (ends : rest.head? ≠ some '"') :
    string? (Style.basic.write text ++ rest) = some (String.ofList text, rest) := by
  -- Two more quotes after the first one would open a string of several lines.
  have single : ∀ more, escaped false 0 text ++ '"' :: rest ≠ '"' :: '"' :: more := by
    intro more same
    cases text with
    | nil =>
        rw [escaped, List.nil_append, List.cons.injEq] at same
        simp [same.2] at ends
    | cons c text =>
        by_cases quote : c = '"'
        · simp [escaped, quote] at same
        · rcases escaped_cons quote false 0 text with
            ⟨written, ⟨first, more, rfl, -⟩, split⟩ | ⟨-, -, -, split⟩
          · simp [split] at same
          · simp [split, quote] at same
  have read : string? ('"' :: (escaped false 0 text ++ '"' :: rest)) =
      basicTail? ((escaped false 0 text ++ '"' :: rest).length + 1) []
        (escaped false 0 text ++ '"' :: rest) := by
    generalize escaped false 0 text ++ '"' :: rest = input at single
    rw [string?]
    exact fun more same => single more same
  rw [write_basic, read, basicTail?_escaped text rest (length_lt_written false text _)]
  simp

theorem string?_literal (plain : ∀ c ∈ text, isPlain c = true) (unquoted : '\'' ∉ text)
    (ends : rest.head? ≠ some '\'') :
    string? (Style.literal.write text ++ rest) = some (String.ofList text, rest) := by
  have single : ∀ more, text ++ '\'' :: rest ≠ '\'' :: '\'' :: more := by
    intro more same
    cases text with
    | nil =>
        rw [List.nil_append, List.cons.injEq] at same
        simp [same.2] at ends
    | cons c text => simp_all
  have read : string? ('\'' :: (text ++ '\'' :: rest)) =
      literalTail? [] (text ++ '\'' :: rest) := by
    generalize text ++ '\'' :: rest = input at single
    rw [string?]
    exact fun more same => single more same
  rw [write_literal, read, literalTail?_text text rest plain unquoted]
  simp

theorem dropNewline_opening {body : List Char}
    (starts : '\n' ∉ text → ∀ c ∈ body.head?, c ≠ '\n' ∧ c ≠ '\r') :
    dropNewline ((if text.contains '\n' then ['\n'] else []) ++ body) = body := by
  split_ifs with newline
  · rfl
  · exact dropNewline_of_head (starts (by simpa using newline))

theorem string?_longBasic (ends : rest.head? ≠ some '"') :
    string? (Style.longBasic.write text ++ rest) = some (String.ofList text, rest) := by
  have written : Style.longBasic.write text ++ rest = '"' :: '"' :: '"' ::
      ((if text.contains '\n' then ['\n'] else []) ++
        (escaped true 0 text ++ '"' :: '"' :: '"' :: rest)) := by
    simp [Style.write, delimiter]
  have starts : '\n' ∉ text → ∀ c ∈ (escaped true 0 text ++ '"' :: '"' :: '"' :: rest).head?,
      c ≠ '\n' ∧ c ≠ '\r' := fun newline => escaped_head true newline _
  rw [written, string?, dropNewline_opening text starts]
  have enough := length_lt_written true text ('"' :: '"' :: '"' :: rest)
  refine (longBasicTail?_escaped text ends (Nat.zero_le 2) ?_ []).trans (by simp)
  rw [List.length_append]
  omega

theorem string?_longLiteral (plain : ∀ c ∈ text, c = '\n' ∨ isPlain c = true)
    (few : longestRun '\'' 0 text ≤ 2) (ends : rest.head? ≠ some '\'') :
    string? (Style.longLiteral.write text ++ rest) = some (String.ofList text, rest) := by
  have written : Style.longLiteral.write text ++ rest = '\'' :: '\'' :: '\'' ::
      ((if text.contains '\n' then ['\n'] else []) ++
        (text ++ '\'' :: '\'' :: '\'' :: rest)) := by
    simp [Style.write, delimiter]
  have starts : '\n' ∉ text → ∀ c ∈ (text ++ '\'' :: '\'' :: '\'' :: rest).head?,
      c ≠ '\n' ∧ c ≠ '\r' := by
    intro newline
    cases text with
    | nil => simp
    | cons c text =>
        have other := (List.ne_and_not_mem_of_not_mem_cons newline).1
        have visible := plain c List.mem_cons_self
        simp only [List.cons_append, List.head?_cons, Option.mem_some_iff, forall_eq']
        refine ⟨other.symm, ?_⟩
        rintro rfl
        revert visible
        decide
  rw [written, string?, dropNewline_opening text starts]
  refine (longLiteralTail?_text text ends plain few ?_ []).trans (by simp)
  simp only [List.length_append, List.length_cons]
  omega

/-! ## Values -/

theorem longestRun_pos {c : Char} {text : List Char} (member : c ∈ text) (run : Nat) :
    0 < longestRun c run text := by
  induction text generalizing run with
  | nil => cases member
  | cons d text ih =>
      rw [longestRun]
      split
      next => have more := longestRun_ge c (run + 1) text; omega
      next other =>
        have later := ih ((List.mem_cons.1 member).resolve_left (Ne.symm other)) 0
        omega

theorem plain_of_not_controls {text : List Char} (controls : text.any isControl = false) :
    ∀ c ∈ text, c = '\n' ∨ isPlain c = true := by
  intro c member
  have printable : isControl c = false := by simpa using List.any_eq_false.1 controls c member
  by_cases newline : c = '\n'
  · exact .inl newline
  · exact .inr (isPlain_of_not_isControl printable newline)

theorem string?_writeString (text : String) {rest : List Char} (double : rest.head? ≠ some '"')
    (single : rest.head? ≠ some '\'') :
    string? (writeString text ++ rest) = some (text, rest) := by
  have back : String.ofList text.toList = text := String.ofList_toList
  rw [writeString, valueStyle]
  split_ifs with basic literal longBasic longLiteral newline
  · rw [string?_basic _ double, back]
  · simp only [Bool.and_eq_true, Bool.not_eq_true', decide_eq_true_eq] at literal
    obtain ⟨⟨controls, apostrophes⟩, newline⟩ := literal
    have unquoted : '\'' ∉ text.toList := fun member => by
      have some := longestRun_pos member 0
      omega
    have plain : ∀ c ∈ text.toList, isPlain c = true := by
      intro c member
      refine (plain_of_not_controls controls c member).resolve_left ?_
      rintro rfl
      simp [member] at newline
    rw [string?_literal _ plain unquoted single, back]
  · rw [string?_longBasic _ double, back]
  · simp only [Bool.and_eq_true, Bool.not_eq_true', decide_eq_true_eq] at longLiteral
    rw [string?_longLiteral _ (plain_of_not_controls longLiteral.1) longLiteral.2 single, back]
  · rw [string?_longBasic _ double, back]
  · rw [string?_basic _ double, back]

/-! ## Keys -/

theorem keyPart?_basic (text rest : List Char) :
    keyPart? (Style.basic.write text ++ rest) = some (String.ofList text, rest) := by
  rw [write_basic, keyPart?, basicTail?_escaped text rest (length_lt_written false text _)]
  simp

theorem keyPart?_literal {text : List Char} (plain : ∀ c ∈ text, isPlain c = true)
    (unquoted : '\'' ∉ text) (rest : List Char) :
    keyPart? (Style.literal.write text ++ rest) = some (String.ofList text, rest) := by
  rw [write_literal, keyPart?, literalTail?_text text rest plain unquoted]
  simp

theorem keyPart?_bare {text rest : List Char} (nonempty : text ≠ [])
    (bare : ∀ c ∈ text, isBare c = true) (ends : ∀ c ∈ rest.head?, isBare c = false) :
    keyPart? (text ++ rest) = some (String.ofList text, rest) := by
  have stops : rest.takeWhile isBare = [] ∧ rest.dropWhile isBare = rest := by
    cases rest with
    | nil => simp
    | cons c rest => simp [ends c rfl]
  obtain ⟨c, text, rfl⟩ := List.exists_cons_of_ne_nil nonempty
  have first := bare c List.mem_cons_self
  have quote : ∀ d, isBare d = false → ∀ more, c :: (text ++ rest) ≠ d :: more := by
    rintro d marks more same
    rw [(List.cons.inj same).1, marks] at first
    cases first
  rw [List.cons_append, keyPart?]
  · rw [← List.cons_append, List.takeWhile_append_of_pos bare, List.dropWhile_append_of_pos bare,
      stops.1, stops.2, List.append_nil]
  · exact fun more => quote '"' (by decide) more
  · exact fun more => quote '\'' (by decide) more

theorem keyPart?_writeKey (key : String) {rest : List Char}
    (ends : ∀ c ∈ rest.head?, isBare c = false) :
    keyPart? (writeKey key ++ rest) = some (key, rest) := by
  have back : String.ofList key.toList = key := String.ofList_toList
  rw [writeKey]
  split_ifs with bare
  · simp only [Bool.and_eq_true, Bool.not_eq_true', List.isEmpty_eq_false_iff, List.all_eq_true]
      at bare
    rw [keyPart?_bare bare.1 bare.2 ends, back]
  · rw [keyStyle]
    split_ifs with basic literal
    · rw [keyPart?_basic, back]
    · simp only [Bool.and_eq_true, Bool.not_eq_true', List.any_eq_false, Bool.or_eq_true, not_or,
        beq_iff_eq, Bool.not_eq_true] at literal
      have plain : ∀ c ∈ key.toList, isPlain c = true := fun c member =>
        isPlain_of_not_isControl (literal.1 c member).1 (literal.1 c member).2
      rw [keyPart?_literal plain (by simpa using literal.2), back]
    · rw [keyPart?_basic, back]

end DatasetCache.Toml
