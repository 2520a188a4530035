import DatasetCache.Proofs.Toml.Strings
import DatasetCache.Toml.Document

/-!
# Lines that read back

A line that gives a key a string, and a header, take a draft to the draft that the key or
the header makes of it.  Texts that take one draft to another are put together, so a whole
document is read line by line as it was written.
-/

namespace DatasetCache.Toml

/-! ## How keys and strings start -/

def StartsKey (c : Char) : Prop := isBare c = true ∨ c = '"' ∨ c = '\''

theorem StartsKey.ne {c d : Char} (starts : StartsKey c)
    (other : isBare d = false ∧ d ≠ '"' ∧ d ≠ '\'') : c ≠ d := by
  rintro rfl
  obtain ⟨bare, double, single⟩ := other
  rcases starts with isBare | quote | quote
  · rw [bare] at isBare
    cases isBare
  · exact double quote
  · exact single quote

theorem StartsKey.visible {c : Char} (starts : StartsKey c) : isBlank c = false := by
  have blank := starts.ne (d := ' ') (by decide)
  have tab := starts.ne (d := '\t') (by decide)
  simp [isBlank, blank, tab]

theorem skipBlanks_cons {c : Char} (visible : isBlank c = false) (input : List Char) :
    skipBlanks (c :: input) = c :: input := by
  simp [skipBlanks, visible]

theorem write_cons (style : Style) (text : List Char) :
    ∃ c more, style.write text = c :: more ∧ (c = '"' ∨ c = '\'') := by
  cases style <;> exact ⟨_, _, rfl, by simp⟩

theorem writeKey_cons (key : String) :
    ∃ c more, writeKey key = c :: more ∧ StartsKey c := by
  rw [writeKey]
  split_ifs with bare
  · simp only [Bool.and_eq_true, Bool.not_eq_true', List.isEmpty_eq_false_iff, List.all_eq_true]
      at bare
    obtain ⟨c, more, chars⟩ := List.exists_cons_of_ne_nil bare.1
    exact ⟨c, more, chars, .inl (bare.2 c (chars ▸ List.mem_cons_self))⟩
  · obtain ⟨c, more, chars, quote⟩ := write_cons (keyStyle key.toList) key.toList
    exact ⟨c, more, chars, .inr quote⟩

/-! ## Keys -/

theorem skipBlanks_writeKey (key : String) (rest : List Char) :
    skipBlanks (writeKey key ++ rest) = writeKey key ++ rest := by
  obtain ⟨c, more, written, starts⟩ := writeKey_cons key
  rw [written, List.cons_append, skipBlanks_cons starts.visible]

theorem keyParts?_path (path : List String) (key : String) {rest : List Char}
    (ends : ∀ c ∈ rest.head?, isBare c = false) (last : ∀ more, skipBlanks rest ≠ '.' :: more)
    {steps : Nat} (enough : path.length < steps) (read : List String) :
    keyParts? steps read (['.'].intercalate ((path ++ [key]).map writeKey) ++ rest) =
      some ((read.reverse ++ path, key), skipBlanks rest) := by
  induction path generalizing steps read with
  | nil =>
      obtain ⟨steps, rfl⟩ := Nat.exists_eq_add_of_lt enough
      rw [List.nil_append, List.map_singleton, List.intercalate_singleton, keyParts?,
        skipBlanks_writeKey, keyPart?_writeKey key ends]
      simp
  | cons part path ih =>
      obtain ⟨steps, rfl⟩ := Nat.exists_eq_add_of_lt enough
      have others : (path ++ [key]).map writeKey ≠ [] := by simp
      rw [List.cons_append, List.map_cons, List.intercalate_cons_of_ne_nil others, keyParts?,
        List.append_assoc, List.append_assoc, skipBlanks_writeKey,
        keyPart?_writeKey part (by simp; decide)]
      simp only [Option.bind_eq_bind, Option.bind_some, List.singleton_append,
        skipBlanks_cons (c := '.') rfl]
      rw [ih (by simp; omega)]
      simp

theorem key?_path (path : List String) (short : path.length < depthLimit - 1) (key : String)
    {rest : List Char} (ends : ∀ c ∈ rest.head?, isBare c = false)
    (last : ∀ more, skipBlanks rest ≠ '.' :: more) :
    key? (['.'].intercalate ((path ++ [key]).map writeKey) ++ rest) =
      some ((path, key), skipBlanks rest) := by
  rw [key?, keyParts?_path path key ends last short]
  rfl

theorem path_cons {parts : List String} (nonempty : parts ≠ []) :
    ∃ c more, ['.'].intercalate (parts.map writeKey) = c :: more ∧ StartsKey c := by
  obtain ⟨part, others, rfl⟩ := List.exists_cons_of_ne_nil nonempty
  obtain ⟨c, more, written, starts⟩ := writeKey_cons part
  cases others with
  | nil => exact ⟨c, more, by simpa using written, starts⟩
  | cons other others =>
      refine ⟨c, more ++ ['.'] ++ ['.'].intercalate ((other :: others).map writeKey), ?_, starts⟩
      simp [List.intercalate_cons_cons, written]

/-! ## Lines -/

theorem value?_writeString (text : String) (steps depth : Nat) (rest : List Char) :
    value? (steps + 1) depth (writeString text ++ '\n' :: rest) =
      some (.string text, '\n' :: rest) := by
  have reads : string? (writeString text ++ '\n' :: rest) = some (text, '\n' :: rest) :=
    string?_writeString text (by simp) (by simp)
  obtain ⟨c, more, written, quote⟩ := write_cons (valueStyle text.toList) text.toList
  rw [writeString, written, List.cons_append] at reads ⊢
  rcases quote with rfl | rfl
  · simp [value?, scalarValue?, reads]
  · simp [value?, scalarValue?, reads]

theorem lineTail?_newline (rest : List Char) : lineTail? ('\n' :: rest) = some rest := by
  simp [lineTail?, skipBlanks, isBlank, skipComment, lineEnd?, newline?]

theorem line?_newline (draft : Draft) (rest : List Char) :
    line? draft ('\n' :: rest) = some (draft, rest) := by
  rw [line?, lineTail?_newline]
  rfl

theorem key?_entry (key : String) (input : List Char) :
    key? (writeKey key ++ ' ' :: '=' :: input) = some (([], key), '=' :: input) := by
  have reads := @key?_path [] (by decide) key (' ' :: '=' :: input) (by simp; decide)
    (by simp [skipBlanks, isBlank])
  simpa [skipBlanks, isBlank] using reads

theorem skipBlanks_writeString (text : String) (rest : List Char) :
    skipBlanks (' ' :: (writeString text ++ rest)) = writeString text ++ rest := by
  obtain ⟨c, more, written, quote⟩ := write_cons (valueStyle text.toList) text.toList
  rw [writeString, written]
  rcases quote with rfl | rfl <;> simp [skipBlanks, isBlank]

theorem line?_writeEntry (draft : Draft) (key value : String) (rest : List Char) :
    line? draft (writeEntry key value ++ rest) =
      (draft.define? [] key (.string value)).map (·, rest) := by
  have written : writeEntry key value ++ rest =
      writeKey key ++ ' ' :: '=' :: ' ' :: (writeString value ++ '\n' :: rest) := by
    simp [writeEntry]
  have reads := key?_entry key (' ' :: (writeString value ++ '\n' :: rest))
  obtain ⟨c, more, chars, starts⟩ := writeKey_cons key
  have comment := starts.ne (d := '#') (by decide)
  have newline := starts.ne (d := '\n') (by decide)
  have carriage := starts.ne (d := '\r') (by decide)
  have bracket := starts.ne (d := '[') (by decide)
  rw [written]
  rw [chars, List.cons_append] at reads ⊢
  rw [line?, reads]
  · simp only [skipBlanks_writeString, value?_writeString, Option.bind_eq_bind, Option.bind_some,
      lineTail?_newline, Option.pure_def]
    cases draft.define? [] key (.string value) <;> rfl
  all_goals simp_all

theorem line?_header (draft : Draft) {path : List String} (short : path.length < depthLimit - 1)
    (key : String) (rest : List Char) :
    line? draft ('[' :: (['.'].intercalate ((path ++ [key]).map writeKey) ++ ']' :: '\n' :: rest)) =
      (draft.openTable? path key).map (·, rest) := by
  have reads := @key?_path path short key (']' :: '\n' :: rest) (by simp; decide)
    (by simp [skipBlanks, isBlank])
  rw [skipBlanks_cons (c := ']') rfl] at reads
  obtain ⟨c, more, chars, starts⟩ := @path_cons (path ++ [key]) (by simp)
  have bracket := starts.ne (d := '[') (by decide)
  rw [chars, List.cons_append] at reads ⊢
  have closes : [']'].isPrefixOf? (']' :: '\n' :: rest) = some ('\n' :: rest) := rfl
  rw [line?, header?, reads]
  · simp only [Option.bind_eq_bind, Option.bind_some, closes]
    cases draft.openTable? path key <;> rfl
  · simpa using bracket

end DatasetCache.Toml
