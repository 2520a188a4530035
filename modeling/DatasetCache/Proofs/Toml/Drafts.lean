import DatasetCache.Proofs.Toml.Lines

/-!
# Documents that read back

A text takes one draft to another if reading it does, whatever follows.  Such texts are put
together, so a document is read line by line as it was written.  What a line changes is the
last table of the draft, at any depth, and nothing around it.
-/

namespace DatasetCache.Toml

/-! ## Texts put together -/

/-- Reading a text as lines takes one draft to another and leaves what follows to be read,
with steps enough for it. -/
def Draft.Takes (draft : Draft) (text : List Char) (next : Draft) : Prop :=
  ∀ rest steps, (text ++ rest).length < steps →
    ∃ left, rest.length < left ∧ lines? steps draft (text ++ rest) = lines? left next rest

namespace Draft.Takes

variable {draft next last : Draft} {text more : List Char}

theorem nil (draft : Draft) : draft.Takes [] draft := fun _ steps enough => ⟨steps, enough, rfl⟩

theorem append (first : draft.Takes text next) (second : next.Takes more last) :
    draft.Takes (text ++ more) last := by
  intro rest steps enough
  rw [List.append_assoc] at enough ⊢
  obtain ⟨between, enough, reads⟩ := first (more ++ rest) steps enough
  obtain ⟨left, enough, readsOn⟩ := second rest between enough
  exact ⟨left, enough, reads.trans readsOn⟩

theorem line {c : Char} (visible : isBlank c = false)
    (reads : ∀ rest, line? draft (c :: text ++ rest) = some (next, rest)) :
    draft.Takes (c :: text) next := by
  intro rest steps enough
  obtain ⟨left, rfl⟩ := Nat.exists_eq_add_of_lt enough
  refine ⟨(c :: text ++ rest).length + left, by simp; omega, ?_⟩
  have starts := skipBlanks_cons visible (text ++ rest)
  rw [lines?, List.cons_append, starts]
  simp only [← List.cons_append, reads]

theorem entry {key value : String} (defines : draft.define? [] key (.string value) = some next) :
    draft.Takes (writeEntry key value) next := by
  obtain ⟨c, more, written, starts⟩ := writeKey_cons key
  have text : writeEntry key value =
      c :: (more ++ " = ".toList ++ writeString value ++ ['\n']) := by
    simp [writeEntry, written]
  rw [text]
  refine line starts.visible fun rest => ?_
  rw [← text, line?_writeEntry, defines]
  rfl

theorem header (path : List String) (short : path.length < depthLimit - 1) {key : String}
    (opens : draft.openTable? path key = some next) :
    draft.Takes (writeHeader (path ++ [key])) next := by
  have text : writeHeader (path ++ [key]) =
      ['\n'] ++ '[' :: (['.'].intercalate ((path ++ [key]).map writeKey) ++ [']', '\n']) := by
    simp [writeHeader]
  rw [text]
  refine (line rfl fun rest => line?_newline draft rest).append (line rfl fun rest => ?_)
  have reads := line?_header draft short key rest
  rw [opens] at reads
  simpa using reads

theorem document? (takes : Draft.Takes {} text next) (unmarked : text.head? ≠ some '\uFEFF') :
    document? (String.ofList text) = some next.root := by
  obtain ⟨left, enough, reads⟩ := takes [] (text.length + 1) (by simp)
  obtain ⟨left, rfl⟩ : ∃ fewer, left = fewer + 1 := ⟨left - 1, by omega⟩
  have whole : dropMark text = text := by
    cases text with
    | nil => rfl
    | cons c text => simp_all [dropMark]
  rw [List.append_nil] at reads
  rw [Toml.document?, String.toList_ofList, whole, reads]
  rfl

end Draft.Takes

/-! ## The last table -/

namespace Entries

variable {entries : Entries} {key : String}

theorem get?_append_singleton (absent : entries.get? key = none) (value : Value) :
    get? (entries ++ [(key, value)]) key = some value := by
  have before : entries.find? (·.1 = key) = none := by
    simpa only [get?, Option.map_eq_none_iff] using absent
  simp [get?, List.find?_append, before]

theorem get?_append_singleton_of_ne {other : String} (different : other ≠ key) (value : Value) :
    get? (entries ++ [(key, value)]) other = entries.get? other := by
  simp [get?, List.find?_append, different.symm]

theorem replace_append_singleton (absent : entries.get? key = none) (value other : Value) :
    replace (entries ++ [(key, value)]) key other = entries ++ [(key, other)] := by
  have others : ∀ entry ∈ entries, entry.1 ≠ key := by simpa [get?] using absent
  have untouched : entries.map (fun entry => if entry.1 = key then (key, other) else entry) =
      entries.map id := List.map_congr_left fun entry member => if_neg (others entry member)
  simp [replace, untouched]

/-- A header leads to the table that stands in the gap of a document: changing the one
changes the other. -/
def LeadsTo (header : List String) (around : Entries → Entries) : Prop :=
  ∀ inner change, (around inner).alter? change header = (change inner).map around

theorem leadsTo_nil : LeadsTo [] id := fun _ _ => by simp [alter?]

namespace LeadsTo

variable {header : List String} {around : Entries → Entries} (leads : LeadsTo header around)

include leads

theorem last (absent : entries.get? key = none) (origin : Origin) (extensible : origin ≠ .braces) :
    LeadsTo (key :: header) fun inner => entries ++ [(key, .table origin (around inner))] := by
  intro inner change
  have present := get?_append_singleton absent (.table origin (around inner))
  have replaced := fun inner' => replace_append_singleton absent (.table origin (around inner))
    (.table origin inner')
  cases origin with
  | braces => exact absurd rfl extensible
  | header | path | dotted =>
      simp only [alter?, present, leads inner change, replaced]
      cases change inner <;> rfl

theorem define? {inner : Entries} (absent : inner.get? key = none) (value : Value) :
    Draft.define? ⟨around inner, header⟩ [] key value =
      some ⟨around (inner ++ [(key, value)]), header⟩ := by
  simp [Draft.define?, leads inner, Entries.define?, absent]

theorem openTable? {inner : Entries} (absent : inner.get? key = none) (before : List String) :
    Draft.openTable? ⟨around inner, before⟩ header key =
      some ⟨around (inner ++ [(key, .table .header [])]), header ++ [key]⟩ := by
  simp [Draft.openTable?, Entries.openTable?, leads inner, absent]

end LeadsTo

theorem alter?_absent (absent : entries.get? key = none) (change : Entries → Option Entries) :
    entries.alter? change [key] =
      (change []).map fun inner => entries ++ [(key, .table .path inner)] := by
  simp only [alter?, absent]
  cases change [] <;> rfl

end Entries

/-! ## Lines of one table -/

def strings (lines : List (String × String)) : Entries :=
  lines.map fun line => (line.1, .string line.2)

theorem Draft.takes_lines {header : List String} {around : Entries → Entries}
    (leads : Entries.LeadsTo header around) {lines : List (String × String)}
    (distinct : (lines.map (·.1)).Nodup) (inner : Entries)
    (fresh : ∀ line ∈ lines, inner.get? line.1 = none) :
    Draft.Takes ⟨around inner, header⟩ (lines.flatMap fun line => writeEntry line.1 line.2)
      ⟨around (inner ++ strings lines), header⟩ := by
  induction lines generalizing inner with
  | nil => simpa [strings] using Draft.Takes.nil _
  | cons line lines ih =>
      obtain ⟨other, distinct⟩ := List.nodup_cons.1 distinct
      have defines := leads.define? (fresh line List.mem_cons_self) (.string line.2)
      have remaining := ih distinct (inner ++ [(line.1, .string line.2)]) fun later member => by
        have different : later.1 ≠ line.1 := fun same =>
          other (List.mem_map.2 ⟨later, member, same⟩)
        rw [Entries.get?_append_singleton_of_ne different]
        exact fresh later (List.mem_cons_of_mem _ member)
      have whole := (Draft.Takes.entry defines).append remaining
      rw [List.append_assoc] at whole
      exact whole

end DatasetCache.Toml
