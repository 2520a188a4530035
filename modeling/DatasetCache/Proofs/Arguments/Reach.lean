import DatasetCache.Proofs.Arguments.Layers

/-!
# How far an argument reaches

A runtime argument reaches the datasets in whose scope its name lies.  Names of datasets
may hold dots, so a name may be continued by another one; then the scope of the longer name
lies within that of the shorter one, and what is meant for the longer reaches both.
-/

namespace DatasetCache.Arguments

/-- Whether a runtime argument, being the only one, changes what a dataset is given. -/
def Reaches (dataset argument value : String) : Prop :=
  ∃ explicit, effective dataset (Table.empty.insert argument value) explicit ≠
    effective dataset Table.empty explicit

/-- Whether a name goes on after another one and a dot. -/
def Continues (longer shorter : String) : Prop := ∃ rest, longer = shorter ++ "." ++ rest

variable {dataset first second argument value : String}

/-! ## Reaching is being in scope -/

theorem reaches_of_inScope (own : InScope (scopeOf dataset) argument) :
    Reaches dataset argument value := by
  obtain ⟨name, named, rfl⟩ := own
  refine ⟨Table.empty, fun same => ?_⟩
  have given := congrArg (Table.get? · name) same
  simp [get?_effective, scoped?, named] at given

theorem inScope_of_reaches (reaches : Reaches dataset argument value) :
    InScope (scopeOf dataset) argument ∨ InScope (scopeOf wildcard) argument := by
  obtain ⟨explicit, changed⟩ := reaches
  by_contra outside
  obtain ⟨notOwn, notShared⟩ := not_or.1 outside
  have untouched : ∀ other, other ≠ argument →
      (Table.empty.insert argument value).get? other = Table.get? Table.empty other := by
    intro other different
    rw [Table.get?_insert, if_neg different]
  exact changed (effective_congr (fun other own => untouched other fun same => notOwn (same ▸ own))
    (fun other shared => untouched other fun same => notShared (same ▸ shared)) explicit)

/-! ## Scopes within scopes -/

theorem inScope_of_continues {longer shorter : String} (continues : Continues longer shorter)
    (own : InScope (scopeOf longer) argument) : InScope (scopeOf shorter) argument := by
  obtain ⟨rest, rfl⟩ := continues
  obtain ⟨name, -, rfl⟩ := own
  refine ⟨rest ++ "." ++ name, ?_, ?_⟩
  · intro nothing
    have length := congrArg String.length nothing
    simp at length
  · simp only [scopeOf, String.append_assoc]

private theorem continues_of_split {longer shorter : String} {beyond tail left : List Char}
    (distinct : longer ≠ shorter) (split : longer.toList = shorter.toList ++ beyond)
    (dotted : '.' :: tail = beyond ++ '.' :: left) : Continues longer shorter := by
  cases beyond with
  | nil => exact absurd (String.toList_inj.1 (by simpa using split)) distinct
  | cons c beyond =>
      obtain ⟨rfl, -⟩ := List.cons.inj dotted
      exact ⟨String.ofList beyond, by simp [← String.toList_inj, split]⟩

theorem continues_of_inScope (distinct : first ≠ second)
    (own : InScope (scopeOf first) argument) (other : InScope (scopeOf second) argument) :
    Continues first second ∨ Continues second first := by
  obtain ⟨name, -, rfl⟩ := own
  obtain ⟨rest, -, same⟩ := other
  have chars : first.toList ++ '.' :: name.toList = second.toList ++ '.' :: rest.toList := by
    have same := congrArg String.toList same
    simpa [scopeOf] using same
  rcases List.append_eq_append_iff.1 chars with ⟨beyond, split, dotted⟩ | ⟨beyond, split, dotted⟩
  · exact .inr (continues_of_split distinct.symm split dotted)
  · exact .inl (continues_of_split distinct split dotted)

theorem continues_wildcard (named : dataset ≠ wildcard)
    (own : InScope (scopeOf dataset) argument) (shared : InScope (scopeOf wildcard) argument) :
    Continues dataset wildcard := by
  rcases continues_of_inScope named own shared with continues | ⟨rest, impossible⟩
  · exact continues
  · have chars := congrArg String.toList impossible
    cases name : dataset.toList <;> simp [wildcard, name] at chars

/-! ## Arguments for one dataset -/

theorem reaches_both_of_continues {longer shorter : String} (named : longer ≠ wildcard)
    (tame : ¬ Continues longer wildcard) (continues : Continues longer shorter) :
    ∃ argument, ¬ InScope (scopeOf wildcard) argument ∧ Reaches longer argument value ∧
      Reaches shorter argument value := by
  have own : InScope (scopeOf longer) (scopeOf longer ++ "x") := inScope_append (by decide)
  exact ⟨_, fun shared => tame (continues_wildcard named own shared), reaches_of_inScope own,
    reaches_of_inScope (inScope_of_continues continues own)⟩

/-- **How far an argument reaches.** Let two datasets have different names, both other than
the wildcard.  No argument outside the wildcard scope reaches both, exactly if neither name
continues the other after a dot, or if one of them continues the wildcard, whose scope then
holds everything that reaches that dataset. -/
theorem reaches_one_dataset_iff (distinct : first ≠ second) (firstNamed : first ≠ wildcard)
    (secondNamed : second ≠ wildcard) :
    (∀ argument value, ¬ InScope (scopeOf wildcard) argument →
      Reaches first argument value → ¬ Reaches second argument value) ↔
    (¬ Continues first second ∧ ¬ Continues second first) ∨
      Continues first wildcard ∨ Continues second wildcard := by
  constructor
  · intro apart
    by_contra condition
    obtain ⟨shared, tame⟩ := not_or.1 condition
    obtain ⟨firstTame, secondTame⟩ := not_or.1 tame
    refine shared ⟨fun continues => ?_, fun continues => ?_⟩
    · obtain ⟨argument, outside, own, other⟩ :=
        reaches_both_of_continues firstNamed firstTame continues
      exact apart argument "" outside own other
    · obtain ⟨argument, outside, own, other⟩ :=
        reaches_both_of_continues secondNamed secondTame continues
      exact apart argument "" outside other own
  · intro condition argument value outside reachesFirst reachesSecond
    have inFirst := (inScope_of_reaches reachesFirst).resolve_right outside
    have inSecond := (inScope_of_reaches reachesSecond).resolve_right outside
    rcases condition with ⟨notFirst, notSecond⟩ | continues | continues
    · exact (continues_of_inScope distinct inFirst inSecond).elim notFirst notSecond
    · exact outside (inScope_of_continues continues inFirst)
    · exact outside (inScope_of_continues continues inSecond)

theorem reaches_one_dataset_iff_kv :
    "kv" ≠ "kvx" ∧ "kv" ≠ wildcard ∧ "kvx" ≠ wildcard ∧
      ∀ argument value, ¬ InScope (scopeOf wildcard) argument →
        Reaches "kv" argument value → ¬ Reaches "kvx" argument value := by
  refine ⟨by decide, by decide, by decide, ?_⟩
  refine (reaches_one_dataset_iff (by decide) (by decide) (by decide)).2 (.inl ⟨?_, ?_⟩)
  · rintro ⟨rest, same⟩
    have chars := congrArg String.toList same
    simp at chars
  · rintro ⟨rest, same⟩
    have chars := congrArg String.toList same
    simp at chars

/-- What is meant for one dataset also reaches the one whose name comes before the dot. -/
theorem dotted_name_shares_scope :
    let runtime : Arguments := Table.empty.insert "dataset.sales.eu.ttl" "30"
    ¬ InScope (scopeOf wildcard) "dataset.sales.eu.ttl" ∧
      effective "sales.eu" Table.empty Table.empty = Table.empty ∧
      effective "sales.eu" runtime Table.empty = Table.empty.insert "ttl" "30" ∧
      effective "sales" Table.empty Table.empty = Table.empty ∧
      effective "sales" runtime Table.empty = Table.empty.insert "eu.ttl" "30" := by
  refine ⟨?_, by decide, by decide, by decide, by decide⟩
  rintro ⟨name, -, same⟩
  have chars := congrArg String.toList same
  simp [scopeOf, wildcard] at chars

end DatasetCache.Arguments
