import Mathlib.Data.List.Infix
import DatasetCache.Cache
import DatasetCache.Proofs.Table

/-!
# The layers of arguments

What a dataset is given under a name is told by look-ups alone: what the request passes,
or else what the runtime arguments hold in the dataset's own scope, or else what they hold
in the wildcard scope.  The name of a dataset may be any text, so scopes may lie within one
another; a scope still tells the local names apart.
-/

namespace DatasetCache.Arguments

/-! ## Names in scopes -/

/-- Whether an argument's name is a scope with something after it. -/
def InScope (scope argument : String) : Prop := ∃ name, name ≠ "" ∧ argument = scope ++ name

theorem inScope_append {scope name : String} (named : name ≠ "") :
    InScope scope (scope ++ name) := ⟨name, named, rfl⟩

theorem localName?_eq_some_iff {scope argument name : String} :
    localName? scope argument = some name ↔ name ≠ "" ∧ argument = scope ++ name := by
  have follows : ∀ rest, scope.toList.isPrefixOf? argument.toList = some rest ↔
      argument = scope ++ String.ofList rest := by
    intro rest
    rw [List.isPrefixOf?_eq_some_iff_append_eq, ← String.toList_inj, String.toList_append,
      String.toList_ofList, eq_comm]
  constructor
  · intro found
    rw [localName?] at found
    split at found
    next c rest stripped =>
        cases found
        exact ⟨by simp, (follows _).1 stripped⟩
    next => cases found
  · rintro ⟨named, joined⟩
    obtain ⟨c, rest, chars⟩ : ∃ c rest, name.toList = c :: rest :=
      List.exists_cons_of_ne_nil (by simpa using named)
    have stripped := (follows name.toList).2 (by rw [String.ofList_toList, joined])
    rw [localName?, stripped, chars]
    exact congrArg some (by rw [← chars, String.ofList_toList])

/-! ## Look-up in one scope -/

/-- What the runtime arguments hold for a local name in a scope. -/
def scoped? (scope : String) (runtime : Arguments) (name : String) : Option String :=
  if name = "" then none else runtime.get? (scope ++ name)

theorem mem_within_iff {scope : String} {runtime : Arguments} {name value : String} :
    (name, value) ∈ within scope runtime ↔ scoped? scope runtime name = some value := by
  have member : (name, value) ∈ within scope runtime ↔
      name ≠ "" ∧ runtime.get? (scope ++ name) = some value := by
    simp only [within, List.mem_filterMap, Option.map_eq_some_iff, Prod.mk.injEq, Prod.exists,
      localName?_eq_some_iff, Table.get?_eq_some_iff]
    constructor
    · rintro ⟨argument, content, held, local_, ⟨named, rfl⟩, rfl, rfl⟩
      exact ⟨named, held⟩
    · rintro ⟨named, held⟩
      exact ⟨_, value, held, name, ⟨named, rfl⟩, rfl, rfl⟩
  rw [member, scoped?]
  split <;> simp [*]

theorem scoped?_congr {scope : String} {runtime other : Arguments}
    (same : ∀ argument, InScope scope argument → other.get? argument = runtime.get? argument)
    (name : String) : scoped? scope other name = scoped? scope runtime name := by
  rw [scoped?, scoped?]
  split
  · rfl
  · exact same _ (inScope_append ‹_›)

/-! ## The three layers -/

theorem get?_effective (dataset : String) (runtime explicit : Arguments) (name : String) :
    (effective dataset runtime explicit).get? name =
      (explicit.get? name).or ((scoped? (scopeOf dataset) runtime name).or
        (scoped? (scopeOf wildcard) runtime name)) := by
  rw [effective, Table.get?_insertAll_of_iff (fun _ _ => Table.get?_eq_some_iff.symm),
    Table.get?_insertAll_of_iff (fun _ _ => mem_within_iff), Table.ofList,
    Table.get?_insertAll_of_iff (fun _ _ => mem_within_iff), Table.get?_empty, Option.or_none]

theorem effective_congr {dataset : String} {runtime other : Arguments}
    (own : ∀ argument, InScope (scopeOf dataset) argument →
      other.get? argument = runtime.get? argument)
    (shared : ∀ argument, InScope (scopeOf wildcard) argument →
      other.get? argument = runtime.get? argument) (explicit : Arguments) :
    effective dataset other explicit = effective dataset runtime explicit := by
  refine Table.ext_get? fun name => ?_
  rw [get?_effective, get?_effective, scoped?_congr own, scoped?_congr shared]

theorem effective_effective (dataset : String) (runtime explicit : Arguments) :
    effective dataset runtime (effective dataset runtime explicit) =
      effective dataset runtime explicit := by
  refine Table.ext_get? fun name => ?_
  rw [get?_effective, get?_effective]
  cases explicit.get? name <;>
    cases (scoped? (scopeOf dataset) runtime name).or (scoped? (scopeOf wildcard) runtime name) <;>
    rfl

/-- **Arguments in layers.** A dataset is given, under each name, what the request passes,
or else what the runtime arguments hold in its own scope, or else what they hold in the
wildcard scope; nothing comes from a scope under the empty name.  What they hold outside
these two scopes, unscoped arguments among it, has no effect.  What a dataset is given
stays the same if it is passed explicitly, so the arguments of a key lead to the same key. -/
theorem effective_layered (dataset : String) (runtime explicit : Arguments) :
    (∀ name, (effective dataset runtime explicit).get? name =
      (explicit.get? name).or
        (if name = "" then none
         else (runtime.get? ("dataset." ++ dataset ++ "." ++ name)).or
          (runtime.get? ("dataset.*." ++ name)))) ∧
    (∀ other : Arguments,
      (∀ argument, InScope (scopeOf dataset) argument ∨ InScope (scopeOf wildcard) argument →
        other.get? argument = runtime.get? argument) →
      effective dataset other explicit = effective dataset runtime explicit) ∧
    effective dataset runtime (effective dataset runtime explicit) =
      effective dataset runtime explicit ∧
    ∀ cache : Cache, cache.keyFor dataset (cache.keyFor dataset explicit).arguments =
      cache.keyFor dataset explicit := by
  refine ⟨fun name => ?_, fun other same => ?_, effective_effective dataset runtime explicit,
    fun cache => ?_⟩
  · rw [get?_effective, scoped?, scoped?]
    split
    · rfl
    · rfl
  · exact effective_congr (fun argument own => same argument (.inl own))
      (fun argument shared => same argument (.inr shared)) explicit
  · exact congrArg (Key.mk dataset) (effective_effective dataset cache.runtime explicit)

end DatasetCache.Arguments
