import DatasetCache.Table

/-!
# Look-up in tables

A key has at most one entry in a table, so look-up is membership.  Insertion and
erasure change what is found under one key and leave all others alone.
-/

namespace DatasetCache.Table

variable {α β : Type} [Ord α] [Std.LawfulEqOrd α]

/-! ## Look-up as membership -/

theorem mem_of_get? {t : Table α β} {key : α} {value : β} (found : t.get? key = some value) :
    (key, value) ∈ t.entries := by
  simp only [get?, Option.map_eq_some_iff] at found
  obtain ⟨entry, hfind, rfl⟩ := found
  have same : key = entry.1 := by
    simpa using List.find?_some hfind
  rw [same]
  exact List.mem_of_find?_eq_some hfind

private theorem find?_of_mem {entries : List (α × β)} {key : α} {value : β}
    (ascending : entries.Pairwise fun a b => compare a.1 b.1 = .lt)
    (member : (key, value) ∈ entries) :
    entries.find? (fun entry => compare key entry.1 == .eq) = some (key, value) := by
  induction entries with
  | nil => simp at member
  | cons entry rest ih =>
      obtain ⟨below, tail⟩ := List.pairwise_cons.1 ascending
      rcases List.mem_cons.1 member with rfl | member
      · simp
      · have less := below _ member
        have other : entry.1 ≠ key := by
          intro same
          rw [same, Std.ReflOrd.compare_self] at less
          contradiction
        rw [List.find?_cons_of_neg (by simpa using other.symm)]
        exact ih tail member

theorem get?_of_mem {t : Table α β} {key : α} {value : β} (member : (key, value) ∈ t.entries) :
    t.get? key = some value := by
  rw [get?, find?_of_mem t.ascending member]
  rfl

theorem get?_eq_some_iff {t : Table α β} {key : α} {value : β} :
    t.get? key = some value ↔ (key, value) ∈ t.entries :=
  ⟨mem_of_get?, get?_of_mem⟩

theorem mem_values_iff {t : Table α β} {value : β} :
    value ∈ t.values ↔ ∃ key, t.get? key = some value := by
  simp [values, get?_eq_some_iff]

theorem nodup_keys (t : Table α β) : t.keys.Nodup := by
  refine List.pairwise_map.2 (t.ascending.imp ?_)
  intro entry other less same
  rw [same, Std.ReflOrd.compare_self] at less
  contradiction

theorem any_values_eq_false_iff {t : Table α β} {f : β → Bool} :
    t.values.any f = false ↔ ∀ key value, t.get? key = some value → f value = false := by
  simp only [List.any_eq_false, mem_values_iff, forall_exists_index, Bool.not_eq_true]
  exact forall_comm

theorem nodup_entries (t : Table α β) : t.entries.Nodup :=
  List.Pairwise.of_map _ (fun _ _ other same => other (congrArg _ same)) t.nodup_keys

/-! ## The first key of a value -/

theorem exists_of_keyWhere? {t : Table α β} {p : β → Bool} {key : α}
    (first : t.keyWhere? p = some key) : ∃ value, t.get? key = some value ∧ p value = true := by
  simp only [keyWhere?, Option.map_eq_some_iff] at first
  obtain ⟨entry, found, rfl⟩ := first
  exact ⟨entry.2, get?_of_mem (List.mem_of_find?_eq_some found),
    by simpa using List.find?_some found⟩

omit [Std.LawfulEqOrd α] in
theorem keyWhere?_eq_none_iff {t : Table α β} {p : β → Bool} :
    t.keyWhere? p = none ↔ ∀ value ∈ t.values, p value = false := by
  simp only [keyWhere?, values, Option.map_eq_none_iff, List.find?_eq_none, List.forall_mem_map,
    Bool.not_eq_true]

/-! ## Look-up after a change -/

omit [Std.LawfulEqOrd α] in
@[simp] theorem get?_empty (key : α) : (empty : Table α β).get? key = none := rfl

@[simp] theorem get?_erase [DecidableEq α] (t : Table α β) (key other : α) :
    (t.erase key).get? other = if other = key then none else t.get? other := by
  ext found
  rw [get?_eq_some_iff]
  split
  next same => simp [erase, same]
  next different => simp [erase, get?_eq_some_iff, Ne.symm different]

theorem entries_erase_perm [DecidableEq α] {t : Table α β} {key : α} {value : β}
    (found : t.get? key = some value) :
    t.entries.Perm ((key, value) :: (t.erase key).entries) := by
  have erased : (key, value) ∉ (t.erase key).entries := by
    rw [← get?_eq_some_iff]
    simp
  refine (List.perm_ext_iff_of_nodup t.nodup_entries
    (List.nodup_cons.2 ⟨erased, (t.erase key).nodup_entries⟩)).2 ?_
  rintro ⟨other, content⟩
  simp only [List.mem_cons, Prod.mk.injEq, ← get?_eq_some_iff, get?_erase]
  by_cases same : other = key
  · simp [same, found, eq_comm]
  · simp [same]

variable [Std.TransOrd α]

theorem mem_place_iff {key : α} {value : β} {entries : List (α × β)}
    (ascending : entries.Pairwise fun a b => compare a.1 b.1 = .lt) {e : α × β} :
    e ∈ place key value entries ↔ e = (key, value) ∨ e ∈ entries ∧ e.1 ≠ key := by
  induction entries with
  | nil => simp [place]
  | cons entry rest ih =>
      obtain ⟨below, tail⟩ := List.pairwise_cons.1 ascending
      have distinct : ∀ other ∈ rest, other.1 ≠ entry.1 := by
        intro other member same
        have less := below other member
        rw [same, Std.ReflOrd.compare_self] at less
        contradiction
      rw [place]
      split
      next less =>
          have above : ∀ other ∈ entry :: rest, other.1 ≠ key := by
            intro other member same
            have larger : compare key other.1 = .lt := by
              rcases List.mem_cons.1 member with rfl | member
              · exact less
              · exact Std.TransCmp.lt_trans less (below other member)
            rw [same, Std.ReflOrd.compare_self] at larger
            contradiction
          constructor
          · intro member
            exact (List.mem_cons.1 member).imp_right fun h => ⟨h, above e h⟩
          · rintro (rfl | ⟨member, -⟩)
            · exact List.mem_cons_self
            · exact List.mem_cons_of_mem _ member
      next same =>
          have heq : key = entry.1 := Std.LawfulEqOrd.eq_of_compare same
          subst heq
          constructor
          · intro member
            exact (List.mem_cons.1 member).imp_right fun h =>
              ⟨List.mem_cons_of_mem _ h, distinct e h⟩
          · rintro (rfl | ⟨member, other⟩)
            · exact List.mem_cons_self
            · rcases List.mem_cons.1 member with rfl | member
              · exact absurd rfl other
              · exact List.mem_cons_of_mem _ member
      next greater =>
          have hne : entry.1 ≠ key := by
            intro same
            rw [same, Std.ReflOrd.compare_self] at greater
            contradiction
          simp only [List.mem_cons, ih tail]
          constructor
          · rintro (rfl | rfl | ⟨member, other⟩)
            · exact .inr ⟨.inl rfl, hne⟩
            · exact .inl rfl
            · exact .inr ⟨.inr member, other⟩
          · rintro (rfl | ⟨rfl | member, other⟩)
            · exact .inr (.inl rfl)
            · exact .inl rfl
            · exact .inr (.inr ⟨member, other⟩)

@[simp] theorem get?_insert [DecidableEq α] (t : Table α β) (key other : α) (value : β) :
    (t.insert key value).get? other = if other = key then some value else t.get? other := by
  ext found
  rw [get?_eq_some_iff, insert, mem_place_iff t.ascending]
  split
  next same => simp [same, eq_comm]
  next different => simp [different, get?_eq_some_iff]

omit [Std.LawfulEqOrd α] in
theorem entries_insert_last {t : Table α β} {key : α}
    (above : ∀ entry ∈ t.entries, compare entry.1 key = .lt) (value : β) :
    (t.insert key value).entries = t.entries ++ [(key, value)] := by
  have placed : ∀ entries : List (α × β), (∀ entry ∈ entries, compare entry.1 key = .lt) →
      place key value entries = entries ++ [(key, value)] := by
    intro entries above
    induction entries with
    | nil => rfl
    | cons entry rest ih =>
        have greater : compare key entry.1 = .gt :=
          Std.OrientedCmp.gt_of_lt (above entry List.mem_cons_self)
        rw [place, greater]
        simp [ih fun other member => above other (List.mem_cons_of_mem entry member)]
  exact placed t.entries above

theorem entries_insert_perm [DecidableEq α] {t : Table α β} {key : α} (absent : t.get? key = none)
    (value : β) : (t.insert key value).entries.Perm ((key, value) :: t.entries) := by
  have fresh : (key, value) ∉ t.entries := by
    rw [← get?_eq_some_iff, absent]
    simp
  refine (List.perm_ext_iff_of_nodup (t.insert key value).nodup_entries
    (List.nodup_cons.2 ⟨fresh, t.nodup_entries⟩)).2 ?_
  rintro ⟨other, content⟩
  simp only [List.mem_cons, Prod.mk.injEq, ← get?_eq_some_iff, get?_insert]
  by_cases same : other = key
  · simp [same, absent, eq_comm]
  · simp [same]

/-! ## Tables made from lists -/

theorem get?_insertAll [DecidableEq α] (t : Table α β) (entries : List (α × β)) (key : α) :
    (t.insertAll entries).get? key =
      ((entries.reverse.find? (·.1 = key)).map (·.2)).or (t.get? key) := by
  induction entries generalizing t with
  | nil => rfl
  | cons entry rest ih =>
      rw [insertAll, List.foldl_cons, ← insertAll, ih, List.reverse_cons, List.find?_append,
        get?_insert]
      by_cases same : entry.1 = key
      · subst same
        cases rest.reverse.find? (·.1 = entry.1) <;> simp
      · cases rest.reverse.find? (·.1 = key) <;> simp [same, Ne.symm same]

theorem get?_insertAll_of_iff [DecidableEq α] {entries : List (α × β)} {found : α → Option β}
    (listed : ∀ key value, (key, value) ∈ entries ↔ found key = some value) (t : Table α β)
    (key : α) : (t.insertAll entries).get? key = (found key).or (t.get? key) := by
  rw [get?_insertAll]
  cases last : entries.reverse.find? (·.1 = key) with
  | some entry =>
      have member := List.mem_reverse.1 (List.mem_of_find?_eq_some last)
      have same : entry.1 = key := by simpa using List.find?_some last
      rw [← same, (listed _ _).1 member]
      rfl
  | none =>
      cases value : found key with
      | none => rfl
      | some value =>
          have member := List.mem_reverse.2 ((listed _ _).2 ‹_›)
          simpa using List.find?_eq_none.1 last _ member

theorem ext_get? {s t : Table α β} (same : ∀ key, s.get? key = t.get? key) : s = t := by
  have members : ∀ entry, entry ∈ s.entries ↔ entry ∈ t.entries := by
    rintro ⟨key, value⟩
    rw [← get?_eq_some_iff, ← get?_eq_some_iff, same]
  have perm := (List.perm_ext_iff_of_nodup s.nodup_entries t.nodup_entries).2 members
  refine ext (List.Perm.eq_of_pairwise ?_ s.ascending t.ascending perm)
  intro first second _ _ less greater
  have larger := Std.OrientedCmp.gt_of_lt greater
  rw [less] at larger
  contradiction

@[simp] theorem ofList_entries [DecidableEq α] (t : Table α β) : ofList t.entries = t := by
  refine ext_get? fun key => ?_
  rw [ofList, get?_insertAll_of_iff (fun _ _ => get?_eq_some_iff.symm), get?_empty, Option.or_none]

theorem entries_ofList [DecidableEq α] {entries : List (α × β)}
    (ascending : entries.Pairwise fun a b => compare a.1 b.1 = .lt) :
    (ofList entries).entries = entries :=
  congrArg Table.entries (ofList_entries ⟨entries, ascending⟩)

theorem get?_ofList [DecidableEq α] (entries : List (α × β)) (key : α) :
    (ofList entries).get? key = (entries.reverse.find? (·.1 = key)).map (·.2) := by
  rw [ofList, get?_insertAll, get?_empty, Option.or_none]

theorem mem_of_mem_ofList [DecidableEq α] {entries : List (α × β)} {entry : α × β}
    (member : entry ∈ (ofList entries).entries) : entry ∈ entries := by
  obtain ⟨key, value⟩ := entry
  rw [← get?_eq_some_iff, get?_ofList, Option.map_eq_some_iff] at member
  obtain ⟨⟨other, content⟩, last, rfl⟩ := member
  have same : other = key := by simpa using List.find?_some last
  subst same
  exact List.mem_reverse.1 (List.mem_of_find?_eq_some last)

theorem entries_insertAll_perm [DecidableEq α] {t : Table α β} {entries : List (α × β)}
    (distinct : (entries.map Prod.fst).Nodup) (absent : ∀ entry ∈ entries, t.get? entry.1 = none) :
    (t.insertAll entries).entries.Perm (t.entries ++ entries) := by
  induction entries generalizing t with
  | nil => rw [List.append_nil, insertAll, List.foldl_nil]
  | cons entry rest ih =>
      obtain ⟨new, distinct⟩ := List.nodup_cons.1 distinct
      have absent' : ∀ other ∈ rest, (t.insert entry.1 entry.2).get? other.1 = none := by
        intro other member
        have different : other.1 ≠ entry.1 := by
          intro same
          exact new (same ▸ List.mem_map_of_mem member)
        rw [get?_insert, if_neg different]
        exact absent other (List.mem_cons_of_mem entry member)
      have placed := entries_insert_perm (absent entry List.mem_cons_self) entry.2
      rw [insertAll, List.foldl_cons, ← insertAll]
      apply (ih distinct absent').trans
      exact (placed.append_right rest).trans List.perm_middle.symm

theorem entries_ofList_perm [DecidableEq α] {entries : List (α × β)}
    (distinct : (entries.map Prod.fst).Nodup) : (ofList entries).entries.Perm entries :=
  entries_insertAll_perm distinct fun _ _ => rfl

end DatasetCache.Table
