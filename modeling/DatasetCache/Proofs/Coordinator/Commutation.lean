import DatasetCache.Proofs.Coordinator.Retention
import DatasetCache.Coordinator.Rate

/-!
# Independent commits commute

Two commits in either order leave coordinators that retain the same sets under different
versions and in a different order, pruned at different moments.  What a call can find out
is less: for each transaction in flight, which sets were committed after it began.
-/

namespace DatasetCache

theorem Table.erase_erase_comm {α β : Type} [Ord α] (t : Table α β) (key other : α) :
    (t.erase key).erase other = (t.erase other).erase key := by
  apply Table.ext
  simp only [erase, List.filter_filter, Bool.and_comm]

namespace Coordinator

theorem overlap_comm (left right : List Change) : overlap left right = overlap right left := by
  rw [Bool.eq_iff_iff]
  simp only [overlap, List.any_eq_true, decide_eq_true_eq]
  constructor
  · rintro ⟨change, inLeft, inRight⟩
    exact ⟨change, inRight, inLeft⟩
  · rintro ⟨change, inRight, inLeft⟩
    exact ⟨change, inLeft, inRight⟩

/-- The sets that a transaction with this read pointer can conflict with. -/
def setsAfter (c : Coordinator) (readPointer : Nat) : List (List Change) :=
  (c.retained.filter (readPointer < ·.version)).map (·.changes)

def stamped (version : Nat) (changes : List Change) : List Committed :=
  if changes.isEmpty then [] else [⟨version, changes⟩]

def contribution (changes : List Change) : List (List Change) :=
  if changes.isEmpty then [] else [changes]

theorem stamped_after {readPointer version : Nat} (later : readPointer < version)
    (changes : List Change) :
    ((stamped version changes).filter (readPointer < ·.version)).map (·.changes) =
      contribution changes := by
  cases changes <;> simp [stamped, contribution, later]

theorem conflicts_eq (c : Coordinator) (readPointer : Nat) (changes : List Change) :
    c.conflicts readPointer changes = (c.setsAfter readPointer).any (overlap · changes) := by
  simp [conflicts, setsAfter, List.any_filter, Function.comp_def]

theorem any_contribution (recorded changes : List Change) :
    (contribution recorded).any (overlap · changes) = overlap recorded changes := by
  cases recorded <;> simp [contribution, overlap]

theorem stamped_swap_iff {version : Nat} {left right : List Change}
    (disjoint : overlap left right = false) :
    stamped (version + 1) left ++ stamped (version + 2) right =
        stamped (version + 1) right ++ stamped (version + 2) left ↔ left = [] ∧ right = [] := by
  cases left with
  | nil => cases right <;> simp [stamped]
  | cons change changes =>
      cases right with
      | nil => simp [stamped]
      | cons other others =>
          simp only [stamped, List.isEmpty_cons, Bool.false_eq_true, if_false, List.cons_append,
            List.nil_append, List.cons.injEq, Committed.mk.injEq, true_and, and_true, reduceCtorEq,
            and_self, iff_false]
          rintro ⟨⟨rfl, rfl⟩, -⟩
          simp [overlap] at disjoint

/-! ## Reachable coordinators -/

namespace Ruled

variable {h : History} {c : Coordinator}

theorem versions (ruled : Ruled h c) {set : Committed} (member : set ∈ c.retained) :
    set.version ≤ c.version := by
  obtain ⟨kept, -, bounded, rfl⟩ := ruled.kept
  exact bounded.versions (List.mem_filter.1 member).1

theorem pointers (ruled : Ruled h c) {id : Nat} {entry : InFlight}
    (found : c.inFlight.get? id = some entry) : entry.readPointer ≤ c.version := by
  obtain ⟨kept, -, bounded, rfl⟩ := ruled.kept
  exact (bounded.entries found).2

theorem setsAfter_version (ruled : Ruled h c) : c.setsAfter c.version = [] := by
  simp only [setsAfter, List.map_eq_nil_iff, List.filter_eq_nil_iff, decide_eq_true_eq, Nat.not_lt]
  exact fun set member => ruled.versions member

theorem pruned (ruled : Ruled h c) : c.prune = c := by
  obtain ⟨kept, -, -, rfl⟩ := ruled.kept
  have same : kept.shed.retained.filter (visible kept.shed.inFlight) = kept.shed.retained := by
    refine List.filter_eq_self.2 fun set member => ?_
    have seen := (List.mem_filter.1 member).2
    rw [Bool.and_eq_true] at seen
    exact seen.2
  rw [prune_eq, same]

theorem entry (ruled : Ruled h c) {id : Nat} (flying : h.flying id = true) :
    ∃ entry, c.inFlight.get? id = some entry ∧ entry.changes = h.recorded id := by
  obtain ⟨kept, tells, -, rfl⟩ := ruled.kept
  obtain ⟨entry, found⟩ := ruled.flying_iff.1 flying
  exact ⟨entry, found, (tells.found found).2.1⟩

end Ruled

theorem ruled_after (calls : List Call) : Ruled (history calls) (after calls) := ⟨calls, rfl⟩

theorem filter_visible {inFlight : Table Nat InFlight} {id : Nat} {entry : InFlight}
    (found : inFlight.get? id = some entry) (sets : List Committed) :
    (sets.filter (visible inFlight)).filter (entry.readPointer < ·.version) =
      sets.filter (entry.readPointer < ·.version) := by
  rw [List.filter_filter]
  refine List.filter_congr fun set _ => ?_
  by_cases later : entry.readPointer < set.version
  · simp [later, visible_iff.2 ⟨id, entry, found, later⟩]
  · simp [later]

theorem setsAfter_settle {c : Coordinator} {gone id : Nat} {entry : InFlight}
    (found : (c.inFlight.erase gone).get? id = some entry) :
    (c.settle gone).setsAfter entry.readPointer = c.setsAfter entry.readPointer := by
  rw [settle_eq, setsAfter, setsAfter, filter_visible found]

theorem filter_visible_twice (inFlight : Table Nat InFlight) (id : Nat) (sets : List Committed) :
    (sets.filter (visible inFlight)).filter (visible (inFlight.erase id)) =
      sets.filter (visible (inFlight.erase id)) := by
  rw [List.filter_filter]
  refine List.filter_congr fun set _ => ?_
  cases seen : visible (inFlight.erase id) set with
  | false => rfl
  | true => simp [visible_of_erase seen]

def record (c : Coordinator) (changes : List Change) : Coordinator :=
  { c with
    version := c.version + 1
    retained := c.retained ++ stamped (c.version + 1) changes }

theorem commit_won {c : Coordinator} {tx : Transaction} {entry : InFlight}
    (found : c.inFlight.get? tx.id = some entry)
    (clear : c.conflicts entry.readPointer entry.changes = false) :
    c.commit tx =
      (.ok true,
        { (c.record entry.changes).settle tx.id with committed := c.committed + 1 }) := by
  rw [commit_clear found clear, record, stamped]
  cases entry.changes <;> simp

theorem setsAfter_record {c : Coordinator} {readPointer : Nat} (old : readPointer ≤ c.version)
    (changes : List Change) :
    (c.record changes).setsAfter readPointer = c.setsAfter readPointer ++ contribution changes := by
  rw [← stamped_after (Nat.lt_succ_of_le old), setsAfter, setsAfter, record, List.filter_append,
    List.map_append]

/-! ## The relation -/

/-- Two coordinators that only differ in the versions and the order of what they retain. -/
structure Matches (c d : Coordinator) : Prop where
  rest : d = { c with retained := d.retained }
  sets : ∀ {id entry}, c.inFlight.get? id = some entry →
    (c.setsAfter entry.readPointer).Perm (d.setsAfter entry.readPointer)

namespace Matches

variable {c d : Coordinator}

theorem refl (c : Coordinator) : Matches c c := ⟨rfl, fun _ => .rfl⟩

theorem inFlight (m : Matches c d) : d.inFlight = c.inFlight := by
  rw [m.rest]

theorem conflicts (m : Matches c d) {id : Nat} {entry : InFlight}
    (found : c.inFlight.get? id = some entry) (changes : List Change) :
    d.conflicts entry.readPointer changes = c.conflicts entry.readPointer changes := by
  rw [conflicts_eq, conflicts_eq]
  exact ((m.sets found).any_eq).symm

theorem retaining (m : Matches c d) : ∃ retained, d = { c with retained } := ⟨_, m.rest⟩

theorem settle (m : Matches c d) (id : Nat) : Matches (c.settle id) (d.settle id) := by
  refine ⟨?_, fun {other entry} found => ?_⟩
  · obtain ⟨retained, rfl⟩ := m.retaining
    rw [settle_eq, settle_eq]
  · have left : (c.inFlight.erase id).get? other = some entry := by
      rwa [settle_eq] at found
    have stayed : c.inFlight.get? other = some entry := by
      rw [Table.get?_erase] at left
      split at left
      · cases left
      · exact left
    rw [setsAfter_settle left, setsAfter_settle (m.inFlight ▸ left)]
    exact m.sets stayed

theorem began {h h' : History} (ruled : Ruled h c) (ruled' : Ruled h' d) (m : Matches c d) :
    d.begin.1 = c.begin.1 ∧ Matches c.begin.2 d.begin.2 := by
  have fresh := ruled.setsAfter_version
  have fresh' := ruled'.setsAfter_version
  obtain ⟨retained, rfl⟩ := m.retaining
  refine ⟨rfl, rfl, fun {id entry} found => ?_⟩
  change (c.inFlight.insert _ _).get? id = some entry at found
  rw [Table.get?_insert] at found
  split at found
  · cases found
    change (c.setsAfter c.version).Perm (({ c with retained } : Coordinator).setsAfter c.version)
    rw [fresh, fresh']
  · exact m.sets found

theorem checked (m : Matches c d) (tx : Transaction) (changes : List Change) :
    (d.canCommit tx changes).1 = (c.canCommit tx changes).1 ∧
      Matches (c.canCommit tx changes).2 (d.canCommit tx changes).2 := by
  cases found : c.inFlight.get? tx.id with
  | none =>
      rw [canCommit_absent found, canCommit_absent (m.inFlight ▸ found)]
      exact ⟨rfl, m⟩
  | some entry =>
      have same := m.conflicts found changes
      cases clash : c.conflicts entry.readPointer changes with
      | true =>
          rw [canCommit_clash found clash, canCommit_clash (m.inFlight ▸ found) (same.trans clash)]
          exact ⟨rfl, m⟩
      | false =>
          rw [canCommit_clear found clash, canCommit_clear (m.inFlight ▸ found) (same.trans clash)]
          obtain ⟨retained, rfl⟩ := m.retaining
          refine ⟨rfl, rfl, fun {id other} present => ?_⟩
          change (c.inFlight.insert _ _).get? id = some other at present
          rw [Table.get?_insert] at present
          split at present
          · cases present
            have known := m.sets found
            exact known
          · exact m.sets present

theorem record (m : Matches c d) (changes : List Change)
    (old : ∀ {id entry}, c.inFlight.get? id = some entry → entry.readPointer ≤ c.version) :
    Matches (c.record changes) (d.record changes) := by
  refine ⟨?_, fun {id entry} found => ?_⟩
  · obtain ⟨retained, rfl⟩ := m.retaining
    rfl
  · change c.inFlight.get? id = some entry at found
    have version : d.version = c.version := by rw [m.rest]
    rw [setsAfter_record (old found), setsAfter_record (version ▸ old found)]
    exact (m.sets found).append_right _

theorem tried (m : Matches c d) (tx : Transaction)
    (old : ∀ {id entry}, c.inFlight.get? id = some entry → entry.readPointer ≤ c.version) :
    (d.commit tx).1 = (c.commit tx).1 ∧ Matches (c.commit tx).2 (d.commit tx).2 := by
  cases found : c.inFlight.get? tx.id with
  | none =>
      rw [commit_absent found, commit_absent (m.inFlight ▸ found)]
      exact ⟨rfl, m⟩
  | some entry =>
      have same := m.conflicts found entry.changes
      cases clash : c.conflicts entry.readPointer entry.changes with
      | true =>
          rw [commit_clash found clash, commit_clash (m.inFlight ▸ found) (same.trans clash)]
          exact ⟨rfl, m⟩
      | false =>
          rw [commit_won found clash, commit_won (m.inFlight ▸ found) (same.trans clash)]
          have left := (m.record entry.changes old).settle tx.id
          have count : d.committed = c.committed := by rw [m.rest]
          refine ⟨rfl, ?_, left.sets⟩
          rw [left.rest, count]

theorem take {h h' : History} (ruled : Ruled h c) (ruled' : Ruled h' d) (m : Matches c d)
    (call : Call) :
    (d.take call).1 = (c.take call).1 ∧ Matches (c.take call).2 (d.take call).2 := by
  cases call with
  | begin =>
      obtain ⟨same, next⟩ := m.began ruled ruled'
      exact ⟨congrArg Event.began same, next⟩
  | canCommit tx changes =>
      obtain ⟨same, next⟩ := m.checked tx changes
      exact ⟨congrArg (Event.checked tx changes) same, next⟩
  | commit tx =>
      obtain ⟨same, next⟩ := m.tried tx ruled.pointers
      exact ⟨congrArg (Event.tried tx) same, next⟩
  | abort tx =>
      have left := m.settle tx.id
      obtain ⟨retained, rfl⟩ := m.retaining
      exact ⟨rfl, by simp only [Coordinator.take, abort, settle_eq], left.sets⟩
  | invalidate tx =>
      obtain ⟨retained, rfl⟩ := m.retaining
      let invalid := if c.isInvalid tx.id then c.invalid else tx.id :: c.invalid
      have marked : Matches { c with invalid } { c with invalid, retained } := ⟨rfl, m.sets⟩
      have left := marked.settle tx.id
      refine ⟨rfl, ?_, left.sets⟩
      simp only [Coordinator.take, invalidate, settle_eq]
      rfl

end Matches

theorem matches_run {first second : List Call} (m : Matches (after first) (after second))
    (later : List Call) :
    (∃ events, history (first ++ later) = history first ++ events ∧
      history (second ++ later) = history second ++ events) ∧
    Matches (after (first ++ later)) (after (second ++ later)) := by
  induction later using List.reverseRecOn with
  | nil =>
      rw [List.append_nil, List.append_nil]
      exact ⟨⟨[], by simp⟩, m⟩
  | append_singleton later call ih =>
      obtain ⟨⟨events, one, two⟩, alike⟩ := ih
      obtain ⟨same, next⟩ := alike.take (ruled_after _) (ruled_after _) call
      rw [← List.append_assoc, ← List.append_assoc, after_append_singleton,
        after_append_singleton, history_append_singleton, history_append_singleton, one, two, same]
      exact ⟨⟨events ++ [((after (first ++ later)).take call).1], by simp⟩, next⟩

/-! ## Readings -/

/-- What a coordinator shows between calls: who is marked invalid, its metrics and how many
sets it retains. -/
structure Reading where
  invalid : Nat → Bool
  active : Nat
  started : Nat
  committed : Nat
  aborted : Nat
  invalidated : Nat
  commitRate : String
  retained : Nat

def reading (c : Coordinator) : Reading :=
  ⟨c.isInvalid, c.active, c.started, c.committed, c.aborted, c.invalidated, c.commitRate,
    c.retained.length⟩

theorem Ruled.retained_length {h : History} {c : Coordinator} (ruled : Ruled h c) :
    c.retained.length = (c.inFlight.values.map (·.readPointer)).min?.elim 0
      fun oldest => (c.setsAfter oldest).length := by
  have same := congrArg (·.retained.length) ruled.pruned
  rw [← same, prune]
  cases (c.inFlight.values.map (·.readPointer)).min? <;> simp [setsAfter]

theorem Matches.reading {h h' : History} {c d : Coordinator} (ruled : Ruled h c)
    (ruled' : Ruled h' d) (m : Matches c d) : d.reading = c.reading := by
  have length : d.retained.length = c.retained.length := by
    rw [ruled.retained_length, ruled'.retained_length, m.inFlight]
    cases least : (c.inFlight.values.map (·.readPointer)).min? with
    | none => rfl
    | some oldest =>
        obtain ⟨entry, member, rfl⟩ := List.mem_map.1 (List.min?_eq_some_iff.1 least).1
        obtain ⟨id, found⟩ := Table.mem_values_iff.1 member
        exact (m.sets found).length_eq.symm
  obtain ⟨retained, rfl⟩ := m.retaining
  rw [Coordinator.reading, Coordinator.reading, length]
  rfl

/-! ## Two commits -/

theorem commit_refused {c : Coordinator} {tx : Transaction}
    (refused : (c.commit tx).1 ≠ .ok true) : (c.commit tx).2 = c := by
  cases found : c.inFlight.get? tx.id with
  | none => rw [commit_absent found]
  | some entry =>
      cases clash : c.conflicts entry.readPointer entry.changes with
      | true => rw [commit_clash found clash]
      | false =>
          rw [commit_clear found clash] at refused
          exact absurd rfl refused

theorem commit_accepted {c : Coordinator} {tx : Transaction} {entry : InFlight}
    (found : c.inFlight.get? tx.id = some entry) (accepted : (c.commit tx).1 = .ok true) :
    (c.commit tx).2 =
      { (c.record entry.changes).settle tx.id with committed := c.committed + 1 } := by
  cases clash : c.conflicts entry.readPointer entry.changes with
  | true =>
      rw [commit_clash found clash] at accepted
      cases accepted
  | false => rw [commit_won found clash]

theorem commit_answer_of {c : Coordinator} {tx : Transaction} {entry : InFlight}
    (found : c.inFlight.get? tx.id = some entry) :
    (c.commit tx).1 = .ok (!c.conflicts entry.readPointer entry.changes) := by
  cases clash : c.conflicts entry.readPointer entry.changes with
  | true => rw [commit_clash found clash]; rfl
  | false => rw [commit_clear found clash]; rfl

section Pair

variable {c : Coordinator} {a b : Transaction} {left right : InFlight}

theorem commit_others (here : c.inFlight.get? a.id = some left)
    (there : c.inFlight.get? b.id = some right) (distinct : b.id ≠ a.id) :
    (c.commit a).2.inFlight.get? b.id = some right := by
  by_cases accepted : (c.commit a).1 = .ok true
  · rw [commit_accepted here accepted, settle_eq]
    simpa [record, distinct] using there
  · rwa [commit_refused accepted]

theorem setsAfter_commit (here : c.inFlight.get? a.id = some left)
    (there : c.inFlight.get? b.id = some right) (distinct : b.id ≠ a.id)
    (old : right.readPointer ≤ c.version) (accepted : (c.commit a).1 = .ok true) :
    (c.commit a).2.setsAfter right.readPointer =
      c.setsAfter right.readPointer ++ contribution left.changes := by
  have stays : ((c.record left.changes).inFlight.erase a.id).get? b.id = some right := by
    simpa [record, distinct] using there
  rw [commit_accepted here accepted, ← setsAfter_record old]
  exact setsAfter_settle stays

theorem commit_answer_after (here : c.inFlight.get? a.id = some left)
    (there : c.inFlight.get? b.id = some right) (distinct : b.id ≠ a.id)
    (old : right.readPointer ≤ c.version)
    (disjoint : overlap left.changes right.changes = false) :
    ((c.commit a).2.commit b).1 = (c.commit b).1 := by
  by_cases accepted : (c.commit a).1 = .ok true
  · rw [commit_answer_of (commit_others here there distinct), commit_answer_of there,
      conflicts_eq, conflicts_eq, setsAfter_commit here there distinct old accepted,
      List.any_append, any_contribution, disjoint, Bool.or_false]
  · rw [commit_refused accepted]

theorem commit_twice (here : c.inFlight.get? a.id = some left)
    (there : c.inFlight.get? b.id = some right) (distinct : b.id ≠ a.id)
    (first : (c.commit a).1 = .ok true) (second : ((c.commit a).2.commit b).1 = .ok true) :
    ((c.commit a).2.commit b).2 =
      { c with
        version := c.version + 2
        inFlight := (c.inFlight.erase a.id).erase b.id
        retained := (c.retained ++ stamped (c.version + 1) left.changes ++
          stamped (c.version + 2) right.changes).filter
            (visible ((c.inFlight.erase a.id).erase b.id))
        committed := c.committed + 2 } := by
  rw [commit_accepted (commit_others here there distinct) second, commit_accepted here first]
  simp only [settle_eq, record, List.filter_append, filter_visible_twice]

theorem commits_of_refused (here : c.inFlight.get? a.id = some left)
    (there : c.inFlight.get? b.id = some right) (distinct : b.id ≠ a.id)
    (old : ∀ {id entry}, c.inFlight.get? id = some entry → entry.readPointer ≤ c.version)
    (disjoint : overlap left.changes right.changes = false)
    (refused : (c.commit a).1 ≠ .ok true ∨ (c.commit b).1 ≠ .ok true) :
    ((c.commit a).2.commit b).2 = ((c.commit b).2.commit a).2 := by
  have answerB := commit_answer_after here there distinct (old there) disjoint
  have answerA := commit_answer_after there here distinct.symm (old here)
    (overlap_comm left.changes right.changes ▸ disjoint)
  rcases refused with first | second
  · have later : ((c.commit b).2.commit a).1 ≠ .ok true := by rwa [answerA]
    rw [commit_refused first, commit_refused later]
  · have later : ((c.commit a).2.commit b).1 ≠ .ok true := by rwa [answerB]
    rw [commit_refused later, commit_refused second]

theorem commits_match (here : c.inFlight.get? a.id = some left)
    (there : c.inFlight.get? b.id = some right) (distinct : b.id ≠ a.id)
    (old : ∀ {id entry}, c.inFlight.get? id = some entry → entry.readPointer ≤ c.version)
    (disjoint : overlap left.changes right.changes = false) :
    Matches ((c.commit a).2.commit b).2 ((c.commit b).2.commit a).2 := by
  have answerB := commit_answer_after here there distinct (old there) disjoint
  have answerA := commit_answer_after there here distinct.symm (old here)
    (overlap_comm left.changes right.changes ▸ disjoint)
  by_cases accepted : (c.commit a).1 = .ok true ∧ (c.commit b).1 = .ok true
  case neg =>
      rw [commits_of_refused here there distinct old disjoint (not_and_or.1 accepted)]
      exact .refl _
  obtain ⟨first, second⟩ := accepted
  rw [commit_twice here there distinct first (answerB ▸ second),
    commit_twice there here distinct.symm second (answerA ▸ first),
    Table.erase_erase_comm c.inFlight b.id a.id]
  refine ⟨rfl, fun {id entry} found => ?_⟩
  have flying : c.inFlight.get? id = some entry := by
    simp only [Table.get?_erase] at found
    split at found
    · cases found
    split at found
    · cases found
    · exact found
  have pointer := old flying
  simp only [setsAfter, filter_visible found, List.filter_append, List.map_append,
    stamped_after (Nat.lt_succ_of_le pointer),
    stamped_after (Nat.lt_succ_of_le (Nat.le_succ_of_le pointer)), List.append_assoc]
  exact List.perm_append_comm.append_left _

/-- After two commits of disjoint sets the order shows in the versions exactly if something
was recorded and somebody is left who faces it. -/
theorem commits_equal_iff (here : c.inFlight.get? a.id = some left)
    (there : c.inFlight.get? b.id = some right) (distinct : b.id ≠ a.id)
    (old : ∀ {id entry}, c.inFlight.get? id = some entry → entry.readPointer ≤ c.version)
    (disjoint : overlap left.changes right.changes = false) :
    ((c.commit a).2.commit b).2 = ((c.commit b).2.commit a).2 ↔
      (c.commit a).1 ≠ .ok true ∨ (c.commit b).1 ≠ .ok true ∨
        (left.changes = [] ∧ right.changes = []) ∨
        ∀ id, id ≠ a.id → id ≠ b.id → c.inFlight.get? id = none := by
  have answerB := commit_answer_after here there distinct (old there) disjoint
  have answerA := commit_answer_after there here distinct.symm (old here)
    (overlap_comm left.changes right.changes ▸ disjoint)
  by_cases accepted : (c.commit a).1 = .ok true ∧ (c.commit b).1 = .ok true
  case neg =>
    have refused := not_and_or.1 accepted
    simp only [commits_of_refused here there distinct old disjoint refused, true_iff]
    exact refused.imp_right .inl
  obtain ⟨first, second⟩ := accepted
  simp only [ne_eq, first, second, not_true_eq_false, false_or]
  rw [commit_twice here there distinct first (answerB ▸ second),
    commit_twice there here distinct.symm second (answerA ▸ first),
    Table.erase_erase_comm c.inFlight b.id a.id]
  simp only [mk.injEq, and_true, true_and]
  by_cases alone : ∀ id, id ≠ a.id → id ≠ b.id → c.inFlight.get? id = none
  case pos =>
    have nothing : ∀ sets : List Committed,
        sets.filter (visible ((c.inFlight.erase a.id).erase b.id)) = [] := by
      refine fun sets => List.filter_eq_nil_iff.2 fun set _ seen => ?_
      obtain ⟨id, entry, found, -⟩ := visible_iff.1 seen
      simp only [Table.get?_erase] at found
      grind
    simp only [nothing, true_iff]
    exact .inr alone
  case neg =>
    push Not at alone
    obtain ⟨id, notA, notB, present⟩ := alone
    obtain ⟨entry, found⟩ := Option.ne_none_iff_exists'.1 present
    have left' : ((c.inFlight.erase a.id).erase b.id).get? id = some entry := by
      simpa [notA, notB] using found
    have faced : ∀ version changes, c.version < version →
        (stamped version changes).filter (visible ((c.inFlight.erase a.id).erase b.id)) =
          stamped version changes := by
      intro version changes later
      have seen := visible_iff.2 ⟨id, entry, left',
        show entry.readPointer < (⟨version, changes⟩ : Committed).version from
          Nat.lt_of_le_of_lt (old found) later⟩
      cases changes <;> simp [stamped, seen]
    simp only [List.filter_append, List.append_assoc, faced _ _ (Nat.lt_succ_self _),
      faced _ _ (Nat.lt_add_of_pos_right Nat.two_pos), List.append_cancel_left_eq,
      stamped_swap_iff disjoint]
    refine ⟨.inl, Or.rec (fun nothing => nothing) fun none => ?_⟩
    exact absurd (none id notA notB) present

end Pair

/-- **Independent commits commute.** Of two transactions in flight that have recorded no
common change each gets the same answer, whoever commits first, and it is the answer that it
gets on its own.  Whatever is asked afterwards is answered alike, and at any time the two
coordinators show the same, although they are equal only if one of the two was refused, if
nothing was recorded, or if nobody else is in flight. -/
theorem independent_commits_commute (calls : List Call) (a b : Transaction)
    (distinct : a.id ≠ b.id) (flyingA : (history calls).flying a.id = true)
    (flyingB : (history calls).flying b.id = true)
    (disjoint : overlap ((history calls).recorded a.id) ((history calls).recorded b.id) = false) :
    ∃ x y, ((after calls).commit a).1 = .ok x ∧ ((after calls).commit b).1 = .ok y ∧
      (∀ later, ∃ events,
        history (calls ++ [.commit a, .commit b] ++ later) =
          history calls ++ .tried a (.ok x) :: .tried b (.ok y) :: events ∧
        history (calls ++ [.commit b, .commit a] ++ later) =
          history calls ++ .tried b (.ok y) :: .tried a (.ok x) :: events ∧
        (after (calls ++ [.commit a, .commit b] ++ later)).reading =
          (after (calls ++ [.commit b, .commit a] ++ later)).reading) ∧
      (after (calls ++ [.commit a, .commit b]) = after (calls ++ [.commit b, .commit a]) ↔
        x = false ∨ y = false ∨
        ((history calls).recorded a.id = [] ∧ (history calls).recorded b.id = []) ∨
        ∀ id, id ≠ a.id → id ≠ b.id → (history calls).flying id = false) := by
  have ruled := ruled_after calls
  obtain ⟨left, here, recordedA⟩ := ruled.entry flyingA
  obtain ⟨right, there, recordedB⟩ := ruled.entry flyingB
  rw [← recordedA, ← recordedB] at disjoint ⊢
  have old : ∀ {id entry}, (after calls).inFlight.get? id = some entry →
      entry.readPointer ≤ (after calls).version := ruled.pointers
  have afterA := commit_answer_after here there distinct.symm (old there) disjoint
  have afterB := commit_answer_after there here distinct (old here)
    (overlap_comm left.changes right.changes ▸ disjoint)
  have x := commit_answer_of here
  have y := commit_answer_of there
  have both : ∀ first second : Transaction, calls ++ [.commit first, .commit second] =
      calls ++ [.commit first] ++ [.commit second] := by simp
  have state : ∀ first second : Transaction,
      after (calls ++ [.commit first, .commit second]) =
        (((after calls).commit first).2.commit second).2 := by
    intro first second
    rw [both, after_append_singleton, after_append_singleton]
    rfl
  have told : ∀ first second : Transaction,
      history (calls ++ [.commit first, .commit second]) =
        history calls ++ [.tried first ((after calls).commit first).1,
          .tried second (((after calls).commit first).2.commit second).1] := by
    intro first second
    rw [both, history_append_singleton, history_append_singleton, after_append_singleton]
    simp [take]
  have alike := commits_match here there distinct.symm old disjoint
  rw [← state, ← state] at alike
  refine ⟨_, _, x, y, fun later => ?_, ?_⟩
  · obtain ⟨⟨events, one, two⟩, last⟩ := matches_run alike later
    refine ⟨events, ?_, ?_, (last.reading (ruled_after _) (ruled_after _)).symm⟩
    · rw [one, told, afterA, x, y]
      simp
    · rw [two, told, afterB, x, y]
      simp
  · have missing : ∀ id,
        (after calls).inFlight.get? id = none ↔ (history calls).flying id = false := by
      intro id
      rw [← Bool.not_eq_true, ruled.flying_iff, ← Option.ne_none_iff_exists', not_not]
    rw [state, state, commits_equal_iff here there distinct.symm old disjoint, x, y]
    simp [missing]

def threeInFlight : List Call :=
  [.begin, .begin, .begin, .canCommit ⟨1, 0⟩ ["left"], .canCommit ⟨2, 0⟩ ["right"]]

theorem independent_commits_commute_three :
    (after (threeInFlight ++ [.commit ⟨1, 0⟩, .commit ⟨2, 0⟩])).reading =
      (after (threeInFlight ++ [.commit ⟨2, 0⟩, .commit ⟨1, 0⟩])).reading ∧
    after (threeInFlight ++ [.commit ⟨1, 0⟩, .commit ⟨2, 0⟩]) ≠
      after (threeInFlight ++ [.commit ⟨2, 0⟩, .commit ⟨1, 0⟩]) := by
  obtain ⟨_, _, -, -, later, -⟩ := independent_commits_commute threeInFlight ⟨1, 0⟩ ⟨2, 0⟩
    (by decide) (by decide) (by decide) (by decide)
  obtain ⟨events, -, -, same⟩ := later []
  exact ⟨same, by decide⟩

end Coordinator

end DatasetCache
