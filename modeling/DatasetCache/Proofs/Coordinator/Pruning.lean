import DatasetCache.Proofs.Coordinator.History
import DatasetCache.Proofs.Table

/-!
# Pruning

A coordinator drops the change sets that no transaction in flight can conflict
with.  Beside it runs one that keeps all of them: the two answer every call alike,
because what is dropped is never looked at again.
-/

namespace DatasetCache.Coordinator

/-- Whether some transaction in flight began before a commit. -/
def visible (inFlight : Table Nat InFlight) (earlier : Committed) : Bool :=
  inFlight.values.any (·.readPointer < earlier.version)

theorem visible_iff {inFlight : Table Nat InFlight} {earlier : Committed} :
    visible inFlight earlier = true ↔
      ∃ id entry, inFlight.get? id = some entry ∧ entry.readPointer < earlier.version := by
  simp only [visible, List.any_eq_true, Table.mem_values_iff, decide_eq_true_eq]
  constructor
  · rintro ⟨entry, ⟨id, found⟩, less⟩
    exact ⟨id, entry, found, less⟩
  · rintro ⟨id, entry, found, less⟩
    exact ⟨entry, ⟨id, found⟩, less⟩

theorem prune_eq (c : Coordinator) :
    c.prune = { c with retained := c.retained.filter (visible c.inFlight) } := by
  unfold prune
  split
  next oldest hmin =>
      have hmin' := List.min?_eq_some_iff.1 hmin
      have agree : ∀ earlier : Committed,
          decide (oldest < earlier.version) = visible c.inFlight earlier := by
        intro earlier
        rw [Bool.eq_iff_iff, decide_eq_true_eq, visible, List.any_eq_true]
        constructor
        · intro less
          obtain ⟨entry, member, rfl⟩ := List.mem_map.1 hmin'.1
          exact ⟨entry, member, by simpa using less⟩
        · rintro ⟨entry, member, less⟩
          have least := hmin'.2 _ (List.mem_map_of_mem member)
          simp only [decide_eq_true_eq] at less
          omega
      simp [agree]
  next hmin =>
      have none : c.inFlight.values = [] := by
        simpa using hmin
      have nothing : visible c.inFlight = fun _ => false := by
        funext earlier
        simp [visible, none]
      simp [nothing]

theorem settle_eq (c : Coordinator) (id : Nat) :
    c.settle id =
      { c with
        inFlight := c.inFlight.erase id
        retained := c.retained.filter (visible (c.inFlight.erase id)) } := by
  rw [settle, prune_eq]

/-! ## The answers to a check and to a commit -/

section

variable {c : Coordinator} {tx : Transaction} {changes : List Change} {entry : InFlight}

theorem canCommit_absent (absent : c.inFlight.get? tx.id = none) :
    c.canCommit tx changes = (.error (notInProgress tx.id), c) := by
  simp [canCommit, absent]

theorem canCommit_clash (found : c.inFlight.get? tx.id = some entry)
    (clash : c.conflicts entry.readPointer changes = true) :
    c.canCommit tx changes = (.ok false, c) := by
  simp [canCommit, found, clash]

theorem canCommit_clear (found : c.inFlight.get? tx.id = some entry)
    (clear : c.conflicts entry.readPointer changes = false) :
    c.canCommit tx changes =
      (.ok true, { c with inFlight := c.inFlight.insert tx.id { entry with changes } }) := by
  simp [canCommit, found, clear]

theorem commit_absent (absent : c.inFlight.get? tx.id = none) :
    c.commit tx = (.error (notInProgress tx.id), c) := by
  simp [commit, absent]

theorem commit_clash (found : c.inFlight.get? tx.id = some entry)
    (clash : c.conflicts entry.readPointer entry.changes = true) :
    c.commit tx = (.ok false, c) := by
  simp [commit, found, clash]

theorem commit_clear (found : c.inFlight.get? tx.id = some entry)
    (clear : c.conflicts entry.readPointer entry.changes = false) :
    c.commit tx =
      (.ok true,
        { settle
            { c with
              version := c.version + 1
              retained :=
                if entry.changes.isEmpty then c.retained
                else c.retained ++ [⟨c.version + 1, entry.changes⟩] } tx.id with
          committed := c.committed + 1 }) := by
  simp [commit, found, clear]

end

/-! ## Keeping every change set -/

def gained (c : Coordinator) : Event → List Committed
  | .tried tx (.ok true) =>
      ((c.inFlight.get? tx.id).map fun entry => ⟨c.version + 1, entry.changes⟩).toList
  | _ => []

def keep (c : Coordinator) (call : Call) : Event × Coordinator :=
  ((c.take call).1, { (c.take call).2 with retained := c.retained ++ c.gained (c.take call).1 })

/-- What a call can do to a coordinator that never drops a change set. -/
inductive Moves (c : Coordinator) : Event → Coordinator → Prop
  | began :
      Moves c (.began ⟨c.lastId + 1, c.version⟩)
        { c with
          lastId := c.lastId + 1
          inFlight := c.inFlight.insert (c.lastId + 1) ⟨c.version, []⟩
          started := c.started + 1 }
  | accepted (tx : Transaction) (changes : List Change) (entry : InFlight)
      (found : c.inFlight.get? tx.id = some entry) :
      Moves c (.checked tx changes (.ok true))
        { c with inFlight := c.inFlight.insert tx.id { entry with changes } }
  | won (tx : Transaction) (entry : InFlight)
      (found : c.inFlight.get? tx.id = some entry)
      (clear : c.conflicts entry.readPointer entry.changes = false) :
      Moves c (.tried tx (.ok true))
        { c with
          version := c.version + 1
          inFlight := c.inFlight.erase tx.id
          retained := c.retained ++ [⟨c.version + 1, entry.changes⟩]
          committed := c.committed + 1 }
  | aborted (tx : Transaction) :
      Moves c (.aborted tx)
        { c with inFlight := c.inFlight.erase tx.id, aborted := c.aborted + 1 }
  | invalidated (tx : Transaction) (invalid : List Nat) :
      Moves c (.invalidated tx)
        { c with
          inFlight := c.inFlight.erase tx.id
          invalid := invalid
          invalidated := c.invalidated + 1 }
  | unchecked (tx : Transaction) (changes : List Change) (answer : Except Fault Bool)
      (refused : answer ≠ .ok true) : Moves c (.checked tx changes answer) c
  | lost (tx : Transaction) (answer : Except Fault Bool)
      (refused : answer ≠ .ok true) : Moves c (.tried tx answer) c

theorem keep_moves (c : Coordinator) (call : Call) : Moves c (c.keep call).1 (c.keep call).2 := by
  cases call with
  | begin => simpa [keep, take, gained, begin] using Moves.began
  | canCommit tx changes =>
      cases found : c.inFlight.get? tx.id with
      | none =>
          simpa [keep, take, gained, canCommit_absent found] using
            Moves.unchecked tx changes (.error (notInProgress tx.id)) (by simp)
      | some entry =>
          cases clash : c.conflicts entry.readPointer changes with
          | true =>
              simpa [keep, take, gained, canCommit_clash found clash] using
                Moves.unchecked tx changes (.ok false) (by simp)
          | false =>
              simpa [keep, take, gained, canCommit_clear found clash] using
                Moves.accepted tx changes entry found
  | commit tx =>
      cases found : c.inFlight.get? tx.id with
      | none =>
          simpa [keep, take, gained, commit_absent found] using
            Moves.lost tx (.error (notInProgress tx.id)) (by simp)
      | some entry =>
          cases clash : c.conflicts entry.readPointer entry.changes with
          | true =>
              simpa [keep, take, gained, commit_clash found clash] using
                Moves.lost tx (.ok false) (by simp)
          | false =>
              simpa [keep, take, gained, found, commit_clear found clash, settle_eq] using
                Moves.won tx entry found clash
  | abort tx => simpa [keep, take, gained, abort, settle_eq] using Moves.aborted tx
  | invalidate tx =>
      simpa [keep, take, gained, invalidate, settle_eq] using Moves.invalidated tx _

/-- Identifiers and versions are issued in ascending order. -/
structure Bounded (c : Coordinator) : Prop where
  entries : ∀ {id entry}, c.inFlight.get? id = some entry →
    id ≤ c.lastId ∧ entry.readPointer ≤ c.version
  versions : ∀ {earlier}, earlier ∈ c.retained → earlier.version ≤ c.version

theorem bounded_new : Bounded {} := by
  constructor <;> simp

private theorem Bounded.found_of_erase {c : Coordinator} (h : Bounded c) {gone id : Nat}
    {entry : InFlight} (found : (c.inFlight.erase gone).get? id = some entry) :
    id ≤ c.lastId ∧ entry.readPointer ≤ c.version := by
  rw [Table.get?_erase] at found
  split at found
  · contradiction
  · exact h.entries found

theorem Bounded.moves {c next : Coordinator} {e : Event} (h : Bounded c)
    (move : Moves c e next) : Bounded next := by
  cases move with
  | began =>
      refine ⟨fun {id entry} found => ?_, h.versions⟩
      rw [Table.get?_insert] at found
      split at found
      next same =>
          cases found
          exact ⟨Nat.le_of_eq same, Nat.le_refl _⟩
      next =>
          have bounds := h.entries found
          exact ⟨Nat.le_succ_of_le bounds.1, bounds.2⟩
  | accepted tx changes entry present =>
      refine ⟨fun {id other} found => ?_, h.versions⟩
      rw [Table.get?_insert] at found
      split at found
      next same =>
          cases found
          have bounds := h.entries present
          exact ⟨same ▸ bounds.1, bounds.2⟩
      next => exact h.entries found
  | won tx entry present clear =>
      refine ⟨fun {id other} found => ?_, fun {earlier} member => ?_⟩
      · have bounds := h.found_of_erase found
        exact ⟨bounds.1, Nat.le_succ_of_le bounds.2⟩
      · rcases List.mem_append.1 member with member | member
        · exact Nat.le_succ_of_le (h.versions member)
        · simp [List.mem_singleton.1 member]
  | aborted tx => exact ⟨fun found => h.found_of_erase found, h.versions⟩
  | invalidated tx invalid => exact ⟨fun found => h.found_of_erase found, h.versions⟩
  | unchecked tx changes answer refused => exact h
  | lost tx answer refused => exact h

/-! ## Dropping what nobody can see -/

/-- The change sets that still matter: not empty, and visible to somebody in flight. -/
def shed (kept : Coordinator) : Coordinator :=
  { kept with retained := kept.retained.filter fun earlier =>
      !earlier.changes.isEmpty && visible kept.inFlight earlier }

theorem conflicts_shed {kept : Coordinator} {id : Nat} {entry : InFlight}
    (found : kept.inFlight.get? id = some entry) (changes : List Change) :
    kept.shed.conflicts entry.readPointer changes =
      kept.conflicts entry.readPointer changes := by
  rw [Bool.eq_iff_iff]
  simp only [conflicts, shed, List.any_eq_true, List.mem_filter, Bool.and_eq_true,
    decide_eq_true_eq]
  constructor
  · rintro ⟨earlier, ⟨member, -⟩, later, shared⟩
    exact ⟨earlier, member, later, shared⟩
  · rintro ⟨earlier, member, later, shared⟩
    have seen : visible kept.inFlight earlier = true := visible_iff.2 ⟨id, entry, found, later⟩
    have some : (!earlier.changes.isEmpty) = true := by
      cases hchanges : earlier.changes with
      | nil => simp [overlap, hchanges] at shared
      | cons change rest => rfl
    exact ⟨earlier, ⟨member, some, seen⟩, later, shared⟩

theorem visible_insert_new {kept : Coordinator} (h : Bounded kept) {id : Nat}
    (new : kept.lastId < id) {earlier : Committed} (member : earlier ∈ kept.retained) :
    visible (kept.inFlight.insert id ⟨kept.version, []⟩) earlier =
      visible kept.inFlight earlier := by
  have old := h.versions member
  rw [Bool.eq_iff_iff, visible_iff, visible_iff]
  simp only [Table.get?_insert]
  constructor
  · rintro ⟨other, entry, found, less⟩
    split at found
    · cases found
      dsimp only at less
      omega
    · exact ⟨other, entry, found, less⟩
  · rintro ⟨other, entry, found, less⟩
    have hne : other ≠ id := by
      have := (h.entries found).1
      omega
    exact ⟨other, entry, by simpa [hne] using found, less⟩

theorem visible_insert {inFlight : Table Nat InFlight} {id : Nat} {entry : InFlight}
    (found : inFlight.get? id = some entry) (changes : List Change) :
    visible (inFlight.insert id { entry with changes }) = visible inFlight := by
  funext earlier
  rw [Bool.eq_iff_iff, visible_iff, visible_iff]
  simp only [Table.get?_insert]
  constructor
  · rintro ⟨other, entry', found', less⟩
    split at found'
    · cases found'
      exact ⟨id, entry, found, less⟩
    · exact ⟨other, entry', found', less⟩
  · rintro ⟨other, entry', found', less⟩
    by_cases same : other = id
    · subst same
      rw [found] at found'
      cases found'
      exact ⟨other, { entry with changes }, by simp, less⟩
    · exact ⟨other, entry', by simpa [same] using found', less⟩

theorem visible_of_erase {inFlight : Table Nat InFlight} {id : Nat} {earlier : Committed}
    (seen : visible (inFlight.erase id) earlier = true) : visible inFlight earlier = true := by
  obtain ⟨other, entry, found, less⟩ := visible_iff.1 seen
  rw [Table.get?_erase] at found
  split at found
  · contradiction
  · exact visible_iff.2 ⟨other, entry, found, less⟩

theorem filter_visible_erase (inFlight : Table Nat InFlight) (id : Nat)
    (retained : List Committed) :
    (retained.filter fun earlier =>
        !earlier.changes.isEmpty && visible inFlight earlier).filter
        (visible (inFlight.erase id)) =
      retained.filter fun earlier =>
        !earlier.changes.isEmpty && visible (inFlight.erase id) earlier := by
  rw [List.filter_filter]
  apply List.filter_congr
  intro earlier _
  cases seen : visible (inFlight.erase id) earlier with
  | false => simp
  | true => simp [visible_of_erase seen]

theorem filter_visible_commit (inFlight : Table Nat InFlight) (id : Nat)
    (retained : List Committed) (latest : Committed) :
    (if latest.changes.isEmpty then
        retained.filter fun earlier => !earlier.changes.isEmpty && visible inFlight earlier
      else
        (retained.filter fun earlier =>
          !earlier.changes.isEmpty && visible inFlight earlier) ++ [latest]).filter
        (visible (inFlight.erase id)) =
      (retained ++ [latest]).filter fun earlier =>
        !earlier.changes.isEmpty && visible (inFlight.erase id) earlier := by
  rw [List.filter_append, ← filter_visible_erase]
  cases hempty : latest.changes.isEmpty with
  | true => simp [hempty]
  | false => simp [hempty, List.filter_append, List.filter_cons]

theorem take_shed {kept : Coordinator} (h : Bounded kept) (call : Call) :
    kept.shed.take call = ((kept.keep call).1, (kept.keep call).2.shed) := by
  cases call with
  | begin =>
      have same : kept.retained.filter (fun earlier => !earlier.changes.isEmpty &&
            visible (kept.inFlight.insert (kept.lastId + 1) ⟨kept.version, []⟩) earlier) =
          kept.retained.filter (fun earlier =>
            !earlier.changes.isEmpty && visible kept.inFlight earlier) :=
        List.filter_congr fun earlier member => by
          rw [visible_insert_new h (Nat.lt_succ_self _) member]
      simp only [take, keep, gained, shed, begin, List.append_nil, same]
  | canCommit tx changes =>
      cases found : kept.inFlight.get? tx.id with
      | none =>
          simp [take, keep, gained, canCommit_absent found,
            canCommit_absent (c := kept.shed) found]
      | some entry =>
          have agree := conflicts_shed found changes
          cases clash : kept.conflicts entry.readPointer changes with
          | true =>
              rw [clash] at agree
              simp [take, keep, gained, canCommit_clash found clash,
                canCommit_clash (c := kept.shed) found agree]
          | false =>
              rw [clash] at agree
              simp only [take, keep, gained, canCommit_clear found clash,
                canCommit_clear (c := kept.shed) found agree]
              simp [shed, visible_insert found]
  | commit tx =>
      cases found : kept.inFlight.get? tx.id with
      | none =>
          simp [take, keep, gained, commit_absent found, commit_absent (c := kept.shed) found]
      | some entry =>
          have agree := conflicts_shed found entry.changes
          cases clash : kept.conflicts entry.readPointer entry.changes with
          | true =>
              rw [clash] at agree
              simp [take, keep, gained, commit_clash found clash,
                commit_clash (c := kept.shed) found agree]
          | false =>
              rw [clash] at agree
              simp only [take, keep, gained, commit_clear found clash,
                commit_clear (c := kept.shed) found agree, settle_eq, found]
              simp only [shed, Option.map_some, Option.toList_some, ← filter_visible_commit]
  | abort tx =>
      simp only [take, keep, gained, abort, settle_eq, shed, List.append_nil,
        filter_visible_erase]
  | invalidate tx =>
      simp only [take, keep, gained, invalidate, settle_eq, shed, List.append_nil,
        filter_visible_erase]
      rfl

/-! ## Whole histories -/

theorem bounded_replay (calls : List Call) : Bounded (replay keep calls).2 := by
  induction calls using List.reverseRecOn with
  | nil => exact bounded_new
  | append_singleton calls call ih =>
      rw [replay_append_singleton]
      exact ih.moves (keep_moves _ call)

theorem replay_take (calls : List Call) :
    replay take calls = ((replay keep calls).1, (replay keep calls).2.shed) := by
  induction calls using List.reverseRecOn with
  | nil => rfl
  | append_singleton calls call ih =>
      rw [replay_append_singleton, replay_append_singleton, ih]
      simp only [take_shed (bounded_replay calls)]

end DatasetCache.Coordinator
