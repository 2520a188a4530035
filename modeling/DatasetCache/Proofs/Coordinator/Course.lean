import DatasetCache.Proofs.Coordinator.FirstCommitter

/-!
# The course of a coordinator

A course leads a coordinator from call to call.  Along the course that its history tells,
what is in flight is known from the history, and the counters add up as long as only
transactions in flight are settled.
-/

namespace DatasetCache

namespace Table

variable {α β : Type} [Ord α] [Std.LawfulEqOrd α]

theorem mem_keys_iff {t : Table α β} {key : α} : key ∈ t.keys ↔ ∃ value, t.get? key = some value := by
  simp [keys, get?_eq_some_iff]

theorem keys_erase_perm [DecidableEq α] {t : Table α β} {key : α} {value : β}
    (found : t.get? key = some value) : t.keys.Perm (key :: (t.erase key).keys) :=
  (entries_erase_perm found).map Prod.fst

variable [Std.TransOrd α]

theorem keys_insert_perm [DecidableEq α] {t : Table α β} {key : α} (absent : t.get? key = none)
    (value : β) : (t.insert key value).keys.Perm (key :: t.keys) :=
  (entries_insert_perm absent value).map Prod.fst

theorem keys_replace_perm [DecidableEq α] {t : Table α β} {key : α} {value : β}
    (found : t.get? key = some value) (other : β) : (t.insert key other).keys.Perm t.keys := by
  refine (List.perm_ext_iff_of_nodup (t.insert key other).nodup_keys t.nodup_keys).2 fun k => ?_
  simp only [mem_keys_iff, get?_insert]
  by_cases same : k = key
  · simp [same, found]
  · simp [same]

end Table

namespace Coordinator

/-! ## From call to call -/

def follow (c : Coordinator) : Event → Coordinator
  | .began _ => c.begin.2
  | .checked tx changes _ => (c.canCommit tx changes).2
  | .tried tx _ => (c.commit tx).2
  | .aborted tx => c.abort tx
  | .invalidated tx => c.invalidate tx

theorem take_follow (c : Coordinator) (call : Call) : (c.take call).2 = c.follow (c.take call).1 := by
  cases call <;> rfl

inductive Course : Coordinator → History → Coordinator → Prop where
  | done (c : Coordinator) : Course c [] c
  | call {c last : Coordinator} {h : History} (call : Call) (rest : Course (c.take call).2 h last) :
      Course c ((c.take call).1 :: h) last

namespace Course

variable {c mid last : Coordinator} {h more : History}

theorem one (c : Coordinator) (call : Call) : Course c [(c.take call).1] (c.take call).2 :=
  .call call (.done _)

theorem last_eq (course : Course c h last) : last = h.foldl follow c := by
  induction course with
  | done c => rfl
  | call call _ ih =>
      rw [ih, List.foldl_cons, take_follow]

theorem checked {tx : Transaction} {changes : List Change} {answer : Except Fault Bool}
    (course : Course c (.checked tx changes answer :: h) last) :
    (c.canCommit tx changes).1 = answer := by
  generalize same : Event.checked tx changes answer :: h = all at course
  cases course with
  | done => cases same
  | call call rest =>
      have first := (List.cons.inj same).1
      cases call <;> cases first
      rfl

theorem tried {tx : Transaction} {answer : Except Fault Bool}
    (course : Course c (.tried tx answer :: h) last) : (c.commit tx).1 = answer := by
  generalize same : Event.tried tx answer :: h = all at course
  cases course with
  | done => cases same
  | call call rest =>
      have first := (List.cons.inj same).1
      cases call <;> cases first
      rfl

theorem tail {e : Event} (course : Course c (e :: h) last) : Course (c.follow e) h last := by
  generalize same : e :: h = all at course
  cases course with
  | done => cases same
  | call call rest =>
      obtain ⟨rfl, rfl⟩ := List.cons.inj same
      rwa [take_follow] at rest

theorem append (first : Course c h mid) (rest : Course mid more last) :
    Course c (h ++ more) last := by
  induction first with
  | done c => exact rest
  | call call _ ih => exact .call call (ih rest)

end Course

/-- A coordinator with the history that has led to it. -/
def Ruled (h : History) (c : Coordinator) : Prop := ∃ calls, replay take calls = (h, c)

theorem ruled_new : Ruled [] {} := ⟨[], rfl⟩

namespace Ruled

variable {h more : History} {c last : Coordinator}

theorem take (ruled : Ruled h c) (call : Call) : Ruled (h ++ [(c.take call).1]) (c.take call).2 := by
  obtain ⟨calls, same⟩ := ruled
  refine ⟨calls ++ [call], ?_⟩
  rw [replay_append_singleton, same]

theorem course (ruled : Ruled h c) (course : Course c more last) : Ruled (h ++ more) last := by
  induction course generalizing h with
  | done c => simpa using ruled
  | call call _ ih =>
      have after := ih (ruled.take call)
      rwa [List.append_assoc] at after

theorem kept (ruled : Ruled h c) : ∃ kept, Tells h kept ∧ Bounded kept ∧ c = kept.shed := by
  obtain ⟨calls, same⟩ := ruled
  rw [replay_take] at same
  obtain ⟨rfl, rfl⟩ := Prod.mk.inj same
  exact ⟨_, tells_replay calls, bounded_replay calls, rfl⟩

theorem flying_iff (ruled : Ruled h c) {id : Nat} :
    h.flying id = true ↔ ∃ entry, c.inFlight.get? id = some entry := by
  obtain ⟨kept, tells, -, rfl⟩ := ruled.kept
  constructor
  · intro begun
    cases found : kept.inFlight.get? id with
    | none => rw [tells.missing found] at begun; contradiction
    | some entry => exact ⟨entry, found⟩
  · rintro ⟨entry, found⟩
    exact (tells.found found).1

theorem fresh (ruled : Ruled h c) : c.inFlight.get? (c.lastId + 1) = none := by
  obtain ⟨kept, -, bounded, rfl⟩ := ruled.kept
  cases found : kept.shed.inFlight.get? (kept.shed.lastId + 1) with
  | none => rfl
  | some entry =>
      have small : kept.shed.lastId + 1 ≤ kept.lastId := (bounded.entries found).1
      exact absurd small (Nat.not_succ_le_self _)

theorem unborn (ruled : Ruled h c) : h.since (c.lastId + 1) = [] := by
  obtain ⟨kept, tells, -, rfl⟩ := ruled.kept
  exact (tells.unborn _ (Nat.lt_succ_self _)).1

theorem recorded_winner {id : Nat} (ruled : Ruled h c) (course : Course c more last)
    (won : id ∈ h.winners) : (h ++ more).recorded id = h.recorded id := by
  induction course generalizing h with
  | done c => rw [List.append_nil]
  | @call c last more call _ ih =>
      have first : (h ++ [(c.take call).1]).recorded id = h.recorded id := by
        obtain ⟨calls, same⟩ := ruled
        have next := replay_append_singleton Coordinator.take calls call
        rw [same, replay_take, replay_append_singleton] at next
        rw [replay_take] at same
        obtain ⟨rfl, -⟩ := Prod.mk.inj same
        have event := (List.append_inj' (Prod.mk.inj next).1 rfl).2
        rw [← event]
        exact (tells_replay calls).recorded_winner (keep_moves _ call) won
      have stays : id ∈ (h ++ [(c.take call).1]).winners := by
        rw [History.winners_append_singleton]
        exact List.mem_append_left _ won
      rw [← first, ← ih (ruled.take call) stays, List.append_assoc]
      rfl

theorem canCommit_answer (ruled : Ruled h c) (tx : Transaction) (changes : List Change) :
    (c.canCommit tx changes).1 =
      if h.flying tx.id then .ok (!h.conflicts tx.id changes)
      else .error (notInProgress tx.id) := by
  obtain ⟨kept, tells, -, rfl⟩ := ruled.kept
  exact tells.canCommit_answer tx changes

theorem retained_nil (ruled : Ruled h c) (idle : c.inFlight.keys = []) : c.retained = [] := by
  obtain ⟨kept, -, -, rfl⟩ := ruled.kept
  have none : kept.inFlight.values = [] := by
    rw [Table.values, List.map_eq_nil_iff]
    exact List.map_eq_nil_iff.1 idle
  refine List.filter_eq_nil_iff.2 fun earlier _ => ?_
  simp [visible, none]

end Ruled

/-! ## The sum of the counters -/

/-- Whatever was started is in flight or has been counted under an outcome. -/
def Accounted (c : Coordinator) : Prop :=
  c.started = c.committed + c.aborted + c.invalidated + c.inFlight.size

theorem Accounted.active {c : Coordinator} (accounted : Accounted c) :
    c.active = c.inFlight.size := by
  rw [Coordinator.active, accounted, Nat.add_sub_cancel_left]

theorem size_eq (c : Coordinator) : c.inFlight.size = c.inFlight.keys.length :=
  (List.length_map _).symm

theorem began_accounted {c : Coordinator} (accounted : Accounted c)
    (fresh : c.inFlight.get? (c.lastId + 1) = none) :
    Accounted c.begin.2 ∧ c.begin.2.inFlight.keys.Perm (c.begin.1.id :: c.inFlight.keys) := by
  have keys := Table.keys_insert_perm fresh (⟨c.version, []⟩ : InFlight)
  have size := keys.length_eq
  rw [List.length_cons, ← size_eq] at size
  refine ⟨?_, keys⟩
  have same : c.begin.2.inFlight.size = c.inFlight.size + 1 :=
    (List.length_map _).symm.trans size
  rw [Accounted, same]
  rw [Accounted] at accounted
  simp only [begin]
  omega

/-- A coordinator with one transaction less in flight, and counted once more. -/
structure Landed (id : Nat) (c last : Coordinator) : Prop where
  keys : c.inFlight.keys.Perm (id :: last.inFlight.keys)
  started : last.started = c.started
  counted : last.committed + last.aborted + last.invalidated =
    c.committed + c.aborted + c.invalidated + 1

structure Alike (c last : Coordinator) : Prop where
  keys : last.inFlight.keys.Perm c.inFlight.keys
  started : last.started = c.started
  counted : last.committed + last.aborted + last.invalidated =
    c.committed + c.aborted + c.invalidated

theorem Landed.accounted {id : Nat} {c last : Coordinator} (landed : Landed id c last)
    (accounted : Accounted c) : Accounted last := by
  have size := landed.keys.length_eq
  rw [List.length_cons, ← size_eq, ← size_eq] at size
  rw [Accounted] at accounted ⊢
  have started := landed.started
  have counted := landed.counted
  omega

theorem Alike.landed {id : Nat} {c mid last : Coordinator} (alike : Alike c mid)
    (landed : Landed id mid last) : Landed id c last where
  keys := alike.keys.symm.trans landed.keys
  started := landed.started.trans alike.started
  counted := by rw [landed.counted, alike.counted]

theorem canCommit_alike (c : Coordinator) (tx : Transaction) (changes : List Change) :
    Alike c (c.canCommit tx changes).2 := by
  cases found : c.inFlight.get? tx.id with
  | none =>
      rw [canCommit_absent found]
      exact ⟨.rfl, rfl, rfl⟩
  | some entry =>
      cases clash : c.conflicts entry.readPointer changes with
      | true =>
          rw [canCommit_clash found clash]
          exact ⟨.rfl, rfl, rfl⟩
      | false =>
          rw [canCommit_clear found clash]
          exact ⟨Table.keys_replace_perm found _, rfl, rfl⟩

section Settling

variable {c : Coordinator} {tx : Transaction} {entry : InFlight}
  (found : c.inFlight.get? tx.id = some entry)

include found

theorem abort_landed : Landed tx.id c (c.abort tx) := by
  refine ⟨?_, ?_, ?_⟩
  · simpa [abort, settle_eq] using Table.keys_erase_perm found
  · simp [abort, settle_eq]
  · simp only [abort, settle_eq]
    omega

theorem invalidate_landed : Landed tx.id c (c.invalidate tx) := by
  refine ⟨?_, ?_, ?_⟩
  · simpa [invalidate, settle_eq] using Table.keys_erase_perm found
  · simp [invalidate, settle_eq]
  · simp only [invalidate, settle_eq]
    omega

theorem commit_landed (clear : c.conflicts entry.readPointer entry.changes = false) :
    Landed tx.id c (c.commit tx).2 := by
  rw [commit_clear found clear]
  refine ⟨?_, ?_, ?_⟩
  · simpa [settle_eq] using Table.keys_erase_perm found
  · simp [settle_eq]
  · simp only [settle_eq]
    omega

theorem commit_of_canCommit {changes : List Change}
    (passed : (c.canCommit tx changes).1 = .ok true) :
    let checked := (c.canCommit tx changes).2
    (checked.commit tx).1 = .ok true ∧ Landed tx.id checked (checked.commit tx).2 := by
  cases clash : c.conflicts entry.readPointer changes with
  | true =>
      rw [canCommit_clash found clash] at passed
      cases passed
  | false =>
      rw [canCommit_clear found clash]
      intro checked
      have present : checked.inFlight.get? tx.id = some { entry with changes } := by
        simp [checked]
      have clear : checked.conflicts entry.readPointer changes = false := clash
      exact ⟨by rw [commit_clear present clear], commit_landed present clear⟩

end Settling

end Coordinator

end DatasetCache
