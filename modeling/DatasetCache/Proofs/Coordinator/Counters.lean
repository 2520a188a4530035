import DatasetCache.Proofs.Coordinator.Retention

/-!
# Counters

The counters follow the calls.  A begin and a commit are counted with the transaction they
are about.  An abort or an invalidation is counted in any case, also of a transaction that
is not in flight; such a call is in vain, and each of them takes one from the number of
transactions that count as active.
-/

namespace DatasetCache.Coordinator

/-- Whether the event ends a transaction that was not in flight before. -/
def Event.vain (past : History) : Event → Bool
  | .aborted tx => !past.flying tx.id
  | .invalidated tx => !past.flying tx.id
  | _ => false

namespace History

def vainSince (past : History) : History → Nat
  | [] => 0
  | e :: rest => (e.vain past).toNat + vainSince (past ++ [e]) rest

def vain (h : History) : Nat := vainSince [] h

theorem vainSince_append_singleton (past h : History) (e : Event) :
    vainSince past (h ++ [e]) = vainSince past h + (e.vain (past ++ h)).toNat := by
  induction h generalizing past with
  | nil => simp [vainSince]
  | cons first rest ih =>
      rw [List.cons_append, vainSince, vainSince, ih]
      simp [Nat.add_assoc]

theorem vain_append_singleton (h : History) (e : Event) :
    vain (h ++ [e]) = vain h + (e.vain h).toNat :=
  vainSince_append_singleton [] h e

end History

open History

/-! ## One call -/

/-- What the counters and the number in flight are to be after an event. -/
structure Counts (past : History) (c : Coordinator) (e : Event) (next : Coordinator) : Prop where
  started : next.started = c.started + e.begun?.toList.length
  committed : next.committed = c.committed + e.winner?.toList.length
  balance : next.started + (e.vain past).toNat +
      (c.committed + c.aborted + c.invalidated + c.inFlight.size) =
    c.started + (next.committed + next.aborted + next.invalidated + next.inFlight.size)

section

variable {past : History} {c next : Coordinator} {e : Event} {id : Nat}

theorem Alike.counts (alike : Alike c next) (committed : next.committed = c.committed)
    (begins : e.begun? = none) (wins : e.winner? = none) (useful : e.vain past = false) :
    Counts past c e next := by
  have size := alike.keys.length_eq
  rw [← size_eq, ← size_eq] at size
  have started := alike.started
  have counted := alike.counted
  constructor
  · simp [begins, started]
  · simp [wins, committed]
  · rw [useful, Bool.toNat_false]
    omega

theorem size_erase (absent : c.inFlight.get? id = none) :
    (c.inFlight.erase id).size = c.inFlight.size := by
  have stays : c.inFlight.erase id = c.inFlight := by
    apply Table.ext
    apply List.filter_eq_self.2
    intro entry member
    have found := Table.get?_of_mem member
    have other : id ≠ entry.1 := by
      rintro rfl
      rw [absent] at found
      cases found
    simp [other]
  rw [stays]

namespace Ruled

theorem absent (ruled : Ruled past c) (landed : past.flying id = false) :
    c.inFlight.get? id = none := by
  apply Option.eq_none_iff_forall_ne_some.2
  intro entry found
  rw [ruled.flying_iff.2 ⟨entry, found⟩] at landed
  cases landed

theorem begin_counts (ruled : Ruled past c) : Counts past c (.began c.begin.1) c.begin.2 := by
  have size := (Table.keys_insert_perm ruled.fresh (⟨c.version, []⟩ : InFlight)).length_eq
  rw [List.length_cons, ← size_eq] at size
  have one : c.begin.2.inFlight.size = c.inFlight.size + 1 :=
    (List.length_map _).symm.trans size
  constructor
  · rfl
  · rfl
  · rw [one]
    simp only [begin, Event.vain, Bool.toNat_false]
    omega

private theorem over_counts (ruled : Ruled past c) (id : Nat) (begins : e.begun? = none)
    (vain : e.vain past = !past.flying id) (left : next.inFlight = c.inFlight.erase id)
    (started : next.started = c.started)
    (committed : next.committed = c.committed + e.winner?.toList.length)
    (counted : next.committed + next.aborted + next.invalidated =
      c.committed + c.aborted + c.invalidated + 1) : Counts past c e next := by
  constructor
  · simp [begins, started]
  · exact committed
  · rw [vain, left]
    cases flying : past.flying id with
    | true =>
        obtain ⟨entry, found⟩ := ruled.flying_iff.1 flying
        have size := (Table.entries_erase_perm found).length_eq
        rw [List.length_cons] at size
        simp only [Table.size, Bool.not_true, Bool.toNat_false]
        omega
    | false =>
        -- There is nothing to take out, but the call is counted all the same.
        rw [size_erase (ruled.absent flying), Bool.not_false, Bool.toNat_true]
        omega

theorem canCommit_counts (past : History) (c : Coordinator) (tx : Transaction)
    (changes : List Change) :
    Counts past c (.checked tx changes (c.canCommit tx changes).1) (c.canCommit tx changes).2 := by
  apply (canCommit_alike c tx changes).counts _ rfl rfl rfl
  rw [canCommit]
  split
  · rfl
  · split <;> rfl

theorem commit_counts (ruled : Ruled past c) (tx : Transaction) :
    Counts past c (.tried tx (c.commit tx).1) (c.commit tx).2 := by
  have same : Alike c c := ⟨.rfl, rfl, rfl⟩
  cases found : c.inFlight.get? tx.id with
  | none =>
      rw [commit_absent found]
      exact same.counts rfl rfl rfl rfl
  | some entry =>
      cases clash : c.conflicts entry.readPointer entry.changes with
      | true =>
          rw [commit_clash found clash]
          exact same.counts rfl rfl rfl rfl
      | false =>
          have flying := ruled.flying_iff.2 ⟨entry, found⟩
          rw [commit_clear found clash]
          apply ruled.over_counts tx.id rfl
          · simp [Event.vain, flying]
          · simp [settle_eq]
          · simp [settle_eq]
          · simp [Event.winner?]
          · simp only [settle_eq]
            omega

theorem abort_counts (ruled : Ruled past c) (tx : Transaction) :
    Counts past c (.aborted tx) (c.abort tx) := by
  apply ruled.over_counts tx.id rfl rfl
  · simp [abort, settle_eq]
  · simp [abort, settle_eq]
  · simp [abort, settle_eq, Event.winner?]
  · simp only [abort, settle_eq]
    omega

theorem invalidate_counts (ruled : Ruled past c) (tx : Transaction) :
    Counts past c (.invalidated tx) (c.invalidate tx) := by
  apply ruled.over_counts tx.id rfl rfl
  · simp [invalidate, settle_eq]
  · simp [invalidate, settle_eq]
  · simp [invalidate, settle_eq, Event.winner?]
  · simp only [invalidate, settle_eq]
    omega

theorem counts (ruled : Ruled past c) (call : Call) :
    Counts past c (c.take call).1 (c.take call).2 := by
  cases call with
  | begin => exact ruled.begin_counts
  | canCommit tx changes => exact canCommit_counts past c tx changes
  | commit tx => exact ruled.commit_counts tx
  | abort tx => exact ruled.abort_counts tx
  | invalidate tx => exact ruled.invalidate_counts tx

end Ruled

end

/-! ## All calls -/

structure Tallied (h : History) (c : Coordinator) : Prop where
  started : c.started = h.begun.length
  committed : c.committed = h.winners.length
  balance : c.started + h.vain = c.committed + c.aborted + c.invalidated + c.inFlight.size

theorem Tallied.step {h : History} {c next : Coordinator} {e : Event} (tallied : Tallied h c)
    (counts : Counts h c e next) : Tallied (h ++ [e]) next := by
  have started := counts.started
  have committed := counts.committed
  have balance := counts.balance
  constructor
  · rw [begun_append_singleton, List.length_append, ← tallied.started, started]
  · rw [winners_append_singleton, List.length_append, ← tallied.committed, committed]
  · rw [vain_append_singleton]
    have before := tallied.balance
    omega

theorem tallied_after (calls : List Call) : Tallied (history calls) (after calls) := by
  induction calls using List.reverseRecOn with
  | nil => exact ⟨rfl, rfl, rfl⟩
  | append_singleton calls call ih =>
      rw [history_append_singleton, after_append_singleton]
      have ruled : Ruled (history calls) (after calls) := ⟨calls, rfl⟩
      exact ih.step (ruled.counts call)

theorem size_after (calls : List Call) :
    (after calls).inFlight.size = (history calls).aloft.length := by
  rw [size_eq]
  apply List.Perm.length_eq
  have distinct : (history calls).aloft.Nodup := (begun_nodup calls).filter _
  apply (List.perm_ext_iff_of_nodup (after calls).inFlight.nodup_keys distinct).2
  intro id
  rw [aloft_iff, Table.mem_keys_iff]

/-- **What the counters count.** After any calls as many transactions are counted as
started and as committed as have begun and have won.  Aborts and invalidations are counted
as calls: each one in vain is counted under an outcome although no transaction has ended,
and takes one transaction in flight off the active ones.  So the active transactions are
those in flight, and the counters add up to the number started, exactly if no call was in
vain. -/
theorem metrics_exact_iff (calls : List Call) :
    (after calls).started = (history calls).begun.length ∧
    (after calls).committed = (history calls).winners.length ∧
    (after calls).started + (history calls).vain =
      (after calls).committed + (after calls).aborted + (after calls).invalidated +
        (history calls).aloft.length ∧
    (after calls).active = (history calls).aloft.length - (history calls).vain ∧
    ((after calls).active = (history calls).aloft.length ∧
        (after calls).started =
          (after calls).committed + (after calls).aborted + (after calls).invalidated +
            (after calls).active ↔
      (history calls).vain = 0) := by
  have tallied := tallied_after calls
  have balance := tallied.balance
  rw [size_after] at balance
  have active : (after calls).active = (history calls).aloft.length - (history calls).vain := by
    rw [Coordinator.active]
    omega
  refine ⟨tallied.started, tallied.committed, balance, active, ?_⟩
  rw [active]
  omega

/-- An abort of a transaction that nobody has started hides the one in flight. -/
theorem vain_abort_hides_flight :
    let calls := [Call.begin, .abort ⟨42, 0⟩]
    (history calls).aloft = [1] ∧ (after calls).active = 0 ∧ (after calls).started = 1 ∧
      (after calls).aborted = 1 := by
  decide

end DatasetCache.Coordinator
