import Mathlib.Data.List.TakeWhile
import DatasetCache.Proofs.Coordinator.Pruning

/-!
# The first committer wins

The answers of a coordinator are those that its history alone calls for.  The
invariant is stated for the coordinator that keeps every change set: the sets
behind the read pointer of a transaction in flight are, one by one, the recorded
sets of the transactions that have committed since it began.
-/

namespace DatasetCache.Coordinator

/-! ## Histories by one event -/

namespace History

variable {h : History} {e : Event} {id : Nat}

theorem flying_append_singleton (other : e.begins id = false) :
    flying (h ++ [e]) id = (flying h id && !e.settles id) := by
  rw [flying, flying, since_of_not_begins other]
  cases (since h id).isEmpty <;> simp

theorem since_of_flying (begun : flying h id = true) :
    since (h ++ [e]) id = since h id ++ [e] := by
  apply since_of_nonempty
  rw [flying, Bool.and_eq_true] at begun
  simpa using begun.1

theorem winners_since_append (begun : flying h id = true) :
    winners (since (h ++ [e]) id) = winners (since h id) ++ e.winner?.toList := by
  rw [since_of_flying begun, winners_append_singleton]

theorem mem_winners_of_since {winner : Nat} (member : winner ∈ winners (since h id)) :
    winner ∈ winners h :=
  ((List.dropWhile_sublist _).filterMap _).subset member

end History

open History

/-- What a history tells about the coordinator that keeps every change set. -/
structure Tells (h : History) (c : Coordinator) : Prop where
  unborn : ∀ id, c.lastId < id → since h id = [] ∧ recorded h id = []
  found : ∀ {id entry}, c.inFlight.get? id = some entry →
    flying h id = true ∧ entry.changes = recorded h id ∧
    (c.retained.filter (entry.readPointer < ·.version)).map (·.changes) =
      (winners (since h id)).map (recorded h)
  missing : ∀ {id}, c.inFlight.get? id = none → flying h id = false
  won : ∀ {id}, id ∈ winners h → id ≤ c.lastId ∧ c.inFlight.get? id = none

theorem tells_new : Tells [] {} := by
  constructor <;> simp [since, recorded, winners, flying]

namespace Tells

variable {h : History} {c next : Coordinator}

private theorem quiet {e : Event} (t : Tells h c)
    (begins : ∀ id, e.begins id = false) (accepted : ∀ id, e.accepted? id = none)
    (winner : e.winner? = none) (lastId : next.lastId = c.lastId)
    (retained : next.retained = c.retained)
    (left : ∀ id, next.inFlight.get? id =
      if e.settles id then none else c.inFlight.get? id) :
    Tells (h ++ [e]) next := by
  have same : recorded (h ++ [e]) = recorded h := by
    funext id
    rw [recorded_append_singleton, accepted id, Option.getD_none]
  refine ⟨fun id above => ?_, fun {id entry} found => ?_, fun {id} missing => ?_,
    fun {id} member => ?_⟩
  · have none := t.unborn id (lastId ▸ above)
    simp [since_of_not_begins (begins id), same, none]
  · rw [left id] at found
    split at found
    · contradiction
    next stays =>
        obtain ⟨begun, changes, since⟩ := t.found found
        refine ⟨?_, same ▸ changes, ?_⟩
        · simpa [flying_append_singleton (begins id), begun] using stays
        · rw [retained, winners_since_append begun, winner, same, since]
          simp
  · rw [flying_append_singleton (begins id)]
    rw [left id] at missing
    split at missing
    next settled => simp [settled]
    next => simp [t.missing missing]
  · rw [winners_append_singleton, winner, Option.toList_none, List.append_nil] at member
    have past := t.won member
    rw [lastId, left id, past.2]
    exact ⟨past.1, by simp⟩

private theorem began (t : Tells h c) (bounded : Bounded c) :
    Tells (h ++ [.began ⟨c.lastId + 1, c.version⟩])
      { c with
        lastId := c.lastId + 1
        inFlight := c.inFlight.insert (c.lastId + 1) ⟨c.version, []⟩
        started := c.started + 1 } := by
  have same : recorded (h ++ [.began ⟨c.lastId + 1, c.version⟩]) = recorded h := by
    funext id
    simp [recorded_append_singleton, Event.accepted?]
  have other : ∀ {id}, id ≠ c.lastId + 1 →
      (Event.began ⟨c.lastId + 1, c.version⟩).begins id = false := by
    intro id different
    simpa [Event.begins] using different.symm
  refine ⟨fun id above => ?_, fun {id entry} found => ?_, fun {id} missing => ?_,
    fun {id} member => ?_⟩
  · dsimp only at above
    have none := t.unborn id (by omega)
    have different : id ≠ c.lastId + 1 := by omega
    simp [since_of_not_begins (other different), same, none]
  · rw [Table.get?_insert] at found
    split at found
    next new =>
        subst new
        cases found
        have none := t.unborn (c.lastId + 1) (Nat.lt_succ_self _)
        have nothing : c.retained.filter (c.version < ·.version) = [] := by
          apply List.filter_eq_nil_iff.2
          intro earlier member
          have := bounded.versions member
          simp
          omega
        have alone : since (h ++ [.began ⟨c.lastId + 1, c.version⟩]) (c.lastId + 1) =
            [.began ⟨c.lastId + 1, c.version⟩] := by
          simp [since_append_singleton, none, Event.begins]
        refine ⟨by simp [flying, alone, Event.settles], by simp [same, none], ?_⟩
        simp only [nothing, alone]
        rfl
    next old =>
        obtain ⟨begun, changes, since⟩ := t.found found
        refine ⟨?_, same ▸ changes, ?_⟩
        · simp [flying_append_singleton (other old), begun, Event.settles]
        · rw [winners_since_append begun, same, since]
          simp [Event.winner?]
  · rw [Table.get?_insert] at missing
    split at missing
    · contradiction
    next old => simp [flying_append_singleton (other old), t.missing missing]
  · simp only [winners_append_singleton, Event.winner?, Option.toList_none,
      List.append_nil] at member
    obtain ⟨small, gone⟩ := t.won member
    refine ⟨Nat.le_succ_of_le small, ?_⟩
    have old : id ≠ c.lastId + 1 := by omega
    simp [old, gone]

private theorem accepted (t : Tells h c) (bounded : Bounded c) {tx : Transaction}
    {changes : List Change} {entry : InFlight}
    (present : c.inFlight.get? tx.id = some entry) :
    Tells (h ++ [.checked tx changes (.ok true)])
      { c with inFlight := c.inFlight.insert tx.id { entry with changes } } := by
  have begins : ∀ id, (Event.checked tx changes (.ok true)).begins id = false := fun _ => rfl
  have recorded' : ∀ id, recorded (h ++ [.checked tx changes (.ok true)]) id =
      if tx.id = id then changes else recorded h id := by
    intro id
    rw [recorded_append_singleton, Event.accepted?]
    split <;> rfl
  -- whoever has committed is in flight no more, so the check was not for them
  have unaffected : ∀ {id}, flying h id = true →
      (winners (since h id)).map (recorded (h ++ [.checked tx changes (.ok true)])) =
        (winners (since h id)).map (recorded h) := by
    intro id begun
    apply List.map_congr_left
    intro winner member
    have gone := (t.won (mem_winners_of_since member)).2
    have different : tx.id ≠ winner := by
      intro same
      rw [same, gone] at present
      contradiction
    simp [recorded', different]
  refine ⟨fun id above => ?_, fun {id other} found => ?_, fun {id} missing => ?_,
    fun {id} member => ?_⟩
  · have none := t.unborn id above
    have small := (bounded.entries present).1
    have different : tx.id ≠ id := by
      dsimp only at above
      omega
    simp [since_of_not_begins (begins id), recorded', different, none]
  · have step : ∀ {old : InFlight}, c.inFlight.get? id = some old →
        flying (h ++ [.checked tx changes (.ok true)]) id = true ∧
        (c.retained.filter (old.readPointer < ·.version)).map (·.changes) =
          (winners (since (h ++ [.checked tx changes (.ok true)]) id)).map
            (recorded (h ++ [.checked tx changes (.ok true)])) := by
      intro old found
      obtain ⟨begun, -, since⟩ := t.found found
      refine ⟨?_, ?_⟩
      · simp [flying_append_singleton (begins id), begun, Event.settles]
      · rw [winners_since_append begun, List.map_append, unaffected begun, since]
        simp [Event.winner?]
    rw [Table.get?_insert] at found
    split at found
    next same =>
        cases found
        have entered := step (same ▸ present)
        exact ⟨entered.1, by simp [recorded', same], entered.2⟩
    next different =>
        have entered := step found
        refine ⟨entered.1, ?_, entered.2⟩
        simpa [recorded', Ne.symm different] using (t.found found).2.1
  · rw [Table.get?_insert] at missing
    split at missing
    · contradiction
    · simp [flying_append_singleton (begins id), t.missing missing]
  · simp only [winners_append_singleton, Event.winner?, Option.toList_none,
      List.append_nil] at member
    obtain ⟨small, gone⟩ := t.won member
    refine ⟨small, ?_⟩
    have different : id ≠ tx.id := by
      intro same
      rw [← same, gone] at present
      contradiction
    simp [different, gone]

private theorem committed (t : Tells h c) (bounded : Bounded c) {tx : Transaction}
    {entry : InFlight} (present : c.inFlight.get? tx.id = some entry) :
    Tells (h ++ [.tried tx (.ok true)])
      { c with
        version := c.version + 1
        inFlight := c.inFlight.erase tx.id
        retained := c.retained ++ [⟨c.version + 1, entry.changes⟩]
        committed := c.committed + 1 } := by
  have begins : ∀ id, (Event.tried tx (.ok true)).begins id = false := fun _ => rfl
  have same : recorded (h ++ [.tried tx (.ok true)]) = recorded h := by
    funext id
    simp [recorded_append_singleton, Event.accepted?]
  refine ⟨fun id above => ?_, fun {id other} found => ?_, fun {id} missing => ?_,
    fun {id} member => ?_⟩
  · have none := t.unborn id above
    simp [since_of_not_begins (begins id), same, none]
  · rw [Table.get?_erase] at found
    split at found
    · contradiction
    next different =>
        obtain ⟨begun, changes, since⟩ := t.found found
        refine ⟨?_, same ▸ changes, ?_⟩
        · simp [flying_append_singleton (begins id), begun, Event.settles, Ne.symm different]
        · have later : other.readPointer < c.version + 1 :=
            Nat.lt_succ_of_le (bounded.entries found).2
          rw [winners_since_append begun, same, List.filter_append, List.map_append, since]
          simp [Event.winner?, later, (t.found present).2.1]
  · rw [Table.get?_erase] at missing
    rw [flying_append_singleton (begins id)]
    split at missing
    next settled => simp [Event.settles, settled]
    next => simp [t.missing missing]
  · rw [winners_append_singleton, Event.winner?, Option.toList_some] at member
    rcases List.mem_append.1 member with member | member
    · obtain ⟨small, gone⟩ := t.won member
      exact ⟨small, by simp [gone]⟩
    · rw [List.mem_singleton.1 member]
      exact ⟨(bounded.entries present).1, by simp⟩

theorem moves {e : Event} (t : Tells h c) (bounded : Bounded c) (move : Moves c e next) :
    Tells (h ++ [e]) next := by
  cases move with
  | began => exact t.began bounded
  | accepted tx changes entry present => exact t.accepted bounded present
  | won tx entry present clear => exact t.committed bounded present
  | aborted tx =>
      refine t.quiet (fun _ => rfl) (fun _ => rfl) rfl rfl rfl fun id => ?_
      simp [Event.settles, eq_comm (a := id)]
  | invalidated tx invalid =>
      refine t.quiet (fun _ => rfl) (fun _ => rfl) rfl rfl rfl fun id => ?_
      simp [Event.settles, eq_comm (a := id)]
  | unchecked tx changes answer refused =>
      refine t.quiet (fun _ => rfl) (fun _ => ?_) rfl rfl rfl fun _ => rfl
      cases answer with
      | error fault => rfl
      | ok value => cases value <;> simp [Event.accepted?] at refused ⊢
  | lost tx answer refused =>
      cases answer with
      | error fault => exact t.quiet (fun _ => rfl) (fun _ => rfl) rfl rfl rfl fun _ => rfl
      | ok value =>
          cases value with
          | true => exact absurd rfl refused
          | false => exact t.quiet (fun _ => rfl) (fun _ => rfl) rfl rfl rfl fun _ => rfl

end Tells

theorem tells_replay (calls : List Call) :
    Tells (replay keep calls).1 (replay keep calls).2 := by
  induction calls using List.reverseRecOn with
  | nil => exact tells_new
  | append_singleton calls call ih =>
      rw [replay_append_singleton]
      exact ih.moves (bounded_replay calls) (keep_moves _ call)

/-! ## Answers -/

namespace Tells

variable {h : History} {kept : Coordinator}

theorem conflicts (t : Tells h kept) {id : Nat} {entry : InFlight}
    (found : kept.inFlight.get? id = some entry) (changes : List Change) :
    kept.conflicts entry.readPointer changes = h.conflicts id changes := by
  have behind := (t.found found).2.2
  calc
    kept.conflicts entry.readPointer changes
      = ((kept.retained.filter (entry.readPointer < ·.version)).map (·.changes)).any
          (overlap · changes) := by
        simp [Coordinator.conflicts, List.any_filter, Function.comp_def]
    _ = ((winners (since h id)).map (recorded h)).any (overlap · changes) := by rw [behind]
    _ = h.conflicts id changes := by
        simp [History.conflicts, Function.comp_def]

theorem canCommit_answer (t : Tells h kept) (tx : Transaction) (changes : List Change) :
    (kept.shed.canCommit tx changes).1 =
      if h.flying tx.id then .ok (!h.conflicts tx.id changes)
      else .error (notInProgress tx.id) := by
  cases found : kept.inFlight.get? tx.id with
  | none =>
      rw [canCommit_absent (c := kept.shed) found, t.missing found]
      rfl
  | some entry =>
      have agree : kept.shed.conflicts entry.readPointer changes = h.conflicts tx.id changes :=
        (conflicts_shed found changes).trans (t.conflicts found changes)
      rw [(t.found found).1]
      cases clash : h.conflicts tx.id changes with
      | true =>
          rw [canCommit_clash (c := kept.shed) found (agree.trans clash)]
          rfl
      | false =>
          rw [canCommit_clear (c := kept.shed) found (agree.trans clash)]
          rfl

theorem commit_answer (t : Tells h kept) (tx : Transaction) :
    (kept.shed.commit tx).1 =
      if h.flying tx.id then .ok (!h.conflicts tx.id (h.recorded tx.id))
      else .error (notInProgress tx.id) := by
  cases found : kept.inFlight.get? tx.id with
  | none =>
      rw [commit_absent (c := kept.shed) found, t.missing found]
      rfl
  | some entry =>
      have agree : kept.shed.conflicts entry.readPointer entry.changes =
          h.conflicts tx.id (h.recorded tx.id) := by
        rw [conflicts_shed found, t.conflicts found, (t.found found).2.1]
      rw [(t.found found).1]
      cases clash : h.conflicts tx.id (h.recorded tx.id) with
      | true =>
          rw [commit_clash (c := kept.shed) found (agree.trans clash)]
          rfl
      | false =>
          rw [commit_clear (c := kept.shed) found (agree.trans clash)]
          rfl

theorem absent_of_not_flying (t : Tells h kept) {id : Nat} (landed : h.flying id = false) :
    kept.inFlight.get? id = none := by
  cases found : kept.inFlight.get? id with
  | none => rfl
  | some entry => simp [(t.found found).1] at landed

end Tells

/-! ## Pairs of committers -/

/-- Two transactions that committed one after the other have recorded no common
change, unless the second began after the first had committed. -/
def History.Isolated (h : History) : Prop :=
  ∀ before between after first second,
    h = before ++ .tried first (.ok true) :: between ++ .tried second (.ok true) :: after →
    before.any (·.begins second.id) = true →
    overlap (h.recorded first.id) (h.recorded second.id) = false

theorem mem_winners_since {before between : History} {first : Transaction} {id : Nat}
    (begun : before.any (·.begins id) = true) :
    first.id ∈ winners (since (before ++ .tried first (.ok true) :: between) id) := by
  have some : (since before id).isEmpty = false := by
    rw [← Bool.not_eq_true, List.isEmpty_iff, since, List.dropWhile_eq_nil_iff]
    simpa using begun
  have split : since (before ++ .tried first (.ok true) :: between) id =
      since before id ++ .tried first (.ok true) :: between := by
    rw [since, List.dropWhile_append]
    simp only [since] at some
    simp [some, since]
  simp [split, winners, List.filterMap_append, Event.winner?]

theorem Tells.recorded_winner {h : History} {c next : Coordinator} {e : Event}
    (t : Tells h c) (move : Moves c e next) {id : Nat} (won : id ∈ winners h) :
    recorded (h ++ [e]) id = recorded h id := by
  rw [recorded_append_singleton]
  cases move with
  | accepted tx changes entry present =>
      have different : tx.id ≠ id := by
        intro same
        rw [same, (t.won won).2] at present
        contradiction
      simp [Event.accepted?, different]
  | unchecked tx changes answer refused =>
      cases answer with
      | error fault => rfl
      | ok value => cases value <;> simp [Event.accepted?] at refused ⊢
  | _ => rfl

theorem Tells.isolated {h : History} {c next : Coordinator} {e : Event} (t : Tells h c)
    (past : h.Isolated) (move : Moves c e next) : History.Isolated (h ++ [e]) := by
  intro before between after first second split begun
  rcases List.eq_nil_or_concat after with rfl | ⟨after, last, rfl⟩
  · -- the second commit is the last event
    obtain ⟨rfl, rfl⟩ : h = before ++ .tried first (.ok true) :: between ∧
        e = .tried second (.ok true) := by
      simpa using List.append_inj' split rfl
    cases move with
    | won tx entry found clear =>
        have same : ∀ id, recorded (before ++ .tried first (.ok true) :: between ++
            [.tried second (.ok true)]) id =
            recorded (before ++ .tried first (.ok true) :: between) id := by
          intro id
          rw [recorded_append_singleton]
          rfl
        rw [t.conflicts found, (t.found found).2.1, History.conflicts,
          List.any_eq_false] at clear
        rw [same, same]
        simpa using clear first.id (mem_winners_since begun)
    | lost tx answer refused => exact absurd rfl refused
  · have regrouped : h ++ [e] = (before ++ .tried first (.ok true) :: between ++
        .tried second (.ok true) :: after) ++ [last] := by
      simpa using split
    obtain ⟨rfl, -⟩ := List.append_inj' regrouped rfl
    have firstWon : first.id ∈ winners (before ++ .tried first (.ok true) :: between ++
        .tried second (.ok true) :: after) := by
      simp [winners, List.filterMap_append, Event.winner?]
    have secondWon : second.id ∈ winners (before ++ .tried first (.ok true) :: between ++
        .tried second (.ok true) :: after) := by
      simp [winners, List.filterMap_append, Event.winner?]
    rw [t.recorded_winner move firstWon, t.recorded_winner move secondWon]
    exact past before between after first second rfl begun

theorem isolated_replay (calls : List Call) : (replay keep calls).1.Isolated := by
  induction calls using List.reverseRecOn with
  | nil =>
      intro before between after first second split
      simp [replay] at split
  | append_singleton calls call ih =>
      rw [replay_append_singleton]
      exact (tells_replay calls).isolated ih (keep_moves _ call)

/-- The answers to checks and commits follow from the history alone: a transaction in
flight may commit exactly if nobody who has committed since it began recorded one of
its changes, and one that is not in flight is refused without effect.  So of two
transactions that overlap in time and in changes only one commits, and a coordinator
that dropped no change set would have given the same answers. -/
theorem first_committer_wins (calls : List Call) :
    (∀ tx, ((after calls).commit tx).1 =
      if (history calls).flying tx.id then
        .ok (!(history calls).conflicts tx.id ((history calls).recorded tx.id))
      else .error (notInProgress tx.id)) ∧
    (∀ tx changes, ((after calls).canCommit tx changes).1 =
      if (history calls).flying tx.id then .ok (!(history calls).conflicts tx.id changes)
      else .error (notInProgress tx.id)) ∧
    (∀ tx changes, (history calls).flying tx.id = false →
      ((after calls).commit tx).2 = after calls ∧
      ((after calls).canCommit tx changes).2 = after calls) ∧
    (history calls).Isolated ∧
    history calls = (replay keep calls).1 := by
  have kept := tells_replay calls
  simp only [after, history, replay_take]
  refine ⟨kept.commit_answer, kept.canCommit_answer, ?_, isolated_replay calls, trivial⟩
  intro tx changes landed
  have absent := kept.absent_of_not_flying landed
  rw [commit_absent (c := (replay keep calls).2.shed) absent,
    canCommit_absent (c := (replay keep calls).2.shed) absent]
  exact ⟨rfl, rfl⟩

end DatasetCache.Coordinator
