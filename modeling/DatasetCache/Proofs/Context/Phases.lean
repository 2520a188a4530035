import DatasetCache.Proofs.Context.Settlement

/-!
# A finish has two phases

The calls of a finish are fixed by the participants that are enrolled and by the answers so
far.  `TwoPhase` lists them; here they are counted, and read off the minutes.
-/

namespace DatasetCache

open Act Context

variable {ε : Type}

def receivers (callback : Callback) (occurrences : List Occurrence) : List InstanceId :=
  ((heard occurrences).filter (·.2 = callback)).map Prod.fst

@[simp] theorem receivers_append (callback : Callback) (occurrences more : List Occurrence) :
    receivers callback (occurrences ++ more) =
      receivers callback occurrences ++ receivers callback more := by
  simp [receivers]

@[simp] theorem receivers_nil (callback : Callback) : receivers callback [] = [] := rfl

@[simp] theorem receivers_coordinated (callback : Callback) (event : Coordinator.Event)
    (more : List Occurrence) :
    receivers callback (.coordinated event :: more) = receivers callback more := rfl

section Reading

variable {ps : List Participant} {tx : Transaction} {callback : Callback}
  {occurrences : List Occurrence}

theorem Sweep.receivers (sweep : Sweep ps callback occurrences) (other : Callback) :
    receivers other occurrences = if callback = other then ps.map (·.id) else [] := by
  rw [DatasetCache.receivers, sweep.heard, List.filter_map]
  by_cases same : callback = other
  · rw [if_pos same, List.filter_eq_self.2 (by simp [same])]
    simp [Function.comp_def]
  · simp [same, Function.comp_def]

theorem receivers_withdrawal (tx : Transaction) (rolls : List (Participant × Except Fault Bool))
    (callback : Callback) : receivers callback (withdrawal tx rolls) =
      if .rollback = callback then (rolls.map Prod.fst).map (·.id) else [] := by
  have sweep := Sweep.round .rolledBack (fun _ _ => rfl) rolls
  rw [withdrawal, receivers_append, sweep.receivers, receivers_coordinated, receivers_nil,
    List.append_nil]

theorem Setback.receivers {changes : List Change} {done : List Occurrence} {reason : String}
    {fault : Fault} (setback : Setback ps tx changes done reason fault)
    (other : callback ≠ .persist) : receivers callback done = [] := by
  have persisted : ∀ qs : List Participant,
      DatasetCache.receivers callback (each (.persisted · (.ok true)) qs) = [] := by
    intro qs
    rw [(Sweep.each _ (fun _ => rfl) qs).receivers, if_neg (Ne.symm other)]
  cases setback with
  | conflict => rfl
  | unchecked => rfl
  | @refused before after p answer split refuses =>
      have last : DatasetCache.receivers callback [.persisted p.id answer] = [] := by
        simp [DatasetCache.receivers, heard, Occurrence.heard?, Ne.symm other]
      simp [persisted, last]
  | outrun => simp [persisted]
  | broken fault => simp [persisted]

/-- Either all participants are told of the commit and nobody is rolled back, or all are
rolled back and nobody is told. -/
inductive AllOrNothing (ps : List Participant) (calls : List Occurrence) :
    Except Fault Unit → Status → Prop where
  | all (told : receivers .confirm calls = ps.map (·.id)) (kept : receivers .rollback calls = []) :
      AllOrNothing ps calls (.ok ()) .committed
  | nothing {fault : Fault} {reason : String} (untold : receivers .confirm calls = [])
      (undone : receivers .rollback calls = ps.map (·.id)) :
      AllOrNothing ps calls (.error fault) (.aborted reason)

theorem TwoPhase.allOrNothing {calls : List Occurrence} {answer : Except Fault Unit}
    {status : Status} (phases : TwoPhase ps tx calls answer status) :
    AllOrNothing ps calls answer status := by
  have telling := fun tells => Sweep.round .told (fun _ _ => rfl) tells
  cases phases with
  | @kept tells told =>
      have persisted := Sweep.each (.persisted · (.ok true)) (fun _ => rfl) ps
      have confirmed := Sweep.each .confirmed (fun _ => rfl) ps
      refine .all ?_ ?_ <;>
        simp [(telling tells).receivers, persisted.receivers, confirmed.receivers]
  | @undone tells done reason fault rolls told setback rolled =>
      refine .nothing ?_ ?_ <;>
        simp [(telling tells).receivers, setback.receivers, receivers_withdrawal, rolled]

end Reading

/-- **All or nothing, in two phases.** Whatever the participants and the coordinator answer,
a finish makes the calls that `TwoPhase` lists, gives that answer and leaves the context in
that status, out of the transaction and otherwise as it was. -/
theorem finish_is_two_phase (base : Services (StateM ε)) (c : ContextId) (w : World (Minutes ε))
    (tx : Transaction) (current : (w.context c).current = some tx) :
    let finished := Context.finish base.minuted c w
    ∃ calls status, TwoPhase (w.context c).participants tx calls finished.1 status ∧
      finished.2.outside.occurrences = w.outside.occurrences ++ calls ∧
      finished.2.contexts = w.contexts.modify c (leave status) ∧
      AllOrNothing (w.context c).participants calls finished.1 status := by
  obtain ⟨calls, status, phases, told⟩ := (minuted_tells base).finishes current
  exact ⟨calls, status, phases, told.occurrences, told.contexts, phases.allOrNothing⟩

def Services.discordant : Services (StateM Nat) :=
  { Services.willing fun _ => none with
    persist := fun p => pure (.ok (p.id == 1))
    rollback := fun p => pure (.ok (p.id == 2)) }

def World.twoInTransaction : World (Minutes Nat) where
  contexts :=
    [{ coordinator := 0
       participants := [{ id := 1, name := "left" }, { id := 2, name := "right" }]
       current := some ⟨1, 0⟩
       status := .active }]
  outside := { inner := 0 }

theorem finish_is_two_phase_discordant :
    let finished := Context.finish Services.discordant.minuted 0 World.twoInTransaction
    finished.1 = .error (.transactionFailure 1 "unable to roll back: left") ∧
      (finished.2.context 0).status = .aborted "participant 'right' refused to persist" ∧
      ∃ calls status, finished.2.outside.occurrences = calls ∧
        TwoPhase (World.twoInTransaction.context 0).participants ⟨1, 0⟩ calls finished.1 status := by
  intro finished
  obtain ⟨calls, status, phases, occurrences, -, -⟩ :=
    finish_is_two_phase Services.discordant 0 World.twoInTransaction ⟨1, 0⟩ rfl
  exact ⟨by rfl, by rfl, calls, status, occurrences, phases⟩

end DatasetCache
