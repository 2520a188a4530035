import DatasetCache.Proofs.Context.Effects
import DatasetCache.Proofs.Shared.Transcript

/-!
# What a call tells

Some services make a note of every call with its answer.  How they do so makes no
difference here: a relation between worlds says how the contexts have changed and which
calls there were in between, and every single call is told by it.  What the operations on
a context do is read off their text once, for all such services and for all answers.
-/

namespace DatasetCache

open Act Context

variable {ε : Type}

/-- A change of the contexts and the calls in the course of it, from one world to another. -/
abbrev Account (ε : Type) :=
  (List Context → List Context) → List Occurrence → World ε → World ε → Prop

theorem Account.still {R : Account ε} {more : List Occurrence} {w w' : World ε}
    (told : R id more w w') (c : ContextId) : R (·.modify c id) more w w' := by
  have same : (List.modify · c id : List Context → List Context) = id :=
    funext fun _ => List.modify_id _ _
  rwa [same]

def Occurrence.ofBegin : Except Fault Transaction → List Occurrence
  | .ok tx => [.coordinated (.began tx)]
  | .error _ => []

/-- Every call is told with its answer, and leaves the contexts alone. -/
structure Services.Tells (services : Services (Act ε)) (R : Account ε) : Prop where
  none : ∀ w, R id [] w w
  append : ∀ {f g more others w w' w''}, R f more w w' → R g others w' w'' →
    R (g ∘ f) (more ++ others) w w''
  update : ∀ w c f, R (·.modify c f) [] w (w.update c f)
  contexts : ∀ {f more w w'}, R f more w w' → w'.contexts = f w.contexts
  start : ∀ p tx w, R id [.started p.id tx] w (services.start p tx w).2
  changes : ∀ p w, R id [.told p.id (services.changes p w).1] w (services.changes p w).2
  persist : ∀ p w, R id [.persisted p.id (services.persist p w).1] w (services.persist p w).2
  confirm : ∀ p w, R id [.confirmed p.id] w (services.confirm p w).2
  rollback : ∀ p w, R id [.rolledBack p.id (services.rollback p w).1] w (services.rollback p w).2
  begin : ∀ k w, R id (Occurrence.ofBegin (services.begin k w).1) w (services.begin k w).2
  canCommit : ∀ k tx changes w,
    R id [.coordinated (.checked tx changes (services.canCommit k tx changes w).1)] w
      (services.canCommit k tx changes w).2
  commit : ∀ k tx w, R id [.coordinated (.tried tx (services.commit k tx w).1)] w
    (services.commit k tx w).2
  abort : ∀ k tx w, R id [.coordinated (.aborted tx)] w (services.abort k tx w).2
  invalidate : ∀ k tx w, R id [.coordinated (.invalidated tx)] w (services.invalidate k tx w).2
  report : ∀ d w, R id [] w (services.report d w).2

/-! ## Rounds of calls -/

def each (call : InstanceId → Occurrence) (ps : List Participant) : List Occurrence :=
  ps.map fun p => call p.id

def round {α : Type} (call : InstanceId → α → Occurrence) (answers : List (Participant × α)) :
    List Occurrence :=
  answers.map fun answered => call answered.1.id answered.2

def agreed : Except Fault Bool → Bool
  | .ok answer => answer
  | .error _ => false

def failures (rolls : List (Participant × Except Fault Bool)) : List String :=
  (rolls.filter fun roll => !agreed roll.2).map (·.1.name)

def refusal (p : Participant) : Except Fault Bool → String
  | .ok _ => "participant '" ++ p.name ++ "' refused to persist"
  | .error fault => "participant '" ++ p.name ++ "' failed to persist: " ++ fault.message

theorem Sweep.each (call : InstanceId → Occurrence) {callback : Callback}
    (calls : ∀ i, (call i).heard? = some (i, callback)) (ps : List Participant) :
    Sweep ps callback (each call ps) := by
  induction ps with
  | nil => exact .nil
  | cons p rest ih => exact ih.cons _ (calls p.id)

theorem Sweep.round {α : Type} (call : InstanceId → α → Occurrence) {callback : Callback}
    (calls : ∀ i a, (call i a).heard? = some (i, callback)) (answers : List (Participant × α)) :
    Sweep (answers.map Prod.fst) callback (round call answers) := by
  induction answers with
  | nil => exact .nil
  | cons answered rest ih => exact ih.cons _ (calls _ _)

theorem collected_round (tells : List (Participant × List Change)) :
    collected (round .told tells) = tells.flatMap (·.2) := by
  simp [collected, round, List.flatMap_map, Occurrence.changes]

theorem undone_round (rolls : List (Participant × Except Fault Bool)) :
    undone (round .rolledBack rolls) = (failures rolls).isEmpty := by
  induction rolls with
  | nil => rfl
  | cons roll rest ih =>
      obtain ⟨p, answer⟩ := roll
      have first : undone (round .rolledBack ((p, answer) :: rest)) =
          (agreed answer && undone (round .rolledBack rest)) := by
        cases answer <;> rfl
      rw [first, ih]
      cases agreement : agreed answer <;> simp [failures, agreement]

/-! ## How an operation comes out -/

def settlement (tx : Transaction) (undone : Bool) : Coordinator.Event :=
  if undone then .aborted tx else .invalidated tx

def withdrawal (tx : Transaction) (rolls : List (Participant × Except Fault Bool)) :
    List Occurrence :=
  round .rolledBack rolls ++ [.coordinated (settlement tx (failures rolls).isEmpty)]

def invitation (context : Context) (p : Participant) : List Occurrence :=
  (context.current.map fun tx => .started p.id tx).toList

def defeat (tx : Transaction) (fault : Fault) (failed : List String) : Fault :=
  if failed.isEmpty then fault
  else .transactionFailure tx.id ("unable to roll back: " ++ ", ".intercalate failed)

/-- How far a finish comes after the changes are known, if it does not succeed: the calls
up to the one that fails, the reason that is recorded and the fault that is reported. -/
inductive Setback (ps : List Participant) (tx : Transaction) (changes : List Change) :
    List Occurrence → String → Fault → Prop where
  | conflict : Setback ps tx changes [.coordinated (.checked tx changes (.ok false))]
      "conflict detected" (.conflict tx.id)
  | unchecked (fault : Fault) :
      Setback ps tx changes [.coordinated (.checked tx changes (.error fault))]
        ("conflict check failed: " ++ fault.message) fault
  | refused {before after : List Participant} {p : Participant} {answer : Except Fault Bool}
      (split : ps = before ++ p :: after) (refuses : agreed answer = false) :
      Setback ps tx changes
        ([.coordinated (.checked tx changes (.ok true))] ++ each (.persisted · (.ok true)) before ++
          [.persisted p.id answer])
        (refusal p answer) (.transactionFailure tx.id (refusal p answer))
  | outrun : Setback ps tx changes
      ([.coordinated (.checked tx changes (.ok true))] ++ each (.persisted · (.ok true)) ps ++
        [.coordinated (.tried tx (.ok false))])
      "conflict detected at commit" (.conflict tx.id)
  | broken (fault : Fault) : Setback ps tx changes
      ([.coordinated (.checked tx changes (.ok true))] ++ each (.persisted · (.ok true)) ps ++
        [.coordinated (.tried tx (.error fault))])
      ("commit failed: " ++ fault.message) fault

/-- The calls of a finish, its answer and the status in which it leaves the context: all
participants persist, the coordinator commits and all are told, or all are rolled back. -/
inductive TwoPhase (ps : List Participant) (tx : Transaction) :
    List Occurrence → Except Fault Unit → Status → Prop where
  | kept {tells : List (Participant × List Change)} (told : tells.map Prod.fst = ps) :
      TwoPhase ps tx
        (round .told tells ++ [.coordinated (.checked tx (tells.flatMap (·.2)) (.ok true))] ++
          each (.persisted · (.ok true)) ps ++ [.coordinated (.tried tx (.ok true))] ++
          each .confirmed ps)
        (.ok ()) .committed
  | undone {tells : List (Participant × List Change)} {done : List Occurrence} {reason : String}
      {fault : Fault} {rolls : List (Participant × Except Fault Bool)}
      (told : tells.map Prod.fst = ps)
      (setback : Setback ps tx (tells.flatMap (·.2)) done reason fault)
      (rolled : rolls.map Prod.fst = ps) :
      TwoPhase ps tx (round .told tells ++ done ++ withdrawal tx rolls)
        (.error (defeat tx fault (failures rolls))) (.aborted reason)

/-- The calls by which a context is closed: a transaction in progress is rolled back by everybody
and settled. -/
inductive Dissolution (context : Context) : List Occurrence → Prop where
  | idle (unused : context.current = none) : Dissolution context []
  | withdrawn {tx : Transaction} {rolls : List (Participant × Except Fault Bool)}
      (current : context.current = some tx)
      (everybody : rolls.map Prod.fst = context.participants) :
      Dissolution context (withdrawal tx rolls)

structure Retreat (ps : List Participant) (tx : Transaction) (good answer : Except Fault Unit)
    (more : List Occurrence) : Prop where
  heard : heard more = ps.map fun p => (p.id, .rollback)
  collected : collected more = []
  events : events more = [settlement tx (undone more)]
  undone : undone more = true → answer = good
  left : DatasetCache.undone more = false → ∃ text, answer = .error (.transactionFailure tx.id text)

/-- How far a finish comes that gives up, and for what reason. -/
inductive Attempt (ps : List Participant) (tx : Transaction) :
    List Occurrence → String → Fault → Prop where
  | conflict {told : List Occurrence} (telling : Sweep ps .changes told) :
      Attempt ps tx (told ++ [.coordinated (.checked tx (collected told) (.ok false))])
        "conflict detected" (.conflict tx.id)
  | unchecked {told : List Occurrence} (telling : Sweep ps .changes told) (fault : Fault) :
      Attempt ps tx (told ++ [.coordinated (.checked tx (collected told) (.error fault))])
        ("conflict check failed: " ++ fault.message) fault
  | refused {asked : List Participant} {told persisted : List Occurrence}
      (telling : Sweep ps .changes told) (first : asked <+: ps)
      (persisting : Sweep asked .persist persisted) (reason : String) :
      Attempt ps tx
        (told ++ [.coordinated (.checked tx (collected told) (.ok true))] ++ persisted)
        reason (.transactionFailure tx.id reason)
  | outrun {told persisted : List Occurrence} (telling : Sweep ps .changes told)
      (persisting : Sweep ps .persist persisted) :
      Attempt ps tx
        (told ++ [.coordinated (.checked tx (collected told) (.ok true))] ++ persisted ++
          [.coordinated (.tried tx (.ok false))])
        "conflict detected at commit" (.conflict tx.id)
  | broken {told persisted : List Occurrence} (telling : Sweep ps .changes told)
      (persisting : Sweep ps .persist persisted) (fault : Fault) :
      Attempt ps tx
        (told ++ [.coordinated (.checked tx (collected told) (.ok true))] ++ persisted ++
          [.coordinated (.tried tx (.error fault))])
        ("commit failed: " ++ fault.message) fault

/-- The two ways in which a finish comes out: it carries all before it, or it is undone. -/
inductive Finish (ps : List Participant) (tx : Transaction) :
    List Occurrence → Except Fault Unit → Status → Prop where
  | kept {told persisted confirmed : List Occurrence} (telling : Sweep ps .changes told)
      (persisting : Sweep ps .persist persisted) (confirming : Sweep ps .confirm confirmed) :
      Finish ps tx
        (told ++ [.coordinated (.checked tx (collected told) (.ok true))] ++ persisted ++
          [.coordinated (.tried tx (.ok true))] ++ confirmed)
        (.ok ()) .committed
  | undone {before rolls : List Occurrence} {reason : String} {fault : Fault}
      {answer : Except Fault Unit} (attempt : Attempt ps tx before reason fault)
      (retreat : Retreat ps tx (.error fault) answer rolls) :
      Finish ps tx (before ++ rolls) answer (.aborted reason)

theorem Retreat.of_rolls {ps : List Participant} {tx : Transaction}
    {good answer : Except Fault Unit}
    {rolls : List (Participant × Except Fault Bool)} (everybody : rolls.map Prod.fst = ps)
    (clean : (failures rolls).isEmpty = true → answer = good)
    (left : (failures rolls).isEmpty = false →
      ∃ text, answer = .error (.transactionFailure tx.id text)) :
    Retreat ps tx good answer (withdrawal tx rolls) := by
  have sweep := Sweep.round .rolledBack (fun _ _ => rfl) rolls
  have same : DatasetCache.undone (withdrawal tx rolls) = (failures rolls).isEmpty := by
    rw [withdrawal, undone_append, undone_round]
    exact Bool.and_true _
  rw [everybody] at sweep
  refine ⟨?_, ?_, ?_, same ▸ clean, same ▸ left⟩
  · rw [withdrawal, heard_append, sweep.heard]
    exact List.append_nil _
  · rw [withdrawal, collected_append, sweep.collected (by simp)]
    rfl
  · rw [same, withdrawal, events_append, sweep.events]
    rfl

theorem Setback.attempt {ps : List Participant} {tx : Transaction} {told done : List Occurrence}
    {reason : String} {fault : Fault} (telling : Sweep ps .changes told)
    (setback : Setback ps tx (collected told) done reason fault) :
    Attempt ps tx (told ++ done) reason fault := by
  have persisted := Sweep.each (.persisted · (.ok true)) fun _ => rfl
  cases setback with
  | conflict => exact .conflict telling
  | unchecked => exact .unchecked telling fault
  | @refused before after p answer split refuses =>
      have asked : before ++ [p] <+: ps := ⟨after, by simp [split]⟩
      have last : Sweep [p] .persist [.persisted p.id answer] := .cons _ rfl .nil
      have refused : Attempt ps tx _ _ _ :=
        .refused telling asked ((persisted before).append last) (refusal p answer)
      simpa only [List.append_assoc] using refused
  | outrun =>
      have outrun : Attempt ps tx _ _ _ := .outrun telling (persisted ps)
      simpa only [List.append_assoc] using outrun
  | broken fault =>
      have broken : Attempt ps tx _ _ _ := .broken telling (persisted ps) fault
      simpa only [List.append_assoc] using broken

theorem TwoPhase.finish {ps : List Participant} {tx : Transaction} {calls : List Occurrence}
    {answer : Except Fault Unit} {status : Status} (phases : TwoPhase ps tx calls answer status) :
    Finish ps tx calls answer status := by
  have telling := Sweep.round .told fun _ _ => rfl
  cases phases with
  | @kept tells told =>
      have persisted := Sweep.each (.persisted · (.ok true)) (fun _ => rfl) ps
      have confirmed := Sweep.each .confirmed (fun _ => rfl) ps
      have kept : Finish ps tx _ _ _ := .kept (told ▸ telling tells) persisted confirmed
      rwa [collected_round] at kept
  | @undone tells done reason fault rolls told setback rolled =>
      rw [← collected_round] at setback
      refine .undone (setback.attempt (told ▸ telling tells)) (.of_rolls rolled ?_ ?_)
      · intro clean
        rw [defeat, if_pos clean]
      · intro left
        exact ⟨_, by rw [defeat, if_neg (by simp [left])]⟩

namespace Services.Tells

variable {services : Services (Act ε)} {R : Account ε} (tells : services.Tells R)

include tells

/-! ## Calls on all participants -/

theorem context {more : List Occurrence} {w w' : World ε} (told : R id more w w')
    (c : ContextId) : w'.context c = w.context c := by
  rw [World.context, World.context, tells.contexts told, id]

theorem quiet {f : List Context → List Context} {more : List Occurrence} {w w' w'' : World ε}
    (first : R f more w w') (rest : R id [] w' w'') : R f more w w'' := by
  have both := tells.append first rest
  rwa [List.append_nil] at both

theorem turn {more : List Occurrence} {w w' : World ε} (first : R id more w w') (c : ContextId)
    (f : Context → Context) : R (·.modify c f) more w (w'.update c f) := by
  have both := tells.append first (tells.update w' c f)
  rwa [List.append_nil] at both

section Rounds

variable (ps : List Participant) (w : World ε)

theorem startAll (tx : Transaction) :
    R id (each (.started · tx) ps) w (services.startAll tx ps w).2 := by
  induction ps generalizing w with
  | nil => exact tells.none w
  | cons p rest ih => exact tells.append (tells.start p tx w) (ih _)

theorem collectChanges : ∃ told : List (Participant × List Change), told.map Prod.fst = ps ∧
    (services.collectChanges ps w).1 = told.flatMap (·.2) ∧
    R id (round .told told) w (services.collectChanges ps w).2 := by
  induction ps generalizing w with
  | nil => exact ⟨[], rfl, rfl, tells.none w⟩
  | cons p rest ih =>
      obtain ⟨told, everybody, changes, others⟩ := ih (services.changes p w).2
      refine ⟨(p, (services.changes p w).1) :: told, congrArg (p :: ·) everybody, ?_,
        tells.append (tells.changes p w) others⟩
      exact congrArg ((services.changes p w).1 ++ ·) changes

theorem confirmAll : R id (each .confirmed ps) w (services.confirmAll ps w).2 := by
  induction ps generalizing w with
  | nil => exact tells.none w
  | cons p rest ih => exact tells.append (tells.confirm p w) (ih _)

theorem persistAll :
    (services.persistAll ps w).1 = Option.none ∧
        R id (each (.persisted · (.ok true)) ps) w (services.persistAll ps w).2 ∨
      ∃ before p after answer, ps = before ++ p :: after ∧ agreed answer = false ∧
        (services.persistAll ps w).1 = some (refusal p answer) ∧
        R id (each (.persisted · (.ok true)) before ++ [.persisted p.id answer]) w
          (services.persistAll ps w).2 := by
  induction ps generalizing w with
  | nil => exact .inl ⟨rfl, tells.none w⟩
  | cons p rest ih =>
      have first := tells.persist p w
      simp only [Participation.persistAll, bind_apply]
      generalize services.persist p w = answered at first ⊢
      obtain ⟨answer, next⟩ := answered
      rcases answer with fault | _ | _
      · exact .inr ⟨[], p, rest, .error fault, rfl, rfl, rfl, first⟩
      · exact .inr ⟨[], p, rest, .ok false, rfl, rfl, rfl, first⟩
      · rcases ih next with ⟨all, others⟩ | ⟨before, q, after, answer, split, refuses, why, others⟩
        · exact .inl ⟨all, tells.append first others⟩
        · exact .inr ⟨p :: before, q, after, answer, congrArg (p :: ·) split, refuses, why,
            tells.append first others⟩

theorem rollbackAll : ∃ rolls : List (Participant × Except Fault Bool), rolls.map Prod.fst = ps ∧
    (services.rollbackAll ps w).1 = failures rolls ∧
    R id (round .rolledBack rolls) w (services.rollbackAll ps w).2 := by
  induction ps generalizing w with
  | nil => exact ⟨[], rfl, rfl, tells.none w⟩
  | cons p rest ih =>
      have first := tells.rollback p w
      simp only [Services.rollbackAll, bind_apply]
      generalize services.rollback p w = answered at first ⊢
      obtain ⟨answer, next⟩ := answered
      rcases answer with fault | _ | _
      · have logged := tells.quiet first
          (tells.report ⟨.warn, .transactions, "Rollback failed"⟩ next)
        obtain ⟨rolls, everybody, failed, others⟩ :=
          ih (services.report ⟨.warn, .transactions, "Rollback failed"⟩ next).2
        exact ⟨(p, .error fault) :: rolls, congrArg (p :: ·) everybody,
          congrArg (p.name :: ·) failed, tells.append logged others⟩
      · obtain ⟨rolls, everybody, failed, others⟩ := ih next
        exact ⟨(p, .ok false) :: rolls, congrArg (p :: ·) everybody,
          congrArg (p.name :: ·) failed, tells.append first others⟩
      · obtain ⟨rolls, everybody, failed, others⟩ := ih next
        exact ⟨(p, .ok true) :: rolls, congrArg (p :: ·) everybody, failed,
          tells.append first others⟩

end Rounds

/-! ## Operations -/

section Operations

variable {c : ContextId} {w : World ε} {tx : Transaction}

theorem settle (w : World ε) (k : CoordinatorId) (tx : Transaction) (failed : List String) :
    R id [.coordinated (settlement tx failed.isEmpty)] w
      (Context.settle services k tx failed w).2 := by
  unfold Context.settle settlement
  cases failed with
  | nil => exact tells.abort k tx w
  | cons name rest => exact tells.invalidate k tx w

theorem withdrawing (current : (w.context c).current = some tx) (reason : String) :
    ∃ rolls, rolls.map Prod.fst = (w.context c).participants ∧
      (Context.abort services c reason w).1 = verdict tx (failures rolls) ∧
      R (·.modify c (leave (.aborted reason))) (withdrawal tx rolls) w
        (Context.abort services c reason w).2 := by
  rw [abort_eq, bind_apply, Context.read, current]
  obtain ⟨rolls, everybody, failed, rolled⟩ := tells.rollbackAll (w.context c).participants w
  dsimp only
  rw [bind_apply]
  generalize services.rollbackAll (w.context c).participants w = answered at failed rolled ⊢
  obtain ⟨_, next⟩ := answered
  dsimp only at failed rolled ⊢
  subst failed
  have settled := tells.settle next (w.context c).coordinator tx (failures rolls)
  have all := tells.turn (tells.append rolled settled) c (leave (.aborted reason))
  exact ⟨rolls, everybody, rfl, tells.quiet all (tells.report _ _)⟩

omit tells in
theorem abortFor_eq {reason : String} {failed : List String}
    (answer : (Context.abort services c reason w).1 = verdict tx failed) (fault : Fault) :
    abortFor services c reason fault w =
      (.error (defeat tx fault failed), (Context.abort services c reason w).2) := by
  unfold abortFor
  rw [bind_apply, answer]
  cases clean : failed.isEmpty <;> simp [verdict, defeat, clean]

theorem givingUp {next : World ε} {told : List (Participant × List Change)}
    {done : List Occurrence} {reason : String} {fault : Fault}
    (current : (w.context c).current = some tx)
    (everybody : told.map Prod.fst = (w.context c).participants)
    (setback : Setback (w.context c).participants tx (told.flatMap (·.2)) done reason fault)
    (before : R id (round .told told ++ done) w next) :
    ∃ calls status, TwoPhase (w.context c).participants tx calls
        (abortFor services c reason fault next).1 status ∧
      R (·.modify c (leave status)) calls w (abortFor services c reason fault next).2 := by
  have same := tells.context before c
  obtain ⟨rolls, rolled, answer, withdrawn⟩ :=
    tells.withdrawing (w := next) (by rw [same]; exact current) reason
  rw [same] at rolled
  have all := tells.append before withdrawn
  rw [abortFor_eq answer]
  exact ⟨_, _, .undone everybody setback rolled, all⟩

theorem concluding (current : (w.context c).current = some tx) (k : CoordinatorId) :
    ∃ calls status, TwoPhase (w.context c).participants tx calls
        (conclude services c k tx (w.context c).participants w).1 status ∧
      R (·.modify c (leave status)) calls w
        (conclude services c k tx (w.context c).participants w).2 := by
  obtain ⟨told, everybody, changes, first⟩ := tells.collectChanges (w.context c).participants w
  unfold conclude
  simp only [bind_apply]
  generalize services.collectChanges (w.context c).participants w = answered
    at changes first ⊢
  obtain ⟨_, w₁⟩ := answered
  dsimp only at changes first ⊢
  subst changes
  have checks := tells.append first (tells.canCommit k tx (told.flatMap (·.2)) w₁)
  generalize services.canCommit k tx (told.flatMap (·.2)) w₁ = answered at checks ⊢
  obtain ⟨answer, w₂⟩ := answered
  -- Every call from here on may be the last one before the rollback.
  match answer with
  | .ok false => exact tells.givingUp current everybody .conflict checks
  | .error fault => exact tells.givingUp current everybody (.unchecked fault) checks
  | .ok true =>
      have persists := tells.persistAll (w.context c).participants w₂
      simp only [bind_apply]
      generalize services.persistAll (w.context c).participants w₂ = answered at persists ⊢
      obtain ⟨refusal, w₃⟩ := answered
      rcases persists with ⟨rfl, all⟩ | ⟨before, p, after, answer, split, refuses, rfl, some⟩
      · have tries := tells.append (tells.append checks all) (tells.commit k tx w₃)
        simp only [bind_apply]
        generalize services.commit k tx w₃ = answered at tries ⊢
        obtain ⟨answer, w₄⟩ := answered
        match answer with
        | .ok false => exact tells.givingUp current everybody .outrun (by simpa using tries)
        | .error fault =>
            exact tells.givingUp current everybody (.broken fault) (by simpa using tries)
        | .ok true =>
            have confirms := tells.confirmAll (w.context c).participants w₄
            have kept := tells.turn (tells.append tries confirms) c (leave .committed)
            exact ⟨_, _, .kept everybody, kept⟩
      · exact tells.givingUp current everybody (.refused split refuses)
          (by simpa using tells.append checks some)

theorem finishes (current : (w.context c).current = some tx) :
    ∃ calls status, TwoPhase (w.context c).participants tx calls
        (Context.finish services c w).1 status ∧
      R (·.modify c (leave status)) calls w (Context.finish services c w).2 := by
  rw [finish_eq, bind_apply, Context.read, current]
  exact tells.concluding current _

theorem launches (c : ContextId) (k : CoordinatorId) (w : World ε) :
    (∃ fault, (launch services c k w).1 = .error fault ∧ (services.begin k w).1 = .error fault ∧
        R id [] w (launch services c k w).2) ∨
      ∃ tx, (launch services c k w).1 = .ok tx ∧ (services.begin k w).1 = .ok tx ∧
        R (·.modify c (enter tx))
          (.coordinated (.began tx) :: each (.started · tx) (w.context c).participants) w
          (launch services c k w).2 := by
  have begins := tells.begin k w
  unfold launch
  rw [bind_apply]
  generalize services.begin k w = answered at begins ⊢
  obtain ⟨answer, next⟩ := answered
  cases answer with
  | error fault => exact .inl ⟨fault, rfl, rfl, begins⟩
  | ok tx =>
      have entered := tells.turn begins c (enter tx)
      have people : ((next.update c (enter tx)).context c).participants =
          (w.context c).participants := by
        rw [← tells.context begins c]
        by_cases inside : c < next.contexts.length
        · rw [World.context_update_self inside]
          rfl
        · simp [World.context, World.update, inside]
      have starts := tells.startAll ((next.update c (enter tx)).context c).participants
        (next.update c (enter tx)) tx
      rw [← people]
      exact .inr ⟨tx, rfl, rfl, tells.quiet (tells.append entered starts) (tells.report _ _)⟩

theorem abandons (current : (w.context c).current = some tx) :
    ∃ rolls reason, rolls.map Prod.fst = (w.context c).participants ∧
      R (·.modify c (leave (.aborted reason))) (withdrawal tx rolls) w
        (abandon services c w).2 := by
  have warned := tells.report
    ⟨.warn, .transactions, "Cleaning up context with a transaction still in progress"⟩ w
  have same := tells.context warned c
  obtain ⟨rolls, everybody, -, withdrawn⟩ := tells.withdrawing (by rw [same]; exact current)
    "context cleaned up with transaction in progress"
  rw [same] at everybody
  refine ⟨rolls, "context cleaned up with transaction in progress", everybody, ?_⟩
  have sofar := tells.append warned withdrawn
  unfold abandon
  simp only [bind_apply]
  cases (Context.abort services c "context cleaned up with transaction in progress"
    (services.warn _ _ w).2).1 with
  | ok done => exact sofar
  | error fault => exact tells.quiet sofar (tells.report _ _)

theorem closes (consistent : (w.context c).Consistent) :
    match (w.context c).current with
    | Option.none => R (·.modify c shut) [] w (Context.close services c w).2
    | some tx => ∃ rolls, rolls.map Prod.fst = (w.context c).participants ∧
        R (·.modify c shut) (withdrawal tx rolls) w (Context.close services c w).2 := by
  rw [close_eq, bind_apply, Context.read]
  cases current : (w.context c).current with
  | none =>
      rw [consistent.unused_iff.1 current, if_neg (by simp)]
      exact tells.update w c shut
  | some tx =>
      rw [consistent.active current, if_pos rfl, bind_apply]
      obtain ⟨rolls, reason, everybody, abandoned⟩ := tells.abandons current
      have all := tells.append abandoned (tells.update (abandon services c w).2 c shut)
      have one : (·.modify c shut) ∘ (·.modify c (leave (.aborted reason))) =
          (List.modify · c shut) := by
        funext contexts
        exact List.modify_modify_eq ..
      rw [one, List.append_nil] at all
      exact ⟨rolls, everybody, all⟩

theorem dissolves (consistent : (w.context c).Consistent) :
    ∃ calls, Dissolution (w.context c) calls ∧
      R (·.modify c shut) calls w (Context.close services c w).2 := by
  have closes := tells.closes consistent
  cases current : (w.context c).current with
  | none =>
      rw [current] at closes
      exact ⟨[], .idle current, closes⟩
  | some tx =>
      rw [current] at closes
      obtain ⟨rolls, everybody, told⟩ := closes
      exact ⟨_, .withdrawn current everybody, told⟩

theorem hands_back (consistent : (w.context c).Consistent) :
    (Context.close services c w).1 = (w.context c).deferred := by
  rw [close_eq, bind_apply, Context.read]
  cases current : (w.context c).current with
  | none =>
      rw [consistent.unused_iff.1 current, if_neg (by simp)]
      rfl
  | some tx =>
      rw [consistent.active current, if_pos rfl, bind_apply]
      obtain ⟨rolls, reason, -, abandoned⟩ := tells.abandons current
      have contexts := tells.contexts abandoned
      have same : ((abandon services c w).2.context c).deferred = (w.context c).deferred := by
        rw [World.context, contexts, World.context]
        cases inside : w.contexts[c]? <;> simp [inside, leave]
      exact same

theorem joins (c : ContextId) (p : Participant) (w : World ε) :
    R id [] w (enrol services c p w).2 ∨
      (w.context c).has p = false ∧
        R (·.modify c (accept p)) (invitation (w.context c) p) w (enrol services c p w).2 := by
  rw [enrol_eq, bind_apply, Context.read]
  split
  next closed => exact .inl (tells.report _ w)
  next living =>
  split
  next present => exact .inl (tells.none w)
  next absent =>
  refine .inr ⟨by simpa using absent, ?_⟩
  rw [bind_apply, invitation]
  have joined := tells.update w c (accept p)
  cases (w.context c).current with
  | none => exact joined
  | some tx => exact tells.append joined (tells.start p tx (w.update c (accept p)))

/-! ### In outline -/

theorem aborting (current : (w.context c).current = some tx) (reason : String) :
    ∃ more, Retreat (w.context c).participants tx (.ok ())
        (Context.abort services c reason w).1 more ∧
      R (·.modify c (leave (.aborted reason))) more w
        (Context.abort services c reason w).2 := by
  obtain ⟨rolls, everybody, answer, told⟩ := tells.withdrawing current reason
  refine ⟨_, .of_rolls everybody (fun clean => ?_) (fun left => ?_), told⟩
  · rw [answer, verdict, if_pos clean]
  · exact ⟨_, by rw [answer, verdict, if_neg (by simp [left])]⟩

theorem finishing (current : (w.context c).current = some tx) :
    ∃ more status,
      Finish (w.context c).participants tx more (Context.finish services c w).1 status ∧
      R (·.modify c (leave status)) more w (Context.finish services c w).2 := by
  obtain ⟨calls, status, phases, told⟩ := tells.finishes current
  exact ⟨calls, status, phases.finish, told⟩

theorem launching (c : ContextId) (k : CoordinatorId) (w : World ε) :
    (∃ fault, (launch services c k w).1 = .error fault ∧ (services.begin k w).1 = .error fault ∧
        R id [] w (launch services c k w).2) ∨
      ∃ tx more, (launch services c k w).1 = .ok tx ∧ (services.begin k w).1 = .ok tx ∧
        events more = [.began tx] ∧
        R (·.modify c (enter tx)) more w (launch services c k w).2 := by
  refine (tells.launches c k w).imp_right fun ⟨tx, answer, begins, told⟩ => ?_
  refine ⟨tx, _, answer, begins, ?_, told⟩
  rw [events_coordinated, (Sweep.each _ (fun _ => rfl) _).events]

theorem closing (consistent : (w.context c).Consistent) :
    ∃ more, R (·.modify c shut) more w (Context.close services c w).2 ∧
      match (w.context c).current with
      | Option.none => more = []
      | some tx => ∃ answer, Retreat (w.context c).participants tx (.ok ()) answer more := by
  have closes := tells.closes consistent
  cases current : (w.context c).current with
  | none =>
      rw [current] at closes
      exact ⟨[], closes, rfl⟩
  | some tx =>
      rw [current] at closes
      obtain ⟨rolls, everybody, told⟩ := closes
      refine ⟨_, told, verdict tx (failures rolls), .of_rolls everybody (fun clean => ?_)
        (fun left => ?_)⟩
      · rw [verdict, if_pos clean]
      · exact ⟨_, by rw [verdict, if_neg (by simp [left])]⟩

theorem enrolling (c : ContextId) (p : Participant) (w : World ε) :
    ∃ more, events more = [] ∧
      (R id more w (enrol services c p w).2 ∨
        (w.context c).has p = false ∧
          R (·.modify c (accept p)) more w (enrol services c p w).2) := by
  rcases tells.joins c p w with idle | joined
  · exact ⟨[], rfl, .inl idle⟩
  · refine ⟨_, ?_, .inr joined⟩
    cases current : (w.context c).current <;> simp [invitation, current, events, Occurrence.event?]

end Operations

end Services.Tells

end DatasetCache
