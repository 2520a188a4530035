import DatasetCache.Proofs.Cache.Progress

/-!
# A logbook of all calls

A logbook keeps every call that is sent out with the answer to it: those of a transaction,
loads, closes and meters.  Only the log is left out.  What a part of a cache sends out is
told once for all services that keep such a book, wherever they keep it.
-/

namespace DatasetCache

open Act Context

variable {ε α : Type}

/-- A call that is sent out, and what comes back. -/
inductive Errand where
  | occurred (occurrence : Occurrence)
  | loaded (i : InstantiatorId) (realm : String) (key : Key)
      (answer : Except Fault (Option Dataset))
  | metered (sink : MetricsId) (tag value : String) (d : Dataset)
  | closedExtra (p : Participant) (answer : Except Fault Unit)
  | closedDataset (d : Dataset) (answer : Except Fault Unit)
  | closedInstantiator (i : InstantiatorId) (answer : Except Fault Unit)

structure Logbook (ε : Type) where
  errands : List Errand := []
  inner : ε

def Logbook.noted (errands : α → List Errand) (x : StateM ε α) : StateM (Logbook ε) α := fun book =>
  ((x book.inner).1,
    { errands := book.errands ++ errands (x book.inner).1, inner := (x book.inner).2 })

open Logbook

/-- The same services with a logbook. -/
def Services.logging (base : Services (StateM ε)) : Services (StateM (Logbook ε)) where
  start p tx := noted (fun _ => [.occurred (.started p.id tx)]) (base.start p tx)
  changes p := noted (fun answer => [.occurred (.told p.id answer)]) (base.changes p)
  persist p := noted (fun answer => [.occurred (.persisted p.id answer)]) (base.persist p)
  confirm p := noted (fun _ => [.occurred (.confirmed p.id)]) (base.confirm p)
  rollback p := noted (fun answer => [.occurred (.rolledBack p.id answer)]) (base.rollback p)
  begin k := noted (fun answer => (Occurrence.ofBegin answer).map .occurred) (base.begin k)
  canCommit k tx changes :=
    noted (fun answer => [.occurred (.coordinated (.checked tx changes answer))])
      (base.canCommit k tx changes)
  commit k tx :=
    noted (fun answer => [.occurred (.coordinated (.tried tx answer))]) (base.commit k tx)
  abort k tx := noted (fun _ => [.occurred (.coordinated (.aborted tx))]) (base.abort k tx)
  invalidate k tx :=
    noted (fun _ => [.occurred (.coordinated (.invalidated tx))]) (base.invalidate k tx)
  load i realm key := noted (fun answer => [.loaded i realm key answer]) (base.load i realm key)
  closeInstantiator i :=
    noted (fun answer => [.closedInstantiator i answer]) (base.closeInstantiator i)
  closeDataset d := noted (fun answer => [.closedDataset d answer]) (base.closeDataset d)
  closeParticipant p := noted (fun answer => [.closedExtra p answer]) (base.closeParticipant p)
  meter sink tag value d :=
    noted (fun _ => [.metered sink tag value d]) (base.meter sink tag value d)
  report d := noted (fun _ => []) (base.report d)

/-! ## What is sent out -/

structure Sent (log : ε → List Errand) (change : List Context → List Context)
    (more : List Errand) (w w' : World ε) : Prop where
  contexts : w'.contexts = change w.contexts
  log : log w'.outside = log w.outside ++ more

namespace Sent

variable {log : ε → List Errand} {change other : List Context → List Context}
  {errands more : List Errand} {w w' w'' : World ε}

theorem none (w : World ε) : Sent log id [] w w := ⟨rfl, (List.append_nil _).symm⟩

theorem append (first : Sent log change errands w w') (rest : Sent log other more w' w'') :
    Sent log (other ∘ change) (errands ++ more) w w'' where
  contexts := by rw [rest.contexts, first.contexts, Function.comp_apply]
  log := by rw [rest.log, first.log, List.append_assoc]

theorem quiet (first : Sent log change errands w w') (rest : Sent log id [] w' w'') :
    Sent log change errands w w'' := by
  have both := first.append rest
  rwa [List.append_nil] at both

end Sent

/-- Every call is entered in a log that somebody keeps. -/
structure Services.Logs (services : Services (Act ε)) (log : ε → List Errand) : Prop where
  start : ∀ p tx w, Sent log id [.occurred (.started p.id tx)] w (services.start p tx w).2
  changes : ∀ p w, Sent log id [.occurred (.told p.id (services.changes p w).1)] w
    (services.changes p w).2
  persist : ∀ p w, Sent log id [.occurred (.persisted p.id (services.persist p w).1)] w
    (services.persist p w).2
  confirm : ∀ p w, Sent log id [.occurred (.confirmed p.id)] w (services.confirm p w).2
  rollback : ∀ p w, Sent log id [.occurred (.rolledBack p.id (services.rollback p w).1)] w
    (services.rollback p w).2
  begin : ∀ k w, Sent log id ((Occurrence.ofBegin (services.begin k w).1).map .occurred) w
    (services.begin k w).2
  canCommit : ∀ k tx changes w, Sent log id
    [.occurred (.coordinated (.checked tx changes (services.canCommit k tx changes w).1))] w
      (services.canCommit k tx changes w).2
  commit : ∀ k tx w,
    Sent log id [.occurred (.coordinated (.tried tx (services.commit k tx w).1))] w
      (services.commit k tx w).2
  abort : ∀ k tx w, Sent log id [.occurred (.coordinated (.aborted tx))] w
    (services.abort k tx w).2
  invalidate : ∀ k tx w, Sent log id [.occurred (.coordinated (.invalidated tx))] w
    (services.invalidate k tx w).2
  load : ∀ i realm key w,
    Sent log id [.loaded i realm key (services.load i realm key w).1] w
      (services.load i realm key w).2
  meter : ∀ sink tag value d w,
    Sent log id [.metered sink tag value d] w (services.meter sink tag value d w).2
  closeParticipant : ∀ p w, Sent log id [.closedExtra p (services.closeParticipant p w).1] w
    (services.closeParticipant p w).2
  closeDataset : ∀ d w, Sent log id [.closedDataset d (services.closeDataset d w).1] w
    (services.closeDataset d w).2
  closeInstantiator : ∀ i w,
    Sent log id [.closedInstantiator i (services.closeInstantiator i w).1] w
      (services.closeInstantiator i w).2
  report : ∀ d w, Sent log id [] w (services.report d w).2

theorem Services.Logs.tells {services : Services (Act ε)} {log : ε → List Errand}
    (logs : services.Logs log) :
    services.Tells fun change more => Sent log change (more.map .occurred) where
  none := .none
  append first rest := by
    rw [List.map_append]
    exact first.append rest
  update _ _ _ := ⟨rfl, (List.append_nil _).symm⟩
  contexts := Sent.contexts
  start := logs.start
  changes := logs.changes
  persist := logs.persist
  confirm := logs.confirm
  rollback := logs.rollback
  begin := logs.begin
  canCommit := logs.canCommit
  commit := logs.commit
  abort := logs.abort
  invalidate := logs.invalidate
  report := logs.report

theorem Services.logging_logs (base : Services (StateM ε)) :
    base.logging.detached.Logs Logbook.errands := by
  constructor <;> intros <;> constructor <;> rfl

theorem Services.audited_logs (base : Services (StateM ε)) :
    base.logging.audited.Logs fun outside => outside.inner.inner.errands := by
  constructor
  -- The journal enters these two or not according to the answer, so the answer is split first.
  case begin =>
    intro k w
    simp only [audited, Callbacks.audited, Callbacks.journaled, Services.accounted,
      Callbacks.nested, Callbacks.entering, detached, map, Act.outside, recorded, bind,
      StateT.bind, Journal.within, Ledger.within, logging, noted]
    cases (base.begin k w.outside.inner.inner.inner).1 <;> exact ⟨rfl, rfl⟩
  case commit =>
    intro k tx w
    simp only [audited, Callbacks.audited, Callbacks.journaled, Services.accounted,
      Callbacks.nested, Callbacks.entering, detached, map, Act.outside, recorded, bind,
      StateT.bind, Journal.within, Ledger.within, logging, noted]
    rcases (base.commit k tx w.outside.inner.inner.inner).1 with fault | _ | _ <;> exact ⟨rfl, rfl⟩
  all_goals intros; constructor <;> rfl

/-! ## Loads -/

namespace Loader

def outcome (key : Key) : Except Fault (Option Dataset) → Except Fault Dataset
  | .error fault => .error (.loadFailed key.name fault)
  | .ok none => .error (.notFound key.name)
  | .ok (some dataset) => .ok dataset

theorem eq_of_outcome {key : Key} {answer : Except Fault (Option Dataset)}
    {dataset : Dataset} (gives : outcome key answer = .ok dataset) :
    answer = .ok (some dataset) := by
  match answer with
  | .error _ => cases gives
  | .ok none => cases gives
  | .ok (some d) =>
      cases gives
      rfl

theorem isInstantiation_of_outcome {key : Key} {answer : Except Fault (Option Dataset)}
    {fault : Fault} (fails : outcome key answer = .error fault) : fault.isInstantiation = true := by
  match answer with
  | .error _ =>
      cases fails
      rfl
  | .ok none =>
      cases fails
      rfl
  | .ok (some d) => cases fails

def visit (loader : Loader) (key : Key) (answer : Except Fault (Option Dataset)) : List Errand :=
  .loaded loader.instantiator loader.realm key answer ::
    match answer, loader.metrics with
    | .ok (some dataset), some sink =>
      if dataset.metered then [.metered sink metricsTag key.name dataset] else []
    | _, _ => []

end Loader

section Parts

variable {services : Services (Act ε)} {log : ε → List Errand} (logs : services.Logs log)

include logs

theorem Loader.load_sent (loader : Loader) (key : Key) (w : World ε) :
    let answer := (services.load loader.instantiator loader.realm key w).1
    (loader.load services key w).1 = outcome key answer ∧
      Sent log id (loader.visit key answer) w (loader.load services key w).2 := by
  have call := logs.load loader.instantiator loader.realm key w
  unfold Loader.load
  simp only [bind_apply]
  generalize services.load loader.instantiator loader.realm key w = answered at call ⊢
  obtain ⟨answer, next⟩ := answered
  match answer with
  | .error fault => exact ⟨rfl, call⟩
  | .ok none => exact ⟨rfl, call⟩
  | .ok (some dataset) =>
      unfold visit
      cases loader.metrics with
      | none => exact ⟨rfl, call⟩
      | some sink =>
          dsimp only
          cases dataset.metered with
          | false => exact ⟨rfl, call⟩
          | true => exact ⟨rfl, call.append (logs.meter sink metricsTag key.name dataset next)⟩

/-! ## Closes -/

omit logs in
def complaints {β : Type} (words : β → Fault → String)
    (answers : List (β × Except Fault Unit)) : List String :=
  answers.filterMap fun answered => (Cache.failure answered.2).map (words answered.1)

omit logs in
theorem complaints_eq_nil_iff {β : Type} {words : β → Fault → String}
    {answers : List (β × Except Fault Unit)} :
    complaints words answers = [] ↔ ∀ answered ∈ answers, answered.2 = .ok () := by
  rw [complaints, List.filterMap_eq_nil_iff]
  apply forall₂_congr
  intro answered member
  cases answered.2 <;> simp [Cache.failure]

namespace Extras

def words (p : Participant) (fault : Fault) : String :=
  "extra participant '" ++ p.name ++ "': " ++ fault.message

theorem closeEach_sent (ps : List Participant) (w : World ε) :
    ∃ answers, answers.map Prod.fst = ps.filter (·.closeable) ∧
      (closeEach services ps w).1 = complaints words answers ∧
      Sent log id (answers.map fun answered => .closedExtra answered.1 answered.2) w
        (closeEach services ps w).2 := by
  induction ps generalizing w with
  | nil => exact ⟨[], rfl, rfl, .none w⟩
  | cons p rest ih =>
      unfold closeEach
      cases closeable : p.closeable with
      | false =>
          rw [List.filter_cons_of_neg (by simp [closeable])]
          exact ih w
      | true =>
          rw [List.filter_cons_of_pos closeable, if_pos rfl, bind_apply]
          have call := logs.closeParticipant p w
          generalize services.closeParticipant p w = answered at call ⊢
          obtain ⟨answer, next⟩ := answered
          cases answer with
          | ok done =>
              obtain ⟨answers, everybody, messages, others⟩ := ih next
              exact ⟨(p, .ok ()) :: answers, congrArg (p :: ·) everybody, messages,
                call.append others⟩
          | error fault =>
              have logged := call.quiet (logs.report
                ⟨.warn, .cache, "Error closing extra participant"⟩ next)
              obtain ⟨answers, everybody, messages, others⟩ :=
                ih (services.report ⟨.warn, .cache, "Error closing extra participant"⟩ next).2
              exact ⟨(p, .error fault) :: answers, congrArg (p :: ·) everybody,
                congrArg (words p fault :: ·) messages, logged.append others⟩

end Extras

omit logs in
def closesOf (answers : List ((Key × Dataset) × Except Fault Unit)) : List Errand :=
  answers.map fun answered => .closedDataset answered.1.2 answered.2

namespace Store

def words (entry : Key × Dataset) (fault : Fault) : String :=
  (Fault.release entry.1.display fault.message).message

theorem releaseEach_sent (store : Store) (entries : List (Key × Dataset)) (w : World ε) :
    ∃ answers, answers.map Prod.fst = entries ∧
      (store.releaseEach services entries w).1.1 = complaints words answers ∧
      Sent log id (closesOf answers) w (store.releaseEach services entries w).2 := by
  induction entries generalizing store w with
  | nil => exact ⟨[], rfl, rfl, .none w⟩
  | cons entry rest ih =>
      have call := logs.closeDataset entry.2 w
      simp only [releaseEach, release, bind_apply, pure_apply]
      generalize services.closeDataset entry.2 w = answered at call ⊢
      obtain ⟨answer, next⟩ := answered
      cases answer with
      | ok done =>
          have logged := call.quiet (logs.report ⟨.debug, .cache, "Released dataset"⟩ next)
          obtain ⟨answers, everything, messages, others⟩ := ih
            { store with stats.releases := store.stats.releases + 1 }
            (services.report ⟨.debug, .cache, "Released dataset"⟩ next).2
          exact ⟨(entry, .ok ()) :: answers, congrArg (entry :: ·) everything, messages,
            logged.append others⟩
      | error fault =>
          have logged := call.quiet (logs.report ⟨.warn, .cache, "Error closing dataset"⟩ next)
          obtain ⟨answers, everything, messages, others⟩ := ih
            { store with
              stats.releases := store.stats.releases + 1
              stats.releaseFailures := store.stats.releaseFailures + 1 }
            (services.report ⟨.warn, .cache, "Error closing dataset"⟩ next).2
          exact ⟨(entry, .error fault) :: answers, congrArg (entry :: ·) everything,
            congrArg (words entry fault :: ·) messages, logged.append others⟩

end Store

namespace Statics

def words (entry : Key × Dataset) (fault : Fault) : String :=
  "static dataset '" ++ entry.1.display ++ "': " ++ fault.message

theorem closeEach_sent (entries : List (Key × Dataset)) (w : World ε) :
    ∃ answers, answers.map Prod.fst = entries ∧
      (closeEach services entries w).1 = complaints words answers ∧
      Sent log id (closesOf answers) w (closeEach services entries w).2 := by
  induction entries generalizing w with
  | nil => exact ⟨[], rfl, rfl, .none w⟩
  | cons entry rest ih =>
      have call := logs.closeDataset entry.2 w
      simp only [closeEach, bind_apply]
      generalize services.closeDataset entry.2 w = answered at call ⊢
      obtain ⟨answer, next⟩ := answered
      cases answer with
      | ok done =>
          obtain ⟨answers, everything, messages, others⟩ := ih next
          exact ⟨(entry, .ok ()) :: answers, congrArg (entry :: ·) everything, messages,
            call.append others⟩
      | error fault =>
          have logged := call.quiet (logs.report
            ⟨.warn, .cache, "Error closing static dataset"⟩ next)
          obtain ⟨answers, everything, messages, others⟩ :=
            ih (services.report ⟨.warn, .cache, "Error closing static dataset"⟩ next).2
          exact ⟨(entry, .error fault) :: answers, congrArg (entry :: ·) everything,
            congrArg (words entry fault :: ·) messages, logged.append others⟩

end Statics

end Parts

end DatasetCache
