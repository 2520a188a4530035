import DatasetCache.Proofs.Shared.Telling

/-!
# What operations add to the transcript

A start calls the participants after the coordinator, an abort before it, and a finish
comes out in one of three ways: it is kept, it is lost to a conflict before anybody has
persisted anything, or somebody refuses to persist.
-/

namespace DatasetCache

open Act Context Coordinator

variable {ε : Type} (base : Services (StateM ε))

theorem sharing_tells : base.sharing.Tells Passage where
  none := .none
  append := .append
  update := .update
  contexts told := told.contexts
  start p tx w := passage_start base w p tx
  changes p w := passage_changes base w p
  persist p w := passage_persist base w p
  confirm p w := passage_confirm base w p
  rollback p w := passage_rollback base w p
  begin k w := (passage_begin base w k).2
  canCommit k tx changes w := by
    obtain ⟨answer, told⟩ := passage_canCommit base w k tx changes
    rwa [← answer] at told
  commit k tx w := by
    obtain ⟨answer, told⟩ := passage_commit base w k tx
    rwa [← answer] at told
  abort k tx w := passage_abort base w k tx
  invalidate k tx w := passage_invalidate base w k tx
  report d w := passage_report base w d

variable {c : ContextId} {w : World (Shared ε)} {tx : Transaction}

/-! ## Operations -/

/-- The ways in which a finish comes out. -/
inductive Conclusion (ps : List Participant) (tx : Transaction) (more : List Occurrence) :
    Except Fault Unit → Status → Prop where
  | kept (events : events more = [.checked tx (collected more) (.ok true), .tried tx (.ok true)]) :
      Conclusion ps tx more (.ok ()) .committed
  | lost {answer : Except Fault Unit}
      (heard : heard more = (ps.map fun p => (p.id, .changes)) ++ ps.map fun p => (p.id, .rollback))
      (events : events more =
        [.checked tx (collected more) (.ok false), settlement tx (undone more)])
      (undone : undone more = true → answer = .error (.conflict tx.id))
      (left : DatasetCache.undone more = false →
        ∃ text, answer = .error (.transactionFailure tx.id text)) :
      Conclusion ps tx more answer (.aborted "conflict detected")
  | refused {answer : Except Fault Unit} (reason : String)
      (events : events more =
        [.checked tx (collected more) (.ok true), settlement tx (undone more)])
      (failed : ∃ text, answer = .error (.transactionFailure tx.id text)) :
      Conclusion ps tx more answer (.aborted reason)

def asked (occurrences : List Occurrence) : List (InstanceId × Callback) :=
  (heard occurrences).filter (·.2 = .changes)

theorem Sweep.asked {ps : List Participant} {callback : Callback} {more : List Occurrence}
    (sweep : Sweep ps callback more) :
    DatasetCache.asked more =
      if callback = .changes then ps.map fun p => (p.id, .changes) else [] := by
  rw [DatasetCache.asked, sweep.heard, List.filter_map]
  by_cases same : callback = .changes
  · subst same
    rw [if_pos rfl, List.filter_eq_self.2 (by simp)]
  · simp [Function.comp_def, same]

@[simp] theorem asked_append (occurrences more : List Occurrence) :
    asked (occurrences ++ more) = asked occurrences ++ asked more := by
  simp [asked]

theorem Retreat.asked {ps : List Participant} {good answer : Except Fault Unit}
    {more : List Occurrence} (retreats : Retreat ps tx good answer more) :
    DatasetCache.asked more = [] := by
  rw [DatasetCache.asked, retreats.heard, List.filter_map]
  simp [Function.comp_def]

structure Aside (occurrences : List Occurrence) : Prop where
  collected : collected occurrences = []
  undone : undone occurrences = true
  asked : asked occurrences = []

theorem Aside.coordinated (event : Coordinator.Event) : Aside [.coordinated event] :=
  ⟨rfl, rfl, rfl⟩

theorem Aside.append {occurrences more : List Occurrence} (first : Aside occurrences)
    (rest : Aside more) : Aside (occurrences ++ more) where
  collected := by rw [collected_append, first.collected, rest.collected, List.append_nil]
  undone := by rw [undone_append, first.undone, rest.undone, Bool.and_true]
  asked := by rw [asked_append, first.asked, rest.asked, List.append_nil]

theorem Sweep.aside {ps : List Participant} {callback : Callback} {more : List Occurrence}
    (sweep : Sweep ps callback more) (untold : callback ≠ .changes)
    (kept : callback ≠ .rollback) : Aside more :=
  ⟨sweep.collected untold, sweep.undone kept, by rw [sweep.asked, if_neg untold]⟩

theorem Sweep.retreat {ps : List Participant} {good answer : Except Fault Unit}
    {told middle rolls : List Occurrence} (sweep : Sweep ps .changes told)
    (between : Aside middle) (retreats : Retreat ps tx good answer rolls) :
    let all := told ++ middle ++ rolls
    DatasetCache.collected all = DatasetCache.collected told ∧
      DatasetCache.undone all = DatasetCache.undone rolls ∧
      DatasetCache.asked all = (ps.map fun p => (p.id, .changes)) ∧
      DatasetCache.events all =
        DatasetCache.events middle ++ [settlement tx (DatasetCache.undone rolls)] := by
  refine ⟨?_, ?_, ?_, ?_⟩
  · simp [between.collected, retreats.collected]
  · simp [sweep.undone, between.undone]
  · simp [sweep.asked, between.asked, retreats.asked]
  · simp [sweep.events, retreats.events]

/-! ### The finish -/

/-- A finish is carried through, with a transcript of who was asked for changes. -/
def Concludes (c : ContextId) (tx : Transaction) (w : World (Shared ε))
    (finished : Except Fault Unit × World (Shared ε)) : Prop :=
  ∃ more status, Conclusion (w.context c).participants tx more finished.1 status ∧
    asked more = ((w.context c).participants.map fun p => (p.id, .changes)) ∧
    Passage (·.modify c (leave status)) more w finished.2

theorem commits_of_course {coordinator last : Coordinator} {entry : InFlight}
    {changes : List Change} {answer : Except Fault Bool} {h : History}
    (flying : coordinator.inFlight.get? tx.id = some entry)
    (course : Course coordinator (.checked tx changes (.ok true) :: .tried tx answer :: h) last) :
    answer = .ok true := by
  rw [← course.tail.tried]
  exact (commit_of_canCommit flying course.checked).1

theorem Finish.concludes {ps : List Participant} {coordinator last : Coordinator} {entry : InFlight}
    {more : List Occurrence} {answer : Except Fault Unit} {status : Status}
    (finish : Finish ps tx more answer status)
    (flying : coordinator.inFlight.get? tx.id = some entry)
    (course : Course coordinator (events more) last) :
    Conclusion ps tx more answer status ∧ asked more = ps.map fun p => (p.id, .changes) := by
  cases finish with
  | @kept told persisted confirmed telling persisting confirming =>
      have after : Aside ([.coordinated (.checked tx (collected told) (.ok true))] ++ persisted ++
          [.coordinated (.tried tx (.ok true))] ++ confirmed) :=
        .append (.append (.append (.coordinated _) (persisting.aside (by simp) (by simp)))
          (.coordinated _)) (confirming.aside (by simp) (by simp))
      simp only [List.append_assoc] at after ⊢
      refine ⟨.kept ?_, ?_⟩
      · rw [collected_append, after.collected]
        simp [telling.events, persisting.events, confirming.events]
      · rw [asked_append, after.asked, telling.asked]
        simp
  | @undone before rolls reason fault answer attempt retreat =>
      have left : DatasetCache.undone rolls = false → ∃ text, answer = .error (.transactionFailure tx.id text) :=
        retreat.left
      cases attempt with
      | conflict telling =>
          obtain ⟨collects, undoes, asks, events⟩ := telling.retreat (.coordinated _) retreat
          refine ⟨.lost ?_ ?_ ?_ ?_, asks⟩
          · simp [telling.heard, retreat.heard]
          · rw [events, collects, undoes]
            simp
          · rw [undoes]
            exact retreat.undone
          · rw [undoes]
            exact retreat.left
      | @unchecked told telling fault =>
          -- a check of what is in flight is answered
          have failed : (coordinator.canCommit tx (collected told)).1 = .error fault := by
            simp only [events_append, telling.events, List.nil_append, events_coordinated,
              List.cons_append] at course
            exact course.checked
          cases clash : coordinator.conflicts entry.readPointer (collected told) with
          | true => rw [canCommit_clash flying clash] at failed; cases failed
          | false => rw [canCommit_clear flying clash] at failed; cases failed
      | @refused asked told persisted telling first persisting reason =>
          have between : Aside
              ([.coordinated (.checked tx (collected told) (.ok true))] ++ persisted) :=
            .append (.coordinated _) (persisting.aside (by simp) (by simp))
          obtain ⟨collects, undoes, asks, events⟩ := telling.retreat between retreat
          rw [← List.append_assoc] at collects undoes asks events
          refine ⟨.refused reason ?_ ?_, asks⟩
          · rw [events, collects, undoes]
            simp [persisting.events]
          · cases undoes' : DatasetCache.undone rolls with
            | true => exact ⟨reason, retreat.undone undoes'⟩
            | false => exact left undoes'
      | outrun telling persisting =>
          simp only [events_append, telling.events, persisting.events, List.nil_append,
            events_coordinated, events_nil, List.cons_append] at course
          cases commits_of_course flying course
      | broken telling persisting fault =>
          simp only [events_append, telling.events, persisting.events, List.nil_append,
            events_coordinated, events_nil, List.cons_append] at course
          cases commits_of_course flying course

theorem finish_passage {entry : InFlight} (current : (w.context c).current = some tx)
    (flying : w.outside.coordinator.inFlight.get? tx.id = some entry) :
    Concludes c tx w (Context.finish base.sharing c w) := by
  obtain ⟨more, status, finish, passage⟩ := (sharing_tells base).finishing current
  obtain ⟨concludes, asks⟩ := finish.concludes flying passage.course
  exact ⟨more, status, concludes, asks, passage⟩

/-! ## Every operation -/

namespace Context

/-- A context that knows whether it is in a transaction, and every participant once. -/
structure Proper (context : Context) : Prop where
  consistent : context.Consistent
  distinct : (context.participants.map (·.id)).Nodup

theorem Proper.living {context : Context} {tx : Transaction} (proper : context.Proper)
    (current : context.current = some tx) : context.isClosed = false := by
  rw [isClosed, proper.consistent.status current]
  rfl

structure Tame (context : Context) (f : Context → Context) : Prop where
  proper : context.Proper → (f context).Proper
  closed : context.isClosed = true → (f context).isClosed = true

namespace Tame

variable {context : Context}

theorem id : Tame context id := ⟨fun proper => proper, fun closed => closed⟩

theorem enter (living : context.isClosed = false) (tx : Transaction) :
    Tame context (Context.enter tx) where
  proper proper := ⟨rfl, proper.distinct⟩
  closed closed := by rw [living] at closed; cases closed

theorem leave (living : context.isClosed = false) {status : Status} (settled : status ≠ .active) :
    Tame context (Context.leave status) where
  proper proper := ⟨by simpa [Consistent, isActive, Context.leave] using settled, proper.distinct⟩
  closed closed := by rw [living] at closed; cases closed

theorem shut : Tame context shut := ⟨fun _ => ⟨rfl, List.nodup_nil⟩, fun _ => rfl⟩

theorem accept {p : Participant} (absent : context.has p = false) :
    Tame context (Context.accept p) where
  proper proper := by
    refine ⟨proper.consistent, ?_⟩
    rw [Context.accept, List.map_append, List.nodup_append]
    refine ⟨proper.distinct, by simp, fun i member j other same => ?_⟩
    obtain rfl : j = p.id := by simpa using other
    obtain ⟨q, present, named⟩ := List.mem_map.1 member
    have found := Participant.isIn_of_mem present
    rw [named.trans same] at found
    exact absurd found (by rw [← has, absent]; simp)
  closed closed := closed

theorem expel (p : Participant) : Tame context (Context.expel p) where
  proper proper := ⟨proper.consistent, proper.distinct.sublist (List.filter_sublist.map _)⟩
  closed closed := closed

theorem queue (p : Participant) : Tame context (Context.queue p) :=
  ⟨fun proper => ⟨proper.consistent, proper.distinct⟩, fun closed => closed⟩

end Tame

end Context

/-- What an operation on a context amounts to, given the coordinator that it finds. -/
inductive Dealing (context : Context) (coordinator : Coordinator) (more : List Occurrence) :
    Operation → Outcome → (Context → Context) → Prop where
  | aside {operation : Operation} {outcome : Outcome} {f : Context → Context}
      (silent : events more = []) (current : (f context).current = context.current)
      (unstarted : ∀ tx, outcome ≠ .started tx)
      (unfinished : ∀ c, operation = .finish c →
        context.current = none ∧ ∃ text, outcome = .failed (.invalidState text)) :
      Dealing context coordinator more operation outcome f
  | begun {c : ContextId} (idle : context.current = none)
      (events : events more = [.began coordinator.begin.1]) :
      Dealing context coordinator more (.start c) (.started coordinator.begin.1)
        (enter coordinator.begin.1)
  | finished {c : ContextId} {tx : Transaction} {answer : Except Fault Unit} {status : Status}
      (current : context.current = some tx)
      (concludes : Conclusion context.participants tx more answer status)
      (asks : asked more = context.participants.map fun p => (p.id, .changes)) :
      Dealing context coordinator more (.finish c) (.ofExcept (fun _ => .done) answer)
        (leave status)
  | settled {operation : Operation} {outcome : Outcome} {f : Context → Context}
      {tx : Transaction} (current : context.current = some tx)
      (events : events more = [settlement tx (undone more)]) (left : (f context).current = none)
      (unstarted : ∀ tx, outcome ≠ .started tx)
      (unfinished : ∀ c, operation ≠ .finish c) :
      Dealing context coordinator more operation outcome f

def Deals (operation : Operation) (w : World (Shared ε)) (answered : Outcome × World (Shared ε)) :
    Prop :=
  ∃ f more, Dealing (w.context operation.target) w.outside.coordinator more operation answered.1 f ∧
    Tame (w.context operation.target) f ∧
    Passage (·.modify operation.target f) more w answered.2

section Run

variable (c : ContextId) (w : World (Shared ε))

theorem aside_deals {operation : Operation} {answered : Outcome × World (Shared ε)}
    {f : Context → Context} {more : List Occurrence} (silent : events more = [])
    (current : (f (w.context operation.target)).current = (w.context operation.target).current)
    (tame : Tame (w.context operation.target) f)
    (passage : Passage (·.modify operation.target f) more w answered.2)
    (unstarted : ∀ tx, answered.1 ≠ .started tx) (other : ∀ c, operation ≠ .finish c) :
    Deals operation w answered :=
  ⟨f, more, .aside silent current unstarted fun c same => absurd same (other c), tame, passage⟩

theorem idle_deals {operation : Operation} {outcome : Outcome}
    (unstarted : ∀ tx, outcome ≠ .started tx) (other : ∀ c, operation ≠ .finish c) :
    Deals operation w (outcome, w) :=
  aside_deals w events_nil rfl .id (Account.still (.none w) _) unstarted other

theorem start_deals (proper : (w.context c).Proper) :
    Deals (.start c) w ((Operation.start c).run base.sharing w) := by
  have refused : ∀ fault, Context.start base.sharing c w = (.error fault, w) →
      Deals (.start c) w ((Operation.start c).run base.sharing w) := by
    intro fault refused
    simp only [Operation.run, bind_apply, refused]
    exact idle_deals w (by simp [Outcome.ofExcept]) (by simp)
  cases closed : (w.context c).isClosed with
  | true => exact refused _ (start_closed base.sharing closed)
  | false =>
      rcases start_cases base.sharing c w with ⟨fault, same⟩ | ⟨inactive, launched⟩
      · exact refused fault same
      · have issued := (passage_begin base w (w.context c).coordinator).1
        rcases (sharing_tells base).launching c (w.context c).coordinator w with
          ⟨fault, -, refused, -⟩ | ⟨tx, more, answers, begins, begun, passage⟩
        · rw [issued] at refused
          cases refused
        · obtain rfl : w.outside.coordinator.begin.1 = tx := by
            rw [issued] at begins
            exact Except.ok.inj begins
          simp only [Operation.run, bind_apply, launched, answers]
          exact ⟨_, more, .begun (proper.consistent.unused_iff.2 inactive) begun,
            .enter closed _, passage⟩

theorem finish_deals (proper : (w.context c).Proper)
    (flying : ∀ tx, (w.context c).current = some tx →
      ∃ entry, w.outside.coordinator.inFlight.get? tx.id = some entry) :
    Deals (.finish c) w ((Operation.finish c).run base.sharing w) := by
  cases current : (w.context c).current with
  | none =>
      have refused : Context.finish base.sharing c w =
          (.error (.invalidState "no transaction in progress"), w) := by
        rw [finish_eq, bind_apply, Context.read, current]
        rfl
      simp only [Operation.run, bind_apply, refused]
      exact ⟨_, _, .aside events_nil rfl (by simp [Outcome.ofExcept])
        fun _ _ => ⟨current, _, rfl⟩, .id,
        Account.still (.none w) c⟩
  | some tx =>
      obtain ⟨entry, found⟩ := flying tx current
      obtain ⟨more, status, concludes, asks, passage⟩ := finish_passage base current found
      have settled : status ≠ .active := by
        generalize (Context.finish base.sharing c w).1 = answer at concludes
        cases concludes <;> simp
      simp only [Operation.run, bind_apply]
      exact ⟨_, more, .finished current concludes asks, .leave (proper.living current) settled,
        passage⟩

theorem abort_deals (proper : (w.context c).Proper) (reason : String) {operation : Operation}
    (here : operation.target = c) (other : ∀ c, operation ≠ .finish c) :
    Deals operation w
      (.ofExcept (fun _ => .done) (Context.abort base.sharing c reason w).1,
        (Context.abort base.sharing c reason w).2) := by
  have unstarted : ∀ (answer : Except Fault Unit) tx,
      Outcome.ofExcept (fun _ => .done) answer ≠ .started tx := by
    intro answer tx
    cases answer <;> simp [Outcome.ofExcept]
  subst here
  cases current : (w.context operation.target).current with
  | none =>
      have idle : Context.abort base.sharing operation.target reason w = (.ok (), w) := by
        rw [abort_eq, bind_apply, Context.read, current]
        rfl
      rw [idle]
      exact idle_deals w (unstarted _) other
  | some tx =>
      obtain ⟨more, retreats, passage⟩ := (sharing_tells base).aborting current reason
      exact ⟨_, more, .settled current retreats.events rfl (unstarted _) other,
        .leave (proper.living current) (by simp), passage⟩

theorem close_deals (proper : (w.context c).Proper) {operation : Operation} {outcome : Outcome}
    (here : operation.target = c) (other : ∀ c, operation ≠ .finish c)
    (unstarted : ∀ tx, outcome ≠ .started tx) :
    Deals operation w (outcome, (Context.close base.sharing c w).2) := by
  subst here
  obtain ⟨more, passage, settles⟩ := (sharing_tells base).closing proper.consistent
  cases current : (w.context operation.target).current with
  | none =>
      rw [current] at settles
      subst settles
      exact aside_deals w events_nil current.symm .shut passage unstarted other
  | some tx =>
      rw [current] at settles
      obtain ⟨answer, retreats⟩ := settles
      exact ⟨_, more, .settled current retreats.events rfl unstarted other, .shut, passage⟩

theorem enrol_deals (p : Participant) :
    Deals (.enrol c p) w ((Operation.enrol c p).run base.sharing w) := by
  obtain ⟨more, silent, same | ⟨absent, joined⟩⟩ :=
    (sharing_tells base).enrolling c p w
  · exact aside_deals w silent rfl .id (Account.still same c) nofun nofun
  · exact aside_deals w silent rfl (.accept absent) joined nofun nofun

theorem withdraw_deals (p : Participant) :
    Deals (.withdraw c p) w ((Operation.withdraw c p).run base.sharing w) := by
  simp only [Operation.run, bind_apply]
  cases active : (w.context c).isActive with
  | true =>
      rw [withdraw_active active]
      exact idle_deals w (by simp [Outcome.ofExcept]) (by simp)
  | false =>
      rw [withdraw_inactive active]
      exact aside_deals w events_nil rfl (.expel p) (.update w c _)
        (by simp [Outcome.ofExcept]) (by simp)

end Run

theorem run_deals {operation : Operation} {w : World (Shared ε)}
    (proper : (w.context operation.target).Proper)
    (flying : ∀ tx, (w.context operation.target).current = some tx →
      ∃ entry, w.outside.coordinator.inFlight.get? tx.id = some entry) :
    Deals operation w (operation.run base.sharing w) := by
  cases operation with
  | enrol c p => exact enrol_deals base c w p
  | withdraw c p => exact withdraw_deals base c w p
  | contains c p => exact idle_deals w nofun nofun
  | defer c p => exact aside_deals w events_nil rfl (.queue p) (.update w c _) nofun nofun
  | start c => exact start_deals base c w proper
  | finish c => exact finish_deals base c w proper flying
  | abort c => exact abort_deals base c w proper _ rfl nofun
  | abortWith c reason => exact abort_deals base c w proper reason rfl nofun
  | cleanup c => exact close_deals base c w proper rfl nofun nofun
  | discard c => exact close_deals base c w proper rfl nofun nofun
  | inspect c => exact idle_deals w nofun nofun

end DatasetCache
