import DatasetCache.Coordinator.Service
import DatasetCache.Proofs.Context.Parts
import DatasetCache.Proofs.Coordinator.Course

/-!
# One coordinator for all contexts

All contexts share one in-process coordinator, which nothing else uses, and participants
call no context back.  A transcript lists the calls on the participants and on the
coordinator with the answers to them, in order.
-/

namespace DatasetCache

open Act Context Coordinator

variable {ε α : Type}

inductive Occurrence where
  | started (i : InstanceId) (tx : Transaction)
  | told (i : InstanceId) (changes : List Change)
  | persisted (i : InstanceId) (answer : Except Fault Bool)
  | confirmed (i : InstanceId)
  | rolledBack (i : InstanceId) (answer : Except Fault Bool)
  | coordinated (event : Coordinator.Event)

structure Shared (ε : Type) where
  coordinator : Coordinator := {}
  transcript : List Occurrence := []
  inner : ε

namespace Shared

def note (occurrence : Occurrence) : StateM (Shared ε) Unit := fun shared =>
  ((), { shared with transcript := shared.transcript ++ [occurrence] })

def within (x : StateM ε α) : StateM (Shared ε) α := fun shared =>
  ((x shared.inner).1, { shared with inner := (x shared.inner).2 })

/-- Whatever coordinator is named, it is the one that all share. -/
def access : CoordinatorAccess (Shared ε) where
  get _ shared := shared.coordinator
  set _ coordinator shared := { shared with coordinator }

end Shared

open Shared

def Shared.noted (occurrence : α → Occurrence) (x : StateM (Shared ε) α) : StateM (Shared ε) α := do
  let answer ← x
  note (occurrence answer)
  return answer

def Shared.beginning (x : StateM (Shared ε) (Except Fault Transaction)) :
    StateM (Shared ε) (Except Fault Transaction) := do
  match ← x with
  | .ok tx =>
    note (.coordinated (.began tx))
    return .ok tx
  | .error fault => return .error fault

def Services.shared (base : Services (StateM ε)) : Services (StateM (Shared ε)) :=
  let services := base.map within
  let coordination := Shared.access.service services.report
  { services with
    start := fun p tx => noted (fun _ => .started p.id tx) (services.start p tx)
    changes := fun p => noted (.told p.id) (services.changes p)
    persist := fun p => noted (.persisted p.id) (services.persist p)
    confirm := fun p => noted (fun _ => .confirmed p.id) (services.confirm p)
    rollback := fun p => noted (.rolledBack p.id) (services.rollback p)
    begin := fun k => beginning (coordination.begin k)
    canCommit := fun k tx changes =>
      noted (fun answer => .coordinated (.checked tx changes answer))
        (coordination.canCommit k tx changes)
    commit := fun k tx =>
      noted (fun answer => .coordinated (.tried tx answer)) (coordination.commit k tx)
    abort := fun k tx => noted (fun _ => .coordinated (.aborted tx)) (coordination.abort k tx)
    invalidate := fun k tx =>
      noted (fun _ => .coordinated (.invalidated tx)) (coordination.invalidate k tx) }

/-! ## Reading a transcript -/

namespace Occurrence

def event? : Occurrence → Option Coordinator.Event
  | coordinated event => some event
  | _ => none

def heard? : Occurrence → Option (InstanceId × Callback)
  | started i tx => some (i, .start tx)
  | told i _ => some (i, .changes)
  | persisted i _ => some (i, .persist)
  | confirmed i => some (i, .confirm)
  | rolledBack i _ => some (i, .rollback)
  | coordinated _ => none

def changes : Occurrence → List Change
  | told _ changes => changes
  | _ => []

/-- Everything but a rollback that fails, or that says that something is left. -/
def undoes : Occurrence → Bool
  | rolledBack _ (.ok undone) => undone
  | rolledBack _ (.error _) => false
  | _ => true

end Occurrence

def events (occurrences : List Occurrence) : History := occurrences.filterMap Occurrence.event?

def heard (occurrences : List Occurrence) : List (InstanceId × Callback) :=
  occurrences.filterMap Occurrence.heard?

def collected (occurrences : List Occurrence) : List Change :=
  occurrences.flatMap Occurrence.changes

def undone (occurrences : List Occurrence) : Bool := occurrences.all Occurrence.undoes

section Reading

variable (occurrence : Occurrence) (occurrences more : List Occurrence) (event : Coordinator.Event)

@[simp] theorem events_nil : events [] = [] := rfl

@[simp] theorem events_append :
    events (occurrences ++ more) = events occurrences ++ events more :=
  List.filterMap_append

@[simp] theorem events_coordinated :
    events (.coordinated event :: more) = event :: events more := rfl

@[simp] theorem heard_nil : heard [] = [] := rfl

@[simp] theorem heard_append : heard (occurrences ++ more) = heard occurrences ++ heard more :=
  List.filterMap_append

@[simp] theorem heard_coordinated : heard (.coordinated event :: more) = heard more := rfl

theorem heard_cons :
    heard (occurrence :: occurrences) = occurrence.heard?.toList ++ heard occurrences := by
  cases occurrence <;> rfl

@[simp] theorem collected_append :
    collected (occurrences ++ more) = collected occurrences ++ collected more :=
  List.flatMap_append

@[simp] theorem undone_append : undone (occurrences ++ more) = (undone occurrences && undone more) :=
  List.all_append

end Reading

structure Sweep (ps : List Participant) (callback : Callback) (occurrences : List Occurrence) :
    Prop where
  heard : heard occurrences = ps.map fun p => (p.id, callback)
  events : events occurrences = []

namespace Sweep

variable {p : Participant} {ps : List Participant} {callback : Callback}
  {rest occurrences : List Occurrence}

theorem nil : Sweep [] callback [] := ⟨rfl, rfl⟩

theorem cons (first : Occurrence) (call : first.heard? = some (p.id, callback))
    (sweep : Sweep ps callback rest) : Sweep (p :: ps) callback (first :: rest) := by
  refine ⟨by rw [heard_cons, call, sweep.heard]; rfl, ?_⟩
  cases first <;> first | exact sweep.events | simp [Occurrence.heard?] at call

theorem append {qs : List Participant} {more : List Occurrence}
    (first : Sweep ps callback occurrences) (others : Sweep qs callback more) :
    Sweep (ps ++ qs) callback (occurrences ++ more) where
  heard := by rw [heard_append, first.heard, others.heard, List.map_append]
  events := by rw [events_append, first.events, others.events, List.append_nil]

theorem collected (sweep : Sweep ps callback occurrences) (other : callback ≠ .changes) :
    collected occurrences = [] := by
  refine List.flatMap_eq_nil_iff.2 fun occurrence member => ?_
  cases occurrence with
  | told i changes =>
      have call : (i, Callback.changes) ∈ DatasetCache.heard occurrences :=
        List.mem_filterMap.2 ⟨_, member, rfl⟩
      rw [sweep.heard] at call
      obtain ⟨p, -, same⟩ := List.mem_map.1 call
      exact absurd (Prod.mk.inj same).2 other
  | _ => rfl

theorem undone (sweep : Sweep ps callback occurrences) (other : callback ≠ .rollback) :
    undone occurrences = true := by
  refine List.all_eq_true.2 fun occurrence member => ?_
  cases occurrence with
  | rolledBack i answer =>
      have call : (i, Callback.rollback) ∈ DatasetCache.heard occurrences :=
        List.mem_filterMap.2 ⟨_, member, rfl⟩
      rw [sweep.heard] at call
      obtain ⟨p, -, same⟩ := List.mem_map.1 call
      exact absurd (Prod.mk.inj same).2 other
  | _ => rfl

end Sweep

/-! ## What happens in the course of an act -/

/-- The contexts change, the transcript is continued and the coordinator takes its course. -/
structure Passage (change : List Context → List Context) (more : List Occurrence)
    (w w' : World (Shared ε)) : Prop where
  contexts : w'.contexts = change w.contexts
  transcript : w'.outside.transcript = w.outside.transcript ++ more
  course : Course w.outside.coordinator (events more) w'.outside.coordinator

namespace Passage

variable {change other : List Context → List Context} {occurrences more : List Occurrence}
  {w w' w'' : World (Shared ε)}

theorem none (w : World (Shared ε)) : Passage id [] w w :=
  ⟨rfl, (List.append_nil _).symm, .done _⟩

theorem append (first : Passage change occurrences w w') (rest : Passage other more w' w'') :
    Passage (other ∘ change) (occurrences ++ more) w w'' where
  contexts := by rw [rest.contexts, first.contexts, Function.comp_apply]
  transcript := by rw [rest.transcript, first.transcript, List.append_assoc]
  course := by
    rw [events_append]
    exact first.course.append rest.course

theorem update (w : World (Shared ε)) (c : ContextId) (f : Context → Context) :
    Passage (·.modify c f) [] w (w.update c f) :=
  ⟨rfl, (List.append_nil _).symm, .done _⟩

theorem context (first : Passage id occurrences w w') (c : ContextId) :
    w'.context c = w.context c := by
  rw [World.context, World.context, first.contexts, id]

theorem context_self {c : ContextId} {f : Context → Context}
    (passage : Passage (·.modify c f) occurrences w w') (inside : c < w.contexts.length) :
    w'.context c = f (w.context c) := by
  simp [World.context, passage.contexts, inside]

theorem context_cases {c : ContextId} {f : Context → Context}
    (passage : Passage (·.modify c f) occurrences w w') (other : ContextId) :
    w'.context other = w.context other ∨ other = c ∧ w'.context other = f (w.context other) := by
  by_cases same : other = c
  · subst same
    by_cases inside : other < w.contexts.length
    · exact .inr ⟨rfl, passage.context_self inside⟩
    · exact .inl (by simp [World.context, passage.contexts, inside])
  · exact .inl (by simp [World.context, passage.contexts, Ne.symm same])

theorem silent (first : Passage change occurrences w w') (quiet : events occurrences = []) :
    w'.outside.coordinator = w.outside.coordinator := by
  have course := first.course
  rw [quiet] at course
  exact course.last_eq

end Passage

/-! ## Single calls -/

def Services.sharing (base : Services (StateM ε)) : Services (Act (Shared ε)) :=
  base.shared.detached

section Calls

variable (base : Services (StateM ε)) (w : World (Shared ε)) (p : Participant) (k : CoordinatorId)
  (tx : Transaction)

theorem passage_within (x : StateM ε α) : Passage id [] w (Act.outside (Shared.within x) w).2 :=
  ⟨rfl, (List.append_nil _).symm, .done _⟩

theorem passage_report (d : Diagnostic) : Passage id [] w (base.sharing.report d w).2 :=
  passage_within w (base.report d)

theorem passage_start : Passage id [.started p.id tx] w (base.sharing.start p tx w).2 :=
  ⟨rfl, rfl, .done _⟩

theorem passage_changes :
    Passage id [.told p.id (base.sharing.changes p w).1] w (base.sharing.changes p w).2 :=
  ⟨rfl, rfl, .done _⟩

theorem passage_persist :
    Passage id [.persisted p.id (base.sharing.persist p w).1] w (base.sharing.persist p w).2 :=
  ⟨rfl, rfl, .done _⟩

theorem passage_confirm : Passage id [.confirmed p.id] w (base.sharing.confirm p w).2 :=
  ⟨rfl, rfl, .done _⟩

theorem passage_rollback :
    Passage id [.rolledBack p.id (base.sharing.rollback p w).1] w (base.sharing.rollback p w).2 :=
  ⟨rfl, rfl, .done _⟩

theorem passage_begin :
    (base.sharing.begin k w).1 = .ok w.outside.coordinator.begin.1 ∧
      Passage id [.coordinated (.began w.outside.coordinator.begin.1)] w
        (base.sharing.begin k w).2 :=
  ⟨rfl, rfl, rfl, .one _ .begin⟩

theorem passage_canCommit (changes : List Change) :
    let answer := (w.outside.coordinator.canCommit tx changes).1
    (base.sharing.canCommit k tx changes w).1 = answer ∧
      Passage id [.coordinated (.checked tx changes answer)] w
        (base.sharing.canCommit k tx changes w).2 := by
  have step := Course.one w.outside.coordinator (.canCommit tx changes)
  simp only [Coordinator.take] at step
  simp only [Services.sharing, Services.detached, Services.map, Act.outside, Services.shared,
    noted, CoordinatorAccess.service, bind, StateT.bind, CoordinatorAccess.update, access]
  generalize w.outside.coordinator.canCommit tx changes = checked at step ⊢
  obtain ⟨answer, next⟩ := checked
  cases answer with
  | error fault => exact ⟨rfl, rfl, rfl, step⟩
  | ok agreed => cases agreed <;> exact ⟨rfl, rfl, rfl, step⟩

theorem passage_commit :
    let answer := (w.outside.coordinator.commit tx).1
    (base.sharing.commit k tx w).1 = answer ∧
      Passage id [.coordinated (.tried tx answer)] w (base.sharing.commit k tx w).2 := by
  have step := Course.one w.outside.coordinator (.commit tx)
  simp only [Coordinator.take] at step
  simp only [Services.sharing, Services.detached, Services.map, Act.outside, Services.shared,
    noted, CoordinatorAccess.service, bind, StateT.bind, CoordinatorAccess.update, access]
  generalize w.outside.coordinator.commit tx = tried at step ⊢
  obtain ⟨answer, next⟩ := tried
  cases answer with
  | error fault => exact ⟨rfl, rfl, rfl, step⟩
  | ok agreed => cases agreed <;> exact ⟨rfl, rfl, rfl, step⟩

theorem passage_abort :
    Passage id [.coordinated (.aborted tx)] w (base.sharing.abort k tx w).2 :=
  ⟨rfl, rfl, .one _ (.abort tx)⟩

theorem passage_invalidate :
    Passage id [.coordinated (.invalidated tx)] w (base.sharing.invalidate k tx w).2 :=
  ⟨rfl, rfl, .one _ (.invalidate tx)⟩

end Calls

end DatasetCache
