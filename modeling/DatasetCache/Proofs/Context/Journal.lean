import DatasetCache.Proofs.Context.Parts
import DatasetCache.Proofs.Participants

/-!
# A journal of transactions

Coordinators and participants are joined by a journal that lists, in order, which
callbacks the participants receive and what becomes of the transactions.  The journal is
not seen by the services, and it tells nothing to the contexts.
-/

namespace DatasetCache

open Act Context

variable {ε α : Type}

inductive Entry where
  | received (i : InstanceId) (callback : Callback)
  | began (tx : Transaction)
  | committed (tx : Transaction)
  /-- The coordinator is told to abort or to invalidate. -/
  | undone (tx : Transaction)
  deriving DecidableEq, Repr

structure Journal (ε : Type) where
  entries : List Entry := []
  inner : ε

namespace Journal

def note (entry : Entry) : StateM (Journal ε) Unit := fun journal =>
  ((), { journal with entries := journal.entries ++ [entry] })

def within (x : StateM ε α) : StateM (Journal ε) α := fun journal =>
  ((x journal.inner).1, { journal with inner := (x journal.inner).2 })

end Journal

open Journal

def Services.recorded (base : Services (StateM ε)) : Services (StateM (Journal ε)) :=
  { base.map within with
    begin := fun k => do
      let answer ← within (base.begin k)
      match answer with
      | .ok tx => note (.began tx)
      | .error _ => pure ()
      return answer
    commit := fun k tx => do
      let answer ← within (base.commit k tx)
      match answer with
      | .ok true => note (.committed tx)
      | _ => pure ()
      return answer
    abort := fun k tx => do
      within (base.abort k tx)
      note (.undone tx)
    invalidate := fun k tx => do
      within (base.invalidate k tx)
      note (.undone tx) }

def Callbacks.recorded (callbacks : Callbacks ε) : Callbacks (Journal ε) where
  enter p callback := do
    note (.received p.id callback)
    within (callbacks.enter p callback)
  observe p callback operation outcome := within (callbacks.observe p callback operation outcome)

/-- Services that call back, to a given depth, with a journal of it all. -/
def Callbacks.journaled (callbacks : Callbacks ε) (base : Services (StateM ε)) (depth : Nat) :
    Services (Act (Journal ε)) :=
  callbacks.recorded.nested base.recorded.detached depth

namespace Entry

def ofBegin : Except Fault Transaction → List Entry
  | .ok tx => [began tx]
  | .error _ => []

def ofCommit (tx : Transaction) : Except Fault Bool → List Entry
  | .ok true => [committed tx]
  | _ => []

end Entry

/-! ## Reading a journal -/

namespace Entry

def callbackOf? (i : InstanceId) : Entry → Option Callback
  | received j callback => if j = i then some callback else none
  | _ => none

end Entry

def callbacksOf (i : InstanceId) (entries : List Entry) : List Callback :=
  entries.filterMap (Entry.callbackOf? i)

@[simp] theorem callbacksOf_append (i : InstanceId) (entries more : List Entry) :
    callbacksOf i (entries ++ more) = callbacksOf i entries ++ callbacksOf i more := by
  simp [callbacksOf]

@[simp] theorem callbacksOf_began (i : InstanceId) (tx : Transaction) (entries : List Entry) :
    callbacksOf i (.began tx :: entries) = callbacksOf i entries := rfl

@[simp] theorem callbacksOf_committed (i : InstanceId) (tx : Transaction)
    (entries : List Entry) : callbacksOf i (.committed tx :: entries) = callbacksOf i entries :=
  rfl

@[simp] theorem callbacksOf_undone (i : InstanceId) (tx : Transaction) (entries : List Entry) :
    callbacksOf i (.undone tx :: entries) = callbacksOf i entries := rfl

@[simp] theorem callbacksOf_nil (i : InstanceId) : callbacksOf i [] = [] := rfl

/-- All participants of a list receive a callback. -/
def calls (ps : List Participant) (callback : Callback) : List Entry :=
  ps.map fun p => .received p.id callback

theorem callbacksOf_calls {ps : List Participant} (distinct : (ps.map (·.id)).Nodup)
    (i : InstanceId) (callback : Callback) :
    callbacksOf i (calls ps callback) = if Participant.isIn i ps then [callback] else [] := by
  induction ps with
  | nil => rfl
  | cons p rest ih =>
      rw [List.map_cons, List.nodup_cons] at distinct
      obtain ⟨fresh, distinct⟩ := distinct
      have others := ih distinct
      have split : callbacksOf i (calls (p :: rest) callback) =
          (if p.id = i then [callback] else []) ++ callbacksOf i (calls rest callback) := by
        by_cases same : p.id = i <;> simp [callbacksOf, calls, Entry.callbackOf?, same]
      rw [split, others]
      by_cases same : p.id = i
      · have absent : Participant.isIn i rest = false := by
          simp only [Participant.isIn, List.any_eq_false, beq_iff_eq]
          intro q member other
          exact fresh (List.mem_map.2 ⟨q, member, other.trans same.symm⟩)
        have present : Participant.isIn i (p :: rest) = true := by
          simp [Participant.isIn, same]
        simp only [same, absent, present, if_true]
        rfl
      · simp [same, Participant.isIn]

/-! ## What a call adds to the journal -/

structure Adds (entries : List Entry) (w w' : World (Journal ε)) : Prop where
  contexts : w'.contexts = w.contexts
  entries : w'.outside.entries = w.outside.entries ++ entries

namespace Adds

variable {entries more : List Entry} {w w' w'' : World (Journal ε)}

theorem none (w : World (Journal ε)) : Adds [] w w := ⟨rfl, by simp⟩

theorem context (adds : Adds entries w w') (c : ContextId) : w'.context c = w.context c := by
  rw [World.context, World.context, adds.contexts]

theorem append (first : Adds entries w w') (rest : Adds more w' w'') :
    Adds (entries ++ more) w w'' :=
  ⟨rest.contexts.trans first.contexts, by rw [rest.entries, first.entries, List.append_assoc]⟩

theorem quiet (first : Adds entries w w') (rest : Adds [] w' w'') : Adds entries w w'' := by
  have both := first.append rest
  rwa [List.append_nil] at both

end Adds

theorem adds_within (x : StateM ε α) (w : World (Journal ε)) :
    Adds [] w (Act.outside (Journal.within x) w).2 := ⟨rfl, (List.append_nil _).symm⟩

section Coordination

variable (callbacks : Callbacks ε) (base : Services (StateM ε)) (depth : Nat)
  (w : World (Journal ε))

theorem adds_report (d : Diagnostic) :
    Adds [] w ((callbacks.journaled base depth).report d w).2 := by
  cases depth <;> exact adds_within _ w

theorem adds_canCommit (k : CoordinatorId) (tx : Transaction) (changes : List Change) :
    Adds [] w ((callbacks.journaled base depth).canCommit k tx changes w).2 := by
  cases depth <;> exact adds_within _ w

theorem adds_begin (k : CoordinatorId) :
    Adds (Entry.ofBegin ((callbacks.journaled base depth).begin k w).1) w
      ((callbacks.journaled base depth).begin k w).2 := by
  have call : (callbacks.journaled base depth).begin k w =
      Act.outside (base.recorded.begin k) w := by
    cases depth <;> rfl
  rw [call]
  refine ⟨rfl, ?_⟩
  simp only [Act.outside, Services.recorded, bind, StateT.bind, Journal.within]
  cases (base.begin k w.outside.inner).1 with
  | ok tx => rfl
  | error fault => exact (List.append_nil _).symm

theorem adds_commit (k : CoordinatorId) (tx : Transaction) :
    Adds (Entry.ofCommit tx ((callbacks.journaled base depth).commit k tx w).1) w
      ((callbacks.journaled base depth).commit k tx w).2 := by
  have call : (callbacks.journaled base depth).commit k tx w =
      Act.outside (base.recorded.commit k tx) w := by
    cases depth <;> rfl
  rw [call]
  refine ⟨rfl, ?_⟩
  simp only [Act.outside, Services.recorded, bind, StateT.bind, Journal.within]
  match (base.commit k tx w.outside.inner).1 with
  | .ok true => rfl
  | .ok false => exact (List.append_nil _).symm
  | .error fault => exact (List.append_nil _).symm

theorem adds_settle (k : CoordinatorId) (tx : Transaction) (failed : List String) :
    Adds [.undone tx] w (settle (callbacks.journaled base depth) k tx failed w).2 := by
  unfold settle
  cases depth <;> split <;> exact ⟨rfl, rfl⟩

end Coordination

/-! ## Runs on one context -/

def Context.Operation.retarget (c : ContextId) : Operation → Operation
  | .enrol _ p => .enrol c p
  | .withdraw _ p => .withdraw c p
  | .contains _ p => .contains c p
  | .defer _ p => .defer c p
  | .start _ => .start c
  | .finish _ => .finish c
  | .abort _ => .abort c
  | .abortWith _ reason => .abortWith c reason
  | .cleanup _ => .cleanup c
  | .discard _ => .discard c
  | .inspect _ => .inspect c

def Context.Operation.runAll (services : Services (Act ε)) : List Operation → Act ε Unit
  | [] => pure ()
  | operation :: rest => do
    let _ ← operation.run services
    runAll services rest

/-- The world after a new context, the only one, has been asked for some operations. -/
def Context.after (services : Services (Act ε)) (k : CoordinatorId) (operations : List Operation)
    (outside : ε) : World ε :=
  (Operation.runAll services (operations.map (Operation.retarget 0))
    (Context.create k { outside }).2).2

end DatasetCache
