import DatasetCache.Cache
import DatasetCache.Proofs.Act

/-!
# Runs of a cache

What the owner of a cache can do, as data: the operations of the cache itself, the use
of a context by a handle on it, and the beginning and the end of a run in a transaction.
What stands between that beginning and that end is the body, so every sequence of
actions is a run, also one that stops in the middle of a body.
-/

namespace DatasetCache.Cache

open Act

variable {ε : Type} (services : Services (Act ε))

/-! ## Running in a transaction, in two halves -/

def enter (cache : Cache) : Act ε (Except Fault ContextId × Cache) := do
  match ← cache.openContext services with
  | (.error fault, cache) => return (.error fault, cache)
  | (.ok c, cache) =>
    match ← Context.start services c with
    | .error fault => return (.error fault, ← cache.dismissContext services)
    | .ok _ => return (.ok c, cache)

def leave (c : ContextId) (failure : Option Fault) (cache : Cache) :
    Act ε (Option Fault × Cache) := do
  let outcome ← match failure with
    | none =>
      match ← Context.finish services c with
      | .ok () => pure none
      | .error fault => pure (some fault)
    | some fault =>
      match ← Context.abort services c fault.message with
      | .ok () => pure ()
      | .error _ => services.warn .transactions "Abort after failed closure did not complete"
      pure (some fault)
  return (outcome, ← cache.dismissContext services)

/-- The value of a body, unless the run as a whole has failed. -/
def result {α : Type} (answer : Except Fault α) : Option Fault → Except Fault α
  | none => answer
  | some fault => .error fault

def failure {α : Type} : Except Fault α → Option Fault
  | .ok _ => none
  | .error fault => some fault

theorem execute_eq {α : Type} (cache : Cache)
    (body : Cache → Act ε (Except Fault α × Cache)) :
    cache.execute services body = (do
      match ← cache.enter services with
      | (.error fault, cache) => return (.error fault, cache)
      | (.ok c, cache) =>
        let (answer, cache) ← body cache
        let (outcome, cache) ← cache.leave services c (failure answer)
        return (result answer outcome, cache)) := by
  funext w
  simp only [execute, enter, bind_apply]
  generalize cache.openContext services w = opened
  obtain ⟨⟨answer, cache⟩, w⟩ := opened
  cases answer with
  | error fault => rfl
  | ok c =>
      simp only [bind_apply]
      generalize Context.start services c w = started
      obtain ⟨answer, w⟩ := started
      cases answer with
      | error fault => rfl
      | ok tx =>
          simp only [bind_apply, pure_apply]
          generalize body cache w = ended
          obtain ⟨⟨answer, cache⟩, w⟩ := ended
          cases answer with
          | ok value =>
              simp only [leave, failure, bind_apply]
              generalize Context.finish services c w = finished
              obtain ⟨outcome, w⟩ := finished
              cases outcome <;> rfl
          | error fault =>
              simp only [leave, failure, bind_apply]
              generalize Context.abort services c fault.message w = aborted
              obtain ⟨outcome, w⟩ := aborted
              cases outcome <;> rfl

/-! ## Actions -/

structure Session where
  cache : Cache
  /-- The contexts of the bodies that are running, the innermost first. -/
  running : List ContextId := []

inductive Action where
  | get (typeName : Option String) (key : Key) (bypass : Bool)
  | dismiss (dataset : Dataset)
  | openContext
  | dismissContext
  | addExtra (p : Participant)
  | removeExtra (p : Participant)
  | invalidate
  | close
  | use (operation : Context.Operation)
  | enter
  | leave (failure : Option Fault)

inductive Answer where
  | done
  | dataset (dataset : Dataset)
  | opened (c : ContextId)
  | outcome (outcome : Context.Outcome)
  | failed (fault : Fault)

def Answer.ofExcept {α : Type} (f : α → Answer) : Except Fault α → Answer
  | .ok a => f a
  | .error fault => .failed fault

namespace Session

def getDataset (s : Session) (key : Key) (bypass : Bool) :
    Option String → Act ε (Except Fault Dataset × Cache)
  | none => s.cache.getAny services key bypass
  | some typeName => s.cache.get services typeName key bypass

def run (s : Session) : Action → Act ε (Answer × Session)
  | .get typeName key bypass => do
    let (answer, cache) ← s.getDataset services key bypass typeName
    return (.ofExcept .dataset answer, { s with cache })
  | .dismiss dataset => return (.done, { s with cache := ← s.cache.dismiss services dataset })
  | .openContext => do
    let (answer, cache) ← s.cache.openContext services
    return (.ofExcept .opened answer, { s with cache })
  | .dismissContext => return (.done, { s with cache := ← s.cache.dismissContext services })
  | .addExtra p => return (.done, { s with cache := ← s.cache.addExtra services p })
  | .removeExtra p => do
    let (answer, cache) ← s.cache.removeExtra p
    return (.ofExcept (fun _ => .done) answer, { s with cache })
  | .invalidate => return (.done, { s with cache := ← s.cache.invalidate services })
  | .close => do
    let (answer, cache) ← s.cache.close services
    return (.ofExcept (fun _ => .done) answer, { s with cache })
  | .use operation => return (.outcome (← operation.run services), s)
  | .enter => do
    let (answer, cache) ← s.cache.enter services
    match answer with
    | .ok c => return (.opened c, { cache, running := c :: s.running })
    | .error fault => return (.failed fault, { s with cache })
  | .leave failure =>
    match s.running with
    | [] => return (.done, s)
    | c :: running => do
      let (outcome, cache) ← s.cache.leave services c failure
      return ((outcome.map Answer.failed).getD .done, { cache, running })

def runAll (s : Session) : List Action → Act ε Session
  | [] => return s
  | action :: rest => do
    let (_, s) ← s.run services action
    s.runAll rest

theorem getDataset_eq (s : Session) (key : Key) (bypass : Bool) (typeName : Option String) :
    ∃ check, (∀ dataset text, check dataset ≠ .error (.inconsistent text)) ∧
      (∀ dataset, (∀ name, typeName = some name → dataset.typeName = name) →
        check dataset = .ok ()) ∧
      s.getDataset services key bypass typeName = s.cache.acquire services key bypass check := by
  cases typeName with
  | none => exact ⟨fun _ => .ok (), by simp, by simp, rfl⟩
  | some name =>
      refine ⟨fun dataset => if dataset.typeName = name then .ok ()
        else .error (.typeMismatch key.name key.display dataset.typeName),
        fun dataset text => ?_, fun dataset fits => if_pos (fits name rfl), rfl⟩
      dsimp only
      split <;> simp

theorem runAll_append (s : Session) (actions more : List Action) (w : World ε) :
    s.runAll services (actions ++ more) w =
      (s.runAll services actions w).1.runAll services more (s.runAll services actions w).2 := by
  induction actions generalizing s w with
  | nil => rfl
  | cons action rest ih => exact ih _ _

end Session

/-! ## Runs -/

/-- A condition on the single step: on the session and the world before it, the action,
its answer, and the session and the world after it. -/
abbrev Condition (ε : Type) :=
  Session → World ε → Action → Answer → Session → World ε → Prop

/-- The condition holds at every step of a run. -/
def Throughout (condition : Condition ε) (s : Session) (w : World ε) : List Action → Prop
  | [] => True
  | action :: rest =>
    let after := s.run services action w
    condition s w action after.1.1 after.1.2 after.2 ∧
      Throughout condition after.1.2 after.2 rest

def Sometime (condition : Condition ε) (s : Session) (w : World ε) : List Action → Prop
  | [] => False
  | action :: rest =>
    let after := s.run services action w
    condition s w action after.1.1 after.1.2 after.2 ∨
      Sometime condition after.1.2 after.2 rest

section Invariants

variable {services} {I : Session → World ε → Prop} (fair : World ε → Prop)
  (backward : ∀ (s : Session) action w, fair (s.run services action w).2 → fair w)

include backward

theorem runAll_backward {s : Session} {actions : List Action} {w : World ε}
    (ended : fair (s.runAll services actions w).2) : fair w := by
  induction actions generalizing s w with
  | nil => exact ended
  | cons action rest ih => exact backward s action w (ih ended)

variable (allowed : Action → Prop)

theorem throughout_of_invariant {condition : Condition ε}
    (step : ∀ (s : Session) action w, allowed action → fair (s.run services action w).2 → I s w →
      I (s.run services action w).1.2 (s.run services action w).2 ∧
        condition s w action (s.run services action w).1.1 (s.run services action w).1.2
          (s.run services action w).2)
    {s : Session} {actions : List Action} {w : World ε} (here : I s w)
    (allows : ∀ action ∈ actions, allowed action)
    (ended : fair (s.runAll services actions w).2) :
    Throughout services condition s w actions := by
  induction actions generalizing s w with
  | nil => trivial
  | cons action rest ih =>
      obtain ⟨first, now⟩ := step s action w (allows action List.mem_cons_self)
        (runAll_backward fair backward ended) here
      exact ⟨now,
        ih first (fun other member => allows other (List.mem_cons_of_mem action member)) ended⟩

end Invariants

end DatasetCache.Cache
