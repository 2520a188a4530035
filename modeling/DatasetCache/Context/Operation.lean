import DatasetCache.Context

/-!
# Operations on contexts as data

`Operation` lists what can be asked of a context and `Outcome` what comes back.
Callbacks of participants may ask for operations themselves.  `Callbacks` says
which ones; `Callbacks.nested n` runs them, and theirs, to a depth of `n`.
-/

namespace DatasetCache

variable {ε : Type}

namespace Context

inductive Operation where
  | enrol (c : ContextId) (p : Participant)
  | withdraw (c : ContextId) (p : Participant)
  | contains (c : ContextId) (p : Participant)
  | defer (c : ContextId) (p : Participant)
  | start (c : ContextId)
  | finish (c : ContextId)
  | abort (c : ContextId)
  | abortWith (c : ContextId) (reason : String)
  | cleanup (c : ContextId)
  | discard (c : ContextId)
  | inspect (c : ContextId)
  deriving DecidableEq, Repr

inductive Outcome where
  | done
  | flag (value : Bool)
  | started (tx : Transaction)
  | released (participants : List Participant)
  | state (context : Context)
  | failed (fault : Fault)
  deriving DecidableEq, Repr

def Outcome.ofExcept {α : Type} (f : α → Outcome) : Except Fault α → Outcome
  | .ok a => f a
  | .error fault => .failed fault

def Operation.run (services : Services (Act ε)) : Operation → Act ε Outcome
  | .enrol c p => return .flag (← Context.enrol services c p)
  | .withdraw c p => return .ofExcept .flag (← Context.withdraw c p)
  | .contains c p => return .flag ((← read c).has p)
  | .defer c p => do
    Context.defer c p
    return .done
  | .start c => return .ofExcept .started (← Context.start services c)
  | .finish c => return .ofExcept (fun _ => .done) (← Context.finish services c)
  | .abort c => return .ofExcept (fun _ => .done) (← Context.abort services c)
  | .abortWith c reason => return .ofExcept (fun _ => .done) (← Context.abort services c reason)
  | .cleanup c => return .released (← Context.close services c)
  | .discard c => do
    Context.discard services c
    return .done
  | .inspect c => return .state (← read c)

end Context

/-! ## Callbacks that call back -/

namespace Context

/-- A call that a participant takes from a context. -/
inductive Callback where
  | start (tx : Transaction)
  | changes
  | persist
  | confirm
  | rollback
  deriving DecidableEq, Repr

end Context

open Context

/-- What participants do with contexts from inside a callback.  A callback is
entered, runs its operations in order, each followed by `observe`, and only then
gives the answer that the services give for it. -/
structure Callbacks (ε : Type) where
  enter : Participant → Callback → StateM ε (List Operation)
  observe : Participant → Callback → Operation → Outcome → StateM ε Unit

namespace Callbacks

variable (callbacks : Callbacks ε)

def runOperations (services : Services (Act ε)) (p : Participant) (callback : Callback) :
    List Operation → Act ε Unit
  | [] => pure ()
  | operation :: rest => do
    let outcome ← operation.run services
    Act.outside (callbacks.observe p callback operation outcome)
    runOperations services p callback rest

/-- Services whose participants run `body` on entering a callback. -/
def entering (services : Services (Act ε)) (body : Participant → Callback → Act ε Unit) :
    Services (Act ε) :=
  { services with
    start := fun p tx => do
      body p (.start tx)
      services.start p tx
    changes := fun p => do
      body p .changes
      services.changes p
    persist := fun p => do
      body p .persist
      services.persist p
    confirm := fun p => do
      body p .confirm
      services.confirm p
    rollback := fun p => do
      body p .rollback
      services.rollback p }

/-- Services whose callbacks run their operations, nested to a given depth.
Callbacks at the bottom are entered but run none. -/
def nested (services : Services (Act ε)) : Nat → Services (Act ε)
  | 0 => entering services fun p callback => do
    let _ ← Act.outside (callbacks.enter p callback)
  | depth + 1 => entering services fun p callback => do
    let operations ← Act.outside (callbacks.enter p callback)
    callbacks.runOperations (nested services depth) p callback operations

end Callbacks

end DatasetCache
