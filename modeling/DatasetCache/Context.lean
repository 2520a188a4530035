import DatasetCache.Services
import DatasetCache.Text.Quoted

/-!
# Transaction contexts

A context owns the participants of one line of transactions and drives these
through a coordinator.  At most one transaction is in progress at a time; a
participant that joins meanwhile takes part in it at once.  A closed context
refuses to start; only an operation that has closed it on the way, through a
callback, may still give it another status.

Contexts are shared, so they live in a `World` and are named by their place in
it.  The services may reach them too: an operation reads its context anew after
every call it makes.
-/

namespace DatasetCache

abbrev ContextId := Nat

namespace Context

inductive Status where
  | idle
  | active
  | committed
  | aborted (reason : String)
  | closed
  deriving DecidableEq, Repr, Inhabited

end Context

structure Context where
  coordinator : CoordinatorId
  participants : List Participant := []
  deferred : List Participant := []
  current : Option Transaction := none
  status : Context.Status := .idle
  deriving DecidableEq, Repr, Inhabited

def Context.isActive (context : Context) : Bool := context.status == .active

def Context.isClosed (context : Context) : Bool := context.status == .closed

def Context.has (context : Context) (p : Participant) : Bool :=
  Participant.isIn p.id context.participants

/-! ## The world -/

/-- All contexts, and whatever else the services keep. -/
structure World (ε : Type) where
  contexts : List Context := []
  outside : ε

abbrev Act (ε : Type) := StateM (World ε)

variable {ε α : Type}

def Act.outside (x : StateM ε α) : Act ε α := fun w =>
  let (a, outside) := x w.outside
  (a, { w with outside })

def Services.detached (services : Services (StateM ε)) : Services (Act ε) :=
  services.map Act.outside

namespace World

def context (w : World ε) (c : ContextId) : Context := (w.contexts[c]?).getD default

def update (w : World ε) (c : ContextId) (f : Context → Context) : World ε :=
  { w with contexts := w.contexts.modify c f }

end World

namespace Context

def read (c : ContextId) : Act ε Context := fun w => (w.context c, w)

def modify (c : ContextId) (f : Context → Context) : Act ε Unit := fun w => ((), w.update c f)

def create (coordinator : CoordinatorId) : Act ε ContextId := fun w =>
  (w.contexts.length, { w with contexts := w.contexts ++ [{ coordinator }] })

end Context

variable (services : Services (Act ε))

/-! ## Calling all participants -/

namespace Participation

variable (participation : Participation (Act ε))

def startAll (tx : Transaction) : List Participant → Act ε Unit
  | [] => pure ()
  | p :: rest => do
    participation.start p tx
    startAll tx rest

def collectChanges : List Participant → Act ε (List Change)
  | [] => pure []
  | p :: rest => do
    let changes ← participation.changes p
    return changes ++ (← collectChanges rest)

def persistAll : List Participant → Act ε (Option String)
  | [] => pure none
  | p :: rest => do
    match ← participation.persist p with
    | .ok true => persistAll rest
    | .ok false => return some ("participant '" ++ p.name ++ "' refused to persist")
    | .error fault =>
      return some ("participant '" ++ p.name ++ "' failed to persist: " ++ fault.message)

def confirmAll : List Participant → Act ε Unit
  | [] => pure ()
  | p :: rest => do
    participation.confirm p
    confirmAll rest

end Participation

def Services.rollbackAll : List Participant → Act ε (List String)
  | [] => pure []
  | p :: rest => do
    match ← services.rollback p with
    | .ok true => rollbackAll rest
    | .ok false => return p.name :: (← rollbackAll rest)
    | .error _ =>
      services.warn .transactions "Rollback failed"
      return p.name :: (← rollbackAll rest)

namespace Context

/-! ## The participants -/

/-- Enrols a participant; `false` if it was enrolled already or the context is closed. -/
def enrol (c : ContextId) (p : Participant) : Act ε Bool := do
  let context ← read c
  if context.isClosed then
    services.debug .transactions "Ignoring participant for closed context"
    return false
  else if context.has p then
    return false
  else
    modify c fun context => { context with participants := context.participants ++ [p] }
    match context.current with
    | some tx => services.start p tx
    | none => pure ()
    return true

/-- Takes a participant out, which is refused while a transaction is in progress. -/
def withdraw (c : ContextId) (p : Participant) : Act ε (Except Fault Bool) := do
  let context ← read c
  if context.isActive then
    return .error (.invalidState
      ("cannot remove participant '" ++ p.name ++ "' while a transaction is in progress"))
  else
    modify c fun context =>
      { context with participants := Participant.removeFrom context.participants p.id }
    return .ok (context.has p)

def defer (c : ContextId) (p : Participant) : Act ε Unit :=
  modify c fun context => { context with deferred := Participant.addTo context.deferred p }

/-! ## Transactions -/

def start (c : ContextId) : Act ε (Except Fault Transaction) := do
  let context ← read c
  match context.status with
  | .active => return .error (.invalidState "transaction already in progress")
  | .closed => return .error (.invalidState "transaction context is closed")
  | _ =>
    match ← services.begin context.coordinator with
    | .error fault => return .error fault
    | .ok tx =>
      modify c fun context => { context with current := some tx, status := .active }
      services.startAll tx (← read c).participants
      services.debug .transactions "Context transaction started"
      return .ok tx

/-- Rolls back the transaction in progress, if there is one, and settles it: as
aborted, or as invalid when some participant is left with persisted writes. -/
def abort (c : ContextId) (reason : String := "aborted by caller") :
    Act ε (Except Fault Unit) := do
  let context ← read c
  match context.current with
  | none => return .ok ()
  | some tx =>
    let failed ← services.rollbackAll context.participants
    if failed.isEmpty then
      services.abort context.coordinator tx
    else
      services.invalidate context.coordinator tx
    modify c fun context => { context with current := none, status := .aborted reason }
    services.debug .transactions "Context transaction aborted"
    if failed.isEmpty then
      return .ok ()
    else
      return .error (.transactionFailure tx.id ("unable to roll back: " ++ ", ".intercalate failed))

/-- Aborts for a fault, which is the result unless the abort itself fails. -/
def abortFor (c : ContextId) (reason : String) (fault : Fault) : Act ε (Except Fault Unit) := do
  match ← abort services c reason with
  | .ok () => return .error fault
  | .error failure => return .error failure

/-- Commits the transaction in progress: the conflict check, then the participants
persist, then the coordinator commits, then the participants are told.  Whatever
goes wrong aborts. -/
def finish (c : ContextId) : Act ε (Except Fault Unit) := do
  let context ← read c
  match context.current with
  | none => return .error (.invalidState "no transaction in progress")
  | some tx =>
    let changes ← services.collectChanges context.participants
    match ← services.canCommit context.coordinator tx changes with
    | .ok false => abortFor services c "conflict detected" (.conflict tx.id)
    | .error fault => abortFor services c ("conflict check failed: " ++ fault.message) fault
    | .ok true =>
      match ← services.persistAll context.participants with
      | some reason => abortFor services c reason (.transactionFailure tx.id reason)
      | none =>
        match ← services.commit context.coordinator tx with
        | .ok false => abortFor services c "conflict detected at commit" (.conflict tx.id)
        | .error fault => abortFor services c ("commit failed: " ++ fault.message) fault
        | .ok true =>
          services.confirmAll context.participants
          modify c fun context => { context with current := none, status := .committed }
          return .ok ()

/-! ## The end -/

/-- Closes the context and hands back the deferred releases, in the order in which
they were queued.  A transaction in progress is aborted first. -/
def close (c : ContextId) : Act ε (List Participant) := do
  if (← read c).isActive then
    services.warn .transactions "Cleaning up context with a transaction still in progress"
    match ← abort services c "context cleaned up with transaction in progress" with
    | .ok () => pure ()
    | .error _ =>
      services.warn .transactions "Abort during context cleanup did not complete"
  let deferred := (← read c).deferred
  modify c fun context =>
    { context with status := .closed, current := none, participants := [], deferred := [] }
  return deferred

def cleanup (c : ContextId) (release : Participant → Act ε Unit) : Act ε Unit := do
  (← close services c).forM release

def discard (c : ContextId) : Act ε Unit := do
  let _ ← close services c

/-! ## Text -/

def Status.display : Status → String
  | .idle => "Idle"
  | .active => "Active"
  | .committed => "Committed"
  | .aborted reason => "Aborted \x7b reason: " ++ Text.quoted reason ++ " \x7d"
  | .closed => "Closed"

def display (context : Context) : String :=
  "TransactionContext \x7b status: " ++ context.status.display
    ++ ", participants: " ++ toString context.participants.length
    ++ ", deferred: " ++ toString context.deferred.length ++ " \x7d"

end Context

end DatasetCache
