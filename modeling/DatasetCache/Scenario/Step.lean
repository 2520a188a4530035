import DatasetCache.Scenario.Stage

/-!
# Steps

A scenario is a list of steps.  Each has one action on things named by labels, or
runs further steps inside a transaction of a cache.  Apart from what its action
needs, a step mentions labels that have to stand for something before it is done.
-/

namespace DatasetCache.Scenario

/-- The labels that a step mentions, in the order in which they are looked up. -/
structure Mentions where
  object : Option String := none
  context : Option String := none
  cache : Option String := none
  transaction : Option String := none
  other : Option String := none
  statics : Option String := none
  deriving DecidableEq, Repr, Inhabited

inductive TransactionRef where
  | label (name : String)
  | literal (tx : Transaction)
  deriving DecidableEq, Repr

inductive Verb where
  | add | remove | contains | defer | start | finish | abort | cleanup | discard | state
  deriving DecidableEq, Repr

structure Request where
  verb : Verb
  context : String
  object : Option String := none
  reason : Option String := none
  deriving DecidableEq, Repr

inductive DirectCall where
  | participate (method : Method) (tx : Transaction)
  | close
  | typeName
  deriving DecidableEq, Repr

inductive NewObject where
  | table | file | recording | recordingCloseable
  | scripted | scriptedCloseable | scriptedDataset | split
  deriving DecidableEq, Repr

inductive LoadKind where
  | missing | failing | plain | scripted | split | alias (object : String)
  deriving DecidableEq, Repr

inductive PlannedCall where
  | begin | canCommit | commit
  deriving DecidableEq, Repr

inductive Lookup where
  | named (name : String) (arguments : Arguments) (typeName : String)
  | key (key : Key) (bypass : Bool) (typeName : String)
  | any (key : Key) (bypass : Bool)
  deriving DecidableEq, Repr

inductive ConfigSource where
  | given (config : Config)
  | document (text : String)
  deriving DecidableEq, Repr

inductive ObjectAction where
  | create (kind : NewObject) (name : String)
  | failClose
  | refuseCommit
  | setMode (method : String) (mode : Mode)
  | write (change : Change)
  | hook (method : Method) (request : Request)
  | call (call : DirectCall)
  | dump
  deriving DecidableEq, Repr

inductive InstantiatorAction where
  | create
  | setKind (name : String) (kind : LoadKind)
  | failClose
  | query (name : String) (index : Nat)
  deriving DecidableEq, Repr

inductive MetricsAction where
  | create
  | child (tag value bind : String)
  | increment (name : String) (delta : Nat)
  | gauge (name : String) (value : Int)
  | read (counters gauges : List String)
  deriving DecidableEq, Repr

inductive CoordinatorAction where
  | create
  | plan (call : PlannedCall) (results : List Plan)
  | begin (bind : String)
  | canCommit (tx : TransactionRef) (changes : List Change)
  | commit (tx : TransactionRef)
  | abort (tx : TransactionRef)
  | invalidate (tx : TransactionRef)
  | isInvalid (id : Nat)
  | inspect
  deriving DecidableEq, Repr

inductive ContextAction where
  | create (coordinator : String)
  | clone (bind : String)
  | same (other : String)
  | display
  deriving DecidableEq, Repr

inductive StoreAction where
  | create (instantiator realm : String) (metrics : Option String) (closes : Bool)
  | get (key : Key) (bypass : Bool) (bind : Option String)
  | peek (key : Key)
  | keyOf (object : String)
  | contains (object : String)
  | invalidate (key : Key)
  | invalidateInstance (object : String)
  | invalidateParticipant (object : String)
  | invalidateAll
  | realm
  | closeLoader
  deriving DecidableEq, Repr

inductive TrackerAction where
  | create
  | track (key : Key) (object : String)
  | untrack (object : String)
  | get (key : Key)
  | contains (object : String)
  | clear
  deriving DecidableEq, Repr

inductive ExtrasAction where
  | create
  | insert (object : String)
  | remove (object : String)
  | contains (object : String)
  | closeAll
  deriving DecidableEq, Repr

inductive StaticsAction where
  | create
  | load (items : List (Key × Except Fault String))
  | get (key : Key)
  | contains (object : String)
  | closeAll

inductive CacheAction where
  | create (instantiator coordinator : String) (metrics : Option String) (closes : Bool)
      (config : ConfigSource)
  | get (lookup : Lookup) (bind : Option String)
  | dismiss (object : String)
  | openContext (bind : Option String)
  | currentContext (bind : String)
  | dismissContext
  | addExtra (object : String)
  | removeExtra (object : String)
  | staticParticipants
  | keyFor (name : String) (arguments : Arguments)
  | realm
  | invalidate
  | close
  | drop
  deriving DecidableEq, Repr

inductive Action where
  | object (label : String) (action : ObjectAction)
  | instantiator (label : String) (action : InstantiatorAction)
  | metrics (label : String) (action : MetricsAction)
  | coordinator (label : String) (action : CoordinatorAction)
  | context (label : String) (action : ContextAction)
  | request (request : Request)
  | store (label : String) (action : StoreAction)
  | tracker (label : String) (action : TrackerAction)
  | extras (label : String) (action : ExtrasAction)
  | statics (label : String) (action : StaticsAction)
  | cache (label : String) (action : CacheAction)

structure Execution where
  cache : String
  bind : Option String := none
  /-- Whether the first failing step ends the rest. -/
  propagate : Bool := false
  failure : Option Fault := none

inductive Step where
  | act (mentions : Mentions) (action : Action)
  | execute (mentions : Mentions) (execution : Execution) (steps : List Step)

/-! ## Hooks -/

def Action.hookCount : Action → Nat
  | .object _ (.hook _ _) => 1
  | _ => 0

mutual

/-- The number of hooks that a step can queue, which bounds how deep hooks nest. -/
def Step.hookCount : Step → Nat
  | .act _ action => action.hookCount
  | .execute _ _ steps => hookCounts steps

def hookCounts : List Step → Nat
  | [] => 0
  | step :: rest => step.hookCount + hookCounts rest

end

end DatasetCache.Scenario
