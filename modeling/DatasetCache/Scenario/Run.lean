import DatasetCache.Scenario.Action

/-!
# Running scenarios

Steps are done in order.  Each is answered by its reply together with what was seen
meanwhile: the state of the thing it is about, the events, and the log down to a
level.  What is seen before the first step inside a transaction belongs to that step.
-/

namespace DatasetCache.Scenario

open Run

/-! ## What a step is about -/

inductive Subject where
  | coordinator (label : String)
  | context (label : String)
  | store (label : String)
  | tracker (label : String)
  | extras (label : String)
  | statics (label : String)
  | cache (label : String)
  | nothing
  deriving DecidableEq, Repr

def Action.subject : Action → Subject
  | .object _ _ | .instantiator _ _ | .metrics _ _ => .nothing
  | .coordinator label _ => .coordinator label
  | .context label _ => .context label
  | .request asked => .context asked.context
  | .store label _ => .store label
  | .tracker label _ => .tracker label
  | .extras label _ => .extras label
  | .statics label _ => .statics label
  | .cache label _ => .cache label

/-- What an answered action is about.  A cache that could not be made is nothing,
even if its label still stands for an earlier one. -/
def Action.subjectAfter (action : Action) (reply : Reply) : Subject :=
  match action, reply with
  | .cache _ (.create ..), .fault _ => .nothing
  | _, _ => action.subject

/-! ## States -/

def coordinatorState (c : Coordinator) : Json :=
  .record [
    ("active", .nat c.active),
    ("started", .nat c.started),
    ("committed", .nat c.committed),
    ("aborted", .nat c.aborted),
    ("invalidated", .nat c.invalidated),
    ("commit_rate", .str c.commitRate),
    ("retained", .nat c.retained.length)]

def statsJson (stats : Store.Stats) : Json :=
  .arr [.nat stats.hits, .nat stats.misses, .nat stats.bypassLoads, .nat stats.releases,
    .nat stats.releaseFailures]

def storeState (store : Store) : Json :=
  .record [
    ("len", .nat store.entries.size),
    ("empty", .bool store.entries.isEmpty),
    ("stats", statsJson store.stats)]

def membersState (size : Nat) (participants : List Participant) : Json :=
  .record [
    ("len", .nat size),
    ("empty", .bool (size = 0)),
    ("participants", Report.participants participants)]

def staticsState (statics : Statics) : Json :=
  .record [
    ("len", .nat statics.datasets.size),
    ("empty", .bool statics.datasets.isEmpty),
    ("keys", .strings (statics.datasets.keys.map Key.display)),
    ("participants", Report.participants statics.participants)]

def cacheState (world : World Stage) (cache : Cache) : Json :=
  .record [
    ("closed", .bool cache.closed),
    ("cached", .nat cache.store.entries.size),
    ("stats", statsJson cache.store.stats),
    ("participants", Report.participants cache.participants),
    ("ctx", .ofOption (fun c => Report.context (world.context c)) cache.context)]

def Subject.state? (world : World Stage) : Subject → Option Json
  | .coordinator label =>
    (labels.managers.get? label).map fun k => coordinatorState (Play.managers.get k world.outside)
  | .context label => (labels.contexts.get? label).map fun c => Report.context (world.context c)
  | .store label => (labels.stores.get? label).map storeState
  | .tracker label =>
    (labels.trackers.get? label).map fun tracker =>
      membersState tracker.active.size tracker.participants
  | .extras label =>
    (labels.extras.get? label).map fun extras =>
      membersState extras.members.length extras.members
  | .statics label => (labels.statics.get? label).map staticsState
  | .cache label => (labels.caches.get? label).map (cacheState world)
  | .nothing => none
where
  labels : Labels := world.outside.labels

/-! ## The log -/

inductive LogLevel where
  | silent | warn | debug
  deriving DecidableEq, Repr

def LogLevel.shows (level : LogLevel) (d : Diagnostic) : Bool :=
  match level with
  | .silent => false
  | .warn => d.level = .warn || d.level = .error
  | .debug => true

def levelText : Diagnostic.Level → String
  | .debug => "DEBUG"
  | .info => "INFO"
  | .warn => "WARN"
  | .error => "ERROR"

def topicText : Diagnostic.Topic → String
  | .cache => "strata::cache"
  | .transactions => "strata::txn"

def logLine (d : Diagnostic) : String :=
  levelText d.level ++ " " ++ topicText d.topic ++ ": " ++ d.text

/-! ## Answers -/

structure Answer where
  json : Json
  failure : Option Fault := none

def unlessEmpty (name : String) (texts : List String) : List (String × Json) :=
  if texts.isEmpty then [] else [(name, .strings texts)]

/-- Puts an answer together, and starts afresh with events and log. -/
def conclude (level : LogLevel) (subject : Subject) (reply : Reply)
    (inner : List (String × Json)) : Run Answer := fun world =>
  let s := world.outside
  let state := (subject.state? world).toList.map fun json => ("state", json)
  let log := (s.log.filter level.shows).map logLine
  let members := reply.members ++ state ++ unlessEmpty "events" s.events.reverse
    ++ unlessEmpty "logs" (Report.sortTexts log) ++ inner
  (⟨.record members, reply.failure?⟩,
    { world with outside := { s with events := [], log := [] } })

/-! ## Steps -/

def Mentions.unmade? (mentions : Mentions) (labels : Labels) : Option String :=
  (check mentions.object labels.objects)
    |>.orElse fun _ => (check mentions.context labels.contexts)
    |>.orElse fun _ => (check mentions.cache labels.caches)
    |>.orElse fun _ => (check mentions.transaction labels.transactions)
    |>.orElse fun _ => (check mentions.other labels.contexts)
    |>.orElse fun _ => check mentions.statics labels.statics
where
  check {α : Type} (label : Option String) (table : Table String α) : Option String :=
    label.filter fun label => !table.contains label

def skipped (label : String) : Answer := ⟨.record [("skip", .str label)], none⟩

/-- Runs steps in a transaction of a cache, which stands under its label meanwhile. -/
def Execution.run (services : Services Run) (execution : Execution) (size : Nat)
    (steps : Run (List Answer × Option Fault)) : Run Reply :=
  with? Labels.caches execution.cache fun cache => do
    play (modify fun s => { s with inner := [] })
    let (answer, cache) ← cache.execute services fun cache => do
      setCache execution.cache cache
      match execution.bind, cache.context with
      | some bind, some c => bindContext bind c
      | _, _ => pure ()
      let (answers, failure) ← steps
      play (modify fun s => { s with inner := answers.map (·.json) })
      let cache := ((← stage).labels.caches.get? execution.cache).getD cache
      match failure.orElse fun _ => execution.failure with
      | some fault => return (.error fault, cache)
      | none => return (.ok size, cache)
    setCache execution.cache cache
    return .ofExcept .nat answer

mutual

def Step.run (services : Services Run) (level : LogLevel) : Step → Run Answer
  | .act mentions action => do
    match mentions.unmade? (← stage).labels with
    | some label => return skipped label
    | none =>
      let reply ← action.run services
      conclude level (action.subjectAfter reply) reply []
  | .execute mentions execution steps => do
    match mentions.unmade? (← stage).labels with
    | some label => return skipped label
    | none =>
      let reply ← execution.run services steps.length
        (runSteps services level execution.propagate steps)
      conclude level (.cache execution.cache) reply [("steps", .arr (← stage).inner)]

/-- Runs steps in order, to the end or until one fails and that ends the rest. -/
def runSteps (services : Services Run) (level : LogLevel) (propagate : Bool) :
    List Step → Run (List Answer × Option Fault)
  | [] => return ([], none)
  | step :: rest => do
    let answer ← step.run services level
    match if propagate then answer.failure else none with
    | some fault => return ([answer], some fault)
    | none =>
      let (answers, failure) ← runSteps services level propagate rest
      return (answer :: answers, failure)

end

/-! ## Scenarios -/

def loadJson (load : Load) : Json :=
  .arr [.str load.realm, .str load.key.name, Report.arguments load.key.arguments]

def loadsJson (s : Stage) : Json :=
  .arr (s.labels.instantiators.entries.map fun entry =>
    .arr [.str entry.1, .arr (((s.instantiators[entry.2]?).getD default).loads.map loadJson)])

def run (level : LogLevel) (steps : List Step) : Json :=
  let services := Stage.services (hookCounts steps + 1)
  let ((answers, _), world) := (runSteps services level false steps).run { outside := {} }
  let s := world.outside
  .record [
    ("steps", .arr (answers.map (·.json))),
    ("objects", .arr (s.objects.map Object.dump)),
    ("loads", loadsJson s)]

end DatasetCache.Scenario
