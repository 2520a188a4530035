import DatasetCache.Config
import DatasetCache.Enrolment
import DatasetCache.Statics
import DatasetCache.Store

/-!
# The cache

A `Cache` composes the store of live datasets, the tracker of those in use, the
static datasets and the extra participants.  At most one transaction context is
open at a time.  It starts with the participants of the static datasets, the
tracker and the extras, and participants that come later join it at once.

A dataset that is dismissed while a context is open stays in it and is released
when the context ends; otherwise the release is immediate.

A cache has one owner, and services cannot reach it: every operation takes the
cache and gives back the next one.
-/

namespace DatasetCache

structure Cache where
  store : Store
  tracker : Tracker := {}
  statics : Statics := {}
  extras : Extras := {}
  coordinator : CoordinatorId
  runtime : Arguments := Table.empty
  context : Option ContextId := none
  closed : Bool := false
  deriving DecidableEq, Repr, Inhabited

namespace Cache

variable {ε : Type} (services : Services (Act ε))

/-! ## Construction -/

/-- Builds a cache and loads its static datasets.  A load that fails closes the instantiator;
an invalid configuration is refused before anything is loaded or closed. -/
def create (instantiator : InstantiatorId) (coordinator : CoordinatorId) (config : Config)
    (metrics : Option MetricsId) : Act ε (Except Fault Cache) := do
  match config.validate with
  | .error fault => return .error fault
  | .ok () =>
    let loader : Loader := ⟨instantiator, config.realm, metrics⟩
    match ← Statics.loadAll services (loader.load services) config.staticKeys with
    | .error fault =>
      match ← loader.close services with
      | .ok () => pure ()
      | .error _ =>
        services.warn .cache "Error closing instantiator after failed construction"
      return .error fault
    | .ok statics =>
      services.info .cache "Dataset cache created"
      return .ok { store := { loader }, statics, coordinator, runtime := config.runtime }

/-! ## Reading -/

def realm (cache : Cache) : String := cache.store.loader.realm

def keyFor (cache : Cache) (name : String) (arguments : Arguments) : Key :=
  ⟨name, Arguments.effective name cache.runtime arguments⟩

/-- The participants of the cache, each instance once: those of the static datasets,
the extras and the tracked ones.  There are none while no context is open. -/
def participants (cache : Cache) : List Participant :=
  match cache.context with
  | none => []
  | some _ =>
    (cache.statics.participants ++ cache.extras.members ++ cache.tracker.participants).foldl
      Participant.addTo []

def closedFault : Fault := .invalidState "dataset cache is closed"

/-! ## Getting datasets -/

/-- The dataset of a key, not yet tracked. -/
def fetch (cache : Cache) (key : Key) (bypass : Bool) : Act ε (Except Fault Dataset × Cache) := do
  if cache.closed then
    return (.error closedFault, cache)
  else
    match if bypass then none else cache.statics.get? key with
    | some dataset => return (.ok dataset, cache)
    | none =>
      let (answer, store) ← cache.store.get services key bypass
      return (answer, { cache with store })

/-- Tracks a dataset that takes part in transactions, and enrols it in the open
context when it was not tracked before.  Static datasets take part already. -/
def register (cache : Cache) (key : Key) (dataset : Dataset) :
    Act ε (Except Fault Unit × Cache) := do
  match cache.statics.get? key, dataset.participant with
  | some _, _ => return (.ok (), cache)
  | none, none => return (.ok (), cache)
  | none, some p =>
    match ← cache.tracker.track services key p with
    | (.error fault, tracker) => return (.error fault, { cache with tracker })
    | (.ok false, tracker) => return (.ok (), { cache with tracker })
    | (.ok true, tracker) =>
      match cache.context with
      | none => pure ()
      | some c =>
        if ← Context.enrol services c p then
          services.debug .transactions "Enrolled dataset in open context"
      return (.ok (), { cache with tracker })

/-- Fetches a dataset that passes a check, and registers it unless it is a bypass. -/
def acquire (cache : Cache) (key : Key) (bypass : Bool) (check : Dataset → Except Fault Unit) :
    Act ε (Except Fault Dataset × Cache) := do
  match ← cache.fetch services key bypass with
  | (.error fault, cache) => return (.error fault, cache)
  | (.ok dataset, cache) =>
    match check dataset with
    | .error fault => return (.error fault, cache)
    | .ok () =>
      if bypass then
        return (.ok dataset, cache)
      else
        match ← cache.register services key dataset with
        | (.error fault, cache) => return (.error fault, cache)
        | (.ok (), cache) => return (.ok dataset, cache)

def getAny (cache : Cache) (key : Key) (bypass : Bool) : Act ε (Except Fault Dataset × Cache) :=
  cache.acquire services key bypass fun _ => .ok ()

/-- The dataset of a key, which has to be of a given type.  The name of a type is both what
is compared, before the dataset is tracked, and what the fault shows. -/
def get (cache : Cache) (typeName : String) (key : Key) (bypass : Bool) :
    Act ε (Except Fault Dataset × Cache) :=
  cache.acquire services key bypass fun dataset =>
    if dataset.typeName = typeName then .ok ()
    else .error (.typeMismatch key.name key.display dataset.typeName)

def getNamed (cache : Cache) (typeName name : String) (arguments : Arguments) :
    Act ε (Except Fault Dataset × Cache) :=
  cache.get services typeName (cache.keyFor name arguments) false

/-! ## Dismissal -/

/-- Dismisses a dataset, unless it is static: one key of it stops being tracked.  It is
released when the open context ends if it takes part in transactions, and right
away otherwise. -/
def dismiss (cache : Cache) (dataset : Dataset) : Act ε Cache := do
  if cache.statics.holds dataset.id then
    services.warn .cache "Refusing to dismiss static dataset"
    return cache
  else
    let cache := { cache with tracker := (cache.tracker.untrack dataset.id).2 }
    match cache.context, dataset.participant with
    | some c, some p =>
      if cache.store.holds dataset.id then
        services.debug .cache "Deferring release until context cleanup"
        Context.defer c p
        return cache
      else
        release cache
    | _, _ => release cache
where
  release (cache : Cache) : Act ε Cache := do
    let (found, store) ← cache.store.evictInstance services dataset.id
    if !found then
      services.warn .cache "Dismissed dataset was not acquired through this cache"
    return { cache with store }

/-! ## Contexts -/

/-- Untracks and releases what a context handed back, in order. -/
def releaseDeferred (cache : Cache) : List Participant → Act ε Cache
  | [] => return cache
  | p :: rest => do
    let (found, store) ← cache.store.evictInstance services p.id
    if !found then
      services.debug .cache "Deferred dataset was already released"
    releaseDeferred { cache with store, tracker := (cache.tracker.untrack p.id).2 } rest

/-- Closes a context, which is no longer open, and runs its deferred releases. -/
def endContext (cache : Cache) (c : ContextId) : Act ε Cache := do
  releaseDeferred services { cache with context := none } (← Context.close services c)

def enrolAll (c : ContextId) : List Participant → Act ε Unit
  | [] => return ()
  | p :: rest => do
    let _ ← Context.enrol services c p
    enrolAll c rest

/-- Opens a new context after ending the one that is open, if any. -/
def openContext (cache : Cache) : Act ε (Except Fault ContextId × Cache) := do
  if cache.closed then
    return (.error closedFault, cache)
  else
    let cache ← match cache.context with
      | some previous => cache.endContext services previous
      | none => pure cache
    let c ← Context.create cache.coordinator
    enrolAll services c
      (cache.statics.participants ++ cache.tracker.participants ++ cache.extras.members)
    services.debug .transactions "Opened transaction context"
    return (.ok c, { cache with context := some c })

def dismissContext (cache : Cache) : Act ε Cache := do
  match cache.context with
  | none => return cache
  | some c =>
    let cache ← cache.endContext services c
    services.debug .transactions "Dismissed transaction context"
    return cache

/-! ## Extra participants -/

def addExtra (cache : Cache) (p : Participant) : Act ε Cache := do
  if cache.extras.holds p then
    return cache
  else
    match cache.context with
    | some c =>
      let _ ← Context.enrol services c p
    | none => pure ()
    return { cache with extras := cache.extras.insert p }

/-- Removes a participant from the extras and from the open context.  It stays in the
context, which is a fault, while a transaction is in progress there. -/
def removeExtra (cache : Cache) (p : Participant) : Act ε (Except Fault Unit × Cache) := do
  if cache.extras.holds p then
    let cache := { cache with extras := cache.extras.erase p }
    match cache.context with
    | none => return (.ok (), cache)
    | some c =>
      match ← Context.withdraw c p with
      | .ok _ => return (.ok (), cache)
      | .error fault => return (.error fault, cache)
  else
    return (.ok (), cache)

/-! ## Running in a transaction -/

/-- Runs `body` in a transaction of a new context, which commits if `body` succeeds
and aborts if it fails, and ends the open context in every case. -/
def execute {α : Type} (cache : Cache)
    (body : Cache → Act ε (Except Fault α × Cache)) : Act ε (Except Fault α × Cache) := do
  match ← cache.openContext services with
  | (.error fault, cache) => return (.error fault, cache)
  | (.ok c, cache) =>
    match ← Context.start services c with
    | .error fault => return (.error fault, ← cache.dismissContext services)
    | .ok _ =>
      let (answer, cache) ← body cache
      let outcome ← match answer with
        | .ok value =>
          match ← Context.finish services c with
          | .ok () => pure (.ok value)
          | .error fault => pure (.error fault)
        | .error fault =>
          match ← Context.abort services c fault.message with
          | .ok () => pure ()
          | .error _ =>
            services.warn .transactions "Abort after failed closure did not complete"
          pure (.error fault)
      return (outcome, ← cache.dismissContext services)

/-! ## Reset and end -/

/-- Discards the open context without its deferred releases, forgets the tracked
participants and releases every dataset of the store. -/
def reset (cache : Cache) : Act ε (List String × Cache) := do
  match cache.context with
  | some c => Context.discard services c
  | none => pure ()
  let (failures, store) ← cache.store.evictAll services
  return (failures, { cache with store, tracker := {}, context := none })

def invalidate (cache : Cache) : Act ε Cache := do
  let (failures, cache) ← cache.reset services
  if !failures.isEmpty then
    services.warn .cache "Invalidation finished with release failures"
  return cache

/-- Closes the extras, everything in the store, the static datasets and the
instantiator, whatever fails.  Closing again does nothing. -/
def close (cache : Cache) : Act ε (Except Fault Unit × Cache) := do
  if cache.closed then
    return (.ok (), cache)
  else
    let extraFailures ← cache.extras.closeAll services
    let (storeFailures, cache) ← { cache with closed := true }.reset services
    let (staticFailures, statics) ← cache.statics.closeAll services
    let loaderFailures ← match ← cache.store.loader.close services with
      | .ok () => pure []
      | .error fault => do
        services.warn .cache "Error closing instantiator"
        pure ["instantiator: " ++ fault.message]
    let failures := extraFailures ++ storeFailures ++ staticFailures ++ loaderFailures
    if failures.isEmpty then
      services.info .cache "Dataset cache closed"
      return (.ok (), { cache with statics })
    else
      return (.error (.cleanup failures), { cache with statics })

def drop (cache : Cache) : Act ε Unit := do
  match ← cache.close services with
  | (.ok (), _) => pure ()
  | (.error _, _) => services.warn .cache "Errors closing dataset cache on drop"

end Cache

end DatasetCache
