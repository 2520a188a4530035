import DatasetCache.Context

/-!
# The store of live datasets

A `Store` holds at most one live dataset per key.  Datasets are loaded on first
request and stay until they are released, by key, by instance or all together.
A release closes the dataset; a close that fails is counted and logged, and the
entry is gone all the same.
-/

namespace DatasetCache

variable {ε : Type} (services : Services (Act ε))

/-! ## Loading -/

structure Loader where
  instantiator : InstantiatorId
  realm : String
  metrics : Option MetricsId := none
  deriving DecidableEq, Repr, Inhabited

namespace Loader

def metricsTag : String := "dataset"

def load (loader : Loader) (key : Key) : Act ε (Except Fault Dataset) := do
  match ← services.load loader.instantiator loader.realm key with
  | .error fault => return .error (.loadFailed key.name fault)
  | .ok none => return .error (.notFound key.name)
  | .ok (some dataset) =>
    match loader.metrics with
    | some metrics =>
      if dataset.metered then services.meter metrics metricsTag key.name dataset
    | none => pure ()
    return .ok dataset

def close (loader : Loader) : Act ε (Except Fault Unit) :=
  services.closeInstantiator loader.instantiator

end Loader

/-! ## The store -/

structure Store.Stats where
  hits : Nat := 0
  misses : Nat := 0
  bypassLoads : Nat := 0
  releases : Nat := 0
  releaseFailures : Nat := 0
  deriving DecidableEq, Repr, Inhabited

structure Store where
  loader : Loader
  entries : Table Key Dataset := Table.empty
  stats : Store.Stats := {}
  deriving DecidableEq, Repr, Inhabited

namespace Store

def peek? (store : Store) (key : Key) : Option Dataset := store.entries.get? key

/-- A key of an instance.  An instance may be stored under several; that the least of them is
found stands for an arbitrary choice, as a hash table makes it. -/
def keyOf? (store : Store) (instanceId : InstanceId) : Option Key :=
  store.entries.keyWhere? (·.id == instanceId)

def holds (store : Store) (instanceId : InstanceId) : Bool :=
  store.entries.values.any (·.id == instanceId)

/-- The dataset of a key, loaded first if need be.  A bypass loads an instance of
its own, which the store does not keep. -/
def get (store : Store) (key : Key) (bypass : Bool) : Act ε (Except Fault Dataset × Store) := do
  if bypass then
    match ← store.loader.load services key with
    | .error fault => return (.error fault, store)
    | .ok dataset =>
      services.debug .cache "Loaded dataset bypassing cache"
      return (.ok dataset,
        { store with stats.bypassLoads := store.stats.bypassLoads + 1 })
  else
    match store.peek? key with
    | some dataset =>
      return (.ok dataset, { store with stats.hits := store.stats.hits + 1 })
    | none =>
      match ← store.loader.load services key with
      | .error fault => return (.error fault, store)
      | .ok dataset =>
        services.debug .cache "Loaded dataset into cache"
        return (.ok dataset,
          { store with
            entries := store.entries.insert key dataset
            stats.misses := store.stats.misses + 1 })

/-! ## Releasing -/

def release (store : Store) (key : Key) (dataset : Dataset) : Act ε (Option Fault × Store) := do
  let store := { store with stats.releases := store.stats.releases + 1 }
  match ← services.closeDataset dataset with
  | .ok () =>
    services.debug .cache "Released dataset"
    return (none, store)
  | .error fault =>
    services.warn .cache "Error closing dataset"
    return (some (.release key.display fault.message),
      { store with stats.releaseFailures := store.stats.releaseFailures + 1 })

def evict (store : Store) (key : Key) : Act ε (Bool × Store) := do
  match store.peek? key with
  | none => return (false, store)
  | some dataset =>
    let store := { store with entries := store.entries.erase key }
    let (_, store) ← release services store key dataset
    return (true, store)

def evictInstance (store : Store) (instanceId : InstanceId) : Act ε (Bool × Store) := do
  match store.keyOf? instanceId with
  | none => return (false, store)
  | some key => evict services store key

def releaseEach (store : Store) : List (Key × Dataset) → Act ε (List String × Store)
  | [] => return ([], store)
  | (key, dataset) :: rest => do
    let (fault, store) ← release services store key dataset
    let (failures, store) ← releaseEach store rest
    return ((fault.map Fault.message).toList ++ failures, store)

/-- Releases every entry, whatever fails, and gives one message per failure.  The order of
the keys stands for the order of a hash table, which is arbitrary. -/
def evictAll (store : Store) : Act ε (List String × Store) :=
  releaseEach services { store with entries := Table.empty } store.entries.entries

end Store

end DatasetCache
