import DatasetCache.Context

/-!
# Static datasets

Static datasets are loaded when a cache is built and live until it closes.
Those that can take part in transactions are in every context when it is opened.
-/

namespace DatasetCache

variable {ε : Type} (services : Services (Act ε))

structure Statics where
  datasets : Table Key Dataset := Table.empty
  /-- Capabilities in the order of loading. -/
  participants : List Participant := []
  deriving DecidableEq, Repr, Inhabited

namespace Statics

def get? (statics : Statics) (key : Key) : Option Dataset := statics.datasets.get? key

def holds (statics : Statics) (instanceId : InstanceId) : Bool :=
  statics.datasets.values.any (·.id == instanceId)

def insert (statics : Statics) (key : Key) (dataset : Dataset) : Statics where
  datasets := statics.datasets.insert key dataset
  participants := statics.participants ++ dataset.participant.toList

def closeEach : List (Key × Dataset) → Act ε (List String)
  | [] => return []
  | (key, dataset) :: rest => do
    match ← services.closeDataset dataset with
    | .ok () => closeEach rest
    | .error fault =>
      services.warn .cache "Error closing static dataset"
      return ("static dataset '" ++ key.display ++ "': " ++ fault.message) :: (← closeEach rest)

/-- Closes every dataset and leaves none; one message per failed close. -/
def closeAll (statics : Statics) : Act ε (List String × Statics) := do
  let failures ← closeEach services statics.datasets.entries
  return (failures, {})

/-- Loads the keys in turn on top of what is there.  The first failure stops, and
closes what is there by then, which is not what another load has replaced. -/
def extend (load : Key → Act ε (Except Fault Dataset)) (statics : Statics) :
    List Key → Act ε (Except Fault Statics)
  | [] => return .ok statics
  | key :: rest => do
    match ← load key with
    | .ok dataset =>
      services.debug .cache "Loaded static dataset"
      extend load (statics.insert key dataset) rest
    | .error fault =>
      let _ ← closeAll services statics
      return .error fault

def loadAll (load : Key → Act ε (Except Fault Dataset)) (keys : List Key) :
    Act ε (Except Fault Statics) :=
  extend services load {} keys

end Statics

end DatasetCache
