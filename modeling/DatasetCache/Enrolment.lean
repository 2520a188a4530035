import DatasetCache.Context

/-!
# Who takes part

Two collections say which participants, besides the static ones, a new context
starts with.  The `Tracker` maps the key of each dataset in use to the
participant it is.  The `Extras` are participants that a caller has added and
owns, in the order in which they were added.
-/

namespace DatasetCache

variable {ε : Type} (services : Services (Act ε))

/-! ## Datasets in use -/

structure Tracker where
  active : Table Key Participant := Table.empty
  deriving DecidableEq, Repr, Inhabited

namespace Tracker

def get? (tracker : Tracker) (key : Key) : Option Participant := tracker.active.get? key

def participants (tracker : Tracker) : List Participant := tracker.active.values

def holds (tracker : Tracker) (instanceId : InstanceId) : Bool :=
  Participant.isIn instanceId tracker.participants

def divergence (key : Key) (present found : Participant) : String :=
  "Cache returned '" ++ found.name ++ "' for " ++ key.display
    ++ ", which is different from the active participant '" ++ present.name
    ++ "' for the same key"

/-- Tracks a participant under a key; `true` if the key was not tracked before.
Another instance under the same key is a fault. -/
def track (tracker : Tracker) (key : Key) (p : Participant) :
    Act ε (Except Fault Bool × Tracker) := do
  match tracker.get? key with
  | none => return (.ok true, ⟨tracker.active.insert key p⟩)
  | some present =>
    if present.id = p.id then
      return (.ok false, tracker)
    else
      let text := divergence key present p
      services.report ⟨.error, .cache, text⟩
      return (.error (.inconsistent text), tracker)

/-- Forgets the first key under which an instance is tracked, and tells which. -/
def untrack (tracker : Tracker) (instanceId : InstanceId) : Option Key × Tracker :=
  match tracker.active.keyWhere? (·.id == instanceId) with
  | none => (none, tracker)
  | some key => (some key, ⟨tracker.active.erase key⟩)

end Tracker

/-! ## Participants without a dataset -/

structure Extras where
  members : List Participant := []
  deriving DecidableEq, Repr, Inhabited

namespace Extras

def holds (extras : Extras) (p : Participant) : Bool := Participant.isIn p.id extras.members

def insert (extras : Extras) (p : Participant) : Extras :=
  ⟨Participant.addTo extras.members p⟩

def erase (extras : Extras) (p : Participant) : Extras :=
  ⟨Participant.removeFrom extras.members p.id⟩

def closeEach : List Participant → Act ε (List String)
  | [] => return []
  | p :: rest => do
    if p.closeable then
      match ← services.closeParticipant p with
      | .ok () => closeEach rest
      | .error fault =>
        services.warn .cache "Error closing extra participant"
        return ("extra participant '" ++ p.name ++ "': " ++ fault.message) :: (← closeEach rest)
    else
      closeEach rest

/-- Closes the members that can be closed, whatever fails; one message per
failure.  The members stay. -/
def closeAll (extras : Extras) : Act ε (List String) := closeEach services extras.members

end Extras

end DatasetCache
