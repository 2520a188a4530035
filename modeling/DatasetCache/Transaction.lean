/-!
# Transactions and what takes part in them

A transaction is issued by a coordinator.  Datasets and participants are handles
on things that live outside the cache: a handle carries the identity of the
instance and the facts about it that never change.  Two handles denote the same
instance exactly when their identities agree, whichever kind of handle they are.
-/

namespace DatasetCache

structure Transaction where
  id : Nat
  readPointer : Nat
  deriving DecidableEq, Repr, Inhabited

abbrev Change := String

abbrev InstanceId := Nat

structure Participant where
  id : InstanceId
  name : String
  closeable : Bool := false
  deriving DecidableEq, Repr, Inhabited

/-- A dataset as the cache sees it.  The name of its type is what tells types apart, and
what diagnostics show of them. -/
structure Dataset where
  id : InstanceId
  typeName : String
  participant : Option Participant := none
  metered : Bool := false
  deriving DecidableEq, Repr, Inhabited

/-! ## Sets of participants, by identity -/

def Participant.isIn (instanceId : InstanceId) (participants : List Participant) : Bool :=
  participants.any (·.id == instanceId)

/-- Adds a participant at the end, unless its instance is present already. -/
def Participant.addTo (participants : List Participant) (p : Participant) : List Participant :=
  if Participant.isIn p.id participants then participants else participants ++ [p]

def Participant.removeFrom (participants : List Participant) (instanceId : InstanceId) :
    List Participant :=
  participants.filter (·.id != instanceId)

end DatasetCache
