import DatasetCache.Fault
import DatasetCache.Transaction

/-!
# The in-process coordinator

A coordinator issues transactions, decides which may commit and counts how they
ended.  The first committer wins: a transaction conflicts when one that committed
after it started reported a common change.  The change set of a committed
transaction is retained for as long as some transaction in flight started before
that commit.
-/

namespace DatasetCache

namespace Coordinator

structure InFlight where
  readPointer : Nat
  changes : List Change
  deriving DecidableEq, Repr

/-- The change set of a committed transaction and the version of that commit. -/
structure Committed where
  version : Nat
  changes : List Change
  deriving DecidableEq, Repr

def overlap (left right : List Change) : Bool := left.any (· ∈ right)

end Coordinator

open Coordinator in
structure Coordinator where
  lastId : Nat := 0
  version : Nat := 0
  inFlight : Table Nat InFlight := Table.empty
  retained : List Committed := []
  invalid : List Nat := []
  started : Nat := 0
  committed : Nat := 0
  aborted : Nat := 0
  invalidated : Nat := 0
  deriving DecidableEq, Repr, Inhabited

namespace Coordinator

/-! ## Reading -/

def isInvalid (c : Coordinator) (id : Nat) : Bool := c.invalid.contains id

/-- Transactions started and not yet counted under an outcome. -/
def active (c : Coordinator) : Nat := c.started - (c.committed + c.aborted + c.invalidated)

def conflicts (c : Coordinator) (readPointer : Nat) (changes : List Change) : Bool :=
  c.retained.any fun earlier => readPointer < earlier.version && overlap earlier.changes changes

def notInProgress (id : Nat) : Fault :=
  .invalidState ("transaction " ++ toString id ++ " is not in progress")

/-! ## Settling -/

/-- Drops the change sets that no transaction in flight can conflict with. -/
def prune (c : Coordinator) : Coordinator :=
  match (c.inFlight.values.map (·.readPointer)).min? with
  | some oldest => { c with retained := c.retained.filter (oldest < ·.version) }
  | none => { c with retained := [] }

def settle (c : Coordinator) (id : Nat) : Coordinator :=
  { c with inFlight := c.inFlight.erase id }.prune

/-! ## Calls -/

def begin (c : Coordinator) : Transaction × Coordinator :=
  let tx : Transaction := ⟨c.lastId + 1, c.version⟩
  (tx, { c with
    lastId := tx.id
    inFlight := c.inFlight.insert tx.id ⟨tx.readPointer, []⟩
    started := c.started + 1 })

/-- Decides whether a change set may commit, and records it if so. -/
def canCommit (c : Coordinator) (tx : Transaction) (changes : List Change) :
    Except Fault Bool × Coordinator :=
  match c.inFlight.get? tx.id with
  | none => (.error (notInProgress tx.id), c)
  | some entry =>
    if c.conflicts entry.readPointer changes then (.ok false, c)
    else (.ok true, { c with inFlight := c.inFlight.insert tx.id { entry with changes } })

def commit (c : Coordinator) (tx : Transaction) : Except Fault Bool × Coordinator :=
  match c.inFlight.get? tx.id with
  | none => (.error (notInProgress tx.id), c)
  | some entry =>
    if c.conflicts entry.readPointer entry.changes then (.ok false, c)
    else
      let version := c.version + 1
      let retained :=
        if entry.changes.isEmpty then c.retained else c.retained ++ [⟨version, entry.changes⟩]
      (.ok true,
        { { c with version, retained }.settle tx.id with committed := c.committed + 1 })

def abort (c : Coordinator) (tx : Transaction) : Coordinator :=
  { c.settle tx.id with aborted := c.aborted + 1 }

def invalidate (c : Coordinator) (tx : Transaction) : Coordinator :=
  let invalid := if c.isInvalid tx.id then c.invalid else tx.id :: c.invalid
  { { c with invalid }.settle tx.id with invalidated := c.invalidated + 1 }

end Coordinator

end DatasetCache
