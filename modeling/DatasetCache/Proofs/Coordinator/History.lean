import Mathlib.Data.List.Induction
import DatasetCache.Coordinator

/-!
# Histories of a coordinator

What a coordinator is asked and what it answers, as data.  A history alone tells
which transactions are in flight, which changes each of them recorded last, and
which transactions have committed since a given one began.
-/

namespace DatasetCache.Coordinator

inductive Call where
  | begin
  | canCommit (tx : Transaction) (changes : List Change)
  | commit (tx : Transaction)
  | abort (tx : Transaction)
  | invalidate (tx : Transaction)
  deriving DecidableEq, Repr

inductive Event where
  | began (tx : Transaction)
  | checked (tx : Transaction) (changes : List Change) (answer : Except Fault Bool)
  | tried (tx : Transaction) (answer : Except Fault Bool)
  | aborted (tx : Transaction)
  | invalidated (tx : Transaction)

def take (c : Coordinator) : Call → Event × Coordinator
  | .begin => (.began c.begin.1, c.begin.2)
  | .canCommit tx changes =>
      (.checked tx changes (c.canCommit tx changes).1, (c.canCommit tx changes).2)
  | .commit tx => (.tried tx (c.commit tx).1, (c.commit tx).2)
  | .abort tx => (.aborted tx, c.abort tx)
  | .invalidate tx => (.invalidated tx, c.invalidate tx)

abbrev History := List Event

/-- The answers of a new coordinator to a sequence of calls, and what becomes of it. -/
def replay (step : Coordinator → Call → Event × Coordinator) (calls : List Call) :
    History × Coordinator :=
  calls.foldl (fun past call =>
    (past.1 ++ [(step past.2 call).1], (step past.2 call).2)) ([], {})

def history (calls : List Call) : History := (replay take calls).1

def after (calls : List Call) : Coordinator := (replay take calls).2

theorem replay_append_singleton (step : Coordinator → Call → Event × Coordinator)
    (calls : List Call) (call : Call) :
    replay step (calls ++ [call]) =
      ((replay step calls).1 ++ [(step (replay step calls).2 call).1],
        (step (replay step calls).2 call).2) := by
  simp [replay, List.foldl_append]

/-! ## What an event says -/

namespace Event

def begins (id : Nat) : Event → Bool
  | .began tx => tx.id == id
  | _ => false

def settles (id : Nat) : Event → Bool
  | .tried tx (.ok true) => tx.id == id
  | .aborted tx => tx.id == id
  | .invalidated tx => tx.id == id
  | _ => false

def winner? : Event → Option Nat
  | .tried tx (.ok true) => some tx.id
  | _ => none

/-- The change list that was accepted for the transaction with this id. -/
def accepted? (id : Nat) : Event → Option (List Change)
  | .checked tx changes (.ok true) => if tx.id = id then some changes else none
  | _ => none

end Event

/-! ## What a history says -/

namespace History

def since (h : History) (id : Nat) : History := h.dropWhile (!·.begins id)

/-- Whether a transaction has begun and has not been settled since. -/
def flying (h : History) (id : Nat) : Bool :=
  !(since h id).isEmpty && (since h id).all (!·.settles id)

/-- The change list last accepted for a transaction, empty if there is none. -/
def recorded (h : History) (id : Nat) : List Change :=
  ((h.filterMap (·.accepted? id)).getLast?).getD []

def winners (h : History) : List Nat := h.filterMap Event.winner?

/-- Whether some transaction that committed since this one began recorded one of
these changes. -/
def conflicts (h : History) (id : Nat) (changes : List Change) : Bool :=
  (winners (since h id)).any fun other => overlap (recorded h other) changes

/-! ## One event more -/

theorem since_append_singleton (h : History) (e : Event) (id : Nat) :
    since (h ++ [e]) id =
      if (since h id).isEmpty then (if e.begins id then [e] else [])
      else since h id ++ [e] := by
  rw [since, List.dropWhile_append]
  split
  next none =>
    cases hb : e.begins id <;> simp [since, none, hb]
  next some => simp [since, some]

theorem since_of_not_begins {h : History} {e : Event} {id : Nat} (other : e.begins id = false) :
    since (h ++ [e]) id = if (since h id).isEmpty then [] else since h id ++ [e] := by
  simp [since_append_singleton, other]

theorem since_of_nonempty {h : History} {e : Event} {id : Nat}
    (begun : (since h id).isEmpty = false) : since (h ++ [e]) id = since h id ++ [e] := by
  simp [since_append_singleton, begun]

theorem recorded_append_singleton (h : History) (e : Event) (id : Nat) :
    recorded (h ++ [e]) id = (e.accepted? id).getD (recorded h id) := by
  cases he : e.accepted? id <;> simp [recorded, he, List.filterMap_append]

theorem winners_append_singleton (h : History) (e : Event) :
    winners (h ++ [e]) = winners h ++ e.winner?.toList := by
  cases he : e.winner? <;> simp [winners, he, List.filterMap_append]

end History

end DatasetCache.Coordinator
