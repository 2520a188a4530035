import DatasetCache.Key

/-!
# Faults

Everything that can go wrong, by cause.  `Fault.message` is the one place where
the wording is decided.  A load that failed keeps what its loader reported, and
`Fault.sources` follows that chain.
-/

namespace DatasetCache

inductive Fault where
  /-- The loader of a dataset failed with a plain text. -/
  | loadRefused (name reason : String)
  /-- The loader of a dataset failed with a fault of its own. -/
  | loadFailed (name : String) (source : Fault)
  | notFound (name : String)
  | typeMismatch (name key actual : String)
  /-- The cache disagrees with itself about an instance. -/
  | inconsistent (message : String)
  | release (name message : String)
  /-- A teardown that ran to its end, with one entry per failed step. -/
  | cleanup (failures : List String)
  | conflict (transaction : Nat)
  | transactionFailure (transaction : Nat) (reason : String)
  | invalidState (message : String)
  | invalidInput (message : String)
  | internal (message : String)
  deriving DecidableEq, Repr, Inhabited

namespace Fault

def cannotInstantiate (name : String) : String :=
  "Could not instantiate dataset '" ++ name ++ "'"

def message : Fault → String
  | loadRefused name _ => cannotInstantiate name
  | loadFailed name _ => cannotInstantiate name
  | notFound name => "Dataset '" ++ name ++ "' does not exist"
  | typeMismatch _ key actual =>
    "Could not cast dataset '" ++ key ++ "' to requested type. Actual type is " ++ actual ++ "."
  | inconsistent message => "Unexpected state: " ++ message ++ ". This should never happen."
  | release name message => "Error closing '" ++ name ++ "': " ++ message
  | cleanup failures =>
    "Cleanup finished with " ++ toString failures.length ++ " failure(s): "
      ++ "; ".intercalate failures
  | conflict transaction =>
    "Transaction " ++ toString transaction ++ " aborted: conflict detected"
  | transactionFailure transaction reason =>
    "Transaction " ++ toString transaction ++ " failed: " ++ reason
  | invalidState message => "Invalid state: " ++ message
  | invalidInput message => "Invalid input: " ++ message
  | internal message => "Internal error: " ++ message

/-- Whether the cache is broken and must not be used again. -/
def isFatal : Fault → Bool
  | inconsistent _ => true
  | _ => false

def isInstantiation : Fault → Bool
  | loadRefused _ _ | loadFailed _ _ | notFound _ => true
  | _ => false

/-- Messages of the underlying causes, the direct one first. -/
def sources : Fault → List String
  | loadRefused _ reason => [reason]
  | loadFailed _ source => source.message :: source.sources
  | _ => []

end Fault

end DatasetCache
