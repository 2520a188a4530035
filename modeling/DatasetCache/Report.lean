import DatasetCache.Config
import DatasetCache.Context
import DatasetCache.Json

/-!
# Reports

How faults, arguments, configurations and contexts are shown as JSON.  Two things
in a fault are not shown as they are: failed releases are listed in the order of
their text, and of a document that cannot be parsed only the path is told.
-/

namespace DatasetCache.Report

/-! ## Arguments and configurations -/

def arguments (arguments : Arguments) : Json :=
  .arr (arguments.entries.map fun entry => Json.strings [entry.1, entry.2])

def config (config : Config) : Json :=
  .record [
    ("namespace", .str config.realm),
    ("runtime", arguments config.runtime),
    ("statics", .arr (config.statics.entries.map fun entry =>
      .arr [.str entry.1, arguments entry.2]))]

/-! ## Faults -/

def variant : Fault → String
  | .loadRefused _ _ | .loadFailed _ _ | .notFound _ => "Instantiation"
  | .typeMismatch _ _ _ => "TypeMismatch"
  | .inconsistent _ => "InternalConsistency"
  | .release _ _ => "Release"
  | .cleanup _ => "CleanupFailed"
  | .conflict _ => "TransactionConflict"
  | .transactionFailure _ _ => "TransactionFailure"
  | .invalidState _ => "InvalidState"
  | .invalidInput _ => "InvalidInput"
  | .internal _ => "Internal"

def isRelease (failure : String) : Bool :=
  "Error closing '".toList.isPrefixOf failure.toList

def sortTexts (texts : List String) : List String :=
  texts.mergeSort fun a b => (compare a b).isLE

/-- Sorts from the first to the last failed release. -/
def orderReleases (failures : List String) : List String :=
  let before := failures.takeWhile (!isRelease ·)
  let rest := failures.dropWhile (!isRelease ·)
  let after := (rest.reverse.takeWhile (!isRelease ·)).reverse
  before ++ sortTexts (rest.take (rest.length - after.length)) ++ after

def malformedText : String := "Invalid input: Failed to parse cache config: "

/-- The part of a text from the last blank that an opening bracket follows. -/
def fromLastBracket : List Char → Option (List Char)
  | [] => none
  | c :: rest =>
    match fromLastBracket rest with
    | some found => some found
    | none => if c = ' ' ∧ rest.head? = some '(' then some (c :: rest) else none

def condense (message : String) : String :=
  match malformedText.toList.isPrefixOf? message.toList with
  | none => message
  | some rest =>
    let path := if ".toml)".toList.isSuffixOf rest then (fromLastBracket rest).getD [] else []
    malformedText ++ "<toml>" ++ String.ofList path

def shown : Fault → Fault
  | .cleanup failures => .cleanup (orderReleases failures)
  | fault => fault

def faultName : Fault → List (String × Json)
  | .loadRefused name _ | .loadFailed name _ | .notFound name | .typeMismatch name _ _ =>
    [("name", .str name)]
  | _ => []

def faultSource (fault : Fault) : List (String × Json) :=
  match fault.sources with
  | source :: _ => [("source", .str source)]
  | [] => []

def faultFailures : Fault → List (String × Json)
  | .cleanup failures => [("failures", Json.strings failures)]
  | _ => []

def fault (fault : Fault) : List (String × Json) :=
  let fault := shown fault
  [("error", .str (variant fault)), ("message", .str (condense fault.message))]
    ++ faultName fault ++ faultSource fault ++ faultFailures fault

/-! ## Transactions and contexts -/

def transaction (tx : Transaction) : Json := .arr [.nat tx.id, .nat tx.readPointer]

def handle (id : InstanceId) : Json := .str ("#" ++ toString id)

def participantText (p : Participant) : String := "#" ++ toString p.id ++ ":" ++ p.name

def participants (participants : List Participant) : Json :=
  Json.strings (participants.map participantText)

def status : Context.Status → String
  | .idle => "Idle"
  | .active => "Active"
  | .committed => "Committed"
  | .aborted _ => "Aborted"
  | .closed => "Closed"

def abortReason : Context.Status → Json
  | .aborted reason => .str reason
  | _ => .null

def context (context : Context) : Json :=
  .record [
    ("status", .str (status context.status)),
    ("reason", abortReason context.status),
    ("active", .bool context.isActive),
    ("closed", .bool context.isClosed),
    ("tx", .ofOption transaction context.current),
    ("participants", participants context.participants),
    ("pending", .nat context.deferred.length)]

end DatasetCache.Report
