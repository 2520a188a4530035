import DatasetCache.Context.Operation
import DatasetCache.Json

/-!
# Stand-ins

The datasets and participants of a scenario.  Tables take part in transactions and
report to metrics, file sets do neither, recorders only take part.  Scripted objects
answer as they are told to and can call contexts from inside a callback.  A split
dataset is represented in transactions by another object, the next one.
-/

namespace DatasetCache.Scenario

inductive Method where
  | start | changes | persist | confirm | rollback
  deriving DecidableEq, Repr

namespace Method

def ofCallback : Context.Callback → Method
  | .start _ => .start
  | .changes => .changes
  | .persist => .persist
  | .confirm => .confirm
  | .rollback => .rollback

def name : Method → String
  | .start => "start_tx"
  | .changes => "tx_changes"
  | .persist => "commit_tx"
  | .confirm => "post_tx_commit"
  | .rollback => "rollback_tx"

end Method

inductive Mode where
  | agree | refuse | fail
  deriving DecidableEq, Repr

structure TableState where
  metrics : Option MetricsId := none
  started : List Nat := []
  changes : List Change := []
  commits : Nat := 0
  confirmations : Nat := 0
  rollbacks : Nat := 0
  refuses : Bool := false
  deriving DecidableEq, Repr

structure ScriptState where
  changes : List Change := []
  persistMode : Mode := .agree
  rollbackMode : Mode := .agree
  closeMode : Mode := .agree
  /-- Operations to run from inside callbacks, the first of a method next. -/
  hooks : List (Method × Context.Operation) := []
  deriving DecidableEq, Repr

inductive Form where
  | participant | closeable | dataset
  deriving DecidableEq, Repr

inductive Kind where
  | table (state : TableState)
  | file
  | recording (closeable : Bool) (events : List String)
  | scripted (form : Form) (script : ScriptState)
  | split
  deriving DecidableEq, Repr

structure Object where
  name : String
  kind : Kind
  closes : Nat := 0
  failsToClose : Bool := false
  deriving DecidableEq, Repr

namespace Object

/-! ## Handles -/

def typeName (o : Object) : String :=
  match o.kind with
  | .table _ => "strata_engine::testing::TableDataset"
  | .file => "strata_engine::testing::FileDataset"
  | .recording _ _ => "strata_engine::testing::RecordingParticipant"
  | .scripted _ _ => "Scripted"
  | .split => "Split"

def isMetered (o : Object) : Bool :=
  match o.kind with
  | .table _ => true
  | _ => false

/-- The object as a participant, or the one that takes part for it. -/
def participant? (o : Object) (id : InstanceId) : Option Participant :=
  match o.kind with
  | .table _ => some { id, name := o.name }
  | .file => none
  | .recording closeable _ => some { id, name := o.name, closeable }
  | .scripted form _ => some { id, name := o.name, closeable := form == .closeable }
  | .split => some { id := id + 1, name := o.name }

def dataset (o : Object) (id : InstanceId) : Dataset where
  id := id
  typeName := o.typeName
  participant := o.participant? id
  metered := o.isMetered

/-! ## Changes of state -/

def onTable (f : TableState → TableState) (o : Object) : Object :=
  match o.kind with
  | .table state => { o with kind := .table (f state) }
  | _ => o

def onScript (f : ScriptState → ScriptState) (o : Object) : Object :=
  match o.kind with
  | .scripted form script => { o with kind := .scripted form (f script) }
  | _ => o

def record (event : String) (o : Object) : Object :=
  match o.kind with
  | .recording closeable events => { o with kind := .recording closeable (events ++ [event]) }
  | _ => o

def setMode (method : String) (mode : Mode) : Object → Object :=
  onScript fun script =>
    if method = "commit_tx" then { script with persistMode := mode }
    else if method = "rollback_tx" then { script with rollbackMode := mode }
    else { script with closeMode := mode }

def write (change : Change) (o : Object) : Object :=
  onScript (fun script => { script with changes := script.changes ++ [change] })
    (onTable (fun state => { state with changes := state.changes ++ [change] }) o)

/-! ## Answers -/

def changes (o : Object) : List Change :=
  match o.kind with
  | .table state => state.changes
  | .scripted _ script => script.changes
  | _ => []

def answer (o : Object) (method : Method) : Mode → Except Fault Bool
  | .agree => .ok true
  | .refuse => .ok false
  | .fail => .error (.internal (o.name ++ " " ++ method.name ++ " exploded"))

def persistAnswer (o : Object) : Except Fault Bool :=
  match o.kind with
  | .table state => .ok (!state.refuses)
  | .scripted _ script => o.answer .persist script.persistMode
  | _ => .ok true

def rollbackAnswer (o : Object) : Except Fault Bool :=
  match o.kind with
  | .scripted _ script => o.answer .rollback script.rollbackMode
  | _ => .ok true

def refusal (noun : String) (o : Object) : Fault :=
  .internal (noun ++ " '" ++ o.name ++ "' refused to close")

def closeAnswer (o : Object) : Except Fault Unit :=
  match o.kind with
  | .table _ => if o.failsToClose then .error (refusal "table" o) else .ok ()
  | .file => if o.failsToClose then .error (refusal "file set" o) else .ok ()
  | .recording _ _ => if o.failsToClose then .error (refusal "participant" o) else .ok ()
  | .scripted _ script =>
    if script.closeMode = .fail then .error (.internal (o.name ++ " close exploded")) else .ok ()
  | .split => .ok ()

def announcesClose (o : Object) : Bool :=
  match o.kind with
  | .scripted form _ => form != .dataset
  | _ => false

def takeHook (method : Method) (o : Object) : Option Context.Operation × Object :=
  match o.kind with
  | .scripted _ script =>
    match script.hooks.find? (·.1 = method) with
    | none => (none, o)
    | some hook =>
      (some hook.2, onScript (fun script => { script with hooks := script.hooks.erase hook }) o)
  | _ => (none, o)

/-! ## Dumps -/

def dump (o : Object) : Json :=
  match o.kind with
  | .table state =>
    .record [
      ("kind", .str "table"),
      ("name", .str o.name),
      ("closes", .nat o.closes),
      ("closed", .bool (0 < o.closes)),
      ("metered", .bool state.metrics.isSome),
      ("started", .arr (state.started.map .nat)),
      ("commits", .nat state.commits),
      ("post_commits", .nat state.confirmations),
      ("rollbacks", .nat state.rollbacks)]
  | .recording closeable events =>
    .record [
      ("kind", .str "recording"),
      ("name", .str o.name),
      ("closes", .nat o.closes),
      ("closeable", .bool closeable),
      ("events", .strings events)]
  | .file => plain "file"
  | .scripted _ _ => plain "scripted"
  | .split => plain "split"
where
  plain (kind : String) : Json :=
    .record [("kind", .str kind), ("name", .str o.name), ("closes", .nat o.closes)]

end Object

end DatasetCache.Scenario
