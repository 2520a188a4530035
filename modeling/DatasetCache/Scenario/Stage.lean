import DatasetCache.Cache
import DatasetCache.Coordinator.Service
import DatasetCache.Report
import DatasetCache.Scenario.Object

/-!
# The stage

Everything a scenario has made: the stand-ins, the instantiators that load them, the
metrics they report to, the coordinators, and what each label stands for.  The stage
answers the calls of caches and contexts and keeps what they are seen to do: events,
in the order in which they happen, and the log.
-/

namespace DatasetCache.Scenario

/-! ## Instantiators -/

/-- What loads of a name give instead of what the recording instantiator gives. -/
inductive Special where
  | scripted
  | split
  | alias (id : InstanceId)
  deriving DecidableEq, Repr

structure Load where
  realm : String
  key : Key
  deriving DecidableEq, Repr

structure Instantiator where
  loads : List Load := []
  special : Table String Special := Table.empty
  /-- The loads that no special name answered. -/
  recorded : List Load := []
  failing : List String := []
  missing : List String := []
  plain : List String := []
  tables : List (String × InstanceId) := []
  files : List (String × InstanceId) := []
  closes : Nat := 0
  failsToClose : Bool := false
  deriving DecidableEq, Repr, Inhabited

namespace Instantiator

def record (load : Load) (i : Instantiator) : Instantiator :=
  { i with recorded := i.recorded ++ [load] }

def loadsOf (i : Instantiator) (name : String) : List Load :=
  i.recorded.filter (·.key.name = name)

def named (made : List (String × InstanceId)) (name : String) : List InstanceId :=
  (made.filter (·.1 = name)).map (·.2)

def query (i : Instantiator) (name : String) (index : Nat) : Json :=
  let made := fun (ids : List InstanceId) => Json.ofOption Report.handle ids[index]?
  .record [
    ("load_count", .nat (i.loadsOf name).length),
    ("last_arguments",
      .ofOption (fun load => Report.arguments load.key.arguments) (i.loadsOf name).getLast?),
    ("namespaces", .strings (i.recorded.map (·.realm))),
    ("table_count", .nat (named i.tables name).length),
    ("table", made (named i.tables name)),
    ("file", made (named i.files name)),
    ("close_count", .nat i.closes)]

end Instantiator

/-- An instantiator as a cache uses it; some keep the close for themselves. -/
structure Source where
  instantiator : Nat
  closes : Bool
  deriving DecidableEq, Repr, Inhabited

/-! ## Metrics -/

structure MetricsTree where
  children : List String := []
  counters : Table String Nat := Table.empty
  gauges : Table String Int := Table.empty
  deriving DecidableEq, Repr, Inhabited

structure Sink where
  tree : Nat
  path : String
  deriving DecidableEq, Repr, Inhabited

def Sink.qualify (sink : Sink) (name : String) : String :=
  if sink.path.isEmpty then name else sink.path ++ "." ++ name

/-! ## Coordinators -/

inductive Plan where
  | pass | refuse | fail
  deriving DecidableEq, Repr

/-- A coordinator under its label, with the next answers to give in its stead. -/
structure Manager where
  label : String
  coordinator : Coordinator := {}
  beginPlan : List Plan := []
  canCommitPlan : List Plan := []
  commitPlan : List Plan := []
  deriving DecidableEq, Repr, Inhabited

/-! ## The stage -/

structure Labels where
  objects : Table String InstanceId := Table.empty
  instantiators : Table String Nat := Table.empty
  sinks : Table String MetricsId := Table.empty
  managers : Table String CoordinatorId := Table.empty
  transactions : Table String Transaction := Table.empty
  contexts : Table String ContextId := Table.empty
  caches : Table String Cache := Table.empty
  stores : Table String Store := Table.empty
  trackers : Table String Tracker := Table.empty
  extras : Table String Extras := Table.empty
  statics : Table String Statics := Table.empty

structure Stage where
  objects : List Object := []
  instantiators : List Instantiator := []
  sources : List Source := []
  trees : List MetricsTree := []
  sinks : List Sink := []
  managers : List Manager := []
  labels : Labels := {}
  /-- The latest first. -/
  events : List String := []
  /-- The latest first. -/
  log : List Diagnostic := []
  /-- Answers of the steps inside the last transaction that ran some. -/
  inner : List Json := []
  /-- What the next loads of static datasets give, and how many there were. -/
  supply : List (Except Fault Dataset) := []
  supplied : Nat := 0

abbrev Play := StateM Stage

namespace Play

def event (text : String) : Play Unit :=
  modify fun s => { s with events := text :: s.events }

def report (d : Diagnostic) : Play Unit :=
  modify fun s => { s with log := d :: s.log }

/-! ## Objects -/

def object (id : InstanceId) : Play Object := do
  return ((← get).objects[id]?).getD { name := "", kind := .file }

def change (id : InstanceId) (f : Object → Object) : Play Unit :=
  modify fun s => { s with objects := s.objects.modify id f }

def create (o : Object) : Play InstanceId := fun s =>
  (s.objects.length, { s with objects := s.objects ++ [o] })

def createAll (o : Object) : Play InstanceId := do
  let id ← create o
  if o.kind = .split then
    let _ ← create { name := o.name, kind := .scripted .participant {} }
  return id

def closeObject (id : InstanceId) : Play (Except Fault Unit) := do
  change id fun o => { o with closes := o.closes + 1 }
  let o ← object id
  if o.announcesClose then
    event (o.name ++ " close")
  return o.closeAnswer

/-! ## Metrics -/

def sink (i : MetricsId) : Play Sink := do
  return ((← get).sinks[i]?).getD default

def changeTree (i : Nat) (f : MetricsTree → MetricsTree) : Play Unit :=
  modify fun s => { s with trees := s.trees.modify i f }

def childSink (i : MetricsId) (tag value : String) : Play MetricsId := do
  let parent ← sink i
  let path := parent.qualify (tag ++ "=" ++ value)
  changeTree parent.tree fun tree => { tree with children := tree.children ++ [path] }
  modifyGet fun s => (s.sinks.length, { s with sinks := s.sinks ++ [{ parent with path }] })

/-- Adds to a counter of 64 bits. -/
def increment (i : MetricsId) (name : String) (delta : Nat) : Play Unit := do
  let sink ← sink i
  let name := sink.qualify name
  changeTree sink.tree fun tree =>
    { tree with
      counters := tree.counters.insert name (((tree.counters.get? name).getD 0 + delta) % Nat.pow 2 64) }

def setGauge (i : MetricsId) (name : String) (value : Int) : Play Unit := do
  let sink ← sink i
  changeTree sink.tree fun tree =>
    { tree with gauges := tree.gauges.insert (sink.qualify name) value }

def write (id : InstanceId) (text : Change) : Play Unit := do
  change id (Object.write text)
  match (← object id).kind with
  | .table { metrics := some i, .. } => increment i "writes" 1
  | _ => pure ()

/-! ## Answering participants' calls -/

def participation : Participation Play where
  start p tx :=
    change p.id fun o =>
      o.record ("start:" ++ toString tx.id)
        |>.onTable fun state => { state with started := state.started ++ [tx.id], changes := [] }
  changes p := do return (← object p.id).changes
  persist p := do
    change p.id fun o =>
      o.record "commit" |>.onTable fun state => { state with commits := state.commits + 1 }
    return (← object p.id).persistAnswer
  confirm p :=
    change p.id fun o =>
      o.record "post" |>.onTable fun state =>
        { state with confirmations := state.confirmations + 1 }
  rollback p := do
    change p.id fun o =>
      o.record "rollback" |>.onTable fun state =>
        { state with rollbacks := state.rollbacks + 1, changes := [] }
    return (← object p.id).rollbackAnswer

/-! ## Answering coordinators' calls -/

def managers : CoordinatorAccess Stage where
  get k s := ((s.managers[k]?).getD default).coordinator
  set k coordinator s :=
    { s with managers := s.managers.modify k fun manager => { manager with coordinator } }

def direct : Coordination Play := managers.service report

def announce (k : CoordinatorId) (text : String) : Play Unit := do
  event ((((← get).managers[k]?).getD default).label ++ " " ++ text)

/-- Takes the next entry of a plan, which passes once it is at its end. -/
def takePlan (k : CoordinatorId) (plan : Manager → List Plan)
    (setPlan : List Plan → Manager → Manager) : Play Plan := do
  match plan (((← get).managers[k]?).getD default) with
  | [] => return .pass
  | next :: rest =>
    modify fun s => { s with managers := s.managers.modify k (setPlan rest) }
    return next

def down (call : String) : Fault := .internal ("coordinator " ++ call ++ " down")

def coordination : Coordination Play where
  begin k := do
    announce k "start"
    match ← takePlan k (·.beginPlan) (fun rest m => { m with beginPlan := rest }) with
    | .fail => return .error (down "start")
    | _ => direct.begin k
  canCommit k tx changes := do
    announce k ("can_commit " ++ toString tx.id ++ " " ++ (Json.strings changes).compact)
    match ← takePlan k (·.canCommitPlan) (fun rest m => { m with canCommitPlan := rest }) with
    | .fail => return .error (down "can_commit")
    | .refuse => return .ok false
    | .pass => direct.canCommit k tx changes
  commit k tx := do
    announce k ("commit " ++ toString tx.id)
    match ← takePlan k (·.commitPlan) (fun rest m => { m with commitPlan := rest }) with
    | .fail => return .error (down "commit")
    | .refuse => return .ok false
    | .pass => direct.commit k tx
  abort k tx := do
    announce k ("abort " ++ toString tx.id)
    direct.abort k tx
  invalidate k tx := do
    announce k ("invalidate " ++ toString tx.id)
    direct.invalidate k tx

/-! ## Loading and closing -/

def source (i : InstantiatorId) : Play Source := do
  return ((← get).sources[i]?).getD default

def changeInstantiator (i : Nat) (f : Instantiator → Instantiator) : Play Unit :=
  modify fun s => { s with instantiators := s.instantiators.modify i f }

def instantiator (i : Nat) : Play Instantiator := do
  return ((← get).instantiators[i]?).getD default

def datasetOf (id : InstanceId) : Play Dataset := do return (← object id).dataset id

def madeDataset (o : Object) : Play (Except Fault (Option Dataset)) := do
  return .ok (some (← datasetOf (← createAll o)))

def recordedLoad (i : Nat) (load : Load) : Play (Except Fault (Option Dataset)) := do
  changeInstantiator i (·.record load)
  let state ← instantiator i
  let name := load.key.name
  if name ∈ state.failing then
    return .error (.internal ("backing store for '" ++ name ++ "' unavailable"))
  else if name ∈ state.missing then
    return .ok none
  else if name ∈ state.plain then
    let id ← create { name, kind := .file }
    changeInstantiator i fun state => { state with files := state.files ++ [(name, id)] }
    return .ok (some (← datasetOf id))
  else
    let id ← create { name, kind := .table {} }
    changeInstantiator i fun state => { state with tables := state.tables ++ [(name, id)] }
    return .ok (some (← datasetOf id))

def load (i : Nat) (load : Load) : Play (Except Fault (Option Dataset)) := do
  changeInstantiator i fun state => { state with loads := state.loads ++ [load] }
  let name := load.key.name
  match (← instantiator i).special.get? name with
  | some .scripted => madeDataset { name, kind := .scripted .dataset {} }
  | some .split => madeDataset { name, kind := .split }
  | some (.alias id) => return .ok (some (← datasetOf id))
  | none => recordedLoad i load

def closeInstantiator (i : InstantiatorId) : Play (Except Fault Unit) := do
  let source ← source i
  if source.closes then
    event "instantiator close"
    changeInstantiator source.instantiator fun state => { state with closes := state.closes + 1 }
    if (← instantiator source.instantiator).failsToClose then
      return .error (.internal "instantiator connection refused to close")
    else
      return .ok ()
  else
    return .ok ()

def provision : Provision Play where
  load i realm key := do load (← source i).instantiator ⟨realm, key⟩
  closeInstantiator := closeInstantiator
  closeDataset d := closeObject d.id
  closeParticipant p := closeObject p.id
  meter i tag value d := do
    let child ← childSink i tag value
    change d.id (Object.onTable fun state => { state with metrics := some child })

def services : Services Play where
  toParticipation := participation
  toCoordination := coordination
  toProvision := provision
  report := report

/-! ## Hooks -/

def entryText : Context.Callback → String
  | .start tx => "start " ++ toString tx.id
  | .changes => "changes"
  | .persist => "commit"
  | .confirm => "post"
  | .rollback => "rollback"

/-- Enters a callback of a scripted object.  A start clears its changes. -/
def enter (p : Participant) (callback : Context.Callback) : Play (List Context.Operation) := do
  match (← object p.id).kind with
  | .scripted _ _ =>
    event (p.name ++ " " ++ entryText callback)
    match callback with
    | .start _ => change p.id (Object.onScript fun script => { script with changes := [] })
    | _ => pure ()
    let (hook, o) := (← object p.id).takeHook (.ofCallback callback)
    change p.id fun _ => o
    return hook.toList
  | _ => return []

def outcomeJson : Context.Outcome → Json
  | .done | .released _ => .null
  | .flag value => .bool value
  | .started tx => Report.transaction tx
  | .state context => Report.context context
  | .failed fault => .record (Report.fault fault)

def showReleases : Context.Outcome → Play Unit
  | .released participants =>
    participants.forM fun p => event ("release " ++ Report.participantText p)
  | _ => pure ()

def observe (p : Participant) (callback : Context.Callback) (_ : Context.Operation)
    (outcome : Context.Outcome) : Play Unit := do
  showReleases outcome
  event (p.name ++ " hook " ++ (Method.ofCallback callback).name ++ " -> "
    ++ (outcomeJson outcome).compact)

def callbacks : Callbacks Stage where
  enter := enter
  observe := observe

end Play

/-- The services of the stage, with hooks that run to a given depth. -/
def Stage.services (depth : Nat) : Services (Act Stage) :=
  Play.callbacks.nested Play.services.detached depth

end DatasetCache.Scenario
