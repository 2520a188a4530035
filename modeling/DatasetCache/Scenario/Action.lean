import DatasetCache.Coordinator.Rate
import DatasetCache.Config.Toml
import DatasetCache.Scenario.Step

/-!
# Doing one thing

What each action does on a stage, and its reply.  A label that an action needs and
that stands for nothing suitable makes the action malformed.
-/

namespace DatasetCache.Scenario

inductive Reply where
  | value (json : Json)
  | fault (fault : Fault)
  | malformed (label : String)

namespace Reply

def done : Reply := .value .null

def flag (value : Bool) : Reply := .value (.bool value)

def text (text : String) : Reply := .value (.str text)

def ofExcept {α : Type} (f : α → Json) : Except Fault α → Reply
  | .ok a => .value (f a)
  | .error e => .fault e

def ofOutcome : Context.Outcome → Reply
  | .failed e => .fault e
  | outcome => .value (Play.outcomeJson outcome)

def failure? : Reply → Option Fault
  | .fault e => some e
  | _ => none

def members : Reply → List (String × Json)
  | .value json => [("ok", json)]
  | .fault e => Report.fault e
  | .malformed label => [("error", .str "panic"), ("message", .str label)]

end Reply

abbrev Run := Act Stage

namespace Run

def play {α : Type} (x : Play α) : Run α := Act.outside x

def stage : Run Stage := play get

def setLabels (f : Labels → Labels) : Run Unit :=
  play (modify fun s => { s with labels := f s.labels })

def with? {α : Type} (table : Labels → Table String α) (label : String) (k : α → Run Reply) :
    Run Reply := do
  match (table (← stage).labels).get? label with
  | some a => k a
  | none => return .malformed label

def withObject (label : String) (k : InstanceId → Object → Run Reply) : Run Reply :=
  with? Labels.objects label fun id => do k id (← play (Play.object id))

def withParticipant (label : String) (k : Participant → Run Reply) : Run Reply :=
  withObject label fun id o =>
    match o.participant? id with
    | some p => k p
    | none => return .malformed label

def withTransaction (tx : TransactionRef) (k : Transaction → Run Reply) : Run Reply :=
  match tx with
  | .label name => with? Labels.transactions name k
  | .literal tx => k tx

def bindObject (label : String) (id : InstanceId) : Run Unit :=
  setLabels fun labels => { labels with objects := labels.objects.insert label id }

def bindContext (label : String) (c : ContextId) : Run Unit :=
  setLabels fun labels => { labels with contexts := labels.contexts.insert label c }

def giveDataset (bind : Option String) : Except Fault Dataset → Run Reply
  | .error fault => return .fault fault
  | .ok dataset => do
    match bind with
    | some label => bindObject label dataset.id
    | none => pure ()
    return .value (Report.handle dataset.id)

def withSink (label : Option String) (k : Option MetricsId → Run Reply) : Run Reply :=
  match label with
  | none => k none
  | some label => with? Labels.sinks label fun i => k (some i)

def addSource (instantiator : Nat) (closes : Bool) : Run InstantiatorId :=
  play (modifyGet fun s =>
    (s.sources.length, { s with sources := s.sources ++ [⟨instantiator, closes⟩] }))

end Run

open Run

variable (services : Services Run)

/-! ## Contexts -/

def Labels.participant? (labels : Labels) (objects : List Object) (label : Option String) :
    Option Participant := do
  let id ← labels.objects.get? (← label)
  (← objects[id]?).participant? id

def Request.operation? (request : Request) (s : Stage) : Option Context.Operation := do
  let c ← s.labels.contexts.get? request.context
  let participant := s.labels.participant? s.objects request.object
  match request.verb with
  | .add => return .enrol c (← participant)
  | .remove => return .withdraw c (← participant)
  | .contains => return .contains c (← participant)
  | .defer => return .defer c (← participant)
  | .start => return .start c
  | .finish => return .finish c
  | .abort =>
    match request.reason with
    | some reason => return .abortWith c reason
    | none => return .abort c
  | .cleanup => return .cleanup c
  | .discard => return .discard c
  | .state => return .inspect c

def Request.run (request : Request) : Run Reply := do
  match request.operation? (← stage) with
  | none => return .malformed request.context
  | some operation =>
    let outcome ← operation.run services
    play (Play.showReleases outcome)
    return .ofOutcome outcome

def ContextAction.run (label : String) : ContextAction → Run Reply
  | .create coordinator =>
    with? Labels.managers coordinator fun k => do
      bindContext label (← Context.create k)
      return .done
  | .clone bind =>
    with? Labels.contexts label fun c => do
      bindContext bind c
      return .done
  | .same other =>
    with? Labels.contexts label fun c =>
      with? Labels.contexts other fun d => return .flag (c = d)
  | .display =>
    with? Labels.contexts label fun c => do return .text (← Context.read c).display

/-! ## Objects -/

def NewObject.kind : NewObject → Kind
  | .table => .table {}
  | .file => .file
  | .recording => .recording false []
  | .recordingCloseable => .recording true []
  | .scripted => .scripted .participant {}
  | .scriptedCloseable => .scripted .closeable {}
  | .scriptedDataset => .scripted .dataset {}
  | .split => .split

def DirectCall.run (label : String) : DirectCall → Run Reply
  | .participate .start tx =>
    withParticipant label fun p => do
      services.start p tx
      return .done
  | .participate .changes _ =>
    withParticipant label fun p => do return .value (.strings (← services.changes p))
  | .participate .persist _ =>
    withParticipant label fun p => do return .ofExcept .bool (← services.persist p)
  | .participate .confirm _ =>
    withParticipant label fun p => do
      services.confirm p
      return .done
  | .participate .rollback _ =>
    withParticipant label fun p => do return .ofExcept .bool (← services.rollback p)
  | .close =>
    withObject label fun id _ => do
      return .ofExcept (fun _ => .null) (← play (Play.closeObject id))
  | .typeName => withObject label fun _ o => return .text o.typeName

def Request.unmade? (request : Request) (labels : Labels) : Option String :=
  match request.object with
  | some label =>
    if labels.objects.contains label then contextUnmade? else some label
  | none => contextUnmade?
where
  contextUnmade? : Option String :=
    if labels.contexts.contains request.context then none else some request.context

def ObjectAction.run (label : String) : ObjectAction → Run Reply
  | .create kind name => do
    let id ← play (Play.createAll { name, kind := kind.kind })
    bindObject label id
    return .value (Report.handle id)
  | .failClose => changed fun o => { o with failsToClose := true }
  | .refuseCommit => changed (Object.onTable fun state => { state with refuses := true })
  | .setMode method mode => changed (Object.setMode method mode)
  | .write change =>
    withObject label fun id _ => do
      play (Play.write id change)
      return .done
  | .hook method request => do
    match request.unmade? (← stage).labels with
    | some unmade => return .value (.record [("skip", .str unmade)])
    | none =>
      match request.operation? (← stage) with
      | none => return .malformed request.context
      | some operation =>
        changed (Object.onScript fun script =>
          { script with hooks := script.hooks ++ [(method, operation)] })
  | .call direct => direct.run services label
  | .dump => withObject label fun _ o => return .value o.dump
where
  changed (f : Object → Object) : Run Reply :=
    withObject label fun id _ => do
      play (Play.change id f)
      return .done

/-! ## Instantiators and metrics -/

def InstantiatorAction.run (label : String) : InstantiatorAction → Run Reply
  | .create => do
    let i ← play (modifyGet fun s =>
      (s.instantiators.length, { s with instantiators := s.instantiators ++ [{}] }))
    setLabels fun labels => { labels with instantiators := labels.instantiators.insert label i }
    return .done
  | .setKind name kind =>
    match kind with
    | .missing => changed fun i => { i with missing := name :: i.missing }
    | .failing => changed fun i => { i with failing := name :: i.failing }
    | .plain => changed fun i => { i with plain := name :: i.plain }
    | .scripted => special name .scripted
    | .split => special name .split
    | .alias object => withObject object fun id _ => special name (.alias id)
  | .failClose => changed fun i => { i with failsToClose := true }
  | .query name index =>
    with? Labels.instantiators label fun i => do
      return .value ((← play (Play.instantiator i)).query name index)
where
  changed (f : Instantiator → Instantiator) : Run Reply :=
    with? Labels.instantiators label fun i => do
      play (Play.changeInstantiator i f)
      return .done
  special (name : String) (special : Special) : Run Reply :=
    changed fun i => { i with special := i.special.insert name special }

def bindSink (label : String) (i : MetricsId) : Run Unit :=
  setLabels fun labels => { labels with sinks := labels.sinks.insert label i }

def MetricsAction.run (label : String) : MetricsAction → Run Reply
  | .create => do
    let i ← play (modifyGet fun s =>
      (s.sinks.length,
        { s with trees := s.trees ++ [{}], sinks := s.sinks ++ [⟨s.trees.length, ""⟩] }))
    bindSink label i
    return .done
  | .child tag value bind =>
    with? Labels.sinks label fun i => do
      bindSink bind (← play (Play.childSink i tag value))
      return .done
  | .increment name delta =>
    with? Labels.sinks label fun i => do
      play (Play.increment i name delta)
      return .done
  | .gauge name value =>
    with? Labels.sinks label fun i => do
      play (Play.setGauge i name value)
      return .done
  | .read counters gauges =>
    with? Labels.sinks label fun i => do
      let sink ← play (Play.sink i)
      let tree := ((← stage).trees[sink.tree]?).getD default
      return .value (.record [
        ("children", .strings tree.children),
        ("counters", .arr (counters.map fun name => .nat ((tree.counters.get? name).getD 0))),
        ("gauges", .arr (gauges.map fun name => .ofOption .num (tree.gauges.get? name)))])

/-! ## Coordinators -/

def Manager.setPlan (call : PlannedCall) (results : List Plan) (m : Manager) : Manager :=
  match call with
  | .begin => { m with beginPlan := results }
  | .canCommit => { m with canCommitPlan := results }
  | .commit => { m with commitPlan := results }

def CoordinatorAction.run (label : String) : CoordinatorAction → Run Reply
  | .create => do
    let k ← play (modifyGet fun s =>
      (s.managers.length, { s with managers := s.managers ++ [{ label }] }))
    setLabels fun labels => { labels with managers := labels.managers.insert label k }
    return .done
  | .plan call results =>
    called fun k => do
      play (modify fun s =>
        { s with managers := s.managers.modify k (Manager.setPlan call results) })
      return .done
  | .begin bind =>
    called fun k => do
      match ← play (Play.direct.begin k) with
      | .error fault => return .fault fault
      | .ok tx =>
        setLabels fun labels => { labels with transactions := labels.transactions.insert bind tx }
        return .value (Report.transaction tx)
  | .canCommit tx changes =>
    called fun k => withTransaction tx fun tx => do
      return .ofExcept .bool (← play (Play.direct.canCommit k tx changes))
  | .commit tx =>
    called fun k => withTransaction tx fun tx => do
      return .ofExcept .bool (← play (Play.direct.commit k tx))
  | .abort tx =>
    called fun k => withTransaction tx fun tx => do
      play (Play.direct.abort k tx)
      return .done
  | .invalidate tx =>
    called fun k => withTransaction tx fun tx => do
      play (Play.direct.invalidate k tx)
      return .done
  | .isInvalid id =>
    called fun k => do return .flag ((Play.managers.get k (← stage)).isInvalid id)
  | .inspect => called fun _ => return .done
where
  called (k : CoordinatorId → Run Reply) : Run Reply := with? Labels.managers label k

/-! ## Parts of a cache -/

def setStore (label : String) (store : Store) : Run Unit :=
  setLabels fun labels => { labels with stores := labels.stores.insert label store }

def StoreAction.run (label : String) : StoreAction → Run Reply
  | .create instantiator space metrics closes =>
    with? Labels.instantiators instantiator fun i =>
      withSink metrics fun sink => do
        let source ← addSource i closes
        setStore label { loader := ⟨source, space, sink⟩ }
        return .done
  | .get key bypass bind =>
    used fun store => do
      let (answer, store) ← store.get services key bypass
      setStore label store
      giveDataset bind answer
  | .peek key =>
    used fun store =>
      return .value (.ofOption (fun (d : Dataset) => Report.handle d.id) (store.peek? key))
  | .keyOf object =>
    used fun store => withObject object fun id _ =>
      return .value (.ofOption (fun (key : Key) => .str key.display) (store.keyOf? id))
  | .contains object =>
    used fun store => withObject object fun id _ => return .flag (store.holds id)
  | .invalidate key => evicted fun store => store.evict services key
  | .invalidateInstance object =>
    withObject object fun id _ => evicted fun store => store.evictInstance services id
  | .invalidateParticipant object =>
    withParticipant object fun p => evicted fun store => store.evictInstance services p.id
  | .invalidateAll =>
    used fun store => do
      let (failures, store) ← store.evictAll services
      setStore label store
      return .value (.strings (Report.sortTexts failures))
  | .realm => used fun store => return .text store.loader.realm
  | .closeLoader =>
    used fun store => do
      return .ofExcept (fun _ => .null) (← store.loader.close services)
where
  used (k : Store → Run Reply) : Run Reply := with? Labels.stores label k
  evicted (k : Store → Run (Bool × Store)) : Run Reply :=
    used fun store => do
      let (found, store) ← k store
      setStore label store
      return .flag found

def setTracker (label : String) (tracker : Tracker) : Run Unit :=
  setLabels fun labels => { labels with trackers := labels.trackers.insert label tracker }

def TrackerAction.run (label : String) : TrackerAction → Run Reply
  | .create => do
    setTracker label {}
    return .done
  | .track key object =>
    used fun tracker => withParticipant object fun p => do
      let (answer, tracker) ← tracker.track services key p
      setTracker label tracker
      return .ofExcept .bool answer
  | .untrack object =>
    used fun tracker => withParticipant object fun p => do
      let (key, tracker) := tracker.untrack p.id
      setTracker label tracker
      return .value (.ofOption (fun (key : Key) => .str key.display) key)
  | .get key =>
    used fun tracker =>
      return .value (.ofOption (.str ∘ Report.participantText) (tracker.get? key))
  | .contains object =>
    used fun tracker => withParticipant object fun p => return .flag (tracker.holds p.id)
  | .clear => used fun _ => do
    setTracker label {}
    return .done
where
  used (k : Tracker → Run Reply) : Run Reply := with? Labels.trackers label k

def setExtras (label : String) (extras : Extras) : Run Unit :=
  setLabels fun labels => { labels with extras := labels.extras.insert label extras }

def ExtrasAction.run (label : String) : ExtrasAction → Run Reply
  | .create => do
    setExtras label {}
    return .done
  | .insert object =>
    used fun extras => withParticipant object fun p => do
      setExtras label (extras.insert p)
      return .flag (!extras.holds p)
  | .remove object =>
    used fun extras => withParticipant object fun p => do
      setExtras label (extras.erase p)
      return .flag (extras.holds p)
  | .contains object =>
    used fun extras => withParticipant object fun p => return .flag (extras.holds p)
  | .closeAll => used fun extras => do return .value (.strings (← extras.closeAll services))
where
  used (k : Extras → Run Reply) : Run Reply := with? Labels.extras label k

def setStatics (label : String) (statics : Statics) : Run Unit :=
  setLabels fun labels => { labels with statics := labels.statics.insert label statics }

def suppliedDataset (s : Stage) : Except Fault String → Except Fault Dataset
  | .error fault => .error fault
  | .ok label =>
    match s.labels.objects.get? label with
    | none => .error (.internal label)
    | some id => .ok ((Play.datasetOf id).run s).1

/-- Gives the next supplied dataset, whatever its key. -/
def takeSupplied (_ : Key) : Run (Except Fault Dataset) :=
  play (modifyGet fun s =>
    match s.supply with
    | [] => (.error (.internal "no more datasets"), s)
    | next :: rest => (next, { s with supply := rest, supplied := s.supplied + 1 }))

def StaticsAction.run (label : String) : StaticsAction → Run Reply
  | .create => do
    setStatics label {}
    return .done
  | .load items => do
    play (modify fun s =>
      { s with supply := items.map fun item => suppliedDataset s item.2, supplied := 0 })
    let answer ← Statics.loadAll services takeSupplied (items.map (·.1))
    play (Play.event ("load calls " ++ toString (← stage).supplied))
    match answer with
    | .error fault => return .fault fault
    | .ok statics =>
      setStatics label statics
      return .done
  | .get key =>
    used fun statics =>
      return .value (.ofOption (fun (d : Dataset) => Report.handle d.id) (statics.get? key))
  | .contains object =>
    used fun statics => withObject object fun id _ => return .flag (statics.holds id)
  | .closeAll =>
    used fun statics => do
      let (failures, statics) ← statics.closeAll services
      setStatics label statics
      return .value (.strings failures)
where
  used (k : Statics → Run Reply) : Run Reply := with? Labels.statics label k

/-! ## Caches -/

def setCache (label : String) (cache : Cache) : Run Unit :=
  setLabels fun labels => { labels with caches := labels.caches.insert label cache }

def ConfigSource.config : ConfigSource → Except Fault Config
  | .given config => .ok config
  | .document text => Config.ofToml text

def Lookup.run (cache : Cache) : Lookup → Run (Except Fault Dataset × Cache)
  | .named name arguments typeName => cache.getNamed services typeName name arguments
  | .key k bypass typeName => cache.get services typeName k bypass
  | .any k bypass => cache.getAny services k bypass

/-- Gives a new cache to a label.  A cache that the label stood for is dropped. -/
def installCache (label : String) (cache : Cache) : Run Unit := do
  let previous := (← stage).labels.caches.get? label
  setCache label cache
  match previous with
  | some previous => previous.drop services
  | none => pure ()

def CacheAction.run (label : String) : CacheAction → Run Reply
  | .create instantiator coordinator metrics closes config =>
    with? Labels.instantiators instantiator fun i =>
      with? Labels.managers coordinator fun k =>
        withSink metrics fun sink => do
          match config.config with
          | .error fault => return .fault fault
          | .ok config =>
            match ← Cache.create services (← addSource i closes) k config sink with
            | .error fault => return .fault fault
            | .ok cache =>
              installCache services label cache
              return .done
  | .get lookup bind =>
    used fun cache => do
      let (answer, cache) ← lookup.run services cache
      setCache label cache
      giveDataset bind answer
  | .dismiss object =>
    used fun cache => withObject object fun id o => do
      setCache label (← cache.dismiss services (o.dataset id))
      return .done
  | .openContext bind =>
    used fun cache => do
      let (answer, cache) ← cache.openContext services
      setCache label cache
      match answer with
      | .error fault => return .fault fault
      | .ok c =>
        match bind with
        | some bind => bindContext bind c
        | none => pure ()
        return .flag (cache.context = some c)
  | .currentContext bind =>
    used fun cache => do
      match cache.context with
      | none => return .flag false
      | some c =>
        bindContext bind c
        return .flag true
  | .dismissContext =>
    used fun cache => do
      setCache label (← cache.dismissContext services)
      return .done
  | .addExtra object =>
    used fun cache => withParticipant object fun p => do
      setCache label (← cache.addExtra services p)
      return .done
  | .removeExtra object =>
    used fun cache => withParticipant object fun p => do
      let (answer, cache) ← cache.removeExtra p
      setCache label cache
      return .ofExcept (fun _ => .null) answer
  | .staticParticipants =>
    used fun cache => return .value (Report.participants cache.statics.participants)
  | .keyFor name arguments =>
    used fun cache => return .text (cache.keyFor name arguments).display
  | .realm => used fun cache => return .text cache.realm
  | .invalidate =>
    used fun cache => do
      setCache label (← cache.invalidate services)
      return .done
  | .close =>
    used fun cache => do
      let (answer, cache) ← cache.close services
      setCache label cache
      return .ofExcept (fun _ => .null) answer
  | .drop =>
    used fun cache => do
      cache.drop services
      setLabels fun labels => { labels with caches := labels.caches.erase label }
      return .done
where
  used (k : Cache → Run Reply) : Run Reply := with? Labels.caches label k

/-! ## All actions -/

def Action.run : Action → Run Reply
  | .object label action => action.run services label
  | .instantiator label action => action.run label
  | .metrics label action => action.run label
  | .coordinator label action => action.run label
  | .context label action => action.run label
  | .request asked => asked.run services
  | .store label action => action.run services label
  | .tracker label action => action.run services label
  | .extras label action => action.run services label
  | .statics label action => action.run services label
  | .cache label action => action.run services label

end DatasetCache.Scenario
