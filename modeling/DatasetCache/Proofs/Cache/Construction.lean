import DatasetCache.Proofs.Cache.Founding
import DatasetCache.Proofs.Cache.Logbook

/-!
# How a construction comes out

The static datasets are loaded one by one, in the order of their keys.  The first load that
gives no dataset is the last one, and what has been loaded by then is closed again, as is the
instantiator.  A configuration that is not valid is refused before anything is called, and
then the instantiator is left as it is.
-/

namespace DatasetCache

open Act

variable {ε : Type}

/-! ## Reading a logbook -/

namespace Errand

def query? : Errand → Option (Key × Except Fault (Option Dataset))
  | loaded _ _ key answer => some (key, answer)
  | _ => none

def closed? : Errand → Option InstanceId
  | closedDataset d _ => some d.id
  | _ => none

def closing? : Errand → Option (Except Fault Unit)
  | closedDataset _ answer => some answer
  | _ => none

def retired? : Errand → Option InstantiatorId
  | closedInstantiator i _ => some i
  | _ => none

end Errand

def queries (errands : List Errand) : List (Key × Except Fault (Option Dataset)) :=
  errands.filterMap Errand.query?

def given? : Except Fault (Option Dataset) → Option Dataset
  | .ok dataset => dataset
  | .error _ => none

@[simp] theorem given?_ok (dataset : Option Dataset) : given? (.ok dataset) = dataset := rfl

/-- The datasets that were loaded. -/
def obtained (errands : List Errand) : List Dataset :=
  (queries errands).filterMap fun query => given? query.2

def closedDatasets (errands : List Errand) : List InstanceId := errands.filterMap Errand.closed?

def closeAnswers (errands : List Errand) : List (Except Fault Unit) :=
  errands.filterMap Errand.closing?

def failedCloses (errands : List Errand) : Nat :=
  (closeAnswers errands).countP fun answer => !answer.isOk

def closedInstantiators (errands : List Errand) : List InstantiatorId :=
  errands.filterMap Errand.retired?

def visits (loader : Loader) (entries : List (Key × Dataset)) : List Errand :=
  entries.flatMap fun entry => loader.visit entry.1 (.ok (some entry.2))

section Reading

variable (loader : Loader) (key : Key) (answer : Except Fault (Option Dataset))
  (entries : List (Key × Dataset)) (answers : List ((Key × Dataset) × Except Fault Unit))

section Visits

variable {β : Type} (f : Errand → Option β)
  (blind : ∀ sink tag value d, f (.metered sink tag value d) = none)

include blind

theorem filterMap_visit :
    (loader.visit key answer).filterMap f =
      (f (.loaded loader.instantiator loader.realm key answer)).toList := by
  have others : ∀ more : List Errand, more.filterMap f = [] →
      (.loaded loader.instantiator loader.realm key answer :: more).filterMap f =
        (f (.loaded loader.instantiator loader.realm key answer)).toList := by
    intro more none
    cases first : f (.loaded loader.instantiator loader.realm key answer) <;> simp [first, none]
  apply others
  split
  · split
    · simp [blind]
    · rfl
  · rfl

theorem filterMap_visits :
    (visits loader entries).filterMap f = entries.filterMap fun entry =>
      f (.loaded loader.instantiator loader.realm entry.1 (.ok (some entry.2))) := by
  induction entries with
  | nil => rfl
  | cons entry rest ih =>
      rw [visits, List.flatMap_cons, List.filterMap_append, filterMap_visit _ _ _ f blind]
      rw [visits] at ih
      rw [ih, List.filterMap_cons]
      cases f (.loaded loader.instantiator loader.realm entry.1 (.ok (some entry.2))) <;> rfl

end Visits

variable (errands more : List Errand) (i : InstantiatorId) (last : Except Fault Unit)

@[simp] theorem queries_append : queries (errands ++ more) = queries errands ++ queries more :=
  List.filterMap_append

@[simp] theorem queries_visit : queries (loader.visit key answer) = [(key, answer)] :=
  filterMap_visit _ _ _ _ fun _ _ _ _ => rfl

@[simp] theorem obtained_nil : obtained [] = [] := rfl

@[simp] theorem obtained_append : obtained (errands ++ more) = obtained errands ++ obtained more := by
  rw [obtained, queries_append, List.filterMap_append]
  rfl

@[simp] theorem obtained_visit :
    obtained (loader.visit key answer) = (Loader.outcome key answer).toOption.toList := by
  rw [obtained, queries_visit]
  match answer with
  | .error _ => rfl
  | .ok none => rfl
  | .ok (some _) => rfl

@[simp] theorem queries_visits :
    queries (visits loader entries) = entries.map fun entry => (entry.1, .ok (some entry.2)) := by
  rw [queries, filterMap_visits _ _ _ fun _ _ _ _ => rfl]
  exact congrFun List.filterMap_eq_map entries

@[simp] theorem queries_closesOf : queries (closesOf answers) = [] := by
  simp [queries, closesOf, Errand.query?]

@[simp] theorem obtained_visits : obtained (visits loader entries) = entries.map Prod.snd := by
  simp [obtained, List.filterMap_map, Function.comp_def]

@[simp] theorem obtained_closesOf : obtained (closesOf answers) = [] := by
  simp [obtained]

@[simp] theorem queries_closedInstantiator : queries [.closedInstantiator i last] = [] := rfl

@[simp] theorem closedDatasets_append :
    closedDatasets (errands ++ more) = closedDatasets errands ++ closedDatasets more :=
  List.filterMap_append

@[simp] theorem closedDatasets_visit : closedDatasets (loader.visit key answer) = [] :=
  filterMap_visit _ _ _ _ fun _ _ _ _ => rfl

@[simp] theorem closedDatasets_visits : closedDatasets (visits loader entries) = [] := by
  rw [closedDatasets, filterMap_visits _ _ _ fun _ _ _ _ => rfl]
  simp [Errand.closed?]

@[simp] theorem closedDatasets_closesOf :
    closedDatasets (closesOf answers) = ids ((answers.map Prod.fst).map Prod.snd) := by
  rw [closedDatasets, closesOf, List.filterMap_map, ids, List.map_map, List.map_map]
  exact congrFun List.filterMap_eq_map answers

@[simp] theorem closedDatasets_closedInstantiator :
    closedDatasets [.closedInstantiator i last] = [] := rfl

@[simp] theorem closeAnswers_nil : closeAnswers [] = [] := rfl

@[simp] theorem failedCloses_nil : failedCloses [] = 0 := rfl

@[simp] theorem closeAnswers_append :
    closeAnswers (errands ++ more) = closeAnswers errands ++ closeAnswers more :=
  List.filterMap_append

@[simp] theorem closeAnswers_visit : closeAnswers (loader.visit key answer) = [] :=
  filterMap_visit _ _ _ _ fun _ _ _ _ => rfl

@[simp] theorem closeAnswers_closesOf : closeAnswers (closesOf answers) = answers.map Prod.snd := by
  rw [closeAnswers, closesOf, List.filterMap_map]
  exact congrFun List.filterMap_eq_map answers

@[simp] theorem failedCloses_append :
    failedCloses (errands ++ more) = failedCloses errands + failedCloses more := by
  rw [failedCloses, closeAnswers_append, List.countP_append]
  rfl

theorem length_complaints (words : Key × Dataset → Fault → String) :
    (complaints words answers).length = failedCloses (closesOf answers) := by
  rw [complaints, List.length_filterMap_eq_countP, failedCloses, closeAnswers_closesOf,
    List.countP_map]
  apply List.countP_congr
  intro answered _
  cases h : answered.2 <;> simp [Cache.failure, h, Except.isOk, Except.toBool]

@[simp] theorem closedInstantiators_append : closedInstantiators (errands ++ more) =
    closedInstantiators errands ++ closedInstantiators more :=
  List.filterMap_append

@[simp] theorem closedInstantiators_visit :
    closedInstantiators (loader.visit key answer) = [] :=
  filterMap_visit _ _ _ _ fun _ _ _ _ => rfl

@[simp] theorem closedInstantiators_visits : closedInstantiators (visits loader entries) = [] := by
  rw [closedInstantiators, filterMap_visits _ _ _ fun _ _ _ _ => rfl]
  simp [Errand.retired?]

@[simp] theorem closedInstantiators_closesOf : closedInstantiators (closesOf answers) = [] := by
  simp [closedInstantiators, closesOf, Errand.retired?]

@[simp] theorem closedInstantiators_closedInstantiator :
    closedInstantiators [.closedInstantiator i last] = [i] := rfl

end Reading

/-! ## The loads of static datasets -/

section Loading

def Statics.insertAll (statics : Statics) (loaded : List (Key × Dataset)) : Statics :=
  loaded.foldl (fun statics entry => statics.insert entry.1 entry.2) statics

theorem Statics.datasets_insertAll (statics : Statics) (loaded : List (Key × Dataset)) :
    (statics.insertAll loaded).datasets = statics.datasets.insertAll loaded := by
  induction loaded generalizing statics with
  | nil => rfl
  | cons entry rest ih => exact ih (statics.insert entry.1 entry.2)

theorem Statics.participants_insertAll (statics : Statics) (loaded : List (Key × Dataset)) :
    (statics.insertAll loaded).participants =
      statics.participants ++ loaded.filterMap fun entry => entry.2.participant := by
  induction loaded generalizing statics with
  | nil => simp [insertAll]
  | cons entry rest ih =>
      have others := ih (statics.insert entry.1 entry.2)
      rw [insertAll, List.foldl_cons, ← insertAll, others, insert, List.append_assoc]
      cases capable : entry.2.participant <;> simp [capable]

/-- How far the loads come: all give a dataset, or the first that does not is the last one,
and what is in the table by then is closed. -/
inductive Statics.Loading (loader : Loader)
    (refused : Key → Except Fault (Option Dataset) → Fault → Prop) (statics : Statics)
    (keys : List Key) : Except Fault Statics → List Errand → Prop where
  | complete {loaded : List (Key × Dataset)} (named : loaded.map Prod.fst = keys) :
      Loading loader refused statics keys (.ok (statics.insertAll loaded)) (visits loader loaded)
  | failed {before after : List Key} {key : Key} {loaded : List (Key × Dataset)}
      {answer : Except Fault (Option Dataset)} {fault : Fault}
      {closes : List ((Key × Dataset) × Except Fault Unit)} (split : keys = before ++ key :: after)
      (named : loaded.map Prod.fst = before) (fails : refused key answer fault)
      (closed : closes.map Prod.fst = (statics.insertAll loaded).datasets.entries) :
      Loading loader refused statics keys (.error fault)
        (visits loader loaded ++ loader.visit key answer ++ closesOf closes)

variable {loader : Loader} {refused : Key → Except Fault (Option Dataset) → Fault → Prop}

theorem Statics.Loading.cons {statics : Statics} {key : Key} {rest : List Key} {dataset : Dataset}
    {result : Except Fault Statics} {more : List Errand}
    (others : Loading loader refused (statics.insert key dataset) rest result more) :
    Loading loader refused statics (key :: rest) result
      (loader.visit key (.ok (some dataset)) ++ more) := by
  cases others with
  | @complete loaded named =>
      have whole : Loading loader refused statics (key :: rest)
          (.ok (statics.insertAll ((key, dataset) :: loaded)))
          (visits loader ((key, dataset) :: loaded)) :=
        .complete (congrArg (key :: ·) named)
      exact whole
  | @failed before after bad loaded answer fault closes split named fails closed =>
      have failed : Loading loader refused statics (key :: rest) (.error fault)
          (visits loader ((key, dataset) :: loaded) ++ loader.visit bad answer ++
            closesOf closes) :=
        .failed (congrArg (key :: ·) split) (congrArg (key :: ·) named) fails closed
      simpa only [visits, List.flatMap_cons, List.append_assoc] using failed

def Loader.Visits (loader : Loader) (log : ε → List Errand)
    (refused : Key → Except Fault (Option Dataset) → Fault → Prop)
    (load : Key → Act ε (Except Fault Dataset)) : Prop :=
  ∀ key w, ∃ answer, Sent log id (loader.visit key answer) w (load key w).2 ∧
    match (load key w).1 with
    | .ok dataset => answer = .ok (some dataset)
    | .error fault => refused key answer fault

theorem Loader.load_visits {services : Services (Act ε)} {log : ε → List Errand}
    (logs : services.Logs log) (loader : Loader) :
    loader.Visits log (fun key answer fault => outcome key answer = .error fault)
      (loader.load services) := by
  intro key w
  obtain ⟨gives, sent⟩ := Loader.load_sent logs loader key w
  refine ⟨_, sent, ?_⟩
  cases result : (loader.load services key w).1 with
  | ok dataset => exact eq_of_outcome (gives.symm.trans result)
  | error fault => exact gives.symm.trans result

theorem Statics.extend_sent {services : Services (Act ε)} {log : ε → List Errand}
    (logs : services.Logs log) {load : Key → Act ε (Except Fault Dataset)}
    (visiting : loader.Visits log refused load) (statics : Statics) (keys : List Key)
    (w : World ε) :
    let extended := extend services load statics keys w
    ∃ errands, Loading loader refused statics keys extended.1 errands ∧
      Sent log id errands w extended.2 := by
  induction keys generalizing statics w with
  | nil =>
      have nothing : Loading loader refused statics [] (.ok (statics.insertAll []))
          (visits loader []) := .complete rfl
      exact ⟨_, nothing, .none w⟩
  | cons key rest ih =>
      obtain ⟨answer, sent, gives⟩ := visiting key w
      unfold extend
      simp only [bind_apply]
      generalize load key w = got at sent gives ⊢
      obtain ⟨result, next⟩ := got
      cases result with
      | error fault =>
          obtain ⟨closes, closed, -, others⟩ := closeEach_sent logs statics.datasets.entries next
          have failed : Loading loader refused statics ([] ++ key :: rest) (.error fault)
              (visits loader [] ++ loader.visit key answer ++ closesOf closes) :=
            .failed rfl rfl gives closed
          exact ⟨_, failed, sent.append others⟩
      | ok dataset =>
          rw [gives] at sent
          have logged := sent.quiet (logs.report ⟨.debug, .cache, "Loaded static dataset"⟩ next)
          obtain ⟨errands, loading, others⟩ := ih (statics.insert key dataset)
            (services.report ⟨.debug, .cache, "Loaded static dataset"⟩ next).2
          exact ⟨_, loading.cons, logged.append others⟩

theorem Statics.entries_insertAll {loaded : List (Key × Dataset)}
    (ascending : (loaded.map Prod.fst).Pairwise fun key other => compare key other = .lt) :
    (({} : Statics).insertAll loaded).datasets.entries = loaded := by
  rw [datasets_insertAll]
  exact Table.entries_ofList (List.pairwise_map.1 ascending)

end Loading

/-! ## The construction -/

/-- Everything that was loaded is closed, once, and so is the instantiator. -/
structure NothingOpen (i : InstantiatorId) (errands : List Errand) : Prop where
  datasets : ∀ d ∈ obtained errands, (closedDatasets errands).count d.id = 1
  instantiator : (closedInstantiators errands).count i = 1

/-- How a construction comes out, and what is called in the course of it. -/
inductive Construction (loader : Loader) (config : Config) :
    Except Fault Cache → List Errand → Prop where
  | invalid {fault : Fault} (refused : config.validate = .error fault) :
      Construction loader config (.error fault) []
  | failed {before after : List Key} {key : Key} {loaded : List (Key × Dataset)}
      {answer : Except Fault (Option Dataset)} {fault : Fault}
      {closes : List ((Key × Dataset) × Except Fault Unit)} {last : Except Fault Unit}
      (valid : config.validate = .ok ()) (split : config.staticKeys = before ++ key :: after)
      (named : loaded.map Prod.fst = before) (fails : Loader.outcome key answer = .error fault)
      (closed : closes.map Prod.fst = loaded) :
      Construction loader config (.error fault)
        (visits loader loaded ++ loader.visit key answer ++ closesOf closes ++
          [.closedInstantiator loader.instantiator last])
  | complete {loaded : List (Key × Dataset)} {cache : Cache} (valid : config.validate = .ok ())
      (named : loaded.map Prod.fst = config.staticKeys)
      (entries : cache.statics.datasets.entries = loaded) :
      Construction loader config (.ok cache) (visits loader loaded)

namespace Construction

variable {loader : Loader} {config : Config} {result : Except Fault Cache} {errands : List Errand}

theorem succeeds_iff (construction : Construction loader config result errands) :
    result.isOk = true ↔ config.validate = .ok () ∧
      (queries errands).map Prod.fst = config.staticKeys ∧
      ∀ query ∈ queries errands, ∃ d, query.2 = .ok (some d) := by
  cases construction with
  | invalid refused => simp [refused, Except.isOk, Except.toBool]
  | @failed before after key loaded answer fault closes last valid split named fails closed =>
      have refused : ∀ d, answer ≠ .ok (some d) := by
        rintro d rfl
        cases fails
      constructor
      · intro impossible
        cases impossible
      · rintro ⟨-, -, all⟩
        obtain ⟨d, same⟩ := all (key, answer) (by simp)
        exact absurd same (refused d)
  | @complete loaded cache valid named entries =>
      refine iff_of_true rfl ⟨valid, ?_, ?_⟩
      · simpa [Function.comp_def] using named
      · intro query member
        rw [queries_visits, List.mem_map] at member
        obtain ⟨entry, -, rfl⟩ := member
        exact ⟨entry.2, rfl⟩

theorem nothing_open_iff {fault : Fault}
    (construction : Construction loader config (.error fault) errands) :
    NothingOpen loader.instantiator errands ↔
      config.validate = .ok () ∧ (ids (obtained errands)).Nodup := by
  cases construction with
  | invalid refused =>
      -- Nothing has been called, so the instantiator has not been closed either.
      constructor
      · intro nothing
        cases nothing.instantiator
      · rintro ⟨valid, -⟩
        rw [valid] at refused
        cases refused
  | @failed before after key loaded answer fault closes last valid split named fails closed =>
      have missed : given? answer = none := by
        match answer with
        | .error _ => rfl
        | .ok none => rfl
        | .ok (some d) => cases fails
      have gained : obtained (visits loader loaded ++ loader.visit key answer ++ closesOf closes ++
          [.closedInstantiator loader.instantiator last]) = loaded.map Prod.snd := by
        simp [obtained, missed, List.filterMap_map, Function.comp_def]
      have lost : closedDatasets (visits loader loaded ++ loader.visit key answer ++
          closesOf closes ++ [.closedInstantiator loader.instantiator last]) =
            ids (loaded.map Prod.snd) := by
        simp [closed]
      have once : (∀ d ∈ loaded.map Prod.snd, (ids (loaded.map Prod.snd)).count d.id = 1) ↔
          (ids (loaded.map Prod.snd)).Nodup := by
        rw [List.nodup_iff_count_eq_one, ids, List.forall_mem_map (l := loaded.map Prod.snd)]
      constructor
      · intro nothing
        have all := nothing.datasets
        rw [gained, lost] at all
        rw [gained]
        exact ⟨valid, once.1 all⟩
      · rintro ⟨-, distinct⟩
        rw [gained] at distinct
        constructor
        · rw [gained, lost]
          exact once.2 distinct
        · simp

end Construction

namespace Cache

theorem create_sent {services : Services (Act ε)} {log : ε → List Errand}
    (logs : services.Logs log) (instantiator : InstantiatorId) (coordinator : CoordinatorId)
    (config : Config) (metrics : Option MetricsId) (w : World ε) :
    let created := create services instantiator coordinator config metrics w
    ∃ errands, Construction ⟨instantiator, config.realm, metrics⟩ config created.1 errands ∧
      Sent log id errands w created.2 := by
  unfold create
  cases valid : config.validate with
  | error fault => exact ⟨[], .invalid valid, .none w⟩
  | ok done =>
      obtain ⟨errands, loading, sent⟩ := Statics.extend_sent logs
        (Loader.load_visits logs ⟨instantiator, config.realm, metrics⟩) {} config.staticKeys w
      simp only [Statics.loadAll, bind_apply]
      generalize Statics.extend services
        ((⟨instantiator, config.realm, metrics⟩ : Loader).load services) {} config.staticKeys w =
          extended at loading sent ⊢
      obtain ⟨result, next⟩ := extended
      have ascending := config.staticKeys_ascending
      cases loading with
      | @complete loaded named =>
          rw [← named] at ascending
          exact ⟨_, .complete valid named (Statics.entries_insertAll ascending),
            sent.quiet (logs.report ⟨.info, .cache, "Dataset cache created"⟩ next)⟩
      | @failed before after key loaded answer fault closes split named fails closed =>
          rw [split, ← named] at ascending
          rw [Statics.entries_insertAll (List.pairwise_append.1 ascending).1] at closed
          have call := sent.append (logs.closeInstantiator instantiator next)
          simp only [Loader.close, bind_apply]
          generalize services.closeInstantiator instantiator next = ended at call ⊢
          obtain ⟨last, final⟩ := ended
          cases last with
          | ok done => exact ⟨_, .failed valid split named fails closed, call⟩
          | error _ =>
              exact ⟨_, .failed valid split named fails closed, call.quiet (logs.report
                ⟨.warn, .cache, "Error closing instantiator after failed construction"⟩ final)⟩

/-- **What a failed construction leaves open.** The fault is that of the validation, before
anything is called, or that of the first static dataset in the order of names that cannot be
loaded.  In the latter case no later one is loaded, and every dataset that was loaded is closed,
once for each time that it was loaded, and then the instantiator, whatever comes of these
closes.  So a failed construction leaves nothing open exactly if the configuration is valid and
no instance was loaded for two keys. -/
theorem construction_clean_iff (base : Services (StateM ε)) (instantiator : InstantiatorId)
    (coordinator : CoordinatorId) (config : Config) (metrics : Option MetricsId)
    (w : World (Logbook ε)) :
    let created := create base.logging.detached instantiator coordinator config metrics w
    (config.staticKeys.map (·.name)).Pairwise (compare · · = .lt) ∧
    ∃ errands, created.2.outside.errands = w.outside.errands ++ errands ∧
      created.2.contexts = w.contexts ∧
      Construction ⟨instantiator, config.realm, metrics⟩ config created.1 errands ∧
      (created.1.isOk = true ↔ config.validate = .ok () ∧
        (queries errands).map Prod.fst = config.staticKeys ∧
        ∀ query ∈ queries errands, ∃ d, query.2 = .ok (some d)) ∧
      ∀ fault, created.1 = .error fault →
        (NothingOpen instantiator errands ↔
          config.validate = .ok () ∧ (ids (obtained errands)).Nodup) := by
  intro created
  obtain ⟨errands, construction, sent⟩ :=
    create_sent base.logging_logs instantiator coordinator config metrics w
  refine ⟨?_, errands, sent.log, sent.contexts, construction, construction.succeeds_iff, ?_⟩
  · rw [Config.staticKeys, List.map_map]
    exact List.pairwise_map.2 config.statics.ascending
  · intro fault failed
    have construction' : Construction ⟨instantiator, config.realm, metrics⟩ config created.1
      errands := construction
    rw [failed] at construction'
    exact construction'.nothing_open_iff

/-- A configuration without a realm is refused, and the instantiator is not closed. -/
theorem refused_construction_leaves_instantiator_open :
    let created := create Services.minting.logging.detached 0 0 { realm := "" } none
      { outside := { inner := 0 } }
    created.1 = .error (.invalidInput "Cache namespace must not be empty") ∧
      closedInstantiators created.2.outside.errands = [] := by
  decide

end Cache

end DatasetCache
