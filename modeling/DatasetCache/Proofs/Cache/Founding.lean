import DatasetCache.Proofs.Cache.Conservation

/-!
# The static datasets of a new cache

The static datasets are loaded in the order of their keys, which is that of their names.
So a new cache has under each of these keys the dataset that was loaded for it, and its
static participants stand in name order.
-/

namespace DatasetCache

open Act

variable {ε : Type}

theorem Config.staticKeys_ascending (config : Config) :
    config.staticKeys.Pairwise fun key other => compare key other = .lt := by
  refine List.pairwise_map.2 (config.statics.ascending.imp fun {entry other} less => ?_)
  change (compare entry.1 other.1).then _ = .lt
  rw [less]
  rfl

theorem Statics.extend_founds {services : Services (Act (Journal (Ledger ε)))}
    (accounts : services.Accountable) (loader : Loader) {statics loaded : Statics}
    {keys : List Key} (ascending : keys.Pairwise fun key other => compare key other = .lt)
    (above : ∀ entry ∈ statics.datasets.entries, ∀ key ∈ keys, compare entry.1 key = .lt)
    {w : World (Journal (Ledger ε))}
    (success : (Statics.extend services (loader.load services) statics keys w).1 = .ok loaded) :
    ∃ datasets, (Statics.extend services (loader.load services) statics keys w).2.ledger =
        w.ledger ++ datasets.map .loaded ∧ datasets.length = keys.length ∧
      loaded.datasets.entries = statics.datasets.entries ++ keys.zip datasets ∧
      loaded.participants = statics.participants ++ datasets.filterMap (·.participant) := by
  induction keys generalizing statics w with
  | nil =>
      obtain rfl : statics = loaded := by simpa [extend] using success
      exact ⟨[], by simp [extend], rfl, by simp, by simp⟩
  | cons key rest ih =>
      obtain ⟨below, ascending⟩ := List.pairwise_cons.1 ascending
      have books := Loader.load_books accounts (w := w) loader key
      simp only [extend, bind_apply] at success ⊢
      generalize loader.load services key w = answered at books success ⊢
      obtain ⟨answer, next⟩ := answered
      cases answer with
      | error fault => cases success
      | ok dataset =>
          have logged :=
            books.quiet (accounts.report next ⟨.debug, .cache, "Loaded static dataset"⟩)
          have last : (statics.insert key dataset).datasets.entries =
              statics.datasets.entries ++ [(key, dataset)] :=
            Table.entries_insert_last (fun entry member => above entry member key (by simp)) dataset
          have above' : ∀ entry ∈ (statics.insert key dataset).datasets.entries, ∀ later ∈ rest,
              compare entry.1 later = .lt := by
            intro entry member later after
            rw [last, List.mem_append, List.mem_singleton] at member
            rcases member with member | rfl
            · exact above entry member later (List.mem_cons_of_mem key after)
            · exact below later after
          obtain ⟨datasets, ledger, length, entries, participants⟩ := ih ascending above' success
          refine ⟨dataset :: datasets, ?_, by simp [length], ?_, ?_⟩
          · refine ledger.trans ?_
            rw [show w.ledger ++ (dataset :: datasets).map .loaded =
              w.ledger ++ [.loaded dataset] ++ datasets.map .loaded by simp]
            exact congrArg (· ++ datasets.map .loaded) logged.ledger
          · rw [entries, last, List.zip_cons_cons, List.append_assoc]
            rfl
          · rw [participants, insert]
            cases capable : dataset.participant <;> simp [capable]

namespace Cache

/-- What is known of a new cache and of the world where it has been built. -/
structure Founded (config : Config) (cache : Cache) (w : World (Journal (Ledger ε))) : Prop where
  length : (loads w.ledger).length = config.staticKeys.length
  entries : cache.statics.datasets.entries = config.staticKeys.zip (loads w.ledger)
  participants : cache.statics.participants = (loads w.ledger).filterMap (·.participant)
  runtime : cache.runtime = config.runtime

theorem create_founded {services : Services (Act (Journal (Ledger ε)))}
    (accounts : services.Accountable) {instantiator : InstantiatorId}
    {coordinator : CoordinatorId} {config : Config} {metrics : Option MetricsId}
    {contexts : List Context} {outside : ε} {cache : Cache} {w : World (Journal (Ledger ε))}
    (created : create services instantiator coordinator config metrics
      (.unwritten contexts outside) = (.ok cache, w)) : Founded config cache w := by
  unfold create at created
  cases valid : config.validate with
  | error fault =>
      rw [valid] at created
      cases created
  | ok done =>
      simp only [valid, Statics.loadAll, bind_apply] at created
      have founds := @Statics.extend_founds _ _ accounts ⟨instantiator, config.realm, metrics⟩ {}
      have none : ∀ entry ∈ ({} : Statics).datasets.entries, ∀ key ∈ config.staticKeys,
          compare entry.1 key = .lt := fun entry member => by cases member
      have founds := fun loaded => @founds loaded _ config.staticKeys_ascending none
        (.unwritten contexts outside)
      generalize Statics.extend services
        ((⟨instantiator, config.realm, metrics⟩ : Loader).load services) {} config.staticKeys
          (.unwritten contexts outside) = extended at created founds
      obtain ⟨answer, next⟩ := extended
      cases answer with
      | error fault =>
          simp only [bind_apply] at created
          generalize (⟨instantiator, config.realm, metrics⟩ : Loader).close services next = closed
            at created
          obtain ⟨answer, last⟩ := closed
          cases answer <;> cases created
      | ok statics =>
          obtain ⟨datasets, ledger, length, entries, participants⟩ := founds statics rfl
          have logged := (accounts.report next ⟨.info, .cache, "Dataset cache created"⟩).calm
          cases created
          have loaded : loads (services.report ⟨.info, .cache, "Dataset cache created"⟩
              next).2.ledger = datasets := by
            rw [logged, show next.ledger = datasets.map .loaded from ledger]
            simp [loads, Event.dataset?, List.filterMap_map, Function.comp_def]
          exact ⟨loaded ▸ length, loaded ▸ entries, loaded ▸ participants, rfl⟩

theorem Founded.declared {config : Config} {cache : Cache} {w : World (Journal (Ledger ε))}
    (founded : Founded config cache w) {name : String} {arguments : Arguments}
    (declared : (name, arguments) ∈ config.statics.entries) :
    ∃ d, (cache.keyFor name arguments, d) ∈ config.staticKeys.zip (loads w.ledger) ∧
      cache.statics.get? (cache.keyFor name arguments) = some d := by
  have known : cache.keyFor name arguments ∈ config.staticKeys := by
    rw [keyFor, founded.runtime]
    exact List.mem_map.2 ⟨_, declared, rfl⟩
  obtain ⟨place, inside, same⟩ := List.mem_iff_getElem.1 known
  have inside' : place < (loads w.ledger).length := founded.length ▸ inside
  have member : (cache.keyFor name arguments, (loads w.ledger)[place]) ∈
      config.staticKeys.zip (loads w.ledger) := by
    rw [← same]
    exact List.mem_iff_getElem.2 ⟨place, by simp; omega, by simp⟩
  refine ⟨_, member, Table.get?_of_mem ?_⟩
  rw [founded.entries]
  exact member

end Cache

end DatasetCache
