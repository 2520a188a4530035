import DatasetCache.Proofs.Cache.Conservation

/-!
# The store and the tracker agree

What is tracked under a key is the participant of the dataset that the store has under
that key.  The two are changed one after the other and by instance, not by key, so they
stay together only because no two keys have the same instance.
-/

namespace DatasetCache

open Act Context Relation

variable {ε : Type}

/-! ## Fresh instances -/

/-- Every load gives an instance of its own, which takes part in transactions as itself. -/
structure Fair (datasets : List Dataset) : Prop where
  fresh : (ids datasets).Nodup
  own : ∀ d ∈ datasets, ∀ p, d.participant = some p → p.id = d.id

theorem Fair.of_append {datasets more : List Dataset} (fair : Fair (datasets ++ more)) :
    Fair datasets where
  fresh := (List.nodup_append.1 (ids_append datasets more ▸ fair.fresh)).1
  own d member := fair.own d (List.mem_append_left more member)

theorem Table.key_eq {α β γ : Type} [Ord α] [Std.LawfulEqOrd α] {t : Table α β} {f : β → γ}
    (distinct : (t.values.map f).Nodup) {key other : α} {value content : β}
    (found : t.get? key = some value) (present : t.get? other = some content)
    (same : f value = f content) : key = other := by
  rw [Table.values, List.map_map] at distinct
  have equal := List.inj_on_of_nodup_map distinct (mem_of_get? found) (mem_of_get? present) same
  exact congrArg Prod.fst equal

namespace Tracker

theorem get?_of_untrack {tracker : Tracker} {i : InstanceId} {key : Key} {p : Participant}
    (found : (tracker.untrack i).2.get? key = some p) : tracker.get? key = some p := by
  unfold untrack at found
  split at found
  next => exact found
  next other _ =>
      rw [get?, Table.get?_erase] at found
      split at found
      · contradiction
      · exact found

theorem untrack_get? {tracker : Tracker} {i : InstanceId} {key : Key} {p : Participant}
    (found : tracker.get? key = some p) (same : p.id = i) :
    ∃ other q, tracker.get? other = some q ∧ q.id = i ∧
      (tracker.untrack i).2.get? other = none := by
  unfold untrack
  cases first : tracker.active.keyWhere? (·.id == i) with
  | none =>
      have absent := Table.keyWhere?_eq_none_iff.1 first p (Table.mem_values_iff.2 ⟨key, found⟩)
      simp [same] at absent
  | some other =>
      obtain ⟨q, present, alike⟩ := Table.exists_of_keyWhere? first
      exact ⟨other, q, present, by simpa using alike, by simp [get?]⟩

theorem holds_eq_false_iff {tracker : Tracker} {i : InstanceId} :
    tracker.holds i = false ↔ ∀ key p, tracker.get? key = some p → p.id ≠ i := by
  simp only [holds, Participant.isIn, participants, Table.any_values_eq_false_iff, get?,
    beq_eq_false_iff_ne]

end Tracker

theorem Store.holds_eq_false_iff {store : Store} {i : InstanceId} :
    store.holds i = false ↔ ∀ key d, store.peek? key = some d → d.id ≠ i := by
  simp only [holds, Table.any_values_eq_false_iff, peek?, beq_eq_false_iff_ne]

namespace Cache

theorem tracking_get? {cache : Cache} {key place : Key} {p q : Participant}
    (untracked : cache.tracker.get? place = none) (found : cache.tracker.get? key = some q) :
    (cache.tracking place p).tracker.get? key = some q := by
  have different : key ≠ place := by
    rintro rfl
    rw [untracked] at found
    contradiction
  simpa [tracking, Tracker.get?, different] using found

def Tracked (key : Key) (i : InstanceId) (cache : Cache) : Prop :=
  ∃ q, cache.tracker.get? key = some q ∧ q.id = i

theorem not_tracked_iff {cache : Cache} {i : InstanceId} :
    cache.tracker.holds i = false ↔ ∀ key, ¬ cache.Tracked key i := by
  rw [Tracker.holds_eq_false_iff]
  constructor
  · rintro absent key ⟨p, found, same⟩
    exact absent key p found same
  · exact fun absent key p found same => absent key ⟨p, found, same⟩

theorem untracking_complete_iff {cache : Cache} {i : InstanceId} :
    (cache.untracking i).tracker.holds i = false ↔
      ∀ key other, cache.Tracked key i → cache.Tracked other i → key = other := by
  rw [not_tracked_iff]
  constructor
  · rintro absent key other ⟨p, found, same⟩ ⟨q, present, alike⟩
    have erased : ∀ {place r}, cache.tracker.get? place = some r → r.id = i →
        cache.tracker.active.keyWhere? (·.id == i) = some place := by
      intro place r tracked known
      have absent := absent place
      unfold Cache.Tracked untracking Tracker.untrack at absent
      cases first : cache.tracker.active.keyWhere? (·.id == i) with
      | none =>
          rw [first] at absent
          exact absurd ⟨r, tracked, known⟩ absent
      | some front =>
          rw [first] at absent
          by_cases same : place = front
          · rw [same]
          · exact absurd ⟨r, by simpa [Tracker.get?, same] using tracked, known⟩ absent
    exact Option.some.inj ((erased found same).symm.trans (erased present alike))
  · rintro once key ⟨p, found, same⟩
    have tracked := Tracker.get?_of_untrack found
    obtain ⟨other, q, present, alike, gone⟩ := Tracker.untrack_get? tracked same
    obtain rfl := once key other ⟨p, tracked, same⟩ ⟨q, present, alike⟩
    rw [show (cache.untracking i).tracker = (cache.tracker.untrack i).2 from rfl, gone] at found
    cases found

/-! ## What a cache can hold -/

def FairSoFar (w : World (Journal (Ledger ε))) : Prop := Fair (loads w.ledger)

/-- A cache holds nothing that was not loaded, and no instance more often than it was
loaded and not closed since. -/
structure Balanced (state : State ε) : Prop where
  known : ∀ d ∈ state.1.datasets, d ∈ loads state.2.ledger
  bounded : ∀ i, (ids state.1.datasets).count i + (releases state.2.ledger).count i ≤
    (ids (loads state.2.ledger)).count i

namespace Balanced

variable {state : State ε} (balanced : Balanced state)

include balanced

theorem own (fair : Fair (loads state.2.ledger)) {d : Dataset} (held : d ∈ state.1.datasets)
    {p : Participant} (capable : d.participant = some p) : p.id = d.id :=
  fair.own d (balanced.known d held) p capable

variable (fresh : (ids (loads state.2.ledger)).Nodup)

include fresh

theorem distinct : (ids state.1.datasets).Nodup := by
  refine List.nodup_iff_count_le_one.2 fun i => ?_
  have bound := balanced.bounded i
  have once := List.nodup_iff_count_le_one.1 fresh i
  omega

theorem not_held {i : InstanceId} (closed : i ∈ releases state.2.ledger) :
    i ∉ ids state.1.datasets := by
  intro held
  have bound := balanced.bounded i
  have once := List.nodup_iff_count_le_one.1 fresh i
  have released := List.count_pos_iff.2 closed
  have present := List.count_pos_iff.2 held
  omega

end Balanced

theorem Conserves.balanced {action : Action} {events : List Event} {before after : State ε}
    (conserves : Conserves action events before after) (balanced : Balanced before) :
    Balanced after where
  known d member := by
    rw [conserves.ledger, loads_append, List.mem_append]
    exact (conserves.known d member).imp_left (balanced.known d)
  bounded i := by
    have balance := conserves.balance i
    have bound := balanced.bounded i
    rw [conserves.ledger, loads_append, ids_append, releases_append, List.count_append,
      List.count_append]
    split at balance <;> omega

theorem Conserves.fair {action : Action} {events : List Event} {before after : State ε}
    (conserves : Conserves action events before after) (fair : Fair (loads after.2.ledger)) :
    Fair (loads before.2.ledger) := by
  rw [conserves.ledger, loads_append] at fair
  exact fair.of_append

/-! ## The store and the tracker -/

/-- What is tracked is stored under the same key, and no static dataset has that key. -/
structure Synced (cache : Cache) : Prop where
  dynamic : ∀ {key d}, cache.store.peek? key = some d → cache.statics.get? key = none
  tracked : ∀ {key p}, cache.tracker.get? key = some p →
    ∃ d, cache.store.peek? key = some d ∧ d.participant = some p

namespace Synced

variable {cache : Cache}

theorem alike {next : Cache} (synced : Synced cache)
    (entries : next.store.entries = cache.store.entries) (statics : next.statics = cache.statics)
    (fewer : ∀ {key p}, next.tracker.get? key = some p → cache.tracker.get? key = some p) :
    Synced next where
  dynamic found := by
    rw [Store.peek?, entries] at found
    rw [statics]
    exact synced.dynamic found
  tracked found := by
    rw [Store.peek?, entries]
    exact synced.tracked (fewer found)

theorem of_empty (unstored : cache.store.entries = Table.empty) (untracked : cache.tracker = {}) :
    Synced cache where
  dynamic found := by
    rw [Store.peek?, unstored, Table.get?_empty] at found
    contradiction
  tracked found := by
    rw [untracked] at found
    contradiction

theorem keeping (synced : Synced cache) {key : Key} (static : cache.statics.get? key = none)
    (absent : cache.store.peek? key = none) (dataset : Dataset) :
    Synced (cache.keeping key dataset) where
  dynamic {other d} found := by
    by_cases same : other = key
    · rw [same]
      exact static
    · exact synced.dynamic (by simpa [Cache.keeping, Store.peek?, same] using found)
  tracked {other p} found := by
    obtain ⟨d, stored, capable⟩ := synced.tracked found
    by_cases same : other = key
    · rw [same, absent] at stored
      contradiction
    · exact ⟨d, by simpa [Cache.keeping, Store.peek?, same] using stored, capable⟩

theorem tracking (synced : Synced cache) {key : Key} {dataset : Dataset} {p : Participant}
    (stored : cache.store.peek? key = some dataset) (capable : dataset.participant = some p) :
    Synced (cache.tracking key p) where
  dynamic := synced.dynamic
  tracked {other q} found := by
    by_cases same : other = key
    · obtain rfl : p = q := by simpa [Cache.tracking, Tracker.get?, same] using found
      exact ⟨dataset, same ▸ stored, capable⟩
    · exact synced.tracked (by simpa [Cache.tracking, Tracker.get?, same] using found)

end Synced

/-! ## States in order -/

structure Sound (state : State ε) : Prop where
  balanced : Balanced state
  synced : Synced state.1

/-- The store and the tracker are in order, and loads have been fair so far. -/
structure Settled (state : State ε) : Prop where
  sound : Sound state
  fair : Fair (loads state.2.ledger)

namespace Settled

variable {state : State ε} (settled : Settled state) {key other : Key} {i : InstanceId}
  {d : Dataset} {p : Participant}

include settled

theorem store_distinct : (ids state.1.store.entries.values).Nodup :=
  (List.nodup_append.1 (ids_append _ _ ▸ settled.sound.balanced.distinct settled.fair.fresh)).1

theorem dynamic (stored : state.1.store.peek? key = some d) :
    state.1.statics.holds d.id = false := by
  have distinct := settled.sound.balanced.distinct settled.fair.fresh
  rw [datasets, ids_append] at distinct
  have apart := (List.nodup_append.1 distinct).2.2 d.id
    (List.mem_map_of_mem (Table.mem_values_iff.2 ⟨key, stored⟩))
  simp only [Statics.holds, List.any_eq_false, beq_iff_eq]
  exact fun e static same => apart e.id (List.mem_map_of_mem static) same.symm

theorem held (tracked : state.1.tracker.get? key = some p) :
    ∃ d, state.1.store.peek? key = some d ∧ d.participant = some p ∧ p.id = d.id := by
  obtain ⟨d, stored, capable⟩ := settled.sound.synced.tracked tracked
  exact ⟨d, stored, capable,
    settled.sound.balanced.own settled.fair (mem_datasets_of_stored stored) capable⟩

theorem only (stored : state.1.store.peek? key = some d) (tracked : state.1.Tracked other d.id) :
    other = key := by
  obtain ⟨p, found, same⟩ := tracked
  obtain ⟨e, present, -, own⟩ := settled.held found
  exact Table.key_eq settled.store_distinct present stored (own.symm.trans same)

theorem once (tracked : state.1.Tracked key i) (again : state.1.Tracked other i) :
    key = other := by
  obtain ⟨p, found, rfl⟩ := tracked
  obtain ⟨d, stored, -, own⟩ := settled.held found
  exact (settled.only stored (own ▸ again)).symm

theorem untracks (i : InstanceId) : (state.1.untracking i).tracker.holds i = false :=
  untracking_complete_iff.2 fun _ _ => settled.once

omit settled in
theorem calm {cache next : Cache} {w w' : World (Journal (Ledger ε))}
    (settled : Settled (cache, w)) (calm : Calm w w') (store : next.store = cache.store)
    (statics : next.statics = cache.statics) (tracker : next.tracker = cache.tracker) :
    Settled (next, w') := by
  have held : next.datasets = cache.datasets := by rw [datasets, datasets, store, statics]
  refine ⟨⟨⟨?_, ?_⟩, settled.sound.synced.alike (by rw [store]) statics (by simp [tracker])⟩, ?_⟩
  all_goals dsimp only; rw [calm]
  · rw [held]
    exact settled.sound.balanced.known
  · rw [held]
    exact settled.sound.balanced.bounded
  · exact settled.fair

end Settled

section LetGo

variable {services : Services (Act (Journal (Ledger ε)))} (accounts : services.Accountable)

include accounts

theorem letGo_synced {cache : Cache} {w : World (Journal (Ledger ε))}
    (settled : Settled (cache, w)) (i : InstanceId) : Synced (cache.letGo services i w).1 := by
  have synced := settled.sound.synced
  rcases letGo_cases accounts cache i w with ⟨-, same⟩ | ⟨key, d, stored, same, -, erased⟩
  · rw [same]
    exact synced.alike rfl rfl Tracker.get?_of_untrack
  constructor
  · intro other e found
    rw [Store.peek?, erased, Table.get?_erase] at found
    split at found
    · contradiction
    · exact synced.dynamic found
  · intro other q found
    obtain ⟨e, present, capable, own⟩ := settled.held (Tracker.get?_of_untrack found)
    -- the store has the instance under one key only, which is the one that is untracked
    have different : other ≠ key := by
      rintro rfl
      obtain rfl : d = e := Option.some.inj (stored.symm.trans present)
      exact not_tracked_iff.1 (settled.untracks i) other ⟨q, found, own.trans same⟩
    exact ⟨e, by simpa [Store.peek?, erased, different] using present, capable⟩

theorem letGo_settled {cache : Cache} {w : World (Journal (Ledger ε))}
    (settled : Settled (cache, w)) (i : InstanceId) : Settled (cache.letGo services i w) := by
  obtain ⟨events, conserves⟩ := letGo_conserves accounts .close cache i w
  refine ⟨⟨conserves.balanced settled.sound.balanced, letGo_synced accounts settled i⟩, ?_⟩
  rcases letGo_cases accounts cache i w with ⟨-, same⟩ | ⟨key, d, -, -, books, -⟩
  · rw [same]
    exact settled.fair
  · rw [books.ledger, loads_append, loads_closed, loads_nil, List.append_nil]
    exact settled.fair

theorem endContext_settled {cache : Cache} {w : World (Journal (Ledger ε))}
    (settled : Settled (cache, w)) (c : ContextId) : Settled (cache.endContext services c w) := by
  let unopened : Cache := { cache with context := none }
  have start : Settled (unopened, (Context.close services c w).2) :=
    settled.calm (close_calm accounts c w) rfl rfl rfl
  refine releaseDeferred_induct services (P := fun next w' => Settled (next, w')) ?_ ?_ _
    unopened _ start
  · exact fun next w' i settled => letGo_settled accounts settled i
  · exact fun next w' d settled => settled.calm (accounts.report w' d).calm rfl rfl rfl

end LetGo

/-! ## Moves -/

section Tracker

variable {services : Services (Act ε)} {running : List ContextId} {action : Action} {key : Key}
  {p : Participant}

theorem endContext_fewer {cache : Cache} {c : ContextId} {w : World ε}
    (found : (cache.endContext services c w).1.tracker.get? key = some p) :
    cache.tracker.get? key = some p := by
  let unopened : Cache := { cache with context := none }
  refine releaseDeferred_induct services (P := fun next _ =>
    next.tracker.get? key = some p → cache.tracker.get? key = some p) ?_ ?_ _ unopened _ id found
  · exact fun next w' i sofar found => sofar (Tracker.get?_of_untrack found)
  · exact fun _ _ _ sofar => sofar

theorem Move.came {before after : Cache × World ε} (move : Move services running action before after)
    (found : after.1.tracker.get? key = some p) :
    before.1.tracker.get? key = some p ∨ action.requests = true ∧
      after = (before.1.tracking key p, (before.1.welcome services p before.2).2) := by
  cases move with
  | @track cache w typeName place dataset q asked =>
      simp only [tracking, Tracker.get?, Table.get?_insert] at found
      split at found
      next same =>
          obtain rfl := Option.some.inj found
          subst same asked
          exact .inr ⟨rfl, rfl⟩
      next => exact .inl found
  | defer | release => exact .inl (Tracker.get?_of_untrack found)
  | endContext => exact .inl (endContext_fewer found)
  | @addExtra cache w q asked =>
      obtain ⟨extras, same⟩ := addExtra_rest cache q w services
      rw [same] at found
      exact .inl found
  | @removeExtra cache w q asked =>
      obtain ⟨extras, same⟩ := removeExtra_rest cache q w
      rw [same] at found
      exact .inl found
  | @reset cache w ends =>
      dsimp only at found
      rw [reset_tracker] at found
      contradiction
  | _ => exact .inl found

end Tracker

section Moves

variable {services : Services (Act (Journal (Ledger ε)))} (accounts : services.Accountable)
  {running : List ContextId} {action : Action}

include accounts

theorem Move.synced {before after : State ε} (move : Move services running action before after)
    (settled : Settled before) : Synced after.1 := by
  have synced := settled.sound.synced
  cases move with
  | load asked living dynamic absent loaded => exact synced.keeping dynamic absent _
  | track asked dynamic stored capable untracked => exact synced.tracking stored capable
  | defer => exact synced.alike rfl rfl Tracker.get?_of_untrack
  | release => exact letGo_synced accounts settled _
  | endContext => exact (endContext_settled accounts settled _).sound.synced
  | @addExtra cache w p asked =>
      obtain ⟨extras, same⟩ := addExtra_rest cache p w services
      rw [same]
      exact synced.alike rfl rfl id
  | @removeExtra cache w p asked =>
      obtain ⟨extras, same⟩ := removeExtra_rest cache p w
      rw [same]
      exact synced.alike rfl rfl id
  | @reset cache w ends =>
      have unstored := reset_entries services cache w
      exact .of_empty unstored (reset_tracker services cache w)
  | @retire cache w asked unopened unstored =>
      constructor
      · exact fun _ => rfl
      · exact synced.tracked
  | _ => exact synced.alike rfl rfl id

theorem Move.sound {before after : State ε} (move : Move services running action before after)
    (settled : Settled before) : Sound after := by
  obtain ⟨events, conserves⟩ := move.conserves accounts
  exact ⟨conserves.balanced settled.sound.balanced, move.synced accounts settled⟩

theorem run_sound {s : Session} {w : World (Journal (Ledger ε))} {action : Action}
    (sound : Sound (s.cache, w)) (fair : Fair (loads (s.run services action w).2.ledger)) :
    Sound ((s.run services action w).1.2.cache, (s.run services action w).2) := by
  refine run_induct services s action w
    (P := fun state => Fair (loads state.2.ledger) → Sound state) (fun _ => sound) ?_ fair
  intro before after move sofar fair
  obtain ⟨events, conserves⟩ := move.conserves accounts
  exact move.sound accounts ⟨sofar (conserves.fair fair), conserves.fair fair⟩

theorem run_fair {s : Session} {w : World (Journal (Ledger ε))} {action : Action}
    (fair : FairSoFar (s.run services action w).2) : FairSoFar w := by
  obtain ⟨events, conserves⟩ := run_conserves accounts s action w
  exact conserves.fair fair

theorem create_sound {instantiator : InstantiatorId} {coordinator : CoordinatorId}
    {config : Config} {metrics : Option MetricsId} {contexts : List Context} {outside : ε}
    {cache : Cache} {w : World (Journal (Ledger ε))}
    (created : create services instantiator coordinator config metrics
      (.unwritten contexts outside) = (.ok cache, w)) : Sound (cache, w) := by
  have creation := create_books accounts instantiator coordinator config metrics
    (.unwritten contexts outside)
  rw [created] at creation
  obtain ⟨first, books, plain, unreleased, held, unstored, untracked, -⟩ := creation
  have start : w.ledger = first := books.ledger
  refine ⟨⟨fun d member => ?_, fun i => ?_⟩, .of_empty unstored untracked⟩
  · rw [start]
    exact held.mem_iff.1 member
  · rw [start, unreleased, (ids_perm held).count_eq]
    simp

end Moves

/-! ## Whole runs -/

/-- Every tracked participant is the instance that the store has under its key, and no
tracked key is static. -/
def InStep (cache : Cache) : Prop :=
  ∀ key p, cache.tracker.get? key = some p →
    cache.statics.get? key = none ∧ ∃ d, cache.store.peek? key = some d ∧ d.id = p.id

/-- After the step the store and the tracker agree, and no request has found otherwise. -/
def Agreeing : Condition (Journal (Ledger ε)) := fun _ _ action answer s _ =>
  s.cache.InStep ∧ ∀ typeName key bypass text, action = .get typeName key bypass →
    answer ≠ .failed (.inconsistent text)

theorem Sound.inStep {state : State ε} (sound : Sound state)
    (fair : Fair (loads state.2.ledger)) : state.1.InStep := by
  intro key p found
  obtain ⟨d, stored, -, own⟩ := Settled.held ⟨sound, fair⟩ found
  exact ⟨sound.synced.dynamic stored, d, stored, own.symm⟩

theorem Synced.not_diverges {cache : Cache} (synced : Synced cache) (key : Key) :
    ¬ cache.Diverges key := by
  rintro ⟨d, p, q, stored, capable, tracked, other⟩
  obtain ⟨e, present, able⟩ := synced.tracked tracked
  obtain rfl : d = e := Option.some.inj (stored.symm.trans present)
  obtain rfl : p = q := Option.some.inj (capable.symm.trans able)
  exact other rfl

/-- **The store and the tracker never diverge.**  Whatever is done with a new cache and
with contexts, and whatever services and callbacks answer, if loads give fresh instances
that take part in transactions as themselves, then what is tracked is stored under the same
key, and no request ends in an inconsistency. -/
theorem store_and_tracker_agree {callbacks : Callbacks ε} {base : Services (StateM ε)}
    {depth : Nat} {instantiator : InstantiatorId} {coordinator : CoordinatorId} {config : Config}
    {metrics : Option MetricsId} {contexts : List Context} {outside : ε} {cache : Cache}
    {w : World (Journal (Ledger ε))}
    (created : create (callbacks.audited base depth) instantiator coordinator config metrics
      (.unwritten contexts outside) = (.ok cache, w))
    {actions : List Action}
    (fair : Fair (loads
      (Session.runAll (callbacks.audited base depth) { cache } actions w).2.ledger)) :
    cache.InStep ∧ Throughout (callbacks.audited base depth) Agreeing { cache } w actions := by
  have accounts := callbacks.audited_accountable base depth
  have sound := create_sound accounts created
  have start := runAll_backward FairSoFar (fun _ _ _ => run_fair accounts) fair
  refine ⟨sound.inStep start, ?_⟩
  refine throughout_of_invariant (I := fun s w => Sound (s.cache, w)) FairSoFar
    (fun _ _ _ => run_fair accounts) (fun _ => True) ?_ sound (fun _ _ => trivial) fair
  intro s action w _ fair sound
  have after := run_sound accounts sound fair
  refine ⟨after, after.inStep fair, ?_⟩
  rintro typeName key bypass text rfl failed
  have diverged := (run_explains (callbacks.audited base depth) s typeName key bypass w).2
  exact after.synced.not_diverges key (diverged text failed)

theorem visit_fair : FairSoFar (Session.runAll (Callbacks.silent.audited Services.minting 0)
    { cache := minted } visit (.unwritten [] 0)).2 := by
  rw [FairSoFar, visit_loads]
  exact ⟨by decide, by simp [table]⟩

theorem store_and_tracker_agree_visit :
    let services := Callbacks.silent.audited Services.minting 0
    ∃ cache w, create services 0 0 {} none (.unwritten [] 0) = (.ok cache, w) ∧
      Fair (loads (Session.runAll services { cache } visit w).2.ledger) ∧
      cache.InStep ∧ Throughout services Agreeing { cache } w visit :=
  ⟨minted, _, create_minted, visit_fair, store_and_tracker_agree create_minted visit_fair⟩

end Cache

end DatasetCache
