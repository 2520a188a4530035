import DatasetCache.Proofs.Cache.Execution
import DatasetCache.Proofs.Cache.Lineup
import DatasetCache.Proofs.Cache.Logbook

/-!
# The end of a cache

A cache that closes goes through its extras, the transaction in progress, its store, the static
datasets and the instantiator, in that order.  None of these is left out because another one
has failed, and what has failed is reported at the end, item by item.  From then on the cache
refuses everything that would need it, and calls nothing.
-/

namespace DatasetCache

open Act Context

variable {ε : Type}

/-! ## What is called by a close -/

theorem discard_sent {services : Services (Act ε)} {log : ε → List Errand}
    (logs : services.Logs log) {c : ContextId} {w : World ε}
    (consistent : (w.context c).Consistent) :
    ∃ calls, Dissolution (w.context c) calls ∧
      Sent log (·.modify c shut) (calls.map .occurred) w (Context.discard services c w).2 :=
  logs.tells.dissolves consistent

def Loader.words (_ : Unit) (fault : Fault) : String := "instantiator: " ++ fault.message

def verdict (failures : List String) : Except Fault Unit :=
  if failures.isEmpty then .ok () else .error (.cleanup failures)

/-- What comes back in the course of a close. -/
structure Closes where
  extras : List (Participant × Except Fault Unit)
  dissolution : List Occurrence
  stored : List ((Key × Dataset) × Except Fault Unit)
  statics : List ((Key × Dataset) × Except Fault Unit)
  instantiator : Except Fault Unit

namespace Closes

def errands (closes : Closes) (i : InstantiatorId) : List Errand :=
  closes.extras.map (fun answered => .closedExtra answered.1 answered.2) ++
    closes.dissolution.map .occurred ++ closesOf closes.stored ++ closesOf closes.statics ++
    [.closedInstantiator i closes.instantiator]

def failures (closes : Closes) : List String :=
  complaints Extras.words closes.extras ++ complaints Store.words closes.stored ++
    complaints Statics.words closes.statics ++
    complaints Loader.words [((), closes.instantiator)]

def instances (closes : Closes) : List InstanceId :=
  closes.extras.map (·.1.id) ++ closes.stored.map (·.1.2.id) ++ closes.statics.map (·.1.2.id)

def result (closes : Closes) : Except Fault Unit := verdict closes.failures

structure Succeed (closes : Closes) : Prop where
  extras : ∀ answered ∈ closes.extras, answered.2 = .ok ()
  stored : ∀ answered ∈ closes.stored, answered.2 = .ok ()
  statics : ∀ answered ∈ closes.statics, answered.2 = .ok ()
  instantiator : closes.instantiator = .ok ()

theorem result_ok_iff (closes : Closes) : closes.result = .ok () ↔ closes.Succeed := by
  have clean : closes.result = .ok () ↔ closes.failures = [] := by
    unfold result verdict
    cases closes.failures <;> simp
  rw [clean, failures]
  simp only [List.append_eq_nil_iff, complaints_eq_nil_iff]
  constructor
  · rintro ⟨⟨⟨extras, stored⟩, statics⟩, instantiator⟩
    exact ⟨extras, stored, statics, instantiator _ (List.mem_singleton.2 rfl)⟩
  · rintro ⟨extras, stored, statics, instantiator⟩
    refine ⟨⟨⟨extras, stored⟩, statics⟩, fun answered member => ?_⟩
    rw [List.mem_singleton.1 member]
    exact instantiator

/-- Everything that a cache has is closed, the stored datasets in the order of their keys,
which stands for an arbitrary one as in `Store.evictAll`. -/
structure Complete (closes : Closes) (cache : Cache) (w : World ε) : Prop where
  extras : closes.extras.map Prod.fst = cache.extras.members.filter (·.closeable)
  dissolution : match cache.context with
    | none => closes.dissolution = []
    | some c => Dissolution (w.context c) closes.dissolution
  stored : closes.stored.map Prod.fst = cache.store.entries.entries
  statics : closes.statics.map Prod.fst = cache.statics.datasets.entries

end Closes

namespace Cache

theorem releaseEach_loader (services : Services (Act ε)) (store : Store)
    (entries : List (Key × Dataset)) (w : World ε) :
    (store.releaseEach services entries w).1.2.loader = store.loader := by
  induction entries generalizing store w with
  | nil => rfl
  | cons entry rest ih =>
      simp only [Store.releaseEach, Store.release, bind_apply, pure_apply]
      cases (services.closeDataset entry.2 w).1 <;> exact ih _ _

theorem reset_loader (services : Services (Act ε)) (cache : Cache) (w : World ε) :
    (cache.reset services w).1.2.store.loader = cache.store.loader := by
  unfold reset
  cases cache.context <;> exact releaseEach_loader services _ _ _

def conclude (services : Services (Act ε)) (cache : Cache) (failures : List String) :
    Act ε (Except Fault Unit × Cache) := do
  let loaderFailures ← match ← cache.store.loader.close services with
    | .ok () => pure []
    | .error fault => do
      services.warn .cache "Error closing instantiator"
      pure ["instantiator: " ++ fault.message]
  let failures := failures ++ loaderFailures
  if failures.isEmpty then
    services.info .cache "Dataset cache closed"
    return (.ok (), cache)
  else
    return (.error (.cleanup failures), cache)

theorem close_concludes (services : Services (Act ε)) {cache : Cache}
    (living : cache.closed = false) :
    cache.close services = (do
      let extraFailures ← cache.extras.closeAll services
      let (storeFailures, next) ← cache.reset services
      let (staticFailures, statics) ← next.statics.closeAll services
      { next with closed := true, statics }.conclude services
        (extraFailures ++ storeFailures ++ staticFailures)) := by
  funext w
  unfold close
  rw [living, if_neg (by simp)]
  simp only [bind_apply, reset_closed]
  rfl

def vacating (cache : Cache) : List Context → List Context :=
  match cache.context with
  | some c => (·.modify c shut)
  | none => id

section Sending

variable {services : Services (Act ε)} {log : ε → List Errand} (logs : services.Logs log)
  {cache : Cache} {w : World ε}
  (consistent : ∀ c, cache.context = some c → (w.context c).Consistent)

include logs consistent

theorem reset_sent :
    ∃ dissolution stored,
      (match cache.context with
        | none => dissolution = []
        | some c => Dissolution (w.context c) dissolution) ∧
      stored.map Prod.fst = cache.store.entries.entries ∧
      (cache.reset services w).1.1 = complaints Store.words stored ∧
      Sent log cache.vacating (dissolution.map .occurred ++ closesOf stored) w
        (cache.reset services w).2 := by
  unfold reset vacating
  cases opened : cache.context with
  | none =>
      obtain ⟨stored, everything, messages, sent⟩ := Store.releaseEach_sent logs
        { cache.store with entries := Table.empty } cache.store.entries.entries w
      exact ⟨[], stored, rfl, everything, messages, sent⟩
  | some c =>
      obtain ⟨calls, dissolution, first⟩ := discard_sent logs (consistent c opened)
      obtain ⟨stored, everything, messages, sent⟩ := Store.releaseEach_sent logs
        { cache.store with entries := Table.empty } cache.store.entries.entries
        (Context.discard services c w).2
      exact ⟨calls, stored, dissolution, everything, messages, first.append sent⟩

omit consistent in
theorem conclude_sent (cache : Cache) (failures : List String) (w : World ε) :
    ∃ answer, (cache.conclude services failures w).1.1 = verdict
        (failures ++ complaints Loader.words [((), answer)]) ∧
      Sent log id [.closedInstantiator cache.store.loader.instantiator answer] w
        (cache.conclude services failures w).2 := by
  have call := logs.closeInstantiator cache.store.loader.instantiator w
  unfold conclude Loader.close
  simp only [bind_apply]
  generalize services.closeInstantiator cache.store.loader.instantiator w = answered at call ⊢
  obtain ⟨answer, w'⟩ := answered
  refine ⟨answer, ?_⟩
  cases answer with
  | ok done =>
      cases failures with
      | nil => exact ⟨rfl, call.quiet (logs.report ⟨.info, .cache, "Dataset cache closed"⟩ w')⟩
      | cons failure rest => exact ⟨rfl, call⟩
  | error fault =>
      have logged := call.quiet (logs.report ⟨.warn, .cache, "Error closing instantiator"⟩ w')
      cases failures with
      | nil => exact ⟨rfl, logged⟩
      | cons failure rest => exact ⟨rfl, logged⟩

theorem close_sent (living : cache.closed = false) :
    ∃ closes : Closes, closes.Complete cache w ∧ (cache.close services w).1.1 = closes.result ∧
      Sent log cache.vacating (closes.errands cache.store.loader.instantiator) w
        (cache.close services w).2 := by
  obtain ⟨extras, everybody, extraMessages, first⟩ :=
    Extras.closeEach_sent logs cache.extras.members w
  rw [close_concludes services living]
  simp only [bind_apply, Extras.closeAll, Statics.closeAll, pure_apply]
  generalize Extras.closeEach services cache.extras.members w = closed at extraMessages first ⊢
  obtain ⟨_, w₁⟩ := closed
  -- Extras are closed first, and the contexts are the same as before after that.
  have same : ∀ c, w₁.context c = w.context c := fun c => by
    rw [World.context, World.context, first.contexts, id]
  obtain ⟨dissolution, stored, dissolves, everything, storeMessages, second⟩ :=
    reset_sent logs (w := w₁) fun c opened => by
      rw [same]
      exact consistent c opened
  simp only [same] at dissolves
  have statics := (reset_rest services cache w₁).1
  have loader := reset_loader services cache w₁
  generalize cache.reset services w₁ = emptied at storeMessages second statics loader ⊢
  obtain ⟨⟨_, next⟩, w₂⟩ := emptied
  obtain ⟨others, remaining, staticMessages, third⟩ :=
    Statics.closeEach_sent logs next.statics.datasets.entries w₂
  dsimp only at extraMessages storeMessages statics loader ⊢
  subst extraMessages storeMessages
  rw [statics] at remaining
  obtain ⟨answer, reported, last⟩ := conclude_sent logs
    { next with closed := true, statics := {} }
    (complaints Extras.words extras ++ complaints Store.words stored ++
      (Statics.closeEach services next.statics.datasets.entries w₂).1)
    (Statics.closeEach services next.statics.datasets.entries w₂).2
  rw [staticMessages] at reported
  dsimp only at last
  rw [loader] at last
  have all := ((first.append second).append third).append last
  refine ⟨⟨extras, dissolution, stored, others, answer⟩,
    ⟨everybody, dissolves, everything, remaining⟩, ?_, all.contexts, ?_⟩
  · rw [staticMessages]
    exact reported
  · simpa only [Closes.errands, List.append_assoc] using all.log

end Sending

/-! ## A cache that is gone -/

section Gone

variable (services : Services (Act ε)) {cache : Cache} {w : World ε}

/-- What is done with a closed cache does not get as far as a call. -/
structure Refuses (cache : Cache) (w : World ε) : Prop where
  close : cache.close services w = ((.ok (), cache), w)
  drop : cache.drop services w = ((), w)
  get : ∀ running key bypass typeName,
    Session.getDataset services { cache, running } key bypass typeName w =
      ((.error closedFault, cache), w)
  openContext : cache.openContext services w = ((.error closedFault, cache), w)
  execute : ∀ {α : Type} (body : Cache → Act ε (Except Fault α × Cache)),
    cache.execute services body w = ((.error closedFault, cache), w)

/-- A closed cache holds nothing, tracks nothing and has no context open. -/
structure Retired (cache : Cache) : Prop where
  closed : cache.closed = true
  empty : cache.Sealed
  untracked : cache.tracker.participants = []

theorem refuses_of_closed (closed : cache.closed = true) (w : World ε) :
    Refuses services cache w := by
  have closes : cache.close services w = ((.ok (), cache), w) := by
    rw [Cache.close, if_pos closed, pure_apply]
  have opens : cache.openContext services w = ((.error closedFault, cache), w) := by
    rw [Cache.openContext, if_pos closed, pure_apply]
  have fetches : ∀ key bypass, cache.fetch services key bypass w =
      ((.error closedFault, cache), w) := fun key bypass => by
    rw [Cache.fetch, if_pos closed, pure_apply]
  refine ⟨closes, ?_, fun running key bypass typeName => ?_, opens, fun body => ?_⟩
  · rw [Cache.drop, bind_apply, closes]
    rfl
  · obtain ⟨check, -, -, asks⟩ :=
      Session.getDataset_eq services { cache, running } key bypass typeName
    rw [asks, acquire, bind_apply, fetches]
    rfl
  · rw [Cache.execute, bind_apply, opens]
    rfl

theorem close_retired (living : cache.closed = false) (w : World ε) :
    Retired (cache.close services w).1.2 := by
  have concludes : ∀ (next : Cache) failures (w : World ε),
      (next.conclude services failures w).1.2 = next := by
    intro next failures w
    unfold conclude
    simp only [bind_apply]
    cases (next.store.loader.close services w).1 <;> cases failures <;> rfl
  rw [close_concludes services living]
  simp only [bind_apply, Extras.closeAll, Statics.closeAll, pure_apply, concludes]
  have unopened := (reset_rest services cache
    (Extras.closeEach services cache.extras.members w).2).2
  exact ⟨rfl, ⟨unopened, reset_entries services _ _, rfl⟩,
    congrArg Tracker.participants (reset_tracker services _ _)⟩

theorem run_retired {s : Session} (retired : Retired s.cache) (action : Action) (w : World ε) :
    Retired (s.run services action w).1.2.cache := by
  obtain ⟨empty, stays⟩ := run_sealed services action w fun _ => retired.empty
  refine ⟨stays retired.closed, empty (stays retired.closed), ?_⟩
  refine List.eq_nil_iff_forall_not_mem.2 fun p tracked => ?_
  obtain ⟨key, found⟩ := Table.mem_values_iff.1 tracked
  rcases run_came services found with before | ⟨⟨typeName, rfl⟩, -, d, answer, -⟩
  · -- It has been tracked before already, but nobody has.
    have member : p ∈ s.cache.tracker.participants := Table.mem_values_iff.2 ⟨key, before⟩
    rw [retired.untracked] at member
    cases member
  · -- Only a request that finds something brings somebody in, and a closed cache finds nothing.
    have refused := (refuses_of_closed services retired.closed w).get s.running key false typeName
    rw [Session.run, bind_apply, refused] at answer
    cases answer

theorem runAll_retired {s : Session} (retired : Retired s.cache) (actions : List Action)
    (w : World ε) : Retired (s.runAll services actions w).1.cache := by
  induction actions generalizing s w with
  | nil => exact retired
  | cons action rest ih => exact ih (run_retired services retired action w) _

end Gone

/-! ## Every state of a cache -/

def Housed (state : State ε) : Prop :=
  ∀ c, state.1.context = some c → c < state.2.contexts.length ∧ (state.2.context c).Proper

structure Standing (state : State ε) : Prop where
  balanced : Balanced state
  housed : Housed state
  extras : (state.1.extras.members.map (·.id)).Nodup

section Standing

variable {base : Services (StateM ε)} {running : List ContextId} {action : Action}
  {before after : State ε}

theorem Housed.works {c : ContextId} {f : Context → Context} {entries : List Entry}
    (housed : Housed before) (works : Works c f entries before after) : Housed after := by
  intro d opened
  rw [works.context] at opened
  obtain ⟨inside, proper⟩ := housed d opened
  refine ⟨by rwa [works.turns.length], ?_⟩
  rcases works.turns.context_cases d with same | ⟨rfl, -, changed⟩
  · rwa [same]
  · rw [changed]
    exact (works.way.tame proper).proper proper

theorem Housed.upshot (housed : Housed before) (upshot : Upshot base running action before after) :
    Housed after := by
  cases upshot with
  | quiet adds context =>
      intro c opened
      rw [context] at opened
      rw [adds.contexts, adds.context]
      exact housed c opened
  | tends opened works => exact housed.works works
  | settles inside works => exact housed.works works
  | uses used works => exact housed.works works
  | ends ends opened turns unopened =>
      intro c opened
      rw [unopened] at opened
      cases opened
  | opens ends unopened opened =>
      obtain ⟨length, -⟩ := openWith_opens base before.1 before.2
      have seeds := openWith_seeds base.audited before.1 before.2
      rw [opened]
      rintro c ⟨⟩
      refine ⟨by rw [length]; exact Nat.lt_succ_self _, ?_⟩
      rw [seeds]
      exact ⟨rfl, Participant.nodup_foldl_addTo (by simp) _⟩

theorem Reachable.standing {cache : Cache} {w : World (Journal (Ledger ε))}
    (reached : Reachable base.audited cache w) : Standing (cache, w) := by
  have accounts := audited_accountable base
  induction reached with
  | @created instantiator coordinator config metrics contexts outside cache w created =>
      have creation := create_books accounts instantiator coordinator config metrics
        (.unwritten contexts outside)
      rw [created] at creation
      obtain ⟨-, -, -, -, -, -, -, unaided, unopened, -⟩ := creation
      refine ⟨(create_sound accounts created).balanced, fun c opened => ?_, ?_⟩
      · rw [unopened] at opened
        cases opened
      · simp [unaided]
  | @acts s w reached action ih =>
      obtain ⟨events, conserves⟩ := run_conserves accounts s action w
      refine ⟨conserves.balanced ih.balanced, ?_, ?_⟩
      · exact Cache.run_induct base.audited s action w ih.housed
          fun move housed => housed.upshot move.upshot
      · dsimp only
        rw [run_extras]
        exact nodup_adjust ih.extras action
  | works reached change ih =>
      exact ⟨⟨ih.balanced.known, ih.balanced.bounded⟩, ih.housed, ih.extras⟩

theorem Reachable.runAll {services : Services (Act (Journal (Ledger ε)))} {s : Session}
    {w : World (Journal (Ledger ε))} (reached : Reachable services s.cache w)
    (actions : List Action) :
    Reachable services (s.runAll services actions w).1.cache (s.runAll services actions w).2 := by
  induction actions generalizing s w with
  | nil => exact reached
  | cons action rest ih => exact ih (reached.acts action)

end Standing

/-! ## Closing -/

theorem instances_of_complete {closes : Closes} {cache : Cache} {w : World ε}
    (complete : closes.Complete cache w) :
    closes.instances =
      (cache.extras.members.filter (·.closeable)).map (·.id) ++ ids cache.datasets := by
  rw [← complete.extras, datasets, ids_append, Table.values, Table.values, ← complete.stored,
    ← complete.statics, Closes.instances, ids, ids]
  simp only [List.map_map, List.append_assoc]
  rfl

theorem Standing.once {closes : Closes} {state : State ε} (standing : Standing state)
    (complete : closes.Complete state.1 state.2) (fresh : (ids (loads state.2.ledger)).Nodup)
    (foreign : ∀ p ∈ state.1.extras.members, p.id ∉ ids state.1.datasets) :
    closes.instances.Nodup := by
  rw [instances_of_complete complete, List.nodup_append]
  refine ⟨standing.extras.sublist (List.filter_sublist.map _), standing.balanced.distinct fresh, ?_⟩
  rintro i extra j held rfl
  obtain ⟨p, member, rfl⟩ := List.mem_map.1 extra
  exact foreign p (List.mem_filter.1 member).1 held

/-- **Closing is best effort, complete and final.**  Whatever has been done with a cache and with
contexts before, and whatever the calls answer, a close closes the extras that can be closed,
settles the transaction in progress, and closes what is stored, the static datasets and the
instantiator, in this order and each once.  It succeeds if all closes do, and reports those
that have failed otherwise.  The context is closed then, and from then on the cache is empty and
does nothing. -/
theorem close_best_effort (base : Services (StateM ε)) {cache : Cache}
    {w : World (Journal (Ledger (Logbook ε)))} (reached : Reachable base.logging.audited cache w)
    (living : cache.closed = false) (fresh : (ids (loads w.ledger)).Nodup)
    (foreign : ∀ p ∈ cache.extras.members, p.id ∉ ids cache.datasets) :
    let services := base.logging.audited
    let closed := cache.close services w
    (∃ closes : Closes, closes.Complete cache w ∧ closes.instances.Nodup ∧
      closed.2.outside.inner.inner.errands = w.outside.inner.inner.errands ++
        closes.errands cache.store.loader.instantiator ∧
      closed.1.1 = closes.result ∧ (closed.1.1 = .ok () ↔ closes.Succeed)) ∧
    (∀ c, cache.context = some c → (closed.2.context c).isClosed = true) ∧
    ∀ running actions,
      let later := Session.runAll services { cache := closed.1.2, running } actions closed.2
      Retired later.1.cache ∧ Refuses services later.1.cache later.2 := by
  intro services closed
  have standing := reached.standing
  obtain ⟨closes, complete, result, sent⟩ := close_sent base.audited_logs
    (fun c opened => (standing.housed c opened).2.consistent) living
  refine ⟨⟨closes, complete, standing.once complete fresh foreign, sent.log, result, ?_⟩, ?_, ?_⟩
  · rw [← closes.result_ok_iff, ← result]
  · intro c opened
    obtain ⟨inside, -⟩ := standing.housed c opened
    have contexts : closed.2.contexts = w.contexts.modify c shut := by
      rw [sent.contexts, vacating, opened]
    have gone : closed.2.context c = shut (w.context c) := by
      simp [World.context, contexts, inside]
    rw [gone]
    rfl
  · intro running actions later
    have retired : Retired later.1.cache :=
      runAll_retired services (close_retired services living w) actions closed.2
    exact ⟨retired, refuses_of_closed services retired.closed later.2⟩

/-! ## A close in which much fails -/

def reckless : Services (StateM Nat) :=
  { Services.minting with
    rollback := fun _ => pure (.ok false)
    closeDataset := fun d =>
      pure (if d.id = 2 then .error (.internal "locked") else .ok ())
    closeParticipant := fun _ => pure (.error (.internal "busy")) }

def abandoned : List Action :=
  [.enter, .get none (Key.named "users") false, .get none (Key.named "orders") false,
    .addExtra { id := 9, name := "audit", closeable := true }, .dismiss (table 2 "users")]

def abandonment : Session × World (Journal (Ledger (Logbook Nat))) :=
  Session.runAll reckless.logging.audited { cache := minted } abandoned
    (.unwritten [] { inner := 0 })

theorem create_reckless : create reckless.logging.audited 0 0 {} none
    (.unwritten [] { inner := 0 }) = (.ok minted, .unwritten [] { inner := 0 }) := rfl

theorem abandonment_reached :
    Reachable reckless.logging.audited abandonment.1.cache abandonment.2 := by
  have founded : Reachable reckless.logging.audited ({ cache := minted } : Session).cache
    (.unwritten [] { inner := 0 }) := .created create_reckless
  unfold abandonment
  exact founded.runAll abandoned

theorem abandonment_fails :
    let cache := abandonment.1.cache
    cache.closed = false ∧ loads abandonment.2.ledger = [table 2 "users", table 3 "orders"] ∧
      (∀ p ∈ cache.extras.members, p.id ∉ ids cache.datasets) ∧
      cache.store.loader.instantiator = 0 ∧ cache.context = some 0 ∧
      (cache.close reckless.logging.audited abandonment.2).1.1 =
        .error (.cleanup ["extra participant 'audit': Internal error: busy",
          "Error closing 'users': Internal error: locked"]) := by
  decide +kernel

theorem close_best_effort_abandoned :
    let services := reckless.logging.audited
    let cache := abandonment.1.cache
    let w := abandonment.2
    let closed := cache.close services w
    Reachable services cache w ∧ cache.closed = false ∧ (ids (loads w.ledger)).Nodup ∧
      (∀ p ∈ cache.extras.members, p.id ∉ ids cache.datasets) ∧
      ∃ closes : Closes, closes.Complete cache w ∧ closes.instances.Nodup ∧
        closed.2.outside.inner.inner.errands = w.outside.inner.inner.errands ++ closes.errands 0 ∧
        closes.result = .error (.cleanup ["extra participant 'audit': Internal error: busy",
          "Error closing 'users': Internal error: locked"]) ∧
        (closed.2.context 0).isClosed = true ∧ Refuses services closed.1.2 closed.2 := by
  have reached := abandonment_reached
  have fails := abandonment_fails
  -- The end of the run is not computed with any more.
  generalize abandonment = ended at reached fails ⊢
  obtain ⟨⟨cache, running⟩, w⟩ := ended
  obtain ⟨living, loaded, foreign, instantiator, opened, reported⟩ := fails
  have fresh : (ids (loads w.ledger)).Nodup := by
    rw [loaded]
    decide
  obtain ⟨⟨closes, complete, once, errands, result, -⟩, gone, later⟩ :=
    close_best_effort reckless reached living fresh foreign
  rw [instantiator] at errands
  exact ⟨reached, living, fresh, foreign, closes, complete, once, errands, result ▸ reported,
    gone 0 opened, (later [] []).2⟩

end Cache

end DatasetCache
