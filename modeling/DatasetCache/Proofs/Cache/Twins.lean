import DatasetCache.Proofs.Cache.Seats
import DatasetCache.Proofs.Context.Twins

/-!
# Two caches side by side

Two caches that differ in how often they have been bypassed behave alike over services that
are twins for all participants.  Nothing reads that count.
-/

namespace DatasetCache

open Act Context

variable {ε ε' α : Type} {A : World ε → World ε' → Prop} {services : Services (Act ε)}
  {others : Services (Act ε')}

abbrev Anybody : Participant → Prop := fun _ => True

/-! ## Loading and closing -/

section Supply

variable (twins : services.Twins Anybody A others)

include twins

theorem Loader.load_twin (loader : Loader) (key : Key) :
    Twin A id (loader.load services key) (loader.load others key) := by
  refine .step (twins.load _ _ key) fun answer => ?_
  match answer with
  | .error fault => exact .pure rfl
  | .ok none => exact .pure rfl
  | .ok (some dataset) =>
      dsimp only
      cases loader.metrics with
      | none => exact .pure rfl
      | some metrics =>
          cases dataset.metered with
          | false => exact .pure rfl
          | true => exact .step (twins.meter _ _ _ _) fun _ => .pure rfl

theorem Statics.closeAll_twin (statics : Statics) :
    Twin A id (statics.closeAll services) (statics.closeAll others) := by
  have each : ∀ entries : List (Key × Dataset),
      Twin A id (closeEach services entries) (closeEach others entries) := by
    intro entries
    induction entries with
    | nil => exact .pure rfl
    | cons entry rest ih =>
        refine .step (twins.closeDataset _) fun answer => ?_
        cases answer with
        | ok done => exact ih
        | error fault => exact .step (twins.report _) fun _ => .step ih fun _ => .pure rfl
  exact .step (each _) fun _ => .pure rfl

theorem Extras.closeAll_twin (extras : Extras) :
    Twin A id (extras.closeAll services) (extras.closeAll others) := by
  have each : ∀ ps : List Participant,
      Twin A id (closeEach services ps) (closeEach others ps) := by
    intro ps
    induction ps with
    | nil => exact .pure rfl
    | cons p rest ih =>
        unfold closeEach
        split
        · refine .step (twins.closeParticipant p) fun answer => ?_
          cases answer with
          | ok done => exact ih
          | error fault => exact .step (twins.report _) fun _ => .step ih fun _ => .pure rfl
        · exact ih
  exact each _

theorem Tracker.track_twin (tracker : Tracker) (key : Key) (p : Participant) :
    Twin A id (tracker.track services key p) (tracker.track others key p) := by
  unfold track
  split
  · exact .pure rfl
  split
  · exact .pure rfl
  · exact .step (twins.report _) fun _ => .pure rfl

end Supply

/-! ## The store -/

namespace Store

def plain (store : Store) : Store := { store with stats.bypassLoads := 0 }

variable (store : Store)

@[simp] theorem plain_peek? (key : Key) : store.plain.peek? key = store.peek? key := rfl

@[simp] theorem plain_keyOf? (i : InstanceId) : store.plain.keyOf? i = store.keyOf? i := rfl

@[simp] theorem plain_holds (i : InstanceId) : store.plain.holds i = store.holds i := rfl

variable (twins : services.Twins Anybody A others)

include twins

theorem get_twin (key : Key) :
    Twin A (Prod.map id plain) (store.get services key false) (store.plain.get others key false) := by
  simp only [get, Bool.false_eq_true, if_false, plain_peek?]
  cases store.peek? key with
  | some dataset => exact .pure rfl
  | none =>
      refine .step (Loader.load_twin twins store.loader key) fun answer => ?_
      cases answer with
      | error fault => exact .pure rfl
      | ok dataset => exact .step (twins.report _) fun _ => .pure rfl

theorem release_twin (key : Key) (dataset : Dataset) :
    Twin A (Prod.map id plain) (store.release services key dataset)
      (store.plain.release others key dataset) := by
  refine .step (twins.closeDataset dataset) fun answer => ?_
  cases answer <;> exact .step (twins.report _) fun _ => .pure rfl

theorem evict_twin (key : Key) :
    Twin A (Prod.map id plain) (store.evict services key) (store.plain.evict others key) := by
  unfold evict
  rw [plain_peek?]
  cases store.peek? key with
  | none => exact .pure rfl
  | some dataset => exact .bind (release_twin _ twins key dataset) fun _ => .pure rfl

theorem evictInstance_twin (i : InstanceId) :
    Twin A (Prod.map id plain) (store.evictInstance services i)
      (store.plain.evictInstance others i) := by
  unfold evictInstance
  rw [plain_keyOf?]
  cases store.keyOf? i with
  | none => exact .pure rfl
  | some key => exact evict_twin store twins key

theorem evictAll_twin :
    Twin A (Prod.map id plain) (store.evictAll services) (store.plain.evictAll others) := by
  have each : ∀ (entries : List (Key × Dataset)) (store : Store),
      Twin A (Prod.map id plain) (store.releaseEach services entries)
        (store.plain.releaseEach others entries) := by
    intro entries
    induction entries with
    | nil => exact fun _ => .pure rfl
    | cons entry rest ih =>
        exact fun store => .bind (release_twin store twins _ _) fun _ =>
          .bind (ih _) fun _ => .pure rfl
  exact each _ _

end Store

namespace Cache

/-- The cache without its count of bypasses. -/
def plain (cache : Cache) : Cache := { cache with store := cache.store.plain }

section Fields

variable (cache : Cache)

@[simp] theorem plain_store : cache.plain.store = cache.store.plain := rfl

@[simp] theorem plain_statics : cache.plain.statics = cache.statics := rfl

@[simp] theorem plain_tracker : cache.plain.tracker = cache.tracker := rfl

@[simp] theorem plain_extras : cache.plain.extras = cache.extras := rfl

@[simp] theorem plain_context : cache.plain.context = cache.context := rfl

@[simp] theorem plain_closed : cache.plain.closed = cache.closed := rfl

end Fields

variable (link : Link Anybody A) (twins : services.Twins Anybody A others) (cache : Cache)

include link twins

/-! ## Getting and dismissing -/

theorem register_twin (key : Key) (dataset : Dataset) :
    Twin A (Prod.map id plain) (cache.register services key dataset)
      (cache.plain.register others key dataset) := by
  unfold register
  rw [plain_statics]
  cases cache.statics.get? key with
  | some known => exact .pure rfl
  | none =>
      cases dataset.participant with
      | none => exact .pure rfl
      | some p =>
          refine .step (Tracker.track_twin twins cache.tracker key p) fun answer => ?_
          match answer with
          | (.error fault, tracker) => exact .pure rfl
          | (.ok false, tracker) => exact .pure rfl
          | (.ok true, tracker) =>
              dsimp only
              rw [plain_context]
              cases cache.context with
              | none => exact .pure rfl
              | some c =>
                  refine .step (enrol_twin link twins c trivial) fun enrolled => ?_
                  split
                  · exact .step (twins.report _) fun _ => .pure rfl
                  · exact .pure rfl

omit link in
theorem fetch_twin (key : Key) :
    Twin A (Prod.map id plain) (cache.fetch services key false)
      (cache.plain.fetch others key false) := by
  unfold fetch
  rw [plain_closed, plain_statics]
  split
  · exact .pure rfl
  simp only [Bool.false_eq_true, if_false]
  cases cache.statics.get? key with
  | some dataset => exact .pure rfl
  | none => exact .bind (Store.get_twin cache.store twins key) fun _ => .pure rfl

theorem acquire_twin (key : Key) (check : Dataset → Except Fault Unit) :
    Twin A (Prod.map id plain) (cache.acquire services key false check)
      (cache.plain.acquire others key false check) := by
  refine .bind (fetch_twin twins cache key) fun fetched => ?_
  obtain ⟨answer, next⟩ := fetched
  cases answer with
  | error fault => exact .pure rfl
  | ok dataset =>
      dsimp only [Prod.map, id]
      cases check dataset with
      | error fault => exact .pure rfl
      | ok passed =>
          simp only [Bool.false_eq_true, if_false]
          refine .bind (register_twin link twins next key dataset) fun registered => ?_
          obtain ⟨answer, last⟩ := registered
          cases answer <;> exact .pure rfl

theorem dismiss_twin (dataset : Dataset) :
    Twin A plain (cache.dismiss services dataset) (cache.plain.dismiss others dataset) := by
  have releases : ∀ cache : Cache, Twin A plain (dismiss.release services dataset cache)
      (dismiss.release others dataset cache.plain) := by
    intro cache
    refine .bind (Store.evictInstance_twin cache.store twins dataset.id) fun evicted => ?_
    obtain ⟨found, store⟩ := evicted
    cases found with
    | true => exact .pure rfl
    | false => exact .step (twins.report _) fun _ => .pure rfl
  unfold dismiss
  rw [plain_statics]
  split
  · exact .step (twins.report _) fun _ => .pure rfl
  dsimp only
  rw [plain_context]
  cases cache.context with
  | none => exact releases _
  | some c =>
      cases dataset.participant with
      | none => exact releases _
      | some p =>
          dsimp only
          rw [plain_store, Store.plain_holds]
          split
          · exact .step (twins.report _) fun _ => .step (defer_twin link c p) fun _ => .pure rfl
          · exact releases _

/-! ## Contexts -/

omit link in
theorem releaseDeferred_twin (deferred : List Participant) :
    Twin A plain (cache.releaseDeferred services deferred)
      (cache.plain.releaseDeferred others deferred) := by
  induction deferred generalizing cache with
  | nil => exact .pure rfl
  | cons p rest ih =>
      refine .bind (Store.evictInstance_twin cache.store twins p.id) fun evicted => ?_
      obtain ⟨found, store⟩ := evicted
      cases found with
      | true => exact ih _
      | false => exact .step (twins.report _) fun _ => ih _

theorem endContext_twin (c : ContextId) :
    Twin A plain (cache.endContext services c) (cache.plain.endContext others c) :=
  .step (close_twin link twins c) fun deferred => releaseDeferred_twin twins _ deferred

omit cache in
theorem enrolAll_twin (c : ContextId) (ps : List Participant) :
    Twin A id (enrolAll services c ps) (enrolAll others c ps) := by
  induction ps with
  | nil => exact .pure rfl
  | cons p rest ih => exact .step (enrol_twin link twins c trivial) fun _ => ih

theorem openContext_twin :
    Twin A (Prod.map id plain) (cache.openContext services) (cache.plain.openContext others) := by
  have opens : ∀ cache : Cache, Twin A (Prod.map id plain) (cache.openFresh services)
      (cache.plain.openFresh others) := fun cache =>
    .step (create_twin link cache.coordinator) fun c =>
      .step (enrolAll_twin link twins c cache.members) fun _ =>
        .step (twins.report _) fun _ => .pure rfl
  rw [openContext_eq, openContext_eq, plain_closed, plain_context]
  split
  · exact .pure rfl
  cases cache.context with
  | none => exact opens cache
  | some previous => exact .bind (endContext_twin link twins cache previous) fun next => opens next

theorem dismissContext_twin :
    Twin A plain (cache.dismissContext services) (cache.plain.dismissContext others) := by
  unfold dismissContext
  rw [plain_context]
  cases cache.context with
  | none => exact .pure rfl
  | some c =>
      exact .bind (endContext_twin link twins cache c) fun _ =>
        .step (twins.report _) fun _ => .pure rfl

theorem enter_twin :
    Twin A (Prod.map id plain) (cache.enter services) (cache.plain.enter others) := by
  refine .bind (openContext_twin link twins cache) fun opened => ?_
  obtain ⟨answer, next⟩ := opened
  cases answer with
  | error fault => exact .pure rfl
  | ok c =>
      refine .step (start_twin link twins c) fun answer => ?_
      cases answer with
      | error fault => exact .bind (dismissContext_twin link twins next) fun _ => .pure rfl
      | ok tx => exact .pure rfl

theorem leave_twin (c : ContextId) (failure : Option Fault) :
    Twin A (Prod.map id plain) (cache.leave services c failure)
      (cache.plain.leave others c failure) := by
  have dismisses : ∀ outcome : Option Fault, Twin A (Prod.map id plain)
      (do return (outcome, ← cache.dismissContext services))
      (do return (outcome, ← cache.plain.dismissContext others)) := fun outcome =>
    .bind (dismissContext_twin link twins cache) fun _ => .pure rfl
  cases failure with
  | none =>
      refine .step (finish_twin link twins c) fun answer => ?_
      cases answer with
      | ok done => exact dismisses none
      | error fault => exact dismisses (some fault)
  | some fault =>
      refine .step (abort_twin link twins c _) fun answer => ?_
      cases answer with
      | ok done => exact dismisses (some fault)
      | error other => exact .step (twins.report _) fun _ => dismisses (some fault)

/-! ## Extras, reset and end -/

theorem addExtra_twin (p : Participant) :
    Twin A plain (cache.addExtra services p) (cache.plain.addExtra others p) := by
  unfold addExtra
  rw [plain_extras, plain_context]
  split
  · exact .pure rfl
  cases cache.context with
  | none => exact .pure rfl
  | some c => exact .step (enrol_twin link twins c trivial) fun _ => .pure rfl

omit twins in
theorem removeExtra_twin (p : Participant) :
    Twin A (Prod.map id plain) (cache.removeExtra p) (cache.plain.removeExtra p) := by
  unfold removeExtra
  rw [plain_extras]
  split
  · dsimp only
    rw [plain_context]
    cases cache.context with
    | none => exact .pure rfl
    | some c =>
        refine .step (withdraw_twin link c p) fun answer => ?_
        cases answer <;> exact .pure rfl
  · exact .pure rfl

theorem reset_twin :
    Twin A (Prod.map id plain) (cache.reset services) (cache.plain.reset others) := by
  have evicts := Store.evictAll_twin cache.store twins
  unfold reset
  rw [plain_context]
  cases cache.context with
  | none => exact .bind evicts fun _ => .pure rfl
  | some c => exact .step (discard_twin link twins c) fun _ => .bind evicts fun _ => .pure rfl

theorem invalidate_twin :
    Twin A plain (cache.invalidate services) (cache.plain.invalidate others) := by
  refine .bind (reset_twin link twins cache) fun reset => ?_
  obtain ⟨failures, next⟩ := reset
  cases failures with
  | nil => exact .pure rfl
  | cons failure rest => exact .step (twins.report _) fun _ => .pure rfl

theorem close_twin :
    Twin A (Prod.map id plain) (cache.close services) (cache.plain.close others) := by
  have ends : ∀ (next : Cache) (failures : List String),
      Twin A (Prod.map id plain)
        (if failures.isEmpty then do
          services.info .cache "Dataset cache closed"
          return (Except.ok (), next)
        else return (Except.error (Fault.cleanup failures), next))
        (if failures.isEmpty then do
          others.info .cache "Dataset cache closed"
          return (Except.ok (), next.plain)
        else return (Except.error (Fault.cleanup failures), next.plain)) := by
    intro next failures
    split
    · exact .step (twins.report _) fun _ => .pure rfl
    · exact .pure rfl
  unfold close
  rw [plain_closed]
  split
  · exact .pure rfl
  refine .step (Extras.closeAll_twin twins cache.extras) fun extraFailures => ?_
  refine .bind (reset_twin link twins { cache with closed := true }) fun reset => ?_
  obtain ⟨storeFailures, next⟩ := reset
  refine .step (Statics.closeAll_twin twins next.statics) fun closed => ?_
  obtain ⟨staticFailures, statics⟩ := closed
  refine .step (twins.closeInstantiator next.store.loader.instantiator) fun answer => ?_
  cases answer with
  | ok done => exact ends { next with statics } _
  | error fault => exact .step (twins.report _) fun _ => ends { next with statics } _

/-! ## Actions -/

def Session.plain (s : Session) : Session := { s with cache := s.cache.plain }

omit cache in
theorem run_twin (s : Session) (action : Action)
    (keeps : ∀ typeName key, action ≠ .get typeName key true) :
    Twin A (Prod.map id Session.plain) (s.run services action) (s.plain.run others action) := by
  cases action with
  | get typeName key bypass =>
      cases bypass with
      | true => exact absurd rfl (keeps typeName key)
      | false =>
          cases typeName with
          | none => exact .bind (acquire_twin link twins s.cache key _) fun _ => .pure rfl
          | some typeName => exact .bind (acquire_twin link twins s.cache key _) fun _ => .pure rfl
  | dismiss dataset => exact .bind (dismiss_twin link twins s.cache dataset) fun _ => .pure rfl
  | openContext => exact .bind (openContext_twin link twins s.cache) fun _ => .pure rfl
  | dismissContext => exact .bind (dismissContext_twin link twins s.cache) fun _ => .pure rfl
  | addExtra p => exact .bind (addExtra_twin link twins s.cache p) fun _ => .pure rfl
  | removeExtra p => exact .bind (removeExtra_twin link s.cache p) fun _ => .pure rfl
  | invalidate => exact .bind (invalidate_twin link twins s.cache) fun _ => .pure rfl
  | close => exact .bind (close_twin link twins s.cache) fun _ => .pure rfl
  | use operation =>
      have invites : operation.Invites Anybody := by cases operation <;> trivial
      exact .step (Context.run_twin link twins invites) fun _ => .pure rfl
  | enter =>
      refine .bind (enter_twin link twins s.cache) fun entered => ?_
      obtain ⟨answer, next⟩ := entered
      cases answer <;> exact .pure rfl
  | leave failure =>
      obtain ⟨cache, running⟩ := s
      cases running with
      | nil => exact .pure rfl
      | cons c running => exact .bind (leave_twin link twins cache c failure) fun _ => .pure rfl

end Cache

end DatasetCache
