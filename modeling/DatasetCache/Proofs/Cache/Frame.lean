import DatasetCache.Cache
import DatasetCache.Proofs.Context.Frame

/-!
# What a cache leaves alone in its supply

Loading and releasing go to the services that supply datasets and to the store itself, so
they keep every relation that those services keep.
-/

namespace DatasetCache

open Act

variable {ε : Type} {R : World ε → World ε → Prop} {services : Services (Act ε)}
  (order : Order R)

section Loads

variable (lends : services.Lends R)

include order lends

theorem Loader.load_keeps (loader : Loader) (key : Key) :
    Keeps R (loader.load services key) := by
  refine .bind order (lends.load _ _ key) fun answer => ?_
  match answer with
  | .error fault => exact .pure order _
  | .ok none => exact .pure order _
  | .ok (some dataset) =>
      dsimp only
      cases loader.metrics with
      | none => exact .pure order _
      | some metrics =>
          cases dataset.metered with
          | false => exact .pure order _
          | true => exact .bind order (lends.meter _ _ _ _) fun _ => .pure order _

theorem Store.get_keeps (store : Store) (key : Key) (bypass : Bool) :
    Keeps R (store.get services key bypass) := by
  have load := Loader.load_keeps order lends store.loader key
  cases bypass with
  | true =>
      refine .bind order load fun answer => ?_
      cases answer with
      | error fault => exact .pure order _
      | ok dataset => exact .bind order (lends.report _) fun _ => .pure order _
  | false =>
      simp only [get, Bool.false_eq_true, if_false]
      cases store.peek? key with
      | some dataset => exact .pure order _
      | none =>
          refine .bind order load fun answer => ?_
          cases answer with
          | error fault => exact .pure order _
          | ok dataset => exact .bind order (lends.report _) fun _ => .pure order _

end Loads

variable (supply : services.Supply R)

include order supply

namespace Store

theorem release_keeps (store : Store) (key : Key) (dataset : Dataset) :
    Keeps R (store.release services key dataset) := by
  refine .bind order (supply.closeDataset _) fun answer => ?_
  cases answer <;> exact .bind order (supply.report _) fun _ => .pure order _

theorem evictInstance_keeps (store : Store) (instanceId : InstanceId) :
    Keeps R (store.evictInstance services instanceId) := by
  unfold evictInstance
  split
  · exact .pure order _
  · unfold evict
    split
    · exact .pure order _
    · exact .bind order (release_keeps order supply _ _ _) fun _ => .pure order _

theorem evictAll_keeps (store : Store) : Keeps R (store.evictAll services) := by
  have each : ∀ (entries : List (Key × Dataset)) (store : Store),
      Keeps R (store.releaseEach services entries) := by
    intro entries
    induction entries with
    | nil => exact fun _ => .pure order _
    | cons entry rest ih =>
        exact fun store => .bind order (release_keeps order supply store _ _) fun _ =>
          .bind order (ih _) fun _ => .pure order _
  exact each _ _

end Store

namespace Statics

theorem closeAll_keeps (statics : Statics) : Keeps R (statics.closeAll services) := by
  have each : ∀ entries : List (Key × Dataset), Keeps R (closeEach services entries) := by
    intro entries
    induction entries with
    | nil => exact .pure order _
    | cons entry rest ih =>
        refine .bind order (supply.closeDataset _) fun answer => ?_
        cases answer with
        | ok done => exact ih
        | error fault =>
            exact .bind order (supply.report _) fun _ => .bind order ih fun _ => .pure order _
  exact .bind order (each _) fun _ => .pure order _

theorem extend_keeps {load : Key → Act ε (Except Fault Dataset)} (loads : ∀ key, Keeps R (load key))
    (keys : List Key) (statics : Statics) : Keeps R (extend services load statics keys) := by
  induction keys generalizing statics with
  | nil => exact .pure order _
  | cons key rest ih =>
      refine .bind order (loads key) fun answer => ?_
      cases answer with
      | ok dataset => exact .bind order (supply.report _) fun _ => ih _
      | error fault =>
          exact .bind order (closeAll_keeps order supply statics) fun _ => .pure order _

end Statics

theorem Extras.closeAll_keeps (extras : Extras) : Keeps R (extras.closeAll services) := by
  have each : ∀ ps : List Participant, Keeps R (closeEach services ps) := by
    intro ps
    induction ps with
    | nil => exact .pure order _
    | cons p rest ih =>
        unfold closeEach
        split
        · refine .bind order (supply.closeParticipant _) fun answer => ?_
          cases answer with
          | ok done => exact ih
          | error fault =>
              exact .bind order (supply.report _) fun _ => .bind order ih fun _ => .pure order _
        · exact ih
  exact each _

namespace Cache

theorem create_keeps (instantiator : InstantiatorId) (coordinator : CoordinatorId)
    (config : Config) (metrics : Option MetricsId) :
    Keeps R (create services instantiator coordinator config metrics) := by
  unfold create
  cases config.validate with
  | error fault => exact .pure order _
  | ok valid =>
      have load := Loader.load_keeps order supply.toLends ⟨instantiator, config.realm, metrics⟩
      refine .bind order (Statics.extend_keeps order supply load _ _) fun answer => ?_
      cases answer with
      | ok statics => exact .bind order (supply.report _) fun _ => .pure order _
      | error fault =>
          refine .bind order (supply.closeInstantiator _) fun answer => ?_
          cases answer with
          | ok done => exact .bind order (.pure order _) fun _ => .pure order _
          | error other => exact .bind order (supply.report _) fun _ => .pure order _

omit order supply in
theorem create_ok {instantiator : InstantiatorId} {coordinator : CoordinatorId} {config : Config}
    {metrics : Option MetricsId} {cache : Cache} {w : World ε}
    (created : (create services instantiator coordinator config metrics w).1 = .ok cache) :
    ∃ statics, (Statics.loadAll services
        ((⟨instantiator, config.realm, metrics⟩ : Loader).load services)
        config.staticKeys w).1 = .ok statics ∧
      cache = { store := { loader := ⟨instantiator, config.realm, metrics⟩ }, statics,
                coordinator, runtime := config.runtime } := by
  unfold create at created
  cases valid : config.validate with
  | error fault => simp [valid] at created
  | ok done =>
      simp only [valid, bind_apply] at created
      generalize Statics.loadAll services
        ((⟨instantiator, config.realm, metrics⟩ : Loader).load services) config.staticKeys w =
          loaded at created ⊢
      obtain ⟨answer, next⟩ := loaded
      cases answer with
      | error fault =>
          simp only [bind_apply] at created
          generalize (⟨instantiator, config.realm, metrics⟩ : Loader).close services next = closed
            at created
          obtain ⟨answer, last⟩ := closed
          cases answer <;> cases created
      | ok statics => exact ⟨statics, rfl, (Except.ok.inj created).symm⟩

theorem releaseDeferred_keeps (deferred : List Participant) (cache : Cache) :
    Keeps R (cache.releaseDeferred services deferred) := by
  induction deferred generalizing cache with
  | nil => exact .pure order _
  | cons p rest ih =>
      refine .bind order (Store.evictInstance_keeps order supply _ _) fun evicted => ?_
      obtain ⟨found, store⟩ := evicted
      cases found with
      | true => exact ih _
      | false => exact .bind order (supply.report _) fun _ => ih _

end Cache

end DatasetCache
