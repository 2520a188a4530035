import DatasetCache.Proofs.Cache.Custody
import DatasetCache.Proofs.Cache.Enrolment
import DatasetCache.Proofs.Cache.Founding
import DatasetCache.Proofs.Cache.Opening
import DatasetCache.Proofs.Cache.Tracking

/-!
# Static datasets are permanent

What is declared as static is loaded once, when the cache is built.  Until the cache closes
it is found under the key that a request of it has, it is in neither the store nor the
tracker, nothing closes it and dismissing it does nothing, and every context starts with it.
-/

namespace DatasetCache

open Act Context

variable {ε : Type}

/-- Every load gives an instance of its own, and none takes part in transactions as the
instance of another. -/
structure Fresh (datasets : List Dataset) : Prop where
  nodup : (ids datasets).Nodup
  apart : ∀ d ∈ datasets, ∀ e ∈ datasets, ∀ p, e.participant = some p → p.id = d.id → e = d

namespace Cache

/-! ## What a run does to a cache as a whole -/

section Rest

variable {services : Services (Act ε)} {running : List ContextId} {action : Action}

theorem Move.runtime {before after : Cache × World ε}
    (move : Move services running action before after) :
    after.1.runtime = before.1.runtime := by
  cases move with
  | @endContext cache w c ends opened =>
      let unopened : Cache := { cache with context := none }
      exact releaseDeferred_induct services
        (P := fun next _ => next.runtime = cache.runtime) (fun _ _ _ => id) (fun _ _ _ => id) _
        unopened _ rfl
  | @addExtra cache w p asked =>
      obtain ⟨extras, same⟩ := addExtra_rest cache p w services
      rw [same]
  | @removeExtra cache w p asked =>
      obtain ⟨extras, same⟩ := removeExtra_rest cache p w
      rw [same]
  | @reset cache w ends =>
      dsimp only
      unfold Cache.reset
      cases cache.context <;> rfl
  | _ => rfl

theorem run_runtime (services : Services (Act ε)) (s : Session) (action : Action) (w : World ε) :
    (s.run services action w).1.2.cache.runtime = s.cache.runtime :=
  run_induct services s action w (P := fun state => state.1.runtime = s.cache.runtime) rfl
    fun move same => move.runtime.trans same

end Rest

/-! ## Where stored and tracked instances come from -/

structure Sourced (n : Nat) (state : State ε) : Prop where
  long : n ≤ (loads state.2.ledger).length
  stored : ∀ {key d}, state.1.store.peek? key = some d → d ∈ (loads state.2.ledger).drop n
  tracked : ∀ {key p}, state.1.tracker.get? key = some p →
    ∃ d ∈ (loads state.2.ledger).drop n, d.participant = some p

structure Enduring (config : Config) (statics : Statics) (n : Nat) (state : State ε) : Prop where
  balanced : Balanced state
  sourced : Sourced n state
  statics : state.1.statics = statics
  runtime : state.1.runtime = config.runtime
  living : state.1.closed = false
  plain : ∀ i time, .closedExtra i time ∉ state.2.ledger

section Runs

variable {services : Services (Act (Journal (Ledger ε)))} (accounts : services.Accountable)
  {config : Config} {statics : Statics} {n : Nat} {s : Session}
  {w : World (Journal (Ledger ε))} {action : Action}

include accounts

theorem run_sourced (sourced : Sourced n (s.cache, w)) :
    Sourced n ((s.run services action w).1.2.cache, (s.run services action w).2) := by
  obtain ⟨events, -, restocks⟩ := run_restocks accounts s action w
  have grown : (loads (s.run services action w).2.ledger).drop n =
      (loads w.ledger).drop n ++ loads events := by
    rw [restocks.ledger, loads_append, List.drop_append_of_le_length sourced.long]
  have stored : ∀ {key d}, (s.run services action w).1.2.cache.store.peek? key = some d →
      d ∈ (loads (s.run services action w).2.ledger).drop n := by
    intro key d found
    rw [grown, List.mem_append]
    exact (restocks.came found).imp sourced.stored fun ⟨loaded, _⟩ => loaded
  refine ⟨?_, stored, fun {key p} found => ?_⟩
  · rw [restocks.ledger, loads_append, List.length_append]
    exact Nat.le_add_right_of_le sourced.long
  · rcases run_came services found with before | ⟨⟨typeName, rfl⟩, dynamic, d, answer, capable⟩
    · obtain ⟨d, member, capable⟩ := sourced.tracked before
      refine ⟨d, ?_, capable⟩
      rw [grown]
      exact List.mem_append_left _ member
    · -- What is tracked anew has been found in the store.
      obtain ⟨offers, -⟩ := (run_explains services s typeName key false w).1 d answer rfl
      rcases offers with static | ⟨-, found⟩
      · rw [restocks.statics nofun] at static
        dsimp only at static
        rw [dynamic] at static
        cases static
      · exact ⟨d, stored found, capable⟩

theorem run_enduring (enduring : Enduring config statics n (s.cache, w))
    (living : action ≠ .close) :
    let after := s.run services action w
    Enduring config statics n (after.1.2.cache, after.2) := by
  obtain ⟨events, conserves, restocks⟩ := run_restocks accounts s action w
  refine ⟨conserves.balanced enduring.balanced, run_sourced accounts enduring.sourced,
    (restocks.statics living).trans enduring.statics,
    (run_runtime services s action w).trans enduring.runtime,
    (restocks.living living).trans enduring.living, fun i time member => ?_⟩
  rw [conserves.ledger, List.mem_append] at member
  rcases member with old | new
  · exact enduring.plain i time old
  · exact living (conserves.apart i time new).1

theorem runAll_enduring {actions : List Action}
    (enduring : Enduring config statics n (s.cache, w)) (living : .close ∉ actions) :
    let ended := s.runAll services actions w
    Enduring config statics n (ended.1.cache, ended.2) := by
  induction actions generalizing s w with
  | nil => exact enduring
  | cons action rest ih =>
      have now : action ≠ .close := fun same => living (same ▸ List.mem_cons_self)
      exact ih (run_enduring accounts enduring now) fun member =>
        living (List.mem_cons_of_mem action member)

theorem create_enduring {instantiator : InstantiatorId} {coordinator : CoordinatorId}
    {metrics : Option MetricsId} {contexts : List Context} {outside : ε} {cache : Cache}
    (created : create services instantiator coordinator config metrics
      (.unwritten contexts outside) = (.ok cache, w)) :
    Enduring config cache.statics (loads w.ledger).length (cache, w) := by
  have founded := create_founded accounts created
  have balanced := (create_sound accounts created).balanced
  have creation := create_books accounts instantiator coordinator config metrics
    (.unwritten contexts outside)
  rw [created] at creation
  obtain ⟨first, books, plain, -, -, unstored, untracked, -, -, living, -⟩ := creation
  have start : w.ledger = first := books.ledger
  refine ⟨balanced, ⟨Nat.le_refl _, fun found => ?_, fun found => ?_⟩, rfl, founded.runtime,
    living, start ▸ plain⟩
  · rw [Store.peek?, unstored] at found
    cases found
  · rw [untracked] at found
    cases found

end Runs

/-! ## Permanence -/

/-- What is told of a static dataset that is declared with a name and arguments, in a state
of a run. -/
structure Permanent (services : Services (Act (Journal (Ledger ε)))) (name : String)
    (arguments : Arguments) (d : Dataset) (s : Session) (w : World (Journal (Ledger ε))) :
    Prop where
  found : ∀ typeName, Fits typeName d →
    s.run services (.get typeName (s.cache.keyFor name arguments) false) w = ((.dataset d, s), w)
  named : s.cache.getNamed services d.typeName name arguments w = ((.ok d, s.cache), w)
  unclosed : closings d.id w.ledger = []
  unstored : s.cache.store.holds d.id = false
  untracked : s.cache.tracker.holds d.id = false
  undismissed : ∀ e : Dataset, e.id = d.id →
    let after := s.run services (.dismiss e) w
    after.1.2 = s ∧ Books [] w after.2
  seeded : ∀ p, d.participant = some p → ∀ c next w',
    s.cache.openContext services w = ((.ok c, next), w') → (w'.context c).has p = true

section Static

variable {services : Services (Act (Journal (Ledger ε)))} {s : Session}
  {w : World (Journal (Ledger ε))} {key : Key} {d : Dataset}

theorem acquire_static {cache : Cache} (living : cache.closed = false)
    (static : cache.statics.get? key = some d) {check : Dataset → Except Fault Unit}
    (passes : check d = .ok ()) :
    cache.acquire services key false check w = ((.ok d, cache), w) := by
  simp [acquire, fetch, register, living, static, passes]

theorem get_static (living : s.cache.closed = false)
    (static : s.cache.statics.get? key = some d) {typeName : Option String}
    (fits : Fits typeName d) :
    s.run services (.get typeName key false) w = ((.dataset d, s), w) := by
  obtain ⟨check, -, passes, same⟩ := s.getDataset_eq services key false typeName
  simp only [Session.run, same, bind_apply, acquire_static living static (passes d fits)]
  rfl

theorem dismiss_static (accounts : services.Accountable)
    (static : s.cache.statics.holds d.id = true) :
    let after := s.run services (.dismiss d) w
    after.1.2 = s ∧ Books [] w after.2 := by
  have refuses : s.cache.dismiss services d = do
      services.warn .cache "Refusing to dismiss static dataset"
      return s.cache := by
    rw [dismiss, if_pos static]
  simp only [Session.run, refuses]
  exact ⟨rfl, accounts.report w _⟩

theorem Opens.has_static {cache next : Cache} {c : ContextId} {w' : World (Journal (Ledger ε))}
    (opens : Opens services cache w c next w') {p : Participant}
    (static : p ∈ cache.statics.participants) : (w'.context c).has p = true := by
  have same : (cache.vacated services w).1.statics = cache.statics := by
    unfold vacated
    cases cache.context with
    | none => rfl
    | some previous => exact (endContext_rest services cache previous w).1
  rw [← same] at static
  rw [opens.context, has, Participant.isIn_foldl_addTo]
  simp [members, Participant.isIn_append, Participant.isIn_of_mem static]

end Static

theorem Enduring.permanent {services : Services (Act (Journal (Ledger ε)))}
    (accounts : services.Accountable) {config : Config} {cache : Cache} {n : Nat} {s : Session}
    {w : World (Journal (Ledger ε))} (coherent : cache.statics.Coherent)
    (enduring : Enduring config cache.statics n (s.cache, w)) (fresh : Fresh (loads w.ledger))
    {name : String} {arguments : Arguments} {d : Dataset}
    (static : s.cache.statics.get? (s.cache.keyFor name arguments) = some d)
    (early : d ∈ (loads w.ledger).take n) : Permanent services name arguments d s w := by
  have held : d ∈ s.cache.datasets :=
    List.mem_append_right _ (Table.mem_values_iff.2 ⟨_, static⟩)
  have loaded : d ∈ loads w.ledger := enduring.balanced.known d held
  -- The static datasets are loaded before all that come into the store or the tracker.
  have later : ∀ e ∈ (loads w.ledger).drop n, e.id ≠ d.id := by
    intro e member same
    have split : (ids ((loads w.ledger).take n ++ (loads w.ledger).drop n)).Nodup := by
      rw [List.take_append_drop]
      exact fresh.nodup
    rw [ids_append] at split
    exact (List.nodup_append.1 split).2.2 d.id (List.mem_map_of_mem early) e.id
      (List.mem_map_of_mem member) same.symm
  have known : s.cache.statics.holds d.id = true :=
    List.any_eq_true.2 ⟨d, Table.mem_values_iff.2 ⟨_, static⟩, by simp⟩
  constructor
  case found => exact fun typeName fits => get_static enduring.living static fits
  case named =>
    exact acquire_static enduring.living static (if_pos rfl)
  case unclosed =>
    refine List.eq_nil_iff_forall_not_mem.2 fun time member => ?_
    have closed : d.id ∈ closedIn w.ledger := by
      obtain ⟨event, member, same⟩ := List.mem_filterMap.1 member
      refine List.mem_filterMap.2 ⟨event, member, ?_⟩
      cases event <;> simp_all [Event.closes?, Event.closed?]
    have released := releases_of_mem_closedIn enduring.plain closed
    exact enduring.balanced.not_held fresh.nodup released (List.mem_map_of_mem held)
  case unstored =>
    exact Store.holds_eq_false_iff.2 fun key e found => later e (enduring.sourced.stored found)
  case untracked =>
    refine Tracker.holds_eq_false_iff.2 fun key p found same => ?_
    obtain ⟨e, member, capable⟩ := enduring.sourced.tracked found
    have alike := fresh.apart d loaded e (List.mem_of_mem_drop member) p capable same
    exact later e member (congrArg Dataset.id alike)
  case undismissed =>
    intro e same
    exact dismiss_static accounts (same ▸ known)
  case seeded =>
    intro p capable c next w' opened
    have member : p ∈ cache.statics.participants :=
      coherent _ d p (enduring.statics ▸ static) capable
    exact (openContext_opens accounts opened).has_static (enduring.statics.symm ▸ member)

/-- **Static datasets are permanent.**  For each static dataset that is declared, a new
cache has the one that was loaded for it under its key.  Whatever is done with the cache
before it closes and with contexts, and whatever services and callbacks answer, if loads are
fresh, then it stays there and is told of as `Permanent` says. -/
theorem statics_permanent {callbacks : Callbacks ε} {base : Services (StateM ε)} {depth : Nat}
    {instantiator : InstantiatorId} {coordinator : CoordinatorId} {config : Config}
    {metrics : Option MetricsId} {contexts : List Context} {outside : ε} {cache : Cache}
    {w : World (Journal (Ledger ε))}
    (created : create (callbacks.audited base depth) instantiator coordinator config metrics
      (.unwritten contexts outside) = (.ok cache, w))
    {name : String} {arguments : Arguments}
    (declared : (name, arguments) ∈ config.statics.entries) :
    ∃ d, (cache.keyFor name arguments, d) ∈ config.staticKeys.zip (loads w.ledger) ∧
      ∀ actions, .close ∉ actions →
        let ended := Session.runAll (callbacks.audited base depth) { cache } actions w
        Fresh (loads ended.2.ledger) →
          Permanent (callbacks.audited base depth) name arguments d ended.1 ended.2 := by
  have accounts := callbacks.audited_accountable base depth
  obtain ⟨d, member, static⟩ := (create_founded accounts created).declared declared
  refine ⟨d, member, ?_⟩
  intro actions living ended fresh
  have start := create_enduring accounts created
  have enduring : Enduring config cache.statics (loads w.ledger).length
      (ended.1.cache, ended.2) := runAll_enduring accounts start living
  have coherent := (create_seated (congrArg Prod.fst created) w).coherent
  have same : ended.1.cache.keyFor name arguments = cache.keyFor name arguments := by
    rw [keyFor, keyFor, enduring.runtime, start.runtime]
  obtain ⟨events, grown, -⟩ := runAll_conserves accounts { cache } actions w
  have early : d ∈ (loads ended.2.ledger).take (loads w.ledger).length := by
    rw [show ended.2.ledger = w.ledger ++ events from grown, loads_append, List.take_left]
    exact (List.of_mem_zip member).2
  refine enduring.permanent accounts coherent fresh ?_ early
  rw [enduring.statics, same]
  exact static

/-! ## A cache with a static dataset -/

def stockedConfig : Config := ({} : Config).withStatic "users" Table.empty

def stocked : Cache :=
  { minted with statics := ({} : Statics).insert (Key.named "users") (table 1 "users") }

def stockedWorld : World (Journal (Ledger Nat)) :=
  { outside := { inner := { events := [.loaded (table 1 "users")], inner := 1 } } }

theorem create_stocked : create (Callbacks.silent.audited Services.minting 0) 0 0 stockedConfig none
    (.unwritten [] 0) = (.ok stocked, stockedWorld) := rfl

def discards : List Action :=
  [.openContext, .use (.defer 0 { id := 1, name := "users" }), .dismiss (table 1 "users"),
    .get none (Key.named "orders") false, .invalidate, .openContext]

theorem statics_permanent_stocked :
    let services := Callbacks.silent.audited Services.minting 0
    let ended := Session.runAll services { cache := stocked } discards stockedWorld
    create services 0 0 stockedConfig none (.unwritten [] 0) = (.ok stocked, stockedWorld) ∧
      ("users", Table.empty) ∈ stockedConfig.statics.entries ∧ .close ∉ discards ∧
      Fresh (loads ended.2.ledger) ∧
      ∃ d, Permanent services "users" Table.empty d ended.1 ended.2 := by
  intro services ended
  have declared : ("users", Table.empty) ∈ stockedConfig.statics.entries := by decide
  have living : Action.close ∉ discards := by simp [discards]
  have loaded : loads ended.2.ledger = [table 1 "users", table 2 "orders"] := by decide +kernel
  have fresh : Fresh (loads ended.2.ledger) := by
    rw [loaded]
    exact ⟨by decide, by simp [table]⟩
  obtain ⟨d, -, permanent⟩ := statics_permanent create_stocked declared
  exact ⟨create_stocked, declared, living, fresh, d, permanent discards living fresh⟩

end Cache

end DatasetCache
