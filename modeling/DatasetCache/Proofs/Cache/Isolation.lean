import DatasetCache.Proofs.Cache.Dismissal
import DatasetCache.Proofs.Cache.Estate
import DatasetCache.Proofs.Cache.Twins

/-!
# Bypasses leave no trace

A request that bypasses the cache loads an instance of its own, a stray.  The cache does not
have it, so a dismissal of it changes nothing either.  Such steps can be left out of a run: the
other steps get the same answers, and nothing but the count of bypasses tells the difference.
-/

namespace DatasetCache

open Act Context World

variable {ε τ σ α : Type}

/-! ## Instances that are not heard of -/

structure Unheard (i : InstanceId) (w : World (Journal (Ledger ε))) : Prop where
  seats : Unseated 0 i w
  callbacks : callbacksOf i w.journal = []

section Unheard

variable {i : InstanceId}

theorem Entry.Mute.callbacks {entries : List Entry} (mute : ∀ entry ∈ entries, Entry.Mute entry) :
    callbacksOf i entries = [] := by
  refine List.filterMap_eq_nil_iff.2 fun entry member => ?_
  have quiet := mute entry member
  cases entry with
  | received => exact quiet.elim
  | _ => rfl

theorem audit_unheard : Audit (ε := ε) (fun p => p.id ≠ i) (Beside (Unheard i)) where
  contexts := by
    rintro _ _ ⟨rfl, -⟩
    rfl
  seats := by
    rintro w _ ⟨-, here⟩ c p member
    have absent := here.seats c c.zero_le
    rw [Participant.isIn, List.any_eq_false] at absent
    simpa using absent p member
  change := by
    rintro w _ c f change ⟨rfl, here⟩
    exact ⟨rfl, keepsOut_thins _ c f change.thins here.seats, here.callbacks⟩
  accept := by
    rintro w _ c p other ⟨rfl, here⟩
    exact ⟨rfl, keepsOut_accept _ c other here.seats, here.callbacks⟩
  create := by
    rintro w _ k ⟨rfl, here⟩
    exact ⟨rfl, keepsOut_create k _ here.seats, here.callbacks⟩
  time := by
    rintro _ _ ⟨rfl, -⟩
    rfl
  receive := by
    rintro w _ p other call ⟨rfl, here⟩
    refine ⟨rfl, here.seats, ?_⟩
    show callbacksOf i (World.journal _ ++ _) = []
    rw [callbacksOf_append, here.callbacks]
    simp [callbacksOf, Entry.callbackOf?, other]
  note := by
    rintro w _ entries mute ⟨rfl, here⟩
    refine ⟨rfl, here.seats, ?_⟩
    show callbacksOf i (World.journal _ ++ _) = []
    rw [callbacksOf_append, here.callbacks, Entry.Mute.callbacks mute]
    rfl
  book := by
    rintro w _ event - ⟨rfl, here⟩
    exact ⟨rfl, here.seats, here.callbacks⟩

theorem unheard_twin (x : StateM ε α) : Twin (Beside (Unheard i)) id
    (Act.outside (Journal.within (Ledger.within x)))
    (Act.outside (Journal.within (Ledger.within x))) := by
  rintro _ w ⟨rfl, here⟩
  exact ⟨rfl, rfl, here.seats, here.callbacks⟩

theorem unwritten_unheard {contexts : List Context} {outside : ε}
    (seats : ∀ context ∈ contexts, Participant.isIn i context.participants = false) :
    Unheard i (.unwritten contexts outside) := by
  refine ⟨fun c _ => ?_, rfl⟩
  simp only [World.context, World.unwritten]
  cases found : contexts[c]? with
  | none => rfl
  | some context => exact seats context (List.mem_of_getElem? found)

variable {callbacks : Callbacks ε} (base : Services (StateM ε))
  (asks : callbacks.Ask fun _ operation => operation.Spares i) (depth : Nat)

include asks

theorem audited_unheard : (callbacks.audited base depth).Twins (fun p => p.id ≠ i)
    (Beside (Unheard i)) (callbacks.audited base depth) := by
  have calls : base.covered.Twins (fun p => p.id ≠ i) (Beside (Unheard i)) base.covered := by
    constructor <;> intros <;> exact unheard_twin _
  have own : callbacks.covered.Twins (fun p => p.id ≠ i) (Beside (Unheard i)) callbacks.covered :=
    ⟨fun _ _ _ => unheard_twin _, fun _ _ _ _ _ => unheard_twin _⟩
  refine audited_twins audit_unheard calls own (fun p call outside operation member => ?_) depth
    fun j realm key => ?_
  · have spares := asks p call outside operation member
    cases operation <;> exact spares
  · rintro _ w ⟨rfl, here⟩
    cases depth <;> exact ⟨rfl, rfl, here.seats, here.callbacks⟩

theorem audited_spare : (callbacks.audited base depth).Spare i (Unheard i) := by
  have twins := audited_unheard base asks depth
  refine ⟨fun operation spares => ?_, fun k => ?_, twins.supply (Beside.diagonal _)⟩
  · refine (run_twin audit_unheard.toLink twins ?_).keeps (Beside.diagonal _)
    cases operation <;> exact spares
  · exact (create_twin audit_unheard.toLink k).keeps (Beside.diagonal _)

end Unheard

theorem Tracker.untrack_unheld {tracker : Tracker} {i : InstanceId}
    (unheld : tracker.holds i = false) : (tracker.untrack i).2 = tracker := by
  rw [holds, Participant.isIn, List.any_eq_false] at unheld
  rw [untrack, Table.keyWhere?_eq_none_iff.2]
  simpa [participants] using unheld

namespace Cache

/-! ## Steps that change nothing -/

section Idle

variable {R : World ε → World ε → Prop} {services : Services (Act ε)} (order : Order R)
  (lends : services.Lends R)

include order lends

theorem fetch_bypass_plain (cache : Cache) (key : Key) (w : World ε) :
    let fetched := cache.fetch services key true w
    R w fetched.2 ∧ fetched.1.2.plain = cache.plain := by
  have load := Store.get_keeps order lends cache.store key true w
  unfold fetch
  split
  · exact ⟨order.refl w, rfl⟩
  · refine ⟨load, ?_⟩
    simp only [Store.get, if_true, bind_apply, pure_apply]
    cases (cache.store.loader.load services key w).1 <;> rfl

theorem acquire_bypass_plain (cache : Cache) (key : Key) (check : Dataset → Except Fault Unit)
    (w : World ε) :
    let acquired := cache.acquire services key true check w
    R w acquired.2 ∧ acquired.1.2.plain = cache.plain := by
  have fetches := fetch_bypass_plain order lends cache key w
  unfold acquire
  simp only [bind_apply]
  generalize cache.fetch services key true w = fetched at fetches ⊢
  obtain ⟨⟨answer, next⟩, last⟩ := fetched
  cases answer with
  | error fault => exact fetches
  | ok dataset =>
      dsimp only
      cases check dataset with
      | error fault => exact fetches
      | ok passed => exact fetches

theorem run_bypass_plain (s : Session) (typeName : Option String) (key : Key) (w : World ε) :
    let after := s.run services (.get typeName key true) w
    R w after.2 ∧ after.1.2.plain = s.plain := by
  obtain ⟨check, -, -, same⟩ := s.getDataset_eq services key true typeName
  have acquires := acquire_bypass_plain order lends s.cache key check w
  simp only [Session.run, same, bind_apply, pure_apply]
  exact ⟨acquires.1, by rw [Session.plain, acquires.2, Session.plain]⟩

omit order in
theorem run_dismiss_unheld {s : Session} {d : Dataset}
    (dynamic : s.cache.statics.holds d.id = false) (untracked : s.cache.tracker.holds d.id = false)
    (unstored : s.cache.store.holds d.id = false) (w : World ε) :
    let after := s.run services (.dismiss d) w
    R w after.2 ∧ after.1.2 = s := by
  have remains : (s.cache.tracker.untrack d.id).2 = s.cache.tracker :=
    Tracker.untrack_unheld untracked
  have absent : s.cache.store.evictInstance services d.id = pure (false, s.cache.store) := by
    rw [Store.evictInstance, Store.keyOf?, Table.keyWhere?_eq_none_iff.2]
    simpa [Store.holds] using unstored
  have releases : dismiss.release services d s.cache =
      (do services.warn .cache "Dismissed dataset was not acquired through this cache"
          return s.cache) := by
    rw [dismiss.release, absent]
    rfl
  -- In an open context it would be released later, if the store had it.
  have idle : s.cache.dismiss services d = dismiss.release services d s.cache := by
    unfold dismiss
    rw [dynamic, remains]
    simp only [unstored, Bool.false_eq_true, if_false]
    split <;> rfl
  simp only [Session.run, idle, releases]
  exact ⟨lends.report _ w, rfl⟩

end Idle

/-! ## Strays -/

theorem Grounded.unheld {strays : List InstanceId} {state : State ε} (grounded : Grounded state)
    (regular : ∀ d ∈ loads state.2.ledger, d.Regular strays) {i : InstanceId} (stray : i ∈ strays) :
    state.1.statics.holds i = false ∧ state.1.store.holds i = false := by
  have others : ∀ d ∈ state.1.datasets, d.id ≠ i := by
    rintro d held rfl
    exact (regular d (grounded.balanced.known d held)).kept stray
  rw [Statics.holds, Store.holds, List.any_eq_false, List.any_eq_false]
  refine ⟨fun d member => ?_, fun d member => ?_⟩
  · simpa using others d (List.mem_append_right _ member)
  · simpa using others d (List.mem_append_left _ member)

/-- The cache has none of the strays, and nobody has heard of them. -/
structure Clear (strays : List InstanceId) (state : State ε) : Prop where
  grounded : Grounded state
  regular : ∀ d ∈ loads state.2.ledger, d.Regular strays
  dismissed : ∀ i ∈ strays, Dismissed (Unheard i) i state
  apart : ∀ i ∈ strays, Apart i state

namespace Clear

theorem supplied {strays : List InstanceId} {cache : Cache} {w : Stocked τ σ}
    (clear : Clear strays (cache, w)) (names : List InstanceId) :
    Clear strays (cache, w.supplied names) := by
  have balanced := clear.grounded.balanced
  refine ⟨⟨⟨balanced.known, balanced.bounded⟩, clear.grounded.seeds⟩, clear.regular,
    fun i stray => ?_, fun i stray => ?_⟩
  · obtain ⟨static, tracked, extra, seats, callbacks⟩ := clear.dismissed i stray
    exact ⟨static, tracked, extra, seats, callbacks⟩
  · exact ⟨(clear.apart i stray).extras, (clear.apart i stray).closings⟩

variable {strays : List InstanceId} {state : State ε} (clear : Clear strays state)

include clear

theorem dynamic {i : InstanceId} (stray : i ∈ strays) : state.1.statics.holds i = false :=
  (clear.grounded.unheld clear.regular stray).1

theorem unstored {i : InstanceId} (stray : i ∈ strays) : state.1.store.holds i = false :=
  (clear.grounded.unheld clear.regular stray).2

theorem unclosed {i : InstanceId} (stray : i ∈ strays) : closings i state.2.ledger = [] := by
  have unloaded : (ids (loads state.2.ledger)).count i = 0 := by
    rw [List.count_eq_zero]
    intro member
    obtain ⟨d, loaded, rfl⟩ := List.mem_map.1 member
    exact (clear.regular d loaded).kept stray
  -- what is released has been loaded before, and a stray is no extra either
  have bound := clear.grounded.balanced.bounded i
  have length := (clear.apart i stray).closings_length
  exact List.length_eq_zero_iff.1 (by omega)

end Clear

section Steps

variable {services : Services (Act (Journal (Ledger ε)))} (accounts : services.Accountable)
  {strays : List InstanceId} (spare : ∀ i ∈ strays, services.Spare i (Unheard i)) {s : Session}
  {w : World (Journal (Ledger ε))}

include accounts spare

theorem run_clear {action : Action} (clear : Clear strays (s.cache, w))
    (spares : ∀ i ∈ strays, action.Spares i) :
    let after := s.run services action w
    (∀ d ∈ loads after.2.ledger, d.Regular strays) → Clear strays (after.1.2.cache, after.2) := by
  intro after regular
  have grounded : Grounded (after.1.2.cache, after.2) := run_grounded accounts clear.grounded
  refine ⟨grounded, regular, fun i stray => ?_, fun i stray => ?_⟩
  · refine step_dismissed accounts (spare i stray) clear.grounded (clear.dismissed i stray)
      (fun d member => (regular d member).own) ⟨spares i stray, ?_⟩
    -- what a request returns the cache has, and that has been loaded under another name
    rintro typeName key d rfl answer rfl
    have held := ((run_explains services s typeName key false w).1 d answer rfl).1.held
    exact (regular d (grounded.balanced.known d held)).kept stray
  · obtain ⟨events, conserves⟩ := run_conserves accounts s action w
    refine conserves.stays_apart (clear.apart i stray) fun p adds => ?_
    have other := spares i stray
    rw [adds] at other
    exact other

end Steps

/-! ## Runs with and without strays -/

/-- What is done next, with the name for the instance that it may load. -/
abbrev Step := Action × InstanceId

/-- The names for what bypasses load. -/
def strays (steps : List Step) : List InstanceId :=
  (steps.filter (·.1.bypasses)).map (·.2)

/-- The action bypasses the cache, or it dismisses a stray. -/
def Action.concerns (strays : List InstanceId) : Action → Bool
  | .get _ _ bypass => bypass
  | .dismiss dataset => strays.contains dataset.id
  | _ => false

/-- Takes the steps in turn, and tells the answers. -/
def Session.play (services : Services (Act (Journal (Ledger (Estate τ σ))))) (s : Session) :
    List Step → Act (Journal (Ledger (Estate τ σ))) (List (Step × Answer) × Session)
  | [] => return ([], s)
  | (action, i) :: rest => do
    Act.supply [i]
    let (answer, s) ← s.run services action
    let (answers, s) ← s.play services rest
    return (((action, i), answer) :: answers, s)

theorem Session.play_cons (services : Services (Act (Journal (Ledger (Estate τ σ)))))
    (s : Session) (step : Step) (steps : List Step) (w : Stocked τ σ) :
    s.play services (step :: steps) w =
      let after := s.run services step.1 (w.supplied [step.2])
      let ended := after.1.2.play services steps after.2
      (((step, after.1.1) :: ended.1.1, ended.1.2), ended.2) := rfl

/-- A run with the steps that concern strays ends as the one without them does, but for the
count of bypasses, and it tells the same of the other steps. -/
structure Isolates (strays : List InstanceId)
    (full rest : (List (Step × Answer) × Session) × Stocked τ σ) : Prop where
  answers : rest.1.1 = full.1.1.filter fun told => !told.1.1.concerns strays
  session : rest.1.2 = full.1.2.plain
  worlds : Same full.2 rest.2

namespace Isolates

variable {strays : List InstanceId} {full rest : (List (Step × Answer) × Session) × Stocked τ σ}
  {step : Step} (answer : Answer)

theorem skip (isolates : Isolates strays full rest) (concerned : step.1.concerns strays = true) :
    Isolates strays (((step, answer) :: full.1.1, full.1.2), full.2) rest :=
  ⟨by rw [isolates.answers, List.filter_cons_of_neg (by simp [concerned])], isolates.session,
    isolates.worlds⟩

theorem tell (isolates : Isolates strays full rest) (other : step.1.concerns strays = false) :
    Isolates strays (((step, answer) :: full.1.1, full.1.2), full.2)
      (((step, answer) :: rest.1.1, rest.1.2), rest.2) :=
  ⟨by rw [isolates.answers, List.filter_cons_of_pos (by simp [other])], isolates.session,
    isolates.worlds⟩

end Isolates

section Plays

variable (callbacks : Callbacks σ) (base : Services (StateM σ)) (catalogue : Catalogue)
  (recorder : Recorder τ) (depth : Nat) {strays : List InstanceId} {s : Session}
  {w w' : Stocked τ σ} {action : Action}

theorem run_concerned (clear : Clear strays (s.plain.cache, w'))
    (concerned : action.concerns strays = true) (w : Stocked τ σ) :
    let after := s.run (callbacks.provided base catalogue recorder depth) action w
    Same w after.2 ∧ after.1.2.plain = s.plain := by
  have lends := provided_lends callbacks base catalogue recorder depth
  cases action with
  | get typeName key bypass =>
      obtain rfl : bypass = true := concerned
      exact run_bypass_plain same_order lends s typeName key w
  | dismiss d =>
      have stray : d.id ∈ strays := List.contains_iff_mem.1 concerned
      have idle := run_dismiss_unheld lends (s := s) (clear.dynamic stray)
        (clear.dismissed d.id stray).tracked (clear.unstored stray) w
      exact ⟨idle.1, congrArg Session.plain idle.2⟩
  | _ => cases concerned

variable (spare : ∀ i ∈ strays,
  (callbacks.provided base catalogue recorder depth).Spare i (Unheard i))

include spare

theorem run_unconcerned (same : Same w w') (clear : Clear strays (s.plain.cache, w'))
    (other : action.concerns strays = false) (spares : ∀ i ∈ strays, action.Spares i)
    {i : InstanceId} (fresh : i ∉ strays) :
    let services := callbacks.provided base catalogue recorder depth
    let after := s.run services action (w.supplied [i])
    let after' := s.plain.run services action (w'.supplied [i])
    after'.1 = Prod.map id Session.plain after.1 ∧ Same after.2 after'.2 ∧
      Clear strays (after'.1.2.cache, after'.2) := by
  intro services after after'
  have accounts : services.Accountable := callbacks.stocked.audited_accountable _ depth
  have unbypassed : ∀ typeName key, action ≠ .get typeName key true := by
    rintro typeName key rfl
    cases other
  have here : Alike strays (w.supplied [i]) (w'.supplied [i]) :=
    .supplied same clear.regular (by simpa using fresh)
  obtain ⟨told, there⟩ := run_twin Alike.audit.toLink
    (Alike.provided_twins base catalogue recorder callbacks depth) s action unbypassed _ _ here
  exact ⟨told, there.same, run_clear accounts spare (clear.supplied [i]) spares there.regular⟩

theorem play_isolates {steps : List Step} (same : Same w w')
    (clear : Clear strays (s.plain.cache, w'))
    (fresh : ∀ step ∈ steps, step.1.bypasses = false → step.2 ∉ strays)
    (spares : ∀ step ∈ steps, ∀ i ∈ strays, step.1.Spares i) :
    let services := callbacks.provided base catalogue recorder depth
    let full := s.play services steps w
    let rest := s.plain.play services (steps.filter fun step => !step.1.concerns strays) w'
    Isolates strays full rest ∧ Clear strays (rest.1.2.cache, rest.2) := by
  induction steps generalizing s w w' with
  | nil => exact ⟨⟨rfl, rfl, same⟩, clear⟩
  | cons step steps ih =>
      obtain ⟨action, i⟩ := step
      obtain ⟨first, fresh⟩ := List.forall_mem_cons.1 fresh
      obtain ⟨spared, spares⟩ := List.forall_mem_cons.1 spares
      intro services
      cases concerned : action.concerns strays with
      | true =>
          -- only the first run takes the step, and goes nowhere
          have supplied : Same (w.supplied [i]) w' :=
            ⟨same.contexts, same.journal, same.closes, same.innermost⟩
          obtain ⟨moved, plain⟩ := run_concerned callbacks base catalogue recorder depth clear
            concerned (w.supplied [i])
          have clear' : Clear strays ((s.run services action (w.supplied [i])).1.2.plain.cache, w') := by
            rw [plain]
            exact clear
          have later := ih (same_order.trans moved.symm supplied) clear' fresh spares
          rw [plain] at later
          rw [List.filter_cons_of_neg (by simp [concerned])]
          exact ⟨later.1.skip _ concerned, later.2⟩
      | false =>
          have named : i ∉ strays := by
            refine first ?_
            cases action with
            | get typeName key bypass => exact concerned
            | _ => rfl
          obtain ⟨told, alike, clear'⟩ := run_unconcerned callbacks base catalogue recorder depth spare
            same clear concerned spared named
          rw [List.filter_cons_of_pos (by simp [concerned]), Session.play_cons, Session.play_cons]
          dsimp only at told clear' ⊢
          rw [told] at clear' ⊢
          have later := ih alike clear' fresh spares
          exact ⟨later.1.tell _ concerned, later.2⟩

end Plays

section Creation

variable {callbacks : Callbacks σ} {base : Services (StateM σ)} {catalogue : Catalogue}
  {recorder : Recorder τ} {depth : Nat} {instantiator : InstantiatorId}
  {coordinator : CoordinatorId} {config : Config} {metrics : Option MetricsId}
  {contexts : List Context} {names : List InstanceId} {record : τ} {inner : σ} {cache : Cache}
  {w : Stocked τ σ}
  (created : create (callbacks.provided base catalogue recorder depth) instantiator coordinator
    config metrics (.unwritten contexts ⟨names, record, inner⟩) = (.ok cache, w))
  {strays : List InstanceId} (fresh : ∀ i ∈ names, i ∉ strays)

include created fresh

theorem create_regular : ∀ d ∈ loads w.ledger, d.Regular strays := by
  have supply : (callbacks.provided base catalogue recorder depth).Supply
      fun w w' => Alike strays w w → Alike strays w' w' :=
    (Alike.provided_twins base catalogue recorder callbacks depth).supply fun _ => Iff.rfl
  have here : Alike (τ := τ) (σ := σ) strays (.unwritten contexts ⟨names, record, inner⟩)
      (.unwritten contexts ⟨names, record, inner⟩) := .intro rfl (by simp) fresh
  have alike := create_keeps (.lasting _) supply instantiator coordinator config metrics _ here
  rw [created] at alike
  exact alike.regular

theorem create_clear (spare : ∀ i ∈ strays,
      (callbacks.provided base catalogue recorder depth).Spare i (Unheard i))
    (seats : ∀ i ∈ strays, ∀ context ∈ contexts, Participant.isIn i context.participants = false) :
    Clear strays (cache, w) := by
  have accounts : (callbacks.provided base catalogue recorder depth).Accountable :=
    callbacks.stocked.audited_accountable _ depth
  have grounded := create_grounded accounts created
  have regular := create_regular created fresh
  have creation := create_books accounts instantiator coordinator config metrics
    (.unwritten contexts ⟨names, record, inner⟩)
  rw [created] at creation
  obtain ⟨events, books, plain, -, -, -, untracked, unaided, -⟩ := creation
  have ledger : w.ledger = events := books.ledger
  refine ⟨grounded, regular, fun i stray => ⟨?_, ?_, ?_, ?_⟩, fun i stray => ⟨?_, ?_⟩⟩
  · exact grounded.not_static (fun d member => (regular d member).own)
      (grounded.unheld regular stray).1
  · rw [untracked]
    rfl
  · rw [unaided]
    rfl
  · have unheard : Unheard i (.unwritten contexts (⟨names, record, inner⟩ : Estate τ σ)) :=
      unwritten_unheard (seats i stray)
    have keeps := create_keeps (.lasting _) (spare i stray).supply instantiator coordinator config
      metrics _ unheard
    rwa [created] at keeps
  · rw [unaided]
    simp
  · rw [ledger]
    exact plain i

end Creation

/-- An instance is used for nothing: it is in no context from the beginning, and neither actions
nor callbacks bring it in by hand. -/
structure Unused (callbacks : Callbacks σ) (contexts : List Context) (steps : List Step)
    (i : InstanceId) : Prop where
  seats : ∀ context ∈ contexts, Participant.isIn i context.participants = false
  spares : ∀ step ∈ steps, step.1.Spares i
  asks : callbacks.Ask fun _ operation => operation.Spares i

theorem strays_fresh {steps : List Step} (distinct : (steps.map (·.2)).Nodup) :
    ∀ step ∈ steps, step.1.bypasses = false → step.2 ∉ strays steps := by
  intro step member plain stray
  obtain ⟨other, bypass, same⟩ := List.mem_map.1 stray
  obtain ⟨present, bypasses⟩ := List.mem_filter.1 bypass
  obtain rfl := List.inj_on_of_nodup_map distinct present member same
  rw [plain] at bypasses
  cases bypasses

/-- **Bypasses are isolated.**  In every run of a new cache, over every instantiator that has
nothing to remember, and with whatever callbacks: leaving out the requests that bypass the cache
and the dismissals of what they load, which is used for nothing else, changes neither the answers
to the other steps nor the cache, but for its count of bypasses, nor the contexts, the services,
the callbacks and what is closed.  What bypasses load is not closed, and it receives no
callback.

Every step comes with the name for the instance that it may load, so that instances have the same
names in both runs.  A dataset that is loaded takes part in transactions as itself, if at all
(`Dataset.named`). -/
theorem bypass_noninterference {callbacks : Callbacks σ} {base : Services (StateM σ)}
    {catalogue : Catalogue} {recorder : Recorder τ} {depth : Nat} {instantiator : InstantiatorId}
    {coordinator : CoordinatorId} {config : Config} {metrics : Option MetricsId}
    {contexts : List Context} {names : List InstanceId} {record : τ} {inner : σ} {cache : Cache}
    {w : Stocked τ σ}
    (created : create (callbacks.provided base catalogue recorder depth) instantiator coordinator
      config metrics (.unwritten contexts ⟨names, record, inner⟩) = (.ok cache, w))
    {steps : List Step} (fresh : (names ++ steps.map (·.2)).Nodup)
    (unused : ∀ i ∈ strays steps, Unused callbacks contexts steps i) :
    let services := callbacks.provided base catalogue recorder depth
    let full := Session.play services { cache } steps w
    let rest := Session.play services { cache }
      (steps.filter fun step => !step.1.concerns (strays steps)) w
    Isolates (strays steps) full rest ∧
      ∀ i ∈ strays steps, closings i full.2.ledger = [] ∧ callbacksOf i full.2.journal = [] := by
  intro services full rest
  obtain ⟨-, distinct, apart⟩ := List.nodup_append.1 fresh
  have spare : ∀ i ∈ strays steps, services.Spare i (Unheard i) := fun i stray =>
    audited_spare _ (fun p call outside => (unused i stray).asks p call outside.inner) depth
  have unnamed : ∀ i ∈ names, i ∉ strays steps := by
    intro i named stray
    obtain ⟨step, member, rfl⟩ := List.mem_map.1 stray
    exact apart _ named _ (List.mem_map_of_mem (List.mem_of_mem_filter member)) rfl
  have clear : Clear (strays steps) (cache, w) := create_clear created unnamed spare
    fun i stray => (unused i stray).seats
  have unbypassed : Session.plain { cache } = { cache } := by
    obtain ⟨statics, -, rfl⟩ := create_ok (congrArg Prod.fst created)
    rfl
  have plays := play_isolates callbacks base catalogue recorder depth spare (s := { cache })
    (same_order.refl w) (by rwa [unbypassed]) (strays_fresh distinct)
    fun step member i stray => (unused i stray).spares step member
  rw [unbypassed] at plays
  obtain ⟨isolates, ended⟩ := plays
  refine ⟨isolates, fun i stray => ⟨?_, ?_⟩⟩
  · rw [← closings_closes, ← isolates.worlds.closes, closings_closes]
    exact ended.unclosed stray
  · rw [← isolates.worlds.journal]
    exact (ended.dismissed i stray).seats.callbacks

/-! ## A detour -/

def stock : Catalogue := fun _ _ key => .ok (some (table 0 key.name))

def counter : Recorder Nat := ⟨fun _ _ _ _ n => n, fun _ n => n + 1⟩

def detour : List Step :=
  [(.openContext, 1), (.get none (Key.named "users") false, 2),
    (.get none (Key.named "users") true, 3), (.dismiss (table 3 "users"), 4),
    (.dismiss (table 2 "users"), 5), (.use (.start 0), 6), (.use (.finish 0), 7),
    (.dismissContext, 8)]

theorem create_recordkeeping : create
    (Callbacks.silent.provided (Services.willing fun _ => none) stock counter 0) 0 0 {} none
      (.unwritten [] ⟨[], 0, 0⟩) = (.ok minted, .unwritten [] ⟨[], 1, 0⟩) := rfl

theorem bypass_noninterference_detour :
    let services := Callbacks.silent.provided (Services.willing fun _ => none) stock counter 0
    let start := .unwritten [] ⟨[], 1, 0⟩
    let full := Session.play services { cache := minted } detour start
    let rest := Session.play services { cache := minted }
      (detour.filter fun step => !step.1.concerns (strays detour)) start
    strays detour = [3] ∧ loads full.2.ledger = [table 2 "users", table 3 "users"] ∧
      releases full.2.ledger = [2] ∧ Isolates (strays detour) full rest ∧
      ∀ i ∈ strays detour, closings i full.2.ledger = [] ∧ callbacksOf i full.2.journal = [] := by
  have unused : ∀ i ∈ strays detour, Unused (Callbacks.silent : Callbacks Nat) [] detour i := by
    intro i stray
    obtain rfl : i = 3 := List.mem_singleton.1 stray
    refine ⟨by simp, ?_, Callbacks.silent_asks _⟩
    simp [detour, Action.Spares, Operation.Spares]
  exact ⟨rfl, by decide +kernel, by decide +kernel,
    bypass_noninterference create_recordkeeping (by decide) unused⟩

end Cache

end DatasetCache
