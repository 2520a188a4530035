import DatasetCache.Proofs.Cache.Lineup

/-!
# When a dismissal is complete

A dismissal forgets the first key under which an instance is tracked.  An instantiator that
gives an instance out again for another key has it tracked under both, and then it stays
tracked under the second.  That is all that can go wrong: who is tracked under one key at most
is in no later context, unless it is requested, added or enrolled there anew.
-/

namespace DatasetCache

open Act Context

variable {ε : Type}

/-! ## Contexts without a seat -/

/-- An instance has no seat in the contexts from a place on. -/
def Unseated (n : Nat) (i : InstanceId) (w : World ε) : Prop :=
  ∀ c, n ≤ c → Participant.isIn i (w.context c).participants = false

def KeepsOut (n : Nat) (i : InstanceId) (w w' : World ε) : Prop :=
  Unseated n i w → Unseated n i w'

namespace Context

variable {n : Nat} {i : InstanceId}

theorem keepsOut_frame : Frame (KeepsOut (ε := ε) n i) where
  toOrder := .lasting _
  outside _ _ here := here

theorem keepsOut_update (w : World ε) (c : ContextId) {f : Context → Context}
    (spares : ∀ context, Participant.isIn i (Context.participants context) = false →
      Participant.isIn i (f context).participants = false) : KeepsOut n i w (w.update c f) := by
  intro unseated other inside
  have before := unseated other inside
  unfold World.context World.update at *
  rw [List.getElem?_modify]
  cases found : w.contexts[other]? with
  | none => rfl
  | some context =>
      rw [found] at before
      dsimp only [Option.map_eq_map, Option.map_some, Option.getD_some] at before ⊢
      split
      · exact spares context before
      · exact before

theorem keepsOut_thins (w : World ε) (c : ContextId) (f : Context → Context)
    (thins : ∀ context, (f context).participants ⊆ Context.participants context) :
    KeepsOut n i w (w.update c f) := by
  refine keepsOut_update w c fun context absent => ?_
  rw [Participant.isIn, List.any_eq_false] at absent ⊢
  exact fun p member => absent p (thins context member)

theorem keepsOut_accept (w : World ε) (c : ContextId) {p : Participant} (other : p.id ≠ i) :
    KeepsOut n i w (w.update c (accept p)) :=
  keepsOut_update w c fun context absent => by
    rw [accept, Participant.isIn_append, absent]
    simp [Participant.isIn, other]

theorem keepsOut_create (k : CoordinatorId) : Keeps (KeepsOut n i) (create (ε := ε) k) := by
  intro w unseated c inside
  by_cases new : c = w.contexts.length
  · rw [new, World.context_create_self]
    rfl
  · rw [World.context_create_of_ne new]
    exact unseated c inside

def Operation.Spares (i : InstanceId) : Operation → Prop
  | .enrol _ p => p.id ≠ i
  | _ => True

variable {services : Services (Act ε)}

theorem run_keepsOut (keep : services.Keep (KeepsOut n i)) {operation : Operation}
    (spares : operation.Spares i) : Keeps (KeepsOut n i) (operation.run services) := by
  refine run_keeps_of keepsOut_frame.toOrder keep operation ?_ fun w c f change =>
    keepsOut_thins w c f change.thins
  rintro c p rfl w -
  exact keepsOut_accept w c spares

end Context

/-! ## Who is spared -/

/-- A condition on the world is not lost as long as nobody enrols an instance: operations on
contexts, new contexts and the supply of datasets leave it as it is. -/
structure Services.Spare (services : Services (Act ε)) (i : InstanceId) (I : World ε → Prop) :
    Prop where
  runs : ∀ operation : Operation, operation.Spares i →
    Keeps (fun w w' => I w → I w') (operation.run services)
  creates : ∀ k, Keeps (fun w w' => I w → I w') (create (ε := ε) k)
  supply : services.Supply fun w w' => I w → I w'

namespace Services.Spare

variable {services : Services (Act ε)} {i : InstanceId} {I : World ε → Prop}

theorem unseated {n : Nat} (keep : services.Keep (KeepsOut n i)) :
    services.Spare i (Unseated n i) :=
  ⟨fun _ spares => run_keepsOut keep spares, keepsOut_create, keep.supply⟩

variable (spare : services.Spare i I)

include spare

theorem enrol (c : ContextId) {p : Participant} (other : p.id ≠ i) :
    Keeps (fun w w' => I w → I w') (Context.enrol services c p) :=
  fun w => spare.runs (.enrol c p) other w

theorem close (c : ContextId) : Keeps (fun w w' => I w → I w') (Context.close services c) :=
  fun w => spare.runs (.cleanup c) trivial w

end Services.Spare

namespace Cache

/-! ## One move -/

def Action.Spares (i : InstanceId) : Action → Prop
  | .addExtra p => p.id ≠ i
  | .use operation => operation.Spares i
  | _ => True

section Moves

variable {services : Services (Act ε)} {running : List ContextId} {action : Action}
  {i : InstanceId} {I : World ε → Prop} {before after : Cache × World ε}

theorem Move.more (move : Move services running action before after)
    (asked : action.requests = true) {key : Key} (tracked : before.1.Tracked key i) :
    after.1.Tracked key i := by
  cases move with
  | @track cache w typeName place dataset p request dynamic stored capable untracked =>
      obtain ⟨q, found, same⟩ := tracked
      exact ⟨q, tracking_get? untracked found, same⟩
  | defer other | release other | addExtra other | removeExtra other | closeExtras other
  | retire other | closeLoader other =>
      rw [other] at asked
      cases asked
  | endContext ends | openContext ends | reset ends =>
      cases action with
      | get => cases ends
      | _ => cases asked
  | _ => exact tracked

/-- The cache does not have an instance as a participant, and the world is as it should be. -/
structure Dismissed (I : World ε → Prop) (i : InstanceId) (state : Cache × World ε) : Prop where
  static : Participant.isIn i state.1.statics.participants = false
  tracked : state.1.tracker.holds i = false
  extra : Participant.isIn i state.1.extras.members = false
  seats : I state.2

theorem Dismissed.unlisted {state : Cache × World ε} (dismissed : Dismissed I i state) :
    ∀ p ∈ state.1.members, p.id ≠ i := by
  have unlisted : Participant.isIn i state.1.members = false := by
    rw [members, Participant.isIn_append, Participant.isIn_append, dismissed.static, dismissed.extra,
      show Participant.isIn i state.1.tracker.participants = false from dismissed.tracked]
    rfl
  rw [Participant.isIn, List.any_eq_false] at unlisted
  simpa using unlisted

variable (spare : services.Spare i I)

include spare

theorem enrolAll_spares (c : ContextId) {ps : List Participant} (others : ∀ p ∈ ps, p.id ≠ i) :
    Keeps (fun w w' => I w → I w') (enrolAll services c ps) := by
  induction ps with
  | nil => exact .pure (.lasting I) _
  | cons p rest ih =>
      have first := spare.enrol c (others p List.mem_cons_self)
      exact .bind (.lasting I) first fun _ =>
        ih fun other member => others other (List.mem_cons_of_mem p member)

theorem welcome_spares (cache : Cache) {p : Participant} (other : p.id ≠ i) :
    Keeps (fun w w' => I w → I w') (cache.welcome services p) := by
  unfold welcome
  split
  · exact .pure (.lasting I) _
  · refine .bind (.lasting I) (spare.enrol _ other) fun enrolled => ?_
    split
    · exact spare.supply.report _
    · exact .pure (.lasting I) _

theorem Move.spares (move : Move services running action before after)
    (dismissed : Dismissed I i before) (spares : action.Spares i)
    (untracked : after.1.tracker.holds i = false) : I after.2 := by
  have order : Order fun w w' => I w → I w' := .lasting I
  have supply := spare.supply
  have here := dismissed.seats
  -- Seats are given where something is tracked, enrolled by hand or added, and in a new context.
  cases move with
  | log d => exact supply.report d _ here
  | @operate cache w operation asked =>
      refine spare.runs operation ?_ w here
      cases action with
      | use used =>
          obtain rfl : operation = used := asked
          exact spares
      | enter =>
          obtain ⟨c, -, rfl⟩ := asked
          trivial
      | leave failure =>
          cases failure <;> obtain ⟨c, -, rfl⟩ := asked <;> trivial
      | _ => cases asked
  | count => exact here
  | @miss cache w key | @load cache w typeName key | @bypass cache w typeName key =>
      exact Loader.load_keeps order supply.toLends cache.store.loader key w here
  | @track cache w typeName key dataset p =>
      refine welcome_spares spare cache (fun same => ?_) w here
      exact not_tracked_iff.1 untracked key ⟨p, by simp [tracking, Tracker.get?], same⟩
  | @defer cache w dataset c p => exact spare.runs (.defer c p) trivial w here
  | @release cache w dataset =>
      exact Store.evictInstance_keeps order supply cache.store dataset.id w here
  | @endContext cache w c =>
      exact Keeps.bind order (spare.close c) (fun _ => releaseDeferred_keeps order supply _ _) w here
  | @openContext cache w =>
      exact Keeps.bind order (spare.creates _) (fun c => .bind order
        (enrolAll_spares spare c dismissed.unlisted) fun _ => .pure order _) w here
  | @addExtra cache w p asked =>
      subst asked
      unfold Cache.addExtra
      split
      · exact here
      · cases cache.context with
        | none => exact here
        | some c => exact spare.enrol c spares w here
  | @removeExtra cache w p =>
      unfold Cache.removeExtra
      split
      · cases cache.context with
        | none => exact here
        | some c =>
            have seats := spare.runs (.withdraw c p) trivial w here
            simp only [Operation.run, bind_apply, pure_apply] at seats ⊢
            generalize withdraw c p w = answered at seats ⊢
            obtain ⟨answer, w⟩ := answered
            cases answer <;> exact seats
      · exact here
  | @reset cache w =>
      have evicts := Store.evictAll_keeps order supply cache.store
      unfold Cache.reset
      cases cache.context with
      | none => exact evicts w here
      | some c => exact evicts _ (spare.runs (.discard c) trivial w here)
  | @closeExtras cache w => exact Extras.closeAll_keeps order supply cache.extras w here
  | @retire cache w => exact Statics.closeAll_keeps order supply cache.statics w here
  | @closeLoader cache w => exact supply.closeInstantiator _ w here

end Moves

/-! ## One action -/

/-- Whatever takes part in transactions takes part as itself. -/
def Own (datasets : List Dataset) : Prop :=
  ∀ d ∈ datasets, ∀ p, d.participant = some p → p.id = d.id

/-- The step does not bring an instance in: it does not return it, and does not add or enrol
it by hand. -/
def Unbidden (i : InstanceId) : Condition ε := fun _ _ action answer _ _ =>
  action.Spares i ∧
    ∀ typeName key d, action = .get typeName key false → answer = .dataset d → d.id ≠ i

/-- What a cache holds has been loaded, and its static participants are those of its static
datasets. -/
structure Grounded (state : State ε) : Prop where
  balanced : Balanced state
  seeds : state.1.statics.participants = state.1.statics.seeds

section Steps

variable {services : Services (Act (Journal (Ledger ε)))} (accounts : services.Accountable)
  {I : World (Journal (Ledger ε)) → Prop} {i : InstanceId} {running : List ContextId}
  {action : Action} {s : Session} {w : World (Journal (Ledger ε))}

include accounts

theorem run_own (own : Own (loads (s.run services action w).2.ledger)) : Own (loads w.ledger) := by
  obtain ⟨events, conserves⟩ := run_conserves accounts s action w
  rw [conserves.ledger, loads_append] at own
  exact fun d member => own d (List.mem_append_left _ member)

theorem run_grounded (grounded : Grounded (s.cache, w)) :
    Grounded ((s.run services action w).1.2.cache, (s.run services action w).2) := by
  refine run_induct services s action w (P := Grounded) grounded fun move grounded => ?_
  obtain ⟨events, conserves⟩ := move.conserves accounts
  refine ⟨conserves.balanced grounded.balanced, ?_⟩
  rcases move.statics with same | ⟨none, -⟩
  · rw [same]
    exact grounded.seeds
  · rw [none]
    rfl

variable (spare : services.Spare i I)

include spare

theorem Move.dismissed {before after : State ε} (move : Move services running action before after)
    (dismissed : Dismissed I i before) (spares : action.Spares i)
    (untracked : after.1.tracker.holds i = false) : Dismissed I i after := by
  refine ⟨?_, untracked, ?_, move.spares spare dismissed spares untracked⟩
  · rcases move.statics with same | ⟨none, -⟩
    · rw [same]
      exact dismissed.static
    · rw [none]
      rfl
  · obtain ⟨events, conserves⟩ := move.conserves accounts
    have extra := dismissed.extra
    rw [Participant.isIn, List.any_eq_false] at extra ⊢
    intro p member
    rcases conserves.extras p member with before | asked
    · exact extra p before
    · rw [asked] at spares
      simpa using (show p.id ≠ i from spares)

theorem run_dismissed (dismissed : Dismissed I i (s.cache, w)) (spares : action.Spares i)
    (untracked : (s.run services action w).1.2.cache.tracker.holds i = false) :
    Dismissed I i ((s.run services action w).1.2.cache, (s.run services action w).2) := by
  cases requests : action.requests with
  | false =>
      -- Other actions than requests track nothing anew, so no move has.
      refine run_induct services s action w (P := Dismissed I i) dismissed
        fun move dismissed => move.dismissed accounts spare dismissed spares ?_
      refine not_tracked_iff.2 fun key => ?_
      rintro ⟨p, found, same⟩
      exact not_tracked_iff.1 dismissed.tracked key ⟨p, move.fewer requests found, same⟩
  | true =>
      -- What a request tracks it does not untrack, so it has not tracked the instance.
      have sofar := run_induct services s action w
        (P := fun state => (∃ key, state.1.Tracked key i) ∨ Dismissed I i state) (.inr dismissed) ?_
      · refine sofar.resolve_left ?_
        rintro ⟨key, tracked⟩
        exact not_tracked_iff.1 untracked key tracked
      · rintro before after move (⟨key, tracked⟩ | dismissed)
        · exact .inl ⟨key, move.more requests tracked⟩
        · by_cases tracked : ∃ key, after.1.Tracked key i
          · exact .inl tracked
          · exact .inr (move.dismissed accounts spare dismissed spares
              (not_tracked_iff.2 fun key found => tracked ⟨key, found⟩))

theorem step_dismissed (grounded : Grounded (s.cache, w)) (dismissed : Dismissed I i (s.cache, w))
    (own : Own (loads (s.run services action w).2.ledger)) :
    let after := s.run services action w
    Unbidden i s w action after.1.1 after.1.2 after.2 →
      Dismissed I i (after.1.2.cache, after.2) := by
  rintro after ⟨spares, unreturned⟩
  refine run_dismissed accounts spare dismissed spares (not_tracked_iff.2 fun key => ?_)
  rintro ⟨p, found, same⟩
  rcases run_came services found with before | ⟨⟨typeName, rfl⟩, -, d, answer, capable⟩
  · exact not_tracked_iff.1 dismissed.tracked key ⟨p, before, same⟩
  · obtain ⟨offers, -⟩ := (run_explains services s typeName key false w).1 d answer rfl
    have grounded' : Grounded (after.1.2.cache, after.2) := run_grounded accounts grounded
    have loaded := grounded'.balanced.known d offers.held
    exact unreturned typeName key d rfl answer ((own d loaded p capable).symm.trans same)

end Steps

/-! ## Whole runs -/

section Runs

variable {services : Services (Act (Journal (Ledger ε)))} (accounts : services.Accountable)
  {I : World (Journal (Ledger ε)) → Prop} {i : InstanceId} {s : Session}
  {w : World (Journal (Ledger ε))}

include accounts

theorem runAll_own {actions : List Action}
    (own : Own (loads (s.runAll services actions w).2.ledger)) : Own (loads w.ledger) :=
  runAll_backward (fun w => Own (loads w.ledger)) (fun _ _ _ => run_own accounts) own

theorem runAll_grounded (grounded : Grounded (s.cache, w)) (actions : List Action) :
    let ended := s.runAll services actions w
    Grounded (ended.1.cache, ended.2) := by
  induction actions generalizing s w with
  | nil => exact grounded
  | cons action rest ih => exact ih (run_grounded accounts grounded)

theorem create_grounded {instantiator : InstantiatorId} {coordinator : CoordinatorId}
    {config : Config} {metrics : Option MetricsId} {contexts : List Context} {outside : ε}
    {cache : Cache} (created : create services instantiator coordinator config metrics
      (.unwritten contexts outside) = (.ok cache, w)) : Grounded (cache, w) :=
  ⟨(create_sound accounts created).balanced, (create_founded accounts created).seeds.2⟩

theorem runAll_dismissed (spare : services.Spare i I) (grounded : Grounded (s.cache, w))
    (dismissed : Dismissed I i (s.cache, w)) {actions : List Action}
    (own : Own (loads (s.runAll services actions w).2.ledger))
    (unbidden : Throughout services (Unbidden i) s w actions) :
    let ended := s.runAll services actions w
    Dismissed I i (ended.1.cache, ended.2) := by
  induction actions generalizing s w with
  | nil => exact dismissed
  | cons action rest ih =>
      obtain ⟨now, later⟩ := unbidden
      have here : Own (loads (s.run services action w).2.ledger) := runAll_own accounts own
      exact ih (run_grounded accounts grounded)
        (step_dismissed accounts spare grounded dismissed here now) own later

end Runs

theorem Grounded.not_static {state : State ε} (grounded : Grounded state)
    (own : Own (loads state.2.ledger)) {i : InstanceId}
    (dynamic : state.1.statics.holds i = false) :
    Participant.isIn i state.1.statics.participants = false := by
  rw [Statics.holds, List.any_eq_false] at dynamic
  rw [grounded.seeds, Participant.isIn, List.any_eq_false]
  intro p member
  obtain ⟨d, known, capable⟩ := List.mem_filterMap.1 member
  rw [own d (grounded.balanced.known d (List.mem_append_right _ known)) p capable]
  exact dynamic d known

/-- **A dismissal is complete if the instance is tracked once.**  In every run of a new cache,
over every instantiator, and whatever callbacks do but enrol the instance: the dismissal of an
instance that is neither static nor an extra leaves it untracked and out of every context
opened later, as long as it is not brought in anew, exactly if it was tracked under one key at
most. -/
theorem dismissal_complete_iff {callbacks : Callbacks ε} {base : Services (StateM ε)}
    {depth : Nat} {x : Dataset} (asks : callbacks.Ask fun _ operation => operation.Spares x.id)
    {instantiator : InstantiatorId} {coordinator : CoordinatorId} {config : Config}
    {metrics : Option MetricsId} {contexts : List Context} {outside : ε} {cache : Cache}
    {w : World (Journal (Ledger ε))}
    (created : create (callbacks.audited base depth) instantiator coordinator config metrics
      (.unwritten contexts outside) = (.ok cache, w))
    {actions : List Action} {s : Session} {before : World (Journal (Ledger ε))}
    (ended : Session.runAll (callbacks.audited base depth) { cache } actions w = (s, before))
    (dynamic : s.cache.statics.holds x.id = false)
    (plain : Participant.isIn x.id s.cache.extras.members = false) :
    let services := callbacks.audited base depth
    let after := s.run services (.dismiss x) before
    (after.1.2.cache.tracker.holds x.id = false ∧ ∀ more,
      let last := after.1.2.runAll services more after.2
      Own (loads last.2.ledger) → Throughout services (Unbidden x.id) after.1.2 after.2 more →
        Unseated after.2.contexts.length x.id last.2) ↔
      ∀ key other, s.cache.Tracked key x.id → s.cache.Tracked other x.id → key = other := by
  intro services after
  have accounts : services.Accountable := callbacks.audited_accountable base depth
  have untracks : after.1.2.cache.tracker = (s.cache.untracking x.id).tracker := by
    have tracker := dismiss_tracker services s.cache x before
    rwa [dynamic, if_neg (by simp)] at tracker
  rw [← untracking_complete_iff, ← untracks]
  refine and_iff_left_of_imp fun untracked more own unbidden => ?_
  have keep : services.Keep (KeepsOut after.2.contexts.length x.id) :=
    callbacks.audited_keep keepsOut_frame base asks (fun keep _ _ spares => run_keepsOut keep spares)
      depth
  have past : Grounded (s.cache, before) := by
    have grounded := runAll_grounded accounts (s := { cache }) (create_grounded accounts created)
      actions
    rwa [ended] at grounded
  have present : Grounded (after.1.2.cache, after.2) := run_grounded accounts past
  have here : Own (loads after.2.ledger) := runAll_own accounts own
  have static : Participant.isIn x.id after.1.2.cache.statics.participants = false := by
    obtain ⟨events, -, restocks⟩ := run_restocks accounts s (.dismiss x) before
    have still : after.1.2.cache.statics = s.cache.statics := restocks.statics nofun
    exact present.not_static here (still ▸ dynamic)
  have extra : Participant.isIn x.id after.1.2.cache.extras.members = false := by
    rw [show after.1.2.cache.extras.members = s.cache.extras.members from
      run_extras services s (.dismiss x) before]
    exact plain
  have seats : Unseated after.2.contexts.length x.id after.2 := by
    intro c later
    rw [World.context, List.getElem?_eq_none later]
    rfl
  exact (runAll_dismissed accounts (.unseated keep) present ⟨static, untracked, extra, seats⟩ own unbidden).seats

/-! ## One instance under two keys -/

def sharing : Services (StateM Nat) := Services.willing fun _ => some (table 1 "users")

theorem create_sharing : create (Callbacks.silent.audited sharing 0) 0 0 {} none
    (.unwritten [] 0) = (.ok minted, .unwritten [] 0) := rfl

theorem dismissal_complete_single :
    let services := Callbacks.silent.audited sharing 0
    let actions := [.openContext, .get none (Key.named "users") false]
    ∃ s before, Session.runAll services { cache := minted } actions (.unwritten [] 0) = (s, before) ∧
      s.cache.Tracked (Key.named "users") 1 ∧
      let after := s.run services (.dismiss (table 1 "users")) before
      after.1.2.cache.tracker.holds 1 = false ∧ ∀ more,
        let last := after.1.2.runAll services more after.2
        Own (loads last.2.ledger) → Throughout services (Unbidden 1) after.1.2 after.2 more →
          Unseated after.2.contexts.length 1 last.2 := by
  intro services actions
  have told : let s := (Session.runAll services { cache := minted } actions (.unwritten [] 0)).1
      s.cache.tracker.active.entries = [(Key.named "users", { id := 1, name := "users" })] ∧
        s.cache.statics.holds 1 = false ∧ Participant.isIn 1 s.cache.extras.members = false := by
    decide +kernel
  obtain ⟨⟨s, before⟩, ended⟩ : ∃ past,
    Session.runAll services { cache := minted } actions (.unwritten [] 0) = past := ⟨_, rfl⟩
  rw [ended] at told
  obtain ⟨entries, dynamic, plain⟩ := told
  have only : ∀ key, s.cache.Tracked key 1 → key = Key.named "users" := by
    rintro key ⟨p, found, -⟩
    have member := Table.mem_of_get? found
    rw [entries, List.mem_singleton] at member
    exact congrArg Prod.fst member
  have tracked : s.cache.Tracked (Key.named "users") 1 :=
    ⟨_, Table.get?_of_mem (entries ▸ List.mem_singleton_self _), rfl⟩
  refine ⟨s, before, ended, tracked, ?_⟩
  exact (dismissal_complete_iff (Callbacks.silent_asks _) create_sharing ended dynamic plain).2
    fun key other first second => (only key first).trans (only other second).symm

/-- Two requests for different keys return the same instance.  It is dismissed, but it stays
tracked, and the next context includes it. -/
theorem dismissed_alias_seeded :
    let services := Callbacks.silent.audited sharing 0
    let got := Session.runAll services { cache := minted }
      [.get none (Key.named "users") false, .get none (Key.named "orders") false] (.unwritten [] 0)
    let dismissed := got.1.run services (.dismiss (table 1 "users")) got.2
    let opened := dismissed.1.2.run services .openContext dismissed.2
    got.1.cache.statics.holds 1 = false ∧ Participant.isIn 1 got.1.cache.extras.members = false ∧
      loads opened.2.ledger = [table 1 "users", table 1 "users"] ∧
      dismissed.1.2.cache.tracker.holds 1 = true ∧
      Participant.isIn 1 (opened.2.context 0).participants = true := by
  decide +kernel

end Cache

end DatasetCache
