import DatasetCache.Proofs.Cache.AfterClose

/-!
# What is in use stays

A dataset that a request has found is tracked under its key and has a seat in the open
context.  It stays in the store and keeps its seat until it is dismissed.  Then it waits in
the open context, and whatever ends that context releases it.
-/

namespace DatasetCache

open Act Context Relation

variable {ε : Type}

/-! ## Frames of the services -/

section Frames

variable {R : World (Journal (Ledger ε)) → World (Journal (Ledger ε)) → Prop} (frame : Frame R)

include frame

theorem accounted_keep {services : Services (Act (Journal (Ledger ε)))}
    (keep : services.Keep R) : services.accounted.Keep R :=
  have order := frame.toOrder
  have account : ∀ event : World (Journal (Ledger ε)) → List Event,
      Keeps R (Act.account event) := fun _ w => frame.outside w _
  { keep with
    load := fun i realm key =>
      .bind order (keep.load i realm key) fun _ => .bind order (account _) fun _ => .pure order _
    closeDataset := fun d => .bind order (account _) fun _ => keep.closeDataset d
    closeParticipant := fun p => .bind order (account _) fun _ => keep.closeParticipant p }

theorem Callbacks.audited_keep (callbacks : Callbacks ε) (base : Services (StateM ε))
    {allowed : Callback → Operation → Prop} (asks : callbacks.Ask allowed)
    (runs : ∀ {services : Services (Act (Journal (Ledger ε)))}, services.Keep R →
      ∀ call operation, allowed call operation → Keeps R (operation.run services))
    (depth : Nat) : (callbacks.audited base depth).Keep R := by
  have asks' : callbacks.within.recorded.Ask allowed :=
    fun p callback outside => asks p callback outside.inner.inner
  exact accounted_keep frame (nested_keep _ frame (Services.detached_keep frame _) asks' runs depth)

theorem audited_keep (base : Services (StateM ε)) : base.audited.Keep R :=
  Callbacks.silent.audited_keep frame base (Callbacks.silent_asks fun _ _ => False)
    (fun _ _ _ asked => asked.elim) 0

end Frames

namespace Context

/-- A context stays open and in order, and an instance keeps its seat and its place in the
queue for release. -/
structure Gentle (i : InstanceId) (before after : Context) : Prop where
  living : before.isClosed = false → after.isClosed = false
  consistent : before.Consistent → after.Consistent
  seat : Participant.isIn i before.participants = true →
    Participant.isIn i after.participants = true
  queued : Participant.isIn i before.deferred = true → Participant.isIn i after.deferred = true

namespace Gentle

variable {i : InstanceId} (p : Participant) (context : Context)

theorem refl : Gentle i context context := ⟨id, id, id, id⟩

theorem of_mild {f : Context → Context} (mild : Mild f) : Gentle i context (f context) where
  living := mild.living context
  consistent := mild.consistent context
  seat present := by rwa [mild.participants]
  queued present := by rwa [mild.deferred]

theorem accept : Gentle i context (accept p context) where
  living := id
  consistent := id
  seat present := by simp [Context.accept, Participant.isIn_append, present]
  queued := id

theorem queue : Gentle i context (queue p context) where
  living := id
  consistent := id
  seat := id
  queued present := by simp [Context.queue, Participant.isIn_addTo, present]

theorem expel (other : p.id ≠ i) : Gentle i context (expel p context) where
  living := id
  consistent := id
  seat present := by simp [Context.expel, Participant.isIn_removeFrom, present, other.symm]
  queued := id

end Gentle

end Context

theorem Tracker.get?_untrack_of_ne {tracker : Tracker} {i : InstanceId} {key : Key}
    {p : Participant} (found : tracker.get? key = some p) (other : p.id ≠ i) :
    (tracker.untrack i).2.get? key = some p := by
  unfold untrack
  cases first : tracker.active.keyWhere? (·.id == i) with
  | none => exact found
  | some place =>
      obtain ⟨q, present, alike⟩ := Table.exists_of_keyWhere? first
      have different : key ≠ place := by
        rintro rfl
        rw [get?, present] at found
        rw [← Option.some.inj found] at other
        exact other (by simpa using alike)
      simpa [get?, different] using found

namespace Cache

/-! ## How a dataset leaves the store -/

section Leaving

variable (base : Services (StateM ε)) {cache : Cache} {w : World (Journal (Ledger ε))} {key : Key}
  {r : Dataset}

structure Remains (key : Key) (r : Dataset) (cache next : Cache) : Prop where
  stored : next.store.peek? key = some r
  tracked : cache.Tracked key r.id → next.Tracked key r.id

theorem letGo_keeps (stored : cache.store.peek? key = some r) {i : InstanceId}
    (other : i ≠ r.id) : Remains key r cache (cache.letGo base.audited i w).1 := by
  refine ⟨?_, fun ⟨q, found, same⟩ =>
    ⟨q, Tracker.get?_untrack_of_ne found (by rw [same]; exact other.symm), same⟩⟩
  rcases letGo_cases (audited_accountable base) cache i w with
    ⟨absent, same⟩ | ⟨place, d, present, same, books, erased⟩
  · rw [same]
    exact stored
  · have different : key ≠ place := by
      rintro rfl
      rw [stored] at present
      exact other (same ▸ congrArg Dataset.id (Option.some.inj present).symm)
    rw [Store.peek?, erased, Table.get?_erase, if_neg different]
    exact stored

theorem letGo_remains (stored : cache.store.peek? key = some r) (i : InstanceId) :
    let next := cache.letGo base.audited i w
    i ≠ r.id ∧ Remains key r cache next.1 ∨ r.id ∈ releases next.2.ledger := by
  by_cases other : i = r.id
  · right
    rcases letGo_cases (audited_accountable base) cache i w with ⟨absent, -⟩ | ⟨_, _, _, _, books, -⟩
    · exact absurd other.symm (Store.holds_eq_false_iff.1 absent key r stored)
    · rw [books.ledger, other]
      simp
  · exact .inl ⟨other, letGo_keeps base stored other⟩

theorem releaseDeferred_remains (deferred : List Participant)
    (stored : cache.store.peek? key = some r) :
    let next := cache.releaseDeferred base.audited deferred w
    Participant.isIn r.id deferred = false ∧ Remains key r cache next.1 ∨
      r.id ∈ releases next.2.ledger := by
  induction deferred generalizing cache w with
  | nil => exact .inl ⟨rfl, stored, id⟩
  | cons p rest ih =>
      obtain ⟨w', told, same⟩ := releaseDeferred_cons base.audited cache p rest w
      rw [same]
      have calm : w'.ledger = (cache.letGo base.audited p.id w).2.ledger := by
        rcases told with rfl | ⟨d, rfl⟩
        · rfl
        · exact ((audited_accountable base).report _ d).calm
      rcases letGo_remains base stored p.id (w := w) with ⟨other, remains⟩ | gone
      · refine (ih remains.stored).imp_left ?_
        rintro ⟨absent, remains'⟩
        refine ⟨?_, remains'.stored, remains'.tracked ∘ remains.tracked⟩
        simpa [Participant.isIn, other] using absent
      · right
        obtain ⟨⟨events, books, -⟩, -⟩ :=
          releaseDeferred_books base (cache.letGo base.audited p.id w).1 rest w'
        rw [books.ledger, calm, releases_append]
        exact List.mem_append_left _ gone

theorem endContext_remains (c : ContextId) (stored : cache.store.peek? key = some r) :
    let next := cache.endContext base.audited c w
    Participant.isIn r.id (w.context c).deferred = false ∧ Remains key r cache next.1 ∨
      r.id ∈ releases next.2.ledger := by
  let unopened : Cache := { cache with context := none }
  have stays : unopened.store.peek? key = some r := stored
  have remains := releaseDeferred_remains base (Context.close base.audited c w).1
    (w := (Context.close base.audited c w).2) stays
  refine remains.imp_left ?_
  rintro ⟨absent, stays⟩
  rw [(close_audited base c w).1] at absent
  exact ⟨absent, stays.stored, stays.tracked⟩

theorem reset_releases (stored : cache.store.peek? key = some r) :
    r.id ∈ releases (cache.reset base.audited w).2.ledger := by
  obtain ⟨w', -, -, books⟩ := reset_turns base cache w
  have held := Table.mem_values_iff.2 ⟨key, stored⟩
  rw [books.ledger, releases_append, releases_closingsOf]
  exact List.mem_append_right _ (List.mem_map_of_mem held)

end Leaving

/-! ## What a move does to contexts -/

/-- The open context of a cache comes to its end: its participants hear the last of it, and
after that what is in its queue is released. -/
structure Over (c : ContextId) (before after : State ε) : Prop where
  opened : before.1.context = some c
  unopened : after.1.context = none
  ending : ∃ w events, Turns c shut (farewell (before.2.context c)) before.2 w ∧
    Calm before.2 w ∧ Books events w after.2 ∧ ∀ i, ∀ time ∈ closings i events, time = w.time
  released : ∀ {key d}, before.1.store.peek? key = some d →
    Participant.isIn d.id (before.2.context c).deferred = true → d.id ∈ releases after.2.ledger

/-- A move changes one context at most, gently if it is one of the cache, or it ends the
open context, or it opens one. -/
inductive Effect (base : Services (StateM ε)) (n : Nat) (i : InstanceId)
    (running : List ContextId) (action : Action) (before after : State ε) : Prop where
  | still {c : ContextId} {f : Context → Context} {entries : List Entry}
      (turns : Turns c f entries before.2 after.2)
      (gentle : n ≤ c → ∀ context, Gentle i context (f context))
      (context : after.1.context = before.1.context)
  | ends {c : ContextId} (ends : action.ends running = true) (last : Over c before after)
  | opens (unopened : before.1.context = none)
      (opened : after = before.1.openWith base.audited before.2)

section Effects

variable {base : Services (StateM ε)} {n : Nat} {i : InstanceId} {running : List ContextId}
  {action : Action} {before after : State ε}

theorem endContext_over {cache : Cache} {c : ContextId} (opened : cache.context = some c)
    (w : World (Journal (Ledger ε))) : Over c (cache, w) (cache.endContext base.audited c w) := by
  obtain ⟨w', events, turns, calm, books, late, unopened, -⟩ := endContext_turns base cache c w
  refine ⟨opened, unopened, ⟨w', events, turns, calm, books, late⟩, fun stored queued => ?_⟩
  rcases endContext_remains base c stored (w := w) with ⟨absent, -⟩ | gone
  · dsimp only at queued
    rw [queued] at absent
    contradiction
  · exact gone

theorem reset_over {cache : Cache} {c : ContextId} (opened : cache.context = some c)
    (w : World (Journal (Ledger ε))) :
    Over c (cache, w) ((cache.reset base.audited w).1.2, (cache.reset base.audited w).2) := by
  obtain ⟨-, unopened⟩ := reset_rest base.audited cache w
  obtain ⟨w', ⟨-, vacant⟩ | ⟨other, opened', turns⟩, calm, books⟩ := reset_turns base cache w
  · rw [opened] at vacant
    contradiction
  · obtain rfl : c = other := Option.some.inj (opened.symm.trans opened')
    have late := fun i => closings_closingsOf i cache.store.entries.values w'.time
    exact ⟨opened, unopened, ⟨w', _, turns, calm, books, late⟩,
      fun stored _ => reset_releases base stored⟩

theorem Effect.books {events : List Event} (books : Books events before.2 after.2)
    (context : after.1.context = before.1.context) :
    Effect base n i running action before after :=
  .still (.ofAdds books.adds 0) (fun _ => .refl) context

theorem Effect.joins {p : Participant} (joins : Joins before.1.context p before.2 after.2)
    (context : after.1.context = before.1.context) :
    Effect base n i running action before after := by
  obtain ⟨c, f, entries, turns, rfl | ⟨-, rfl⟩, -⟩ := joins
  · exact .still turns (fun _ => .refl) context
  · exact .still turns (fun _ => .accept p) context

theorem Move.effect {L : List Dataset} (move : Move base.audited running action before after)
    (heeds : action.Heeds Operation.drives n i L) (apart : Apart i before) :
    Effect base n i running action before after := by
  have accounts := audited_accountable base
  cases move with
  | log d => exact .books (accounts.report _ d) rfl
  | @operate cache w operation asked =>
      obtain ⟨f, entries, turns, mild, -⟩ := operation_turns base w operation
      refine .still turns (fun inside context => .of_mild context (mild ?_)) rfl
      rcases asked.cases with used | ⟨drives, -⟩
      · exact heeds.uses _ used inside
      · exact drives
  | count stats => exact .books (.none _) rfl
  | miss failed => exact .books (Loader.load_books accounts _ _) rfl
  | bypass asked => exact .books (Loader.load_books accounts _ _) rfl
  | load asked living dynamic absent loaded => exact .books (Loader.load_books accounts _ _) rfl
  | @track cache w typeName key dataset p asked dynamic stored capable untracked =>
      exact .joins (welcome_joins base cache p w) rfl
  | @defer cache w dataset c p asked dynamic opened capable stored =>
      exact .still (.update w c (queue p)) (fun _ => .queue p) rfl
  | @release cache w dataset asked dynamic idle =>
      rcases letGo_cases accounts cache dataset.id w with ⟨-, same⟩ | ⟨-, -, -, -, books, -⟩
      · rw [same]
        exact .books (.none w) rfl
      · exact .books books rfl
  | endContext ends opened => exact .ends ends (endContext_over opened _)
  | openContext ends unopened living => exact .opens unopened rfl
  | @addExtra cache w p asked =>
      exact .joins (addExtra_joins base cache p w) (addExtra_unmoved base cache p w).context
  | @removeExtra cache w p asked =>
      have unmoved := removeExtra_unmoved cache p w
      obtain ⟨c, f, turns, rfl | ⟨extra, rfl⟩⟩ := removeExtra_turns cache p w
      · exact .still turns (fun _ => .refl) unmoved.context
      · refine .still turns (fun _ context => .expel p context ?_) unmoved.context
        obtain ⟨q, member, alike⟩ := List.any_eq_true.1 extra
        exact beq_iff_eq.1 alike ▸ apart.extras q member
  | @reset cache w ends =>
      cases opened : cache.context with
      | some c => exact .ends ends (reset_over opened w)
      | none =>
          obtain ⟨-, unopened⟩ := reset_rest base.audited cache w
          obtain ⟨w', ⟨rfl, -⟩ | ⟨c, opened', -⟩, -, books⟩ := reset_turns base cache w
          · exact .books books (unopened.trans opened.symm)
          · rw [opened] at opened'
            contradiction
  | @closeExtras cache w asked =>
      obtain ⟨events, books, -⟩ := Extras.closeAll_books accounts (w := w) cache.extras
      exact .books books rfl
  | retire asked unopened unstored => exact .books (Statics.closeAll_books accounts _) rfl
  | closeLoader asked => exact .books (accounts.closeInstantiator _ _) rfl

theorem gentle_of_turns {c other : ContextId} {f : Context → Context} {entries : List Entry}
    {w w' : World (Journal (Ledger ε))} (turns : Turns other f entries w w')
    (gentle : n ≤ other → ∀ context, Gentle i context (f context)) (own : n ≤ c) :
    Gentle i (w.context c) (w'.context c) := by
  rcases turns.context_cases c with same | ⟨rfl, -, changed⟩
  · rw [same]
    exact .refl _
  · rw [changed]
    exact gentle own _

end Effects

/-! ## The seat of what is tracked -/

structure Tended (key : Key) (i : InstanceId) (state : State ε) : Prop where
  live : ∀ {c}, state.1.context = some c → Live c state.2
  consistent : ∀ {c}, state.1.context = some c → (state.2.context c).Consistent
  seat : ∀ {c}, state.1.context = some c → state.1.Tracked key i → state.2.Reaches c i

theorem Tended.unopened {key : Key} {i : InstanceId} {state : State ε}
    (unopened : state.1.context = none) : Tended key i state where
  live opened := by simp [unopened] at opened
  consistent opened := by simp [unopened] at opened
  seat opened := by simp [unopened] at opened

section Moves

variable {base : Services (StateM ε)} {n : Nat} {i : InstanceId} {running : List ContextId}
  {action : Action} {before after : State ε} {key : Key} {r : Dataset} {L : List Dataset}

theorem Move.tracked (move : Move base.audited running action before after)
    (tracked : after.1.Tracked key i) : before.1.Tracked key i ∨
      ∀ {c}, after.1.context = some c → Live c before.2 → after.2.Reaches c i := by
  obtain ⟨q, found, rfl⟩ := tracked
  rcases move.came found with earlier | ⟨-, rfl⟩
  · exact .inl ⟨q, earlier, rfl⟩
  · exact .inr fun opened live => welcome_has (audited_keep grows_frame base) live opened q

theorem openWith_tended (cache : Cache) (w : World (Journal (Ledger ε))) :
    Tended key i (cache.openWith base.audited w) := by
  have keep := audited_keep grows_frame base
  have live := create_live cache.coordinator w
  obtain ⟨-, -, -, consistent, -⟩ := openWith_opens base cache w
  constructor
  · rintro _ ⟨⟩
    exact live.grow (enrolAll_keeps keep w.contexts.length cache.members _)
  · rintro _ ⟨⟩
    exact consistent
  · rintro _ ⟨⟩ ⟨q, found, rfl⟩
    have member : q ∈ cache.members := by
      simp only [members, List.mem_append]
      exact .inl (.inr (Tracker.mem_participants_of_get? found))
    exact enrolAll_has keep live member

theorem Move.tended (move : Move base.audited running action before after)
    (heeds : action.Heeds Operation.drives n i L) (guarded : Guarded n i before)
    (tended : Tended key i before) : Tended key i after := by
  cases move.effect heeds guarded.apart with
  | still turns gentle context =>
      have grown : ∀ {c}, after.1.context = some c → Live c before.2 ∧
          Gentle i (before.2.context c) (after.2.context c) := fun opened =>
        ⟨tended.live (context ▸ opened),
          gentle_of_turns turns gentle (guarded.inside (context ▸ opened)).1⟩
      constructor
      · intro c opened
        obtain ⟨live, gentle⟩ := grown opened
        exact ⟨turns.length ▸ live.inside, gentle.living live.living⟩
      · intro c opened
        exact (grown opened).2.consistent (tended.consistent (context ▸ opened))
      · intro c opened tracked
        rcases move.tracked tracked with earlier | seated
        · exact (grown opened).2.seat (tended.seat (context ▸ opened) earlier)
        · exact seated opened (grown opened).1
  | ends ends last => exact .unopened last.unopened
  | opens unopened opened =>
      rw [opened]
      exact openWith_tended before.1 before.2

/-- What is asked of a state in every run where contexts of the cache are only driven. -/
structure InOrder (L : List Dataset) (n : Nat) (key : Key) (i : InstanceId) (state : State ε) :
    Prop where
  within : FairWithin L state.2
  sound : Sound state
  guarded : Guarded n i state
  tended : Tended key i state
  empty : state.1.closed = true → state.1.Sealed

theorem InOrder.settled {state : State ε} (order : InOrder L n key i state) : Settled state :=
  ⟨order.sound, order.within.fair⟩

theorem InOrder.not_held {state : State ε} (order : InOrder L n key i state) {j : InstanceId}
    (gone : j ∈ releases state.2.ledger) : j ∉ ids state.1.datasets :=
  order.sound.balanced.not_held order.within.fair.fresh gone

/-! ## From request to release -/

structure Waits (c : ContextId) (i : InstanceId) (state : State ε) : Prop where
  opened : state.1.context = some c
  seat : state.2.Reaches c i
  queued : Participant.isIn i (state.2.context c).deferred = true

theorem defer_waits {cache : Cache} {w : World (Journal (Ledger ε))} {c : ContextId}
    {p : Participant} (opened : cache.context = some c) (inside : c < w.contexts.length)
    (seat : w.Reaches c p.id) : Waits c p.id (cache, (Context.defer c p w).2) := by
  have place : (Context.defer c p w).2.context c = queue p (w.context c) :=
    World.context_update_self inside
  refine ⟨opened, ?_, ?_⟩
  · rw [World.Reaches, place]
    exact seat
  · rw [place, queue, Participant.isIn_addTo]
    simp

/-- What can have become of a dataset since a request has found it under a key. -/
inductive Acquired (key : Key) (r : Dataset) (state : State ε) : Prop where
  | static (found : state.1.statics.get? key = some r)
  | closed (closed : state.1.closed = true)
  | released (gone : r.id ∈ releases state.2.ledger)
  | inUse (stored : state.1.store.peek? key = some r) (tracked : state.1.Tracked key r.id)
  | waiting {c : ContextId} (stored : state.1.store.peek? key = some r)
      (waits : Waits c r.id state)

theorem Effect.waits (effect : Effect base n i running action before after)
    (guarded : Guarded n i before) {c : ContextId} (waits : Waits c i before) :
    Waits c i after ∨ action.ends running = true ∧ Over c before after := by
  cases effect with
  | still turns gentle context =>
      have gentle := gentle_of_turns turns gentle (guarded.inside waits.opened).1
      exact .inl ⟨context.trans waits.opened, gentle.seat waits.seat, gentle.queued waits.queued⟩
  | @ends other ends last =>
      obtain rfl : c = other := Option.some.inj (waits.opened.symm.trans last.opened)
      exact .inr ⟨ends, last⟩
  | opens unopened opened =>
      rw [waits.opened] at unopened
      contradiction

theorem Move.remains (move : Move base.audited running action before after)
    (heeds : action.Heeds Operation.drives n r.id L) (order : InOrder L n key r.id before)
    (stored : before.1.store.peek? key = some r) :
    after.1.store.peek? key = some r ∧ (before.1.Tracked key r.id →
      after.1.Tracked key r.id ∨ ∃ c, Waits c r.id after) ∨
    r.id ∈ releases after.2.ledger := by
  have of_remains : Remains key r before.1 after.1 → after.1.store.peek? key = some r ∧
      (before.1.Tracked key r.id → after.1.Tracked key r.id ∨ ∃ c, Waits c r.id after) :=
    fun remains => ⟨remains.stored, .inl ∘ remains.tracked⟩
  cases move with
  | @load cache w typeName place dataset asked living dynamic absent loaded =>
      have different : key ≠ place := by
        rintro rfl
        rw [absent] at stored
        contradiction
      exact .inl ⟨by simpa [keeping, Store.peek?, different] using stored, .inl⟩
  | @track cache w typeName place dataset p asked dynamic present capable untracked =>
      refine .inl ⟨stored, ?_⟩
      rintro ⟨q, found, same⟩
      exact .inl ⟨q, tracking_get? untracked found, same⟩
  | @defer cache w dataset c p asked dynamic opened capable present =>
      refine .inl ⟨stored, ?_⟩
      rintro ⟨q, found, same⟩
      by_cases alike : r.id = dataset.id
      · -- What is untracked here is queued in the same move, and its seat stays.
        right
        have held := mem_datasets_of_stored stored
        have balanced := order.sound.balanced
        have known := order.within.known r (balanced.known r held)
        obtain rfl := heeds.dismisses dataset asked r known alike
        have own := balanced.own order.within.fair held capable
        have seat := order.tended.seat opened ⟨q, found, same⟩
        rw [← own] at seat ⊢
        exact ⟨c, defer_waits opened (order.guarded.inside opened).2 seat⟩
      · exact .inl ⟨q, Tracker.get?_untrack_of_ne found (by rw [same]; exact alike), same⟩
  | @release cache w dataset asked dynamic idle =>
      exact (letGo_remains base stored dataset.id).imp_left fun here => of_remains here.2
  | @endContext cache w c ends opened =>
      exact (endContext_remains base c stored).imp_left fun here => of_remains here.2
  | @addExtra cache w p asked =>
      obtain ⟨extras, same⟩ := addExtra_rest cache p w base.audited
      rw [same] at of_remains ⊢
      exact .inl (of_remains ⟨stored, id⟩)
  | @removeExtra cache w p asked =>
      obtain ⟨extras, same⟩ := removeExtra_rest cache p w
      rw [same] at of_remains ⊢
      exact .inl (of_remains ⟨stored, id⟩)
  | reset => exact .inr (reset_releases base stored)
  | _ => exact .inl (of_remains ⟨stored, id⟩)

theorem Move.acquired (move : Move base.audited running action before after)
    (heeds : action.Heeds Operation.drives n r.id L) (order : InOrder L n key r.id before)
    (acquired : Acquired key r before) : Acquired key r after := by
  obtain ⟨events, conserves⟩ := move.conserves (audited_accountable base)
  have remains := move.remains heeds order
  cases acquired with
  | static found =>
      rcases move.statics with same | ⟨-, closed⟩
      · exact .static (same ▸ found)
      · exact .closed closed
  | closed closed => exact .closed ((move.sealed order.empty).2 closed)
  | released gone =>
      refine .released ?_
      rw [conserves.ledger, releases_append]
      exact List.mem_append_left _ gone
  | inUse stored tracked =>
      rcases remains stored with ⟨stored, follows⟩ | gone
      · rcases follows tracked with tracked | ⟨c, waits⟩
        · exact .inUse stored tracked
        · exact .waiting stored waits
      · exact .released gone
  | waiting stored waits =>
      have effect := move.effect heeds order.guarded.apart
      rcases effect.waits order.guarded waits with waits' | ⟨-, last⟩
      · exact (remains stored).elim (fun here => .waiting here.1 waits') .released
      · exact .released (last.released stored waits.queued)

theorem Acquired.seated {state : State ε} (acquired : Acquired key r state)
    (order : InOrder L n key r.id state) (stored : state.1.store.peek? key = some r)
    {c : ContextId} (opened : state.1.context = some c) : state.2.Reaches c r.id := by
  have held := mem_datasets_of_stored stored
  cases acquired with
  | static found =>
      rw [order.sound.synced.dynamic stored] at found
      contradiction
  | closed closed =>
      rw [(order.empty closed).unopened] at opened
      contradiction
  | released gone => exact absurd (List.mem_map_of_mem held) (order.not_held gone)
  | inUse stored tracked => exact order.tended.seat opened tracked
  | waiting stored waits =>
      obtain rfl := Option.some.inj (opened.symm.trans waits.opened)
      exact waits.seat

end Moves

/-! ## Whole runs -/

structure Attended (L : List Dataset) (n : Nat) (key : Key) (i : InstanceId) (s : Session)
    (w : World (Journal (Ledger ε))) : Prop where
  order : InOrder L n key i (s.cache, w)
  running : ∀ c ∈ s.running, n ≤ c

section Runs

variable {base : Services (StateM ε)} {n : Nat} {i : InstanceId} {L : List Dataset} {key : Key}
  {s : Session} {w : World (Journal (Ledger ε))} {action : Action} {r : Dataset}

theorem Attended.induct (attended : Attended L n key i s w)
    (heeds : action.Heeds Operation.drives n i L)
    (within : FairWithin L (s.run base.audited action w).2) {P : State ε → Prop}
    (here : P (s.cache, w))
    (step : ∀ {before after}, Move base.audited s.running action before after →
      Effect base n i s.running action before after → InOrder L n key i before →
      InOrder L n key i after → P before → P after) :
    let after := s.run base.audited action w
    Attended L n key i after.1.2 after.2 ∧ P (after.1.2.cache, after.2) := by
  have order := attended.order
  have watched : Watched n i s w := ⟨order.sound, order.guarded, attended.running⟩
  have kept := watched.induct (heeds.mono drives_not_enrols) within
    (P := fun state => InOrder L n key i state ∧ P state) ⟨order, here⟩ ?_
  · obtain ⟨after, kept, last⟩ := kept
    exact ⟨⟨kept, after.running⟩, last⟩
  · rintro before after move within sound guarded sound' guarded' ⟨order, kept⟩
    have effect := move.effect heeds guarded.apart
    have order' : InOrder L n key i after := ⟨within, sound', guarded',
      move.tended heeds guarded order.tended, (move.sealed order.empty).1⟩
    exact ⟨order', step move effect order order' kept⟩

theorem run_acquired (attended : Attended L n key r.id s w)
    (heeds : action.Heeds Operation.drives n r.id L)
    (within : FairWithin L (s.run base.audited action w).2)
    (acquired : Acquired key r (s.cache, w)) :
    let after := s.run base.audited action w
    Attended L n key r.id after.1.2 after.2 ∧ Acquired key r (after.1.2.cache, after.2) :=
  attended.induct heeds within (P := Acquired key r) acquired
    fun move _ order _ sofar => move.acquired heeds order sofar

theorem run_attended (attended : Attended L n key i s w)
    (heeds : action.Heeds Operation.drives n i L)
    (within : FairWithin L (s.run base.audited action w).2) :
    Attended L n key i (s.run base.audited action w).1.2 (s.run base.audited action w).2 :=
  (attended.induct heeds within (P := fun _ => True) trivial fun _ _ _ _ _ => trivial).1

theorem get_acquires {typeName : Option String} (capable : r.participant.isSome = true) :
    let after := s.run base.audited (.get typeName key false) w
    InOrder L n key i (after.1.2.cache, after.2) → after.1.1 = .dataset r →
      Acquired key r (after.1.2.cache, after.2) := by
  intro after order found
  obtain ⟨offers, follows⟩ := (run_explains base.audited s typeName key false w).1 r found rfl
  rcases offers with static | ⟨dynamic, stored⟩
  · exact .static static
  · obtain ⟨p, able⟩ := Option.isSome_iff_exists.1 capable
    obtain ⟨q, tracked, same⟩ := follows p able dynamic
    have own := order.sound.balanced.own order.within.fair (mem_datasets_of_stored stored) able
    exact .inUse stored ⟨q, tracked, same.trans own⟩

theorem create_attended {instantiator : InstantiatorId} {coordinator : CoordinatorId}
    {config : Config} {metrics : Option MetricsId} {contexts : List Context} {outside : ε}
    {cache : Cache}
    (created : create base.audited instantiator coordinator config metrics
      (.unwritten contexts outside) = (.ok cache, w))
    (within : FairWithin L w) : Attended L contexts.length key i { cache } w := by
  have watched : Watched contexts.length i { cache } w := create_watched created
  have creation := create_books (audited_accountable base) instantiator coordinator config metrics
    (.unwritten contexts outside)
  rw [created] at creation
  obtain ⟨first, -, -, -, -, -, -, -, unopened, living, -⟩ := creation
  refine ⟨⟨within, watched.sound, watched.guarded, .unopened unopened, ?_⟩, watched.running⟩
  simp [living]

end Runs

end Cache

end DatasetCache
