import DatasetCache.Proofs.Cache.Tenure

/-!
# Deferred release

A dataset in use that is dismissed waits in the open context.  As long as that context
stays open it is not closed, it keeps its seat and requests find it.  The action that ends
the context closes it, after the end of the transaction that was in progress, and it does
not come back.
-/

namespace DatasetCache

open Act Context Relation

variable {ε : Type}

/-! ## The end of a transaction -/

/-- The participants have been told to roll a transaction back, and the coordinator that it
is over. -/
def RolledBack (ps : List Participant) (tx : Transaction) (entries : List Entry) : Prop :=
  .undone tx ∈ entries ∧ ∀ p ∈ ps, .received p.id .rollback ∈ entries

def Confirmed (ps : List Participant) (tx : Transaction) (entries : List Entry) : Prop :=
  .committed tx ∈ entries ∧ ∀ p ∈ ps, .received p.id .confirm ∈ entries

section

variable {ps : List Participant} {tx : Transaction} {entries : List Entry}

theorem mem_calls {p : Participant} (member : p ∈ ps) (callback : Callback) :
    .received p.id callback ∈ calls ps callback :=
  List.mem_map.2 ⟨p, member, rfl⟩

theorem rolledBack_calls (ps : List Participant) (tx : Transaction) :
    RolledBack ps tx (calls ps .rollback ++ [.undone tx]) :=
  ⟨by simp, fun _ member => List.mem_append_left _ (mem_calls member _)⟩

theorem RolledBack.mono {more : List Entry} (rolled : RolledBack ps tx entries)
    (within : entries ⊆ more) : RolledBack ps tx more :=
  ⟨within rolled.1, fun p member => within (rolled.2 p member)⟩

theorem Confirmed.mono {more : List Entry} (confirmed : Confirmed ps tx entries)
    (within : entries ⊆ more) : Confirmed ps tx more :=
  ⟨within confirmed.1, fun p member => within (confirmed.2 p member)⟩

theorem Ending.settled {status : Context.Status} (ending : Ending ps tx status entries) :
    RolledBack ps tx entries ∨ Confirmed ps tx entries := by
  cases ending with
  | kept =>
      refine .inr ⟨by simp, fun p member => ?_⟩
      exact List.mem_append_right _ (mem_calls member _)
  | undone reason first =>
      exact .inl ((rolledBack_calls ps tx).mono (List.subset_append_right _ _))

theorem rolledBack_farewell {context : Context} (consistent : context.Consistent)
    (current : context.current = some tx) :
    RolledBack context.participants tx (farewell context) := by
  have active : context.isActive = true := by rw [consistent, current]; rfl
  rw [farewell, active, current]
  exact rolledBack_calls _ _

end

theorem exists_closing {i : InstanceId} {events : List Event} (gone : i ∈ releases events) :
    ∃ time, time ∈ closings i events := by
  obtain ⟨event, member, same⟩ := List.mem_filterMap.1 gone
  cases event with
  | closed j time =>
      obtain rfl : j = i := Option.some.inj same
      exact ⟨time, List.mem_filterMap.2 ⟨_, member, by simp [Event.closes?]⟩⟩
  | loaded dataset => simp [Event.releases?] at same
  | closedExtra j time => simp [Event.releases?] at same

namespace Cache

/-! ## What ends with the context -/

/-- What has become of a transaction when its context ends.  Only a body that ends well can
have committed it. -/
def Told (c : ContextId) (running : List ContextId) (action : Action) (ps : List Participant)
    (tx : Transaction) (entries : List Entry) : Prop :=
  RolledBack ps tx entries ∨ action = .leave none ∧ c ∈ running ∧ Confirmed ps tx entries

structure Underway (c : ContextId) (running : List ContextId) (action : Action) (since : Nat)
    (ps : List Participant) (tx : Transaction) (w : World (Journal (Ledger ε))) : Prop where
  later : since ≤ w.time
  state : Told c running action ps tx (w.journal.drop since) ∨
    (w.context c).participants = ps ∧ (w.context c).current = some tx

structure Away (c : ContextId) (state : State ε) : Prop where
  context : state.1.context ≠ some c
  past : c < state.2.contexts.length

section Moves

variable {base : Services (StateM ε)} {n : Nat} {i : InstanceId} {running : List ContextId}
  {action : Action} {before after : State ε} {c : ContextId} {ps : List Participant}
  {tx : Transaction} {since : Nat}

omit base in
theorem Told.mono {entries more : List Entry} (told : Told c running action ps tx entries)
    (within : entries ⊆ more) : Told c running action ps tx more :=
  told.imp (·.mono within) fun ⟨leaves, inside, confirmed⟩ =>
    ⟨leaves, inside, confirmed.mono within⟩

theorem Effect.grown (effect : Effect base n i running action before after) :
    (∃ entries, after.2.journal = before.2.journal ++ entries) ∧
      before.2.contexts.length ≤ after.2.contexts.length ∧
      (after.1.context = before.1.context ∨ after.1.context = none ∨
        after.1.context = some before.2.contexts.length) := by
  cases effect with
  | still turns gentle context =>
      exact ⟨⟨_, turns.entries⟩, Nat.le_of_eq turns.length.symm, .inl context⟩
  | ends ends last =>
      obtain ⟨w, events, turns, calm, books, late⟩ := last.ending
      refine ⟨⟨_, books.journal.trans turns.entries⟩, Nat.le_of_eq ?_, .inr (.inl last.unopened)⟩
      rw [books.contexts, turns.length]
  | opens unopened opened =>
      obtain ⟨length, journal, -⟩ := openWith_opens base before.1 before.2
      rw [opened]
      refine ⟨⟨[], by rw [journal, List.append_nil]⟩, ?_, .inr (.inr rfl)⟩
      rw [length]
      exact Nat.le_succ _

theorem Effect.time (effect : Effect base n i running action before after) :
    before.2.time ≤ after.2.time := by
  obtain ⟨⟨entries, journal⟩, -⟩ := effect.grown
  rw [World.time, World.time, journal, List.length_append]
  exact Nat.le_add_right _ _

theorem Effect.away (effect : Effect base n i running action before after) (away : Away c before) :
    Away c after := by
  obtain ⟨-, longer, context⟩ := effect.grown
  refine ⟨fun opened => ?_, Nat.lt_of_lt_of_le away.past longer⟩
  rcases context with same | none | fresh
  · exact away.context (same ▸ opened)
  · rw [none] at opened
    contradiction
  · obtain rfl := Option.some.inj (fresh.symm.trans opened)
    exact Nat.lt_irrefl _ away.past

theorem operate_settles {cache : Cache} {w : World (Journal (Ledger ε))} {operation : Operation}
    (asked : action.Asks running cache operation) (ends : action.ends running = true)
    (opened : cache.context = some c) (consistent : (w.context c).Consistent)
    (current : (w.context c).current = some tx) :
    let after := (operation.run base.audited w).2
    after.context c = w.context c ∨ ∃ entries, after.journal = w.journal ++ entries ∧
      Told c running action (w.context c).participants tx entries := by
  have aside : operation.target ≠ c →
      (operation.run base.audited w).2.context c = w.context c := by
    intro other
    obtain ⟨f, entries, turns, -⟩ := operation_turns base w operation
    rcases turns.context_cases c with same | ⟨here, -⟩
    · exact same
    · exact absurd here.symm other
  cases action with
  | use operation => simp [Action.ends] at ends
  | enter =>
      -- The transaction in progress keeps another one from being started.
      obtain ⟨other, opened', rfl⟩ := asked
      obtain rfl := Option.some.inj (opened.symm.trans opened')
      have active := consistent.status current
      rcases start_cases base.audited c w with ⟨fault, refused⟩ | ⟨inactive, -⟩
      · left
        simp only [Operation.run, bind_apply, pure_apply, refused]
      · simp [isActive, active] at inactive
  | leave failure =>
      cases failure with
      | none =>
          obtain ⟨other, member, rfl⟩ := asked
          by_cases here : other = c
          · subst here
            obtain ⟨status, entries, ending, turns⟩ :=
              finish_turns (base.map Ledger.within) (c := other) (w := w) current
            have same : (Operation.finish other).run base.audited =
                (Operation.finish other).run (base.map Ledger.within).journaled :=
              Operation.run_accounted _ _
            refine .inr ⟨entries, ?_, ending.settled.imp_right fun confirmed =>
              ⟨rfl, member, confirmed⟩⟩
            rw [same]
            exact turns.entries
          · exact .inl (aside here)
      | some fault =>
          obtain ⟨other, member, rfl⟩ := asked
          by_cases here : other = c
          · subst here
            have turns := abort_turns (base.map Ledger.within) (c := other) (w := w) current
              fault.message
            have same : (Operation.abortWith other fault.message).run base.audited =
                (Operation.abortWith other fault.message).run
                  (base.map Ledger.within).journaled := Operation.run_accounted _ _
            refine .inr ⟨_, ?_, .inl (rolledBack_calls _ tx)⟩
            rw [same]
            exact turns.entries
          · exact .inl (aside here)
  | _ => exact asked.elim

theorem Move.settles (move : Move base.audited running action before after)
    (ends : action.ends running = true) (opened : before.1.context = some c)
    (still : after.1.context = some c) (consistent : (before.2.context c).Consistent)
    (current : (before.2.context c).current = some tx) :
    after.2.context c = before.2.context c ∨ ∃ entries,
      after.2.journal = before.2.journal ++ entries ∧
      Told c running action (before.2.context c).participants tx entries := by
  have accounts := audited_accountable base
  have idle : ∀ {events} {w : World (Journal (Ledger ε))}, Books events before.2 w →
      w.context c = before.2.context c := fun books => books.adds.context c
  cases move with
  | log d => exact .inl (idle (accounts.report _ d))
  | operate asked => exact operate_settles asked ends opened consistent current
  | count stats => exact .inl rfl
  | miss failed => exact .inl (idle (Loader.load_books accounts _ _))
  | closeExtras asked =>
      obtain ⟨events, books, -⟩ := Extras.closeAll_books accounts _
      exact .inl (idle books)
  | retire asked unopened unstored => exact .inl (idle (Statics.closeAll_books accounts _))
  | closeLoader asked => exact .inl (idle (accounts.closeInstantiator _ _))
  | @endContext cache w other ends' opened' =>
      obtain ⟨-, unopened⟩ := endContext_rest base.audited cache other w
      rw [unopened] at still
      contradiction
  | openContext ends' unopened living =>
      rw [unopened] at opened
      contradiction
  | @reset cache w ends' =>
      obtain ⟨-, unopened⟩ := reset_rest base.audited cache w
      rw [unopened] at still
      contradiction
  | bypass asked | load asked | track asked | defer asked | release asked | addExtra asked
  | removeExtra asked => simp [asked, Action.ends] at ends

theorem Move.underway (move : Move base.audited running action before after)
    (effect : Effect base n i running action before after) (ends : action.ends running = true)
    (opened : before.1.context = some c) (still : after.1.context = some c)
    (consistent : (before.2.context c).Consistent)
    (underway : Underway c running action since ps tx before.2) :
    Underway c running action since ps tx after.2 := by
  obtain ⟨⟨entries, grown⟩, -⟩ := effect.grown
  have dropped : ∀ more, after.2.journal = before.2.journal ++ more →
      after.2.journal.drop since = before.2.journal.drop since ++ more := by
    intro more same
    rw [same, List.drop_append_of_le_length underway.later]
  refine ⟨Nat.le_trans underway.later effect.time, ?_⟩
  rcases underway.state with told | ⟨people, current⟩
  · left
    rw [dropped entries grown]
    exact told.mono (List.subset_append_left _ _)
  · rcases move.settles ends opened still consistent current with same | ⟨more, journal, told⟩
    · right
      rw [same]
      exact ⟨people, current⟩
    · left
      rw [dropped more journal]
      exact people ▸ told.mono (List.subset_append_right _ _)

theorem Underway.told {w : World (Journal (Ledger ε))}
    (underway : Underway c running action since ps tx w) (consistent : (w.context c).Consistent) :
    Told c running action ps tx ((w.journal ++ farewell (w.context c)).drop since) := by
  rw [List.drop_append_of_le_length underway.later]
  rcases underway.state with told | ⟨people, current⟩
  · exact told.mono (List.subset_append_left _ _)
  · have rolled := rolledBack_farewell consistent current
    exact .inl (people ▸ rolled.mono (List.subset_append_right _ _))

end Moves

/-! ## One action -/

section Step

variable {base : Services (StateM ε)} {n : Nat} {running : List ContextId} {action : Action}
  {before after : State ε} {c : ContextId} {key : Key} {r : Dataset} {L : List Dataset}
  {start : World (Journal (Ledger ε))}

abbrev Concerns (c : ContextId) (start : World (Journal (Ledger ε))) (P : Transaction → Prop) :
    Prop :=
  ∀ tx, (start.context c).current = some tx → P tx

/-- In the course of an action, a dataset still waits for its release. -/
structure Pending (c : ContextId) (key : Key) (r : Dataset) (start : World (Journal (Ledger ε)))
    (running : List ContextId) (action : Action) (state : State ε) : Prop where
  stored : state.1.store.peek? key = some r
  waits : Waits c r.id state
  later : start.time ≤ state.2.time
  underway : action.ends running = true → Concerns c start fun tx =>
    Underway c running action start.time (start.context c).participants tx state.2

structure Ended (c : ContextId) (i : InstanceId) (start : World (Journal (Ledger ε)))
    (running : List ContextId) (action : Action) (state : State ε) : Prop where
  away : Away c state
  closed : ∃ time ∈ closings i state.2.ledger, start.time ≤ time ∧ time ≤ state.2.time ∧
    Concerns c start fun tx => Told c running action (start.context c).participants tx
      ((state.2.journal.take time).drop start.time)

theorem Ended.move {i : InstanceId} (ended : Ended c i start running action before)
    (effect : Effect base n i running action before after) {events : List Event}
    (ledger : after.2.ledger = before.2.ledger ++ events) :
    Ended c i start running action after := by
  obtain ⟨⟨entries, journal⟩, -⟩ := effect.grown
  obtain ⟨time, member, later, sooner, told⟩ := ended.closed
  refine ⟨effect.away ended.away, time, ?_, later, ?_, fun tx current => ?_⟩
  · rw [ledger, closings_append]
    exact List.mem_append_left _ member
  · exact Nat.le_trans sooner effect.time
  · rw [journal, List.take_append_of_le_length sooner]
    exact told tx current

theorem Over.ended (last : Over c before after) (order : InOrder L n key r.id before)
    (effect : Effect base n r.id running action before after)
    (pending : Pending c key r start running action before)
    (ends : action.ends running = true) : Ended c r.id start running action after := by
  have gone := last.released pending.stored pending.waits.queued
  have held := mem_datasets_of_stored pending.stored
  have kept : r.id ∉ releases before.2.ledger := fun gone =>
    order.not_held gone (List.mem_map_of_mem held)
  obtain ⟨w, events, turns, calm, books, late⟩ := last.ending
  have ledger : after.2.ledger = before.2.ledger ++ events := by rw [books.ledger, calm]
  have journal : after.2.journal = before.2.journal ++ farewell (before.2.context c) :=
    books.journal.trans turns.entries
  rw [ledger, releases_append, List.mem_append] at gone
  obtain ⟨time, member⟩ := exists_closing (gone.resolve_left kept)
  have now : time = after.2.time := (late _ time member).trans books.time.symm
  obtain ⟨-, longer, -⟩ := effect.grown
  refine ⟨⟨by simp [last.unopened], ?_⟩, time, ?_, ?_, Nat.le_of_eq now, fun tx current => ?_⟩
  · exact Nat.lt_of_lt_of_le (order.guarded.inside last.opened).2 longer
  · rw [ledger, closings_append]
    exact List.mem_append_right _ member
  · exact now ▸ Nat.le_trans pending.later effect.time
  · have whole : after.2.journal.take time = after.2.journal := by
      rw [now]
      exact List.take_length
    rw [whole, journal]
    exact (pending.underway ends tx current).told (order.tended.consistent last.opened)

theorem Move.pending (move : Move base.audited running action before after)
    (heeds : action.Heeds Operation.drives n r.id L)
    (effect : Effect base n r.id running action before after)
    (order : InOrder L n key r.id before) (order' : InOrder L n key r.id after)
    (pending : Pending c key r start running action before) :
    Pending c key r start running action after ∨
      action.ends running = true ∧ Ended c r.id start running action after := by
  rcases effect.waits order.guarded pending.waits with waits | ⟨ends, last⟩
  · left
    have own := (order'.guarded.inside waits.opened).1
    have held := (order'.guarded.seat own waits.seat).2.held
    have kept := fun gone => order'.not_held gone held
    refine ⟨?_, waits, Nat.le_trans pending.later effect.time, fun ends tx current => ?_⟩
    · exact ((move.remains heeds order pending.stored).resolve_right kept).1
    · exact move.underway effect ends pending.waits.opened waits.opened
        (order.tended.consistent pending.waits.opened) (pending.underway ends tx current)
  · exact .inr ⟨ends, last.ended order effect pending ends⟩

end Step

/-! ## Requests for a dataset that waits -/

theorem fetch_stored (services : Services (Act ε)) {cache : Cache} {key : Key} {r : Dataset}
    (stored : cache.store.peek? key = some r) (dynamic : cache.statics.get? key = none)
    (living : cache.closed = false) (w : World ε) :
    ∃ stats, cache.fetch services key false w = ((.ok r, cache.counting stats), w) := by
  unfold fetch
  rw [if_neg (by simp [living])]
  simp only [dynamic, Store.get, stored, Bool.false_eq_true, if_false]
  exact ⟨_, rfl⟩

section Requests

variable {services : Services (Act (Journal (Ledger ε)))} {cache : Cache} {key : Key}
  {r : Dataset} (stored : cache.store.peek? key = some r) (dynamic : cache.statics.get? key = none)

include stored dynamic

theorem register_stored (accounts : services.Accountable) (synced : cache.Synced)
    (w : World (Journal (Ledger ε))) :
    (cache.register services key r w).1.1 = .ok () ∧
      Calm w (cache.register services key r w).2 := by
  cases capable : r.participant with
  | none =>
      simp only [register, dynamic, capable]
      exact ⟨rfl, rfl⟩
  | some p =>
      cases present : cache.tracker.get? key with
      | none =>
          rw [register_new services cache dynamic capable present]
          exact ⟨rfl, welcome_calm accounts cache p w⟩
      | some q =>
          obtain ⟨d, found, able⟩ := synced.tracked present
          obtain rfl := Option.some.inj (stored.symm.trans found)
          obtain rfl := Option.some.inj (capable.symm.trans able)
          have tracks := Tracker.track_same services present rfl
          simp only [register, dynamic, capable, bind_apply, tracks]
          exact ⟨rfl, rfl⟩

theorem acquire_stored (accounts : services.Accountable) (synced : cache.Synced)
    (living : cache.closed = false) (check : Dataset → Except Fault Unit)
    (passes : check r = .ok ()) (w : World (Journal (Ledger ε))) :
    (cache.acquire services key false check w).1.1 = .ok r ∧
      Calm w (cache.acquire services key false check w).2 := by
  obtain ⟨stats, fetched⟩ := fetch_stored services stored dynamic living w
  have alike : (cache.counting stats).Synced := synced.alike rfl rfl id
  have present : (cache.counting stats).store.peek? key = some r := stored
  obtain ⟨registers, calm⟩ := register_stored present dynamic accounts alike w
  unfold acquire
  rw [bind_apply, fetched]
  simp only [passes, Bool.false_eq_true, if_false, bind_apply]
  generalize (cache.counting stats).register services key r w = registered at registers calm ⊢
  obtain ⟨⟨answer, next⟩, w⟩ := registered
  obtain rfl : answer = .ok () := registers
  exact ⟨rfl, calm⟩

omit stored dynamic in
theorem acquire_bypass (accounts : services.Accountable) (cache : Cache) (key : Key)
    (check : Dataset → Except Fault Unit) (w : World (Journal (Ledger ε))) {d : Dataset}
    (found : (cache.acquire services key true check w).1.1 = .ok d) :
    (cache.acquire services key true check w).2.ledger = w.ledger ++ [.loaded d] := by
  have books := Loader.load_books accounts (w := w) cache.store.loader key
  unfold acquire fetch at found ⊢
  cases closed : cache.closed with
  | true =>
      rw [closed] at found
      cases found
  | false =>
      simp only [closed, Store.get, Bool.false_eq_true, if_true, if_false, bind_apply]
        at found ⊢
      generalize cache.store.loader.load services key w = loaded at found books ⊢
      obtain ⟨answer, next⟩ := loaded
      cases answer with
      | error fault => cases found
      | ok dataset =>
          simp only [bind_apply, pure_apply] at found ⊢
          cases checked : check dataset with
          | error fault =>
              rw [checked] at found
              cases found
          | ok passed =>
              rw [checked] at found
              cases found
              exact (books.quiet (accounts.report next _)).ledger

end Requests

/-! ## Whole runs -/

section Runs

variable {base : Services (StateM ε)} {n : Nat} {i : InstanceId} {L : List Dataset}
  {s : Session} {w : World (Journal (Ledger ε))} {action : Action} {c : ContextId} {key : Key}
  {r : Dataset} {typeName : Option String}

theorem get_stored (order : InOrder L n key r.id (s.cache, w))
    (stored : s.cache.store.peek? key = some r) (opened : s.cache.context = some c)
    (fits : ∀ name, typeName = some name → r.typeName = name) :
    (s.run base.audited (.get typeName key false) w).1.1 = .dataset r ∧
      Calm w (s.run base.audited (.get typeName key false) w).2 := by
  have living : s.cache.closed = false := living_of_opened order.empty opened
  have synced := order.sound.synced
  have acquires := acquire_stored stored (synced.dynamic stored) (audited_accountable base) synced
    living
  obtain ⟨check, -, passes, same⟩ := s.getDataset_eq base.audited key false typeName
  obtain ⟨answer, calm⟩ := acquires check (passes r fits) w
  simp only [Session.run, same, bind_apply, pure_apply, answer]
  exact ⟨rfl, calm⟩

theorem get_bypass {d : Dataset}
    (found : (s.run base.audited (.get typeName key true) w).1.1 = .dataset d) :
    (s.run base.audited (.get typeName key true) w).2.ledger = w.ledger ++ [.loaded d] := by
  obtain ⟨check, -, -, same⟩ := s.getDataset_eq base.audited key true typeName
  have bypasses := acquire_bypass (audited_accountable base) s.cache key check w (d := d)
  simp only [Session.run, same, bind_apply] at found ⊢
  generalize s.cache.acquire base.audited key true check w = acquired at found bypasses ⊢
  obtain ⟨⟨answer, next⟩, w⟩ := acquired
  cases answer with
  | error fault => cases found
  | ok dataset =>
      cases found
      exact bypasses rfl

theorem leave_unopened (c : ContextId) (failure : Option Fault) (cache : Cache)
    (w : World (Journal (Ledger ε))) :
    (cache.leave base.audited c failure w).1.2.context = none := by
  have dismisses := fun w => (dismissContext_rest base.audited cache w).2
  unfold leave
  cases failure with
  | none =>
      simp only [bind_apply]
      cases (Context.finish base.audited c w).1 <;> exact dismisses _
  | some fault =>
      simp only [bind_apply]
      cases (Context.abort base.audited c fault.message w).1 <;> exact dismisses _

theorem run_ends (ends : action.ends s.running = true) (opened : s.cache.context = some c)
    (inside : c < w.contexts.length) (empty : s.cache.closed = true → s.cache.Sealed) :
    (s.run base.audited action w).1.2.cache.context ≠ some c := by
  have living := living_of_opened empty opened
  have of_none : ∀ {next : Cache}, next.context = none → next.context ≠ some c := by
    intro next unopened
    rw [unopened]
    exact nofun
  have dismisses : ∀ (cache : Cache) (w : World (Journal (Ledger ε))),
      (cache.dismissContext base.audited w).1.context ≠ some c :=
    fun cache w => of_none (dismissContext_rest base.audited cache w).2
  -- The context that is opened next has a number that no context had before.
  have opens : (s.cache.openContext base.audited w).1.2.context ≠ some c := by
    obtain ⟨w', events, turns, -, books, -⟩ := endContext_turns base s.cache c w
    rw [openContext_eq, if_neg (by simp [living]), opened]
    intro same
    have fresh : (s.cache.endContext base.audited c w).2.contexts.length = c := Option.some.inj same
    rw [books.contexts, turns.length] at fresh
    exact Nat.lt_irrefl c (fresh ▸ inside)
  cases action with
  | openContext => exact opens
  | dismissContext => exact dismisses s.cache w
  | enter =>
      simp only [Session.run, enter, bind_apply]
      generalize s.cache.openContext base.audited w = context at opens ⊢
      obtain ⟨⟨answer, next⟩, w⟩ := context
      cases answer with
      | error fault => exact opens
      | ok fresh =>
          simp only [bind_apply]
          generalize Context.start base.audited fresh w = started
          obtain ⟨answer, w⟩ := started
          cases answer with
          | error fault => exact dismisses next w
          | ok tx => exact opens
  | invalidate =>
      have unopened := (reset_rest base.audited s.cache w).2
      simp only [Session.run, invalidate, bind_apply]
      generalize s.cache.reset base.audited w = reset at unopened ⊢
      obtain ⟨⟨failures, next⟩, w⟩ := reset
      cases failures <;> exact of_none unopened
  | close =>
      have empties := (run_sealed base.audited .close w empty).1
      exact of_none (empties (close_closed base.audited s.cache w)).unopened
  | leave failure =>
      obtain ⟨cache, running⟩ := s
      cases running with
      | nil => simp [Action.ends] at ends
      | cons body rest => exact of_none (leave_unopened body failure cache w)
  | _ => simp [Action.ends] at ends

/-! ## What is dismissed -/

/-- A dataset that was loaded waits for its release, or it has been released and its context
is gone for good. -/
structure Deferred (L : List Dataset) (n : Nat) (c : ContextId) (key : Key) (r : Dataset)
    (s : Session) (w : World (Journal (Ledger ε))) : Prop where
  attended : Attended L n key r.id s w
  loaded : r ∈ loads w.ledger
  phase : s.cache.store.peek? key = some r ∧ Waits c r.id (s.cache, w) ∨
    Away c (s.cache, w) ∧ r.id ∈ releases w.ledger

/-- What a step does to a dataset that has been dismissed while a context was open. -/
structure Deferral (n : Nat) (c : ContextId) (key : Key) (r : Dataset) (s : Session)
    (w : World (Journal (Ledger ε))) (action : Action) (answer : Answer) (s' : Session)
    (w' : World (Journal (Ledger ε))) : Prop where
  /-- The context is open until an action ends it, and then never again. -/
  ends : s.cache.context = some c → (s'.cache.context = some c ↔ action.ends s.running = false)
  away : s.cache.context ≠ some c → s'.cache.context ≠ some c
  /-- As long as the context is open, the dataset is not closed and takes part in it. -/
  waits : s'.cache.context = some c → closings r.id w'.ledger = [] ∧ w'.Reaches c r.id
  found : s.cache.context = some c → ∀ typeName, action = .get typeName key false →
    (∀ name, typeName = some name → r.typeName = name) →
    answer = .dataset r ∧ loads w'.ledger = loads w.ledger
  /-- The action that ends the context closes the dataset, after the transaction in progress. -/
  closes : s.cache.context = some c → s'.cache.context ≠ some c →
    ∃ time, closings r.id w'.ledger = [time] ∧ w.time ≤ time ∧ time ≤ w'.time ∧
      Concerns c w fun tx => Told c s.running action (w.context c).participants tx
        ((w'.journal.take time).drop w.time)
  /-- After that it is not closed again, is in no context and is not found any more. -/
  gone : s'.cache.context ≠ some c →
    (closings r.id w'.ledger).length = 1 ∧ w'.Vacant n r.id
  lost : s.cache.context ≠ some c → ∀ typeName other bypass d,
    action = .get typeName other bypass → answer = .dataset d → d.id ≠ r.id

theorem InOrder.unclosed {state : State ε} (order : InOrder L n key i state)
    (held : i ∈ ids state.1.datasets) : closings i state.2.ledger = [] := by
  by_contra closed
  exact not_held_of_closed order.sound.balanced order.within.fair order.guarded.apart closed held

theorem InOrder.closed_once {state : State ε} (order : InOrder L n key i state)
    (gone : i ∈ releases state.2.ledger) : (closings i state.2.ledger).length = 1 := by
  have bound := order.sound.balanced.bounded i
  have once := List.nodup_iff_count_le_one.1 order.within.fair.fresh i
  have released := List.count_pos_iff.2 gone
  rw [order.guarded.apart.closings_length]
  omega

theorem InOrder.vacant {state : State ε} (order : InOrder L n key i state)
    (gone : i ∈ releases state.2.ledger) : state.2.Vacant n i := fun _ own reached =>
  order.not_held gone (order.guarded.seat own reached).2.held

theorem get_other {d : Dataset} {bypass : Bool} {other : Key} (loaded : r ∈ loads w.ledger) :
    let after := s.run base.audited (.get typeName other bypass) w
    InOrder L n key r.id (after.1.2.cache, after.2) → r.id ∈ releases after.2.ledger →
      after.1.1 = .dataset d → d.id ≠ r.id := by
  intro after order gone found same
  cases bypass with
  | false =>
      have held := get_held found
      exact order.not_held gone (same ▸ List.mem_map_of_mem held)
  | true =>
      have fresh := order.within.fair.fresh
      dsimp only at fresh
      rw [get_bypass found, loads_append, ids_append] at fresh
      have apart := List.nodup_append.1 fresh
      exact apart.2.2 r.id (List.mem_map_of_mem loaded) d.id (by simp [ids]) same.symm

theorem InOrder.released {state : State ε} (order : InOrder L n key i state) {time : Nat}
    (closed : time ∈ closings i state.2.ledger) : i ∈ releases state.2.ledger := by
  refine List.count_pos_iff.1 ?_
  rw [← order.guarded.apart.closings_length]
  exact List.length_pos_of_mem closed

theorem run_pending (heeds : action.Heeds Operation.drives n r.id L)
    (within : FairWithin L (s.run base.audited action w).2) (attended : Attended L n key r.id s w)
    (stored : s.cache.store.peek? key = some r) (waits : Waits c r.id (s.cache, w)) :
    let after := s.run base.audited action w
    Attended L n key r.id after.1.2 after.2 ∧
      (Pending c key r w s.running action (after.1.2.cache, after.2) ∨
        action.ends s.running = true ∧
          Ended c r.id w s.running action (after.1.2.cache, after.2)) := by
  refine attended.induct heeds within (P := fun state =>
    Pending c key r w s.running action state ∨
      action.ends s.running = true ∧ Ended c r.id w s.running action state) (.inl ?_) ?_
  · exact ⟨stored, waits, Nat.le_refl _, fun _ tx current => ⟨Nat.le_refl _, .inr ⟨rfl, current⟩⟩⟩
  · intro before after move effect order order' sofar
    rcases sofar with pending | ⟨ends, ended⟩
    · exact move.pending heeds effect order order' pending
    · obtain ⟨events, conserves⟩ := move.conserves (audited_accountable base)
      exact .inr ⟨ends, ended.move effect conserves.ledger⟩

theorem deferral_of_pending (heeds : action.Heeds Operation.drives n r.id L)
    (within : FairWithin L (s.run base.audited action w).2) (attended : Attended L n key r.id s w)
    (stored : s.cache.store.peek? key = some r) (waits : Waits c r.id (s.cache, w)) :
    let after := s.run base.audited action w
    (after.1.2.cache.store.peek? key = some r ∧ Waits c r.id (after.1.2.cache, after.2) ∨
      Away c (after.1.2.cache, after.2) ∧ r.id ∈ releases after.2.ledger) ∧
      Deferral n c key r s w action after.1.1 after.1.2 after.2 := by
  have order := attended.order
  have inside := (order.guarded.inside waits.opened).2
  have found : ∀ typeName, action = .get typeName key false →
      (∀ name, typeName = some name → r.typeName = name) →
      (s.run base.audited action w).1.1 = .dataset r ∧
        loads (s.run base.audited action w).2.ledger = loads w.ledger := by
    rintro typeName rfl fits
    exact (get_stored order stored waits.opened fits).imp_right (congrArg loads)
  obtain ⟨attended', pending | ⟨ends, ended⟩⟩ := run_pending heeds within attended stored waits
  · have held := mem_datasets_of_stored pending.stored
    have unclosed := attended'.order.unclosed (List.mem_map_of_mem held)
    have opened := pending.waits.opened
    have goes : action.ends s.running = false := Bool.eq_false_iff.mpr fun ends =>
      run_ends ends waits.opened inside order.empty opened
    exact ⟨.inl ⟨pending.stored, pending.waits⟩,
      { ends := fun _ => iff_of_true opened goes
        away := absurd waits.opened
        waits := fun _ => ⟨unclosed, pending.waits.seat⟩
        found := fun _ => found
        closes := fun _ => absurd opened
        gone := absurd opened
        lost := absurd waits.opened }⟩
  · obtain ⟨time, member, later, sooner, told⟩ := ended.closed
    have gone := attended'.order.released member
    have once := attended'.order.closed_once gone
    have away := ended.away.context
    have alone : closings r.id (s.run base.audited action w).2.ledger = [time] := by
      obtain ⟨only, alone⟩ := List.length_eq_one_iff.1 once
      dsimp only at alone member
      rw [alone] at member ⊢
      rw [List.mem_singleton.1 member]
    exact ⟨.inr ⟨ended.away, gone⟩,
      { ends := fun _ => iff_of_false away (by simp [ends])
        away := absurd waits.opened
        waits := fun opened => absurd opened away
        found := fun _ => found
        closes := fun _ _ => ⟨time, alone, later, sooner, told⟩
        gone := fun _ => ⟨once, attended'.order.vacant gone⟩
        lost := absurd waits.opened }⟩

theorem deferral_of_away (heeds : action.Heeds Operation.drives n r.id L)
    (within : FairWithin L (s.run base.audited action w).2) (attended : Attended L n key r.id s w)
    (loaded : r ∈ loads w.ledger) (away : Away c (s.cache, w)) (gone : r.id ∈ releases w.ledger) :
    let after := s.run base.audited action w
    (Away c (after.1.2.cache, after.2) ∧ r.id ∈ releases after.2.ledger) ∧
      Deferral n c key r s w action after.1.1 after.1.2 after.2 := by
  obtain ⟨attended', away', gone'⟩ := attended.induct heeds within
    (P := fun state => Away c state ∧ r.id ∈ releases state.2.ledger) ⟨away, gone⟩
    fun move effect _ _ ⟨away, gone⟩ => by
      obtain ⟨events, conserves⟩ := move.conserves (audited_accountable base)
      refine ⟨effect.away away, ?_⟩
      rw [conserves.ledger, releases_append]
      exact List.mem_append_left _ gone
  have order := attended'.order
  have lost : ∀ typeName other bypass d, action = .get typeName other bypass →
      (s.run base.audited action w).1.1 = .dataset d → d.id ≠ r.id := by
    rintro typeName other bypass d rfl found
    exact get_other loaded order gone' found
  exact ⟨⟨away', gone'⟩,
    { ends := fun opened => absurd opened away.context
      away := fun _ => away'.context
      waits := fun opened => absurd opened away'.context
      found := fun opened => absurd opened away.context
      closes := fun opened => absurd opened away.context
      gone := fun _ => ⟨order.closed_once gone', order.vacant gone'⟩
      lost := fun _ => lost }⟩

theorem run_deferred (heeds : action.Heeds Operation.drives n r.id L)
    (within : FairWithin L (s.run base.audited action w).2)
    (deferred : Deferred L n c key r s w) :
    let after := s.run base.audited action w
    Deferred L n c key r after.1.2 after.2 ∧
      Deferral n c key r s w action after.1.1 after.1.2 after.2 := by
  obtain ⟨events, conserves⟩ := run_conserves (audited_accountable base) s action w
  have attended := run_attended deferred.attended heeds within
  have loaded : r ∈ loads (s.run base.audited action w).2.ledger := by
    rw [conserves.ledger, loads_append]
    exact List.mem_append_left _ deferred.loaded
  rcases deferred.phase with ⟨stored, waits⟩ | ⟨away, gone⟩
  · obtain ⟨phase, deferral⟩ := deferral_of_pending heeds within deferred.attended stored waits
    exact ⟨⟨attended, loaded, phase⟩, deferral⟩
  · obtain ⟨phase, deferral⟩ :=
      deferral_of_away heeds within deferred.attended deferred.loaded away gone
    exact ⟨⟨attended, loaded, .inr phase⟩, deferral⟩

theorem dismiss_queues (services : Services (Act ε)) {cache : Cache} {p : Participant}
    (dynamic : cache.statics.holds r.id = false) (opened : cache.context = some c)
    (capable : r.participant = some p) (stored : cache.store.holds r.id = true) (w : World ε) :
    ∃ d, cache.dismiss services r w =
      (cache.untracking r.id, (Context.defer c p (services.report d w).2).2) := by
  unfold dismiss
  rw [if_neg (by simp [dynamic])]
  simp only [opened, capable, stored, if_true]
  rw [untracking, opened]
  exact ⟨_, rfl⟩

theorem dismiss_deferred (attended : Attended L n key r.id s w)
    (heeds : (Action.dismiss r).Heeds Operation.drives n r.id L)
    (within : FairWithin L (s.run base.audited (.dismiss r) w).2)
    (acquired : Acquired key r (s.cache, w)) (capable : r.participant.isSome = true)
    (stored : s.cache.store.peek? key = some r) (opened : s.cache.context = some c) :
    let after := s.run base.audited (.dismiss r) w
    Deferred L n c key r after.1.2 after.2 ∧ after.1.2.cache.store.peek? key = some r ∧
      Waits c r.id (after.1.2.cache, after.2) := by
  have order := attended.order
  have inside := (order.guarded.inside opened).2
  have seat := acquired.seated order stored opened
  have member := Table.mem_values_iff.2 ⟨key, stored⟩
  obtain ⟨p, able⟩ := Option.isSome_iff_exists.1 capable
  have own := order.sound.balanced.own order.within.fair (mem_datasets_of_stored stored) able
  have dynamic : s.cache.statics.holds r.id = false := order.settled.dynamic stored
  have holds : s.cache.store.holds r.id = true := List.any_eq_true.2 ⟨r, member, by simp⟩
  obtain ⟨d, queues⟩ := dismiss_queues base.audited dynamic opened able holds w
  have after : s.run base.audited (.dismiss r) w = ((.done, { s with
      cache := s.cache.untracking r.id }), (Context.defer c p (base.audited.report d w).2).2) := by
    simp only [Session.run, bind_apply, pure_apply, queues]
  have logs := (audited_accountable base).report w d
  have seat' : (base.audited.report d w).2.Reaches c p.id := by
    rw [World.Reaches, logs.adds.context c, own]
    exact seat
  have waits : Waits c r.id
      (s.cache.untracking r.id, (Context.defer c p (base.audited.report d w).2).2) :=
    own ▸ defer_waits opened (logs.contexts ▸ inside) seat'
  have phase : (s.run base.audited (.dismiss r) w).1.2.cache.store.peek? key = some r ∧
      Waits c r.id ((s.run base.audited (.dismiss r) w).1.2.cache,
        (s.run base.audited (.dismiss r) w).2) := by
    rw [after]
    exact ⟨stored, waits⟩
  refine ⟨⟨run_attended attended heeds within, ?_, .inl phase⟩, phase⟩
  obtain ⟨events, conserves⟩ := run_conserves (audited_accountable base) s (.dismiss r) w
  rw [conserves.ledger, loads_append]
  exact List.mem_append_left _ (order.sound.balanced.known r (mem_datasets_of_stored stored))

def Finds (key : Key) (r : Dataset) : Condition (Journal (Ledger ε)) := fun _ _ action answer _ _ =>
  ∃ typeName, action = .get typeName key false ∧ answer = .dataset r

theorem runAll_acquired {actions : List Action} (capable : r.participant.isSome = true)
    (attended : Attended L n key r.id s w)
    (heeds : ∀ action ∈ actions, action.Heeds Operation.drives n r.id L)
    (within : FairWithin L (s.runAll base.audited actions w).2)
    (found : Acquired key r (s.cache, w) ∨ Sometime base.audited (Finds key r) s w actions) :
    let ended := s.runAll base.audited actions w
    Attended L n key r.id ended.1 ended.2 ∧ Acquired key r (ended.1.cache, ended.2) := by
  induction actions generalizing s w with
  | nil => exact ⟨attended, found.resolve_right id⟩
  | cons action rest ih =>
      have heed := heeds action List.mem_cons_self
      have sofar : FairWithin L (s.run base.audited action w).2 :=
        runAll_backward (FairWithin L) (fun _ _ _ => run_within) within
      have attended' := run_attended attended heed sofar
      refine ih attended' (fun other member => heeds other (List.mem_cons_of_mem action member))
        within ?_
      rcases found with acquired | ⟨typeName, rfl, answer⟩ | later
      · exact .inl (run_acquired attended heed sofar acquired).2
      · exact .inl (get_acquires capable attended'.order answer)
      · exact .inr later

/-- **Deferred release.**  A dataset that takes part in transactions has been found by a
request, and is dismissed while it is stored and a context is open.  If loads are fair,
callbacks call no context and contexts of the cache are used to drive transactions only, then
from there on the dataset waits in that context, and the action that ends the context releases
it for good. -/
theorem released_with_context {instantiator : InstantiatorId} {coordinator : CoordinatorId}
    {config : Config} {metrics : Option MetricsId} {contexts : List Context} {outside : ε}
    {cache : Cache}
    (created : create base.audited instantiator coordinator config metrics
      (.unwritten contexts outside) = (.ok cache, w))
    {first rest : List Action}
    (fair : FairSoFar
      (Session.runAll base.audited { cache } (first ++ .dismiss r :: rest) w).2)
    (heeds : ∀ action ∈ first ++ .dismiss r :: rest, action.Heeds Operation.drives
      contexts.length r.id
      (loads (Session.runAll base.audited { cache } (first ++ .dismiss r :: rest) w).2.ledger))
    (capable : r.participant.isSome = true)
    (found : Sometime base.audited (Finds key r) { cache } w first)
    (stored : (Session.runAll base.audited { cache } first w).1.cache.store.peek? key = some r)
    (opened : (Session.runAll base.audited { cache } first w).1.cache.context = some c) :
    let now := Session.runAll base.audited { cache } first w
    let dismissed := now.1.run base.audited (.dismiss r) now.2
    (dismissed.1.2.cache.context = some c ∧ closings r.id dismissed.2.ledger = [] ∧
      dismissed.2.Reaches c r.id) ∧
    Throughout base.audited (Deferral contexts.length c key r) dismissed.1.2 dismissed.2 rest := by
  intro now dismissed
  let L := loads (Session.runAll base.audited { cache } (first ++ .dismiss r :: rest) w).2.ledger
  have within : FairWithin L
      (Session.runAll base.audited { cache } (first ++ .dismiss r :: rest) w).2 :=
    ⟨fair, fun _ => id⟩
  rw [Session.runAll_append] at within
  have backward : ∀ (s : Session) action w, FairWithin L (s.run base.audited action w).2 →
      FairWithin L w := fun _ _ _ => run_within
  have after : FairWithin L dismissed.2 := runAll_backward (FairWithin L) backward within
  have before : FairWithin L now.2 := run_within after
  have begin : FairWithin L w := runAll_backward (FairWithin L) backward before
  obtain ⟨attended, acquired⟩ := runAll_acquired capable (create_attended created begin)
    (fun action member => heeds action (List.mem_append_left _ member)) before (.inr found)
  obtain ⟨deferred, stored', waits⟩ :=
    dismiss_deferred attended (heeds _ (by simp)) after acquired capable stored opened
  have held : r.id ∈ ids dismissed.1.2.cache.datasets :=
    List.mem_map_of_mem (mem_datasets_of_stored stored')
  refine ⟨⟨waits.opened, deferred.attended.order.unclosed held, waits.seat⟩, ?_⟩
  refine throughout_of_invariant (I := Deferred L contexts.length c key r) (FairWithin L) backward
    (fun action => action.Heeds Operation.drives contexts.length r.id L) ?_ deferred
    (fun action member => heeds action (by simp [member])) within
  exact fun s action w heeds within deferred => run_deferred heeds within deferred

end Runs

theorem released_with_context_visit :
    let services := Services.minting.audited
    ∃ cache w, create services 0 0 {} none (.unwritten [] 0) = (.ok cache, w) ∧
      let datasets := loads (Session.runAll services { cache } visit w).2.ledger
      let now := Session.runAll services { cache } arrival w
      let dismissed := now.1.run services (.dismiss (table 1 "users")) now.2
      Fair datasets ∧ (∀ action ∈ visit, action.Heeds Operation.drives 0 1 datasets) ∧
      Sometime services (Finds (Key.named "users") (table 1 "users")) { cache } w arrival ∧
      now.1.cache.store.peek? (Key.named "users") = some (table 1 "users") ∧
      now.1.cache.context = some 0 ∧
      Throughout services (Deferral 0 0 (Key.named "users") (table 1 "users"))
        dismissed.1.2 dismissed.2 departure := by
  have found : Sometime Services.minting.audited (Finds (Key.named "users") (table 1 "users"))
      { cache := minted } (.unwritten [] 0) arrival := .inr (.inl ⟨none, rfl, rfl⟩)
  have stored : (Session.runAll Services.minting.audited { cache := minted } arrival
      (.unwritten [] 0)).1.cache.store.peek? (Key.named "users") = some (table 1 "users") := by
    decide +kernel
  have opened : (Session.runAll Services.minting.audited { cache := minted } arrival
      (.unwritten [] 0)).1.cache.context = some 0 := by
    decide +kernel
  exact ⟨minted, _, create_minted, visit_fair, visit_heeds, found, stored, opened,
    (released_with_context create_minted visit_fair visit_heeds rfl found stored opened).2⟩

end Cache

end DatasetCache
