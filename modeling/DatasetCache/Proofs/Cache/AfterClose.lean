import DatasetCache.Proofs.Cache.Synchrony

/-!
# Nothing is used after it is closed

A context of the cache calls only participants that the cache holds.  A dataset that is
enrolled somewhere is enrolled in the open context, and it is let go only after that
context has given up its participants.  So what is closed hears of no transaction any
more, and it is not found by a request either.
-/

namespace DatasetCache

open Act Context Relation

variable {ε : Type}

/-- A context has an instance among its participants. -/
def World.Reaches (w : World ε) (c : ContextId) (i : InstanceId) : Prop :=
  Participant.isIn i (w.context c).participants = true

def World.Vacant (n : Nat) (i : InstanceId) (w : World ε) : Prop := ∀ c, n ≤ c → ¬ w.Reaches c i

namespace Cache

/-! ## What an action may ask for -/

/-- An action uses contexts from a number on only for what is allowed.  Its handles are
handles on what was loaded, and it makes no extra of an instance. -/
structure Action.Heeds (allowed : Operation → Bool) (n : Nat) (i : InstanceId)
    (datasets : List Dataset) (action : Action) : Prop where
  uses : ∀ operation, action = .use operation → n ≤ operation.target → allowed operation = true
  dismisses : ∀ d, action = .dismiss d → ∀ known ∈ datasets, known.id = d.id → known = d
  adds : ∀ p, action = .addExtra p → p.id ≠ i

theorem Action.Heeds.mono {allowed more : Operation → Bool} {n : Nat} {i : InstanceId}
    {datasets : List Dataset} {action : Action} (heeds : action.Heeds allowed n i datasets)
    (weaker : ∀ operation, allowed operation = true → more operation = true) :
    action.Heeds more n i datasets :=
  { heeds with uses := fun operation used own => weaker _ (heeds.uses operation used own) }

theorem drives_not_enrols (operation : Operation) (drives : operation.drives = true) :
    (!operation.enrols) = true := by
  cases operation <;> simp_all [Operation.drives, Operation.enrols]

def Action.Foreign (n : Nat) (action : Action) : Prop :=
  ∃ operation, action = .use operation ∧ operation.target < n

/-! ## The invariant -/

def TakesPart (cache : Cache) (i : InstanceId) : Prop :=
  ∃ d ∈ cache.datasets, d.id = i ∧ d.participant.isSome = true

structure Unmoved (cache next : Cache) : Prop where
  store : next.store = cache.store
  statics : next.statics = cache.statics
  context : next.context = cache.context

namespace Unmoved

variable {cache next : Cache}

theorem datasets (unmoved : Unmoved cache next) : next.datasets = cache.datasets := by
  rw [Cache.datasets, Cache.datasets, unmoved.store, unmoved.statics]

theorem takesPart (unmoved : Unmoved cache next) {i : InstanceId} :
    next.TakesPart i ↔ cache.TakesPart i := by
  rw [TakesPart, TakesPart, unmoved.datasets]

end Unmoved

/-- Of the contexts that the cache opens, only the open one has the instance, and only
as long as the cache holds it. -/
structure Guarded (n : Nat) (i : InstanceId) (state : State ε) : Prop where
  grown : n ≤ state.2.contexts.length
  inside : ∀ {c}, state.1.context = some c → n ≤ c ∧ c < state.2.contexts.length
  seat : ∀ {c}, n ≤ c → state.2.Reaches c i → state.1.context = some c ∧ state.1.TakesPart i
  static : ∀ p ∈ state.1.statics.participants,
    ∃ d ∈ state.1.statics.datasets.values, d.participant = some p
  apart : Apart i state

structure Discreet (i : InstanceId) (before after : State ε) : Prop where
  called : ∃ entries, after.2.journal = before.2.journal ++ entries ∧
    ∀ callback, .received i callback ∈ entries → i ∈ ids before.1.datasets
  closed : ∃ events, after.2.ledger = before.2.ledger ++ events ∧
    ∀ time ∈ closings i events, time = after.2.time

/-- Since a number of entries the instance has not been called after a closing. -/
def Quiet (since : Nat) (i : InstanceId) (w : World (Journal (Ledger ε))) : Prop :=
  ∀ time ∈ closings i w.ledger, ∀ callback,
    .received i callback ∉ w.journal.drop (max time since)

theorem TakesPart.held {cache : Cache} {i : InstanceId} (part : cache.TakesPart i) :
    i ∈ ids cache.datasets := by
  obtain ⟨d, member, rfl, -⟩ := part
  exact List.mem_map_of_mem member

theorem Quiet.after {since : Nat} {i : InstanceId} {before after : State ε}
    (quiet : Quiet since i before.2) (discreet : Discreet i before after)
    (gone : closings i before.2.ledger ≠ [] → i ∉ ids before.1.datasets) :
    Quiet since i after.2 := by
  obtain ⟨entries, journal, called⟩ := discreet.called
  obtain ⟨events, ledger, closed⟩ := discreet.closed
  intro time member callback heard
  rw [ledger, closings_append, List.mem_append] at member
  rcases member with member | member
  · rw [journal, List.drop_append, List.mem_append] at heard
    rcases heard with heard | heard
    · exact quiet time member callback heard
    · exact gone (List.ne_nil_of_mem member) (called callback (List.mem_of_mem_drop heard))
  · have late : after.2.journal.length ≤ max time since := by
      rw [closed time member]
      exact Nat.le_max_left _ _
    rw [List.drop_eq_nil_of_le late] at heard
    cases heard

theorem Discreet.of {i : InstanceId} {before after : State ε} {w : World (Journal (Ledger ε))}
    {c : ContextId} {f : Context → Context} {entries : List Entry} {events : List Event}
    (turns : Turns c f entries before.2 w) (calm : Calm before.2 w)
    (heard : ∀ callback, .received i callback ∈ entries → i ∈ ids before.1.datasets)
    (books : Books events w after.2) (late : ∀ time ∈ closings i events, time = w.time) :
    Discreet i before after where
  called := ⟨entries, books.journal.trans turns.entries, heard⟩
  closed := ⟨events, by rw [books.ledger, calm], fun time member => by
    rw [books.time]
    exact late time member⟩

theorem Discreet.books {i : InstanceId} {before after : State ε} {events : List Event}
    (books : Books events before.2 after.2)
    (late : ∀ time ∈ closings i events, time = before.2.time) : Discreet i before after :=
  .of (.ofAdds (.none before.2) 0) rfl (by simp) books late

theorem Discreet.turns {i : InstanceId} {before after : State ε} {c : ContextId}
    {f : Context → Context} {entries : List Entry} (turns : Turns c f entries before.2 after.2)
    (calm : Calm before.2 after.2)
    (heard : ∀ callback, .received i callback ∈ entries → i ∈ ids before.1.datasets) :
    Discreet i before after :=
  .of turns calm heard (.none after.2) (by simp)

namespace Guarded

variable {n : Nat} {i : InstanceId} {before after : State ε}

theorem vacant (guarded : Guarded n i before) (unopened : before.1.context = none) :
    before.2.Vacant n i := by
  intro c own reached
  rw [(guarded.seat own reached).1] at unopened
  contradiction

theorem still (guarded : Guarded n i before) (apart : Apart i after)
    (context : after.1.context = before.1.context)
    (statics : after.1.statics = before.1.statics)
    (length : after.2.contexts.length = before.2.contexts.length)
    (seat : ∀ {c}, n ≤ c → after.2.Reaches c i → before.1.context = some c ∧ after.1.TakesPart i) :
    Guarded n i after where
  grown := length ▸ guarded.grown
  inside opened := length ▸ guarded.inside (context ▸ opened)
  seat own reached := context ▸ seat own reached
  static := statics ▸ guarded.static
  apart := apart

theorem books {events : List Event} (guarded : Guarded n i before) (apart : Apart i after)
    (books : Books events before.2 after.2) (context : after.1.context = before.1.context)
    (statics : after.1.statics = before.1.statics)
    (keeps : ∀ d ∈ before.1.datasets, d ∈ after.1.datasets)
    (late : ∀ time ∈ closings i events, time = before.2.time) :
    Guarded n i after ∧ Discreet i before after := by
  refine ⟨guarded.still apart context statics (by rw [books.contexts]) fun own reached => ?_,
    .books books late⟩
  rw [World.Reaches, World.context, books.contexts] at reached
  obtain ⟨opened, d, member, part⟩ := guarded.seat own reached
  exact ⟨opened, d, keeps d member, part⟩

theorem turns {c : ContextId} {f : Context → Context} {entries : List Entry}
    (guarded : Guarded n i before) (apart : Apart i after) (unmoved : Unmoved before.1 after.1)
    (turns : Turns c f entries before.2 after.2)
    (joins : n ≤ c → Participant.isIn i (f (before.2.context c)).participants = true →
      before.2.Reaches c i ∨ before.1.context = some c ∧ before.1.TakesPart i) :
    Guarded n i after := by
  refine guarded.still apart unmoved.context unmoved.statics turns.length
    fun {other} own reached => ?_
  rw [unmoved.takesPart]
  rw [World.Reaches] at reached
  rcases turns.context_cases other with before | ⟨rfl, -, after⟩
  · rw [before] at reached
    exact guarded.seat own reached
  · rw [after] at reached
    exact (joins own reached).elim (guarded.seat own) id

theorem vacated (grown : n ≤ after.2.contexts.length) (unopened : after.1.context = none)
    (vacant : after.2.Vacant n i)
    (static : ∀ p ∈ after.1.statics.participants,
      ∃ d ∈ after.1.statics.datasets.values, d.participant = some p)
    (apart : Apart i after) : Guarded n i after where
  grown := grown
  inside opened := by simp [unopened] at opened
  seat own reached := absurd reached (vacant _ own)
  static := static
  apart := apart

theorem idle {events : List Event} (guarded : Guarded n i before)
    (vacant : before.1.context = none) (books : Books events before.2 after.2)
    (unopened : after.1.context = none)
    (static : ∀ p ∈ after.1.statics.participants,
      ∃ d ∈ after.1.statics.datasets.values, d.participant = some p)
    (apart : Apart i after) (late : ∀ time ∈ closings i events, time = before.2.time) :
    Guarded n i after ∧ Discreet i before after := by
  refine ⟨.vacated ?_ unopened (fun other own reached => ?_) static apart, .books books late⟩
  · rw [books.contexts]
    exact guarded.grown
  · rw [World.Reaches, World.context, books.contexts] at reached
    exact guarded.vacant vacant other own reached

end Guarded

/-! ## What the parts of a cache do -/

section Parts

variable (base : Services (StateM ε))

theorem audited_accountable : base.audited.Accountable := Callbacks.audited_accountable _ _ _

theorem operation_turns (w : World (Journal (Ledger ε))) (operation : Operation) :
    ∃ f entries, Turns operation.target f entries w (operation.run base.audited w).2 ∧
      (operation.drives = true → Mild f) ∧
      (operation.enrols = false →
        (∀ context i, Participant.isIn i (f context).participants = true →
          Participant.isIn i context.participants = true) ∧
        Heard (w.context operation.target).participants entries) := by
  have same : operation.run base.audited = operation.run (base.map Ledger.within).journaled :=
    operation.run_accounted _
  rw [same]
  exact run_turns _ w operation

theorem close_audited (c : ContextId) (w : World (Journal (Ledger ε))) :
    (Context.close base.audited c w).1 = (w.context c).deferred ∧
      Turns c shut (farewell (w.context c)) w (Context.close base.audited c w).2 := by
  have same : Context.close base.audited c = Context.close (base.map Ledger.within).journaled c :=
    close_accounted _ c
  rw [same]
  exact close_turns _ c w

theorem enrol_audited (c : ContextId) (p : Participant) (w : World (Journal (Ledger ε))) :
    (((w.context c).isClosed = true ∨ (w.context c).has p = true) ∧
        Adds [] w (enrol base.audited c p w).2) ∨
      (w.context c).isClosed = false ∧ (w.context c).has p = false ∧
        Turns c (accept p) (greeting (w.context c) p) w (enrol base.audited c p w).2 :=
  enrol_turns (base.map Ledger.within) c p w

theorem releaseDeferred_books (cache : Cache) (deferred : List Participant)
    (w : World (Journal (Ledger ε))) :
    let next := cache.releaseDeferred base.audited deferred w
    (∃ events, Books events w next.2 ∧ ∀ i, ∀ time ∈ closings i events, time = w.time) ∧
      next.1.context = cache.context ∧ next.1.statics = cache.statics := by
  have accounts := audited_accountable base
  refine releaseDeferred_induct base.audited (P := fun next w' =>
    (∃ events, Books events w w' ∧ ∀ i, ∀ time ∈ closings i events, time = w.time) ∧
      next.context = cache.context ∧ next.statics = cache.statics) ?_ ?_ deferred cache w
    ⟨⟨[], .none w, by simp⟩, rfl, rfl⟩
  · rintro next w' j ⟨⟨events, books, late⟩, rest⟩
    refine ⟨?_, rest⟩
    rcases letGo_cases accounts next j w' with ⟨-, same⟩ | ⟨key, d, -, -, closes, -⟩
    · rw [same]
      exact ⟨events, books, late⟩
    · refine ⟨_, books.append closes, fun i time member => ?_⟩
      rw [closings_append, List.mem_append] at member
      rcases member with member | member
      · exact late i time member
      · rw [closings_closed] at member
        split at member
        · rw [List.mem_singleton.1 member, books.time]
        · simp at member
  · rintro next w' d ⟨⟨events, books, late⟩, rest⟩
    exact ⟨⟨events, books.quiet (accounts.report w' d), late⟩, rest⟩

theorem endContext_turns (cache : Cache) (c : ContextId) (w : World (Journal (Ledger ε))) :
    let next := cache.endContext base.audited c w
    ∃ w' events, Turns c shut (farewell (w.context c)) w w' ∧ Calm w w' ∧ Books events w' next.2 ∧
      (∀ i, ∀ time ∈ closings i events, time = w'.time) ∧
      next.1.context = none ∧ next.1.statics = cache.statics := by
  have closes := (close_audited base c w).2
  have calm := close_calm (audited_accountable base) c w
  obtain ⟨⟨events, books, late⟩, unopened, statics⟩ :=
    releaseDeferred_books base { cache with context := none }
      (Context.close base.audited c w).1 (Context.close base.audited c w).2
  exact ⟨_, events, closes, calm, books, late, unopened, statics⟩

theorem closings_closingsOf (i : InstanceId) (datasets : List Dataset) (time : Nat) :
    ∀ t ∈ closings i (closingsOf datasets time), t = time := by
  induction datasets with
  | nil => simp [closingsOf]
  | cons d rest ih =>
      intro t member
      rw [closingsOf, List.map_cons, closings_closed] at member
      split at member
      · exact (List.mem_cons.1 member).elim id (ih t)
      · exact ih t member

theorem enrolAll_audited (c : ContextId) (ps : List Participant)
    {w : World (Journal (Ledger ε))} (unused : (w.context c).current = none) :
    ∃ f, Turns c f [] w (enrolAll base.audited c ps w).2 ∧
      (∀ context, (f context).current = context.current ∧ (f context).status = context.status) ∧
      ∀ context i, Participant.isIn i (f context).participants = true →
        Participant.isIn i context.participants = true ∨ Participant.isIn i ps = true := by
  induction ps generalizing w with
  | nil => exact ⟨id, .ofAdds (.none w) c, fun _ => ⟨rfl, rfl⟩, fun _ _ => .inl⟩
  | cons p rest ih =>
      obtain ⟨f, first, same, joins⟩ : ∃ f, Turns c f [] w (enrol base.audited c p w).2 ∧
          (∀ context, (f context).current = context.current ∧ (f context).status = context.status) ∧
          ∀ context i, Participant.isIn i (f context).participants = true →
            Participant.isIn i context.participants = true ∨ p.id = i := by
        rcases enrol_audited base c p w with ⟨-, adds⟩ | ⟨-, -, turns⟩
        · exact ⟨id, .ofAdds adds c, fun _ => ⟨rfl, rfl⟩, fun _ _ => .inl⟩
        · rw [greeting, unused] at turns
          refine ⟨accept p, turns, fun _ => ⟨rfl, rfl⟩, fun context i present => ?_⟩
          simpa [accept, Participant.isIn] using present
      have still : ((enrol base.audited c p w).2.context c).current = none := by
        rcases first.context_cases c with before | ⟨-, -, after⟩
        · rw [before, unused]
        · rw [after, (same _).1, unused]
      obtain ⟨g, others, same', joins'⟩ := ih still
      refine ⟨g ∘ f, first.comp others, fun context => ?_, fun context i present => ?_⟩
      · exact ⟨(same' _).1.trans (same _).1, (same' _).2.trans (same _).2⟩
      · have split : Participant.isIn i (p :: rest) = true ↔
            p.id = i ∨ Participant.isIn i rest = true := by simp [Participant.isIn]
        rw [split]
        rcases joins' _ i present with before | later
        · exact (joins _ i before).imp_right .inl
        · exact .inr (.inr later)

theorem openWith_opens (cache : Cache) (w : World (Journal (Ledger ε))) :
    let opened := (cache.openWith base.audited w).2
    opened.contexts.length = w.contexts.length + 1 ∧ opened.journal = w.journal ∧
      (∀ c, c ≠ w.contexts.length → opened.context c = w.context c) ∧
      (opened.context w.contexts.length).Consistent ∧
      ∀ i, Participant.isIn i (opened.context w.contexts.length).participants = true →
        Participant.isIn i cache.members = true := by
  let c := w.contexts.length
  let fresh := (Context.create cache.coordinator w).2
  have born : fresh.context c = { coordinator := cache.coordinator } := World.context_create_self
  have length : fresh.contexts.length = c + 1 := World.length_create
  obtain ⟨f, turns, same, joins⟩ := enrolAll_audited base c cache.members (by rw [born])
  have context : (cache.openWith base.audited w).2.context c = f (fresh.context c) :=
    turns.context (by rw [length]; exact Nat.lt_succ_self c)
  have journal : (cache.openWith base.audited w).2.journal = w.journal ++ [] := turns.entries
  refine ⟨turns.length.trans length, by rw [journal, List.append_nil], fun other ne => ?_, ?_,
    fun i present => ?_⟩
  · rcases turns.context_cases other with before | ⟨rfl, -, -⟩
    · exact before.trans (World.context_create_of_ne ne)
    · exact absurd rfl ne
  · rw [context, Consistent, isActive, (same _).1, (same _).2, born]
    rfl
  · rw [context] at present
    refine (joins _ i present).resolve_left ?_
    rw [born]
    exact Bool.false_ne_true

def Joins (opened : Option ContextId) (p : Participant) (w w' : World (Journal (Ledger ε))) :
    Prop :=
  ∃ c f entries, Turns c f entries w w' ∧ (f = id ∨ opened = some c ∧ f = accept p) ∧
    ∀ i callback, .received i callback ∈ entries → p.id = i

theorem Joins.none (opened : Option ContextId) (p : Participant) (w : World (Journal (Ledger ε))) :
    Joins opened p w w :=
  ⟨0, id, [], .ofAdds (.none w) 0, .inl rfl, by simp⟩

theorem enrol_joins (c : ContextId) (p : Participant) (w : World (Journal (Ledger ε))) :
    Joins (some c) p w (enrol base.audited c p w).2 := by
  rcases enrol_audited base c p w with ⟨-, adds⟩ | ⟨-, -, turns⟩
  · exact ⟨c, id, [], .ofAdds adds c, .inl rfl, by simp⟩
  · refine ⟨c, accept p, _, turns, .inr ⟨rfl, rfl⟩, fun i callback member => ?_⟩
    unfold greeting at member
    split at member
    · cases member
    · simp_all

theorem welcome_joins (cache : Cache) (p : Participant) (w : World (Journal (Ledger ε))) :
    Joins cache.context p w (cache.welcome base.audited p w).2 := by
  cases opened : cache.context with
  | none =>
      simp only [welcome, opened]
      exact .none none p w
  | some c =>
      have joins := enrol_joins base c p w
      simp only [welcome, opened, bind_apply]
      generalize enrol base.audited c p w = enrolled at joins ⊢
      obtain ⟨enrolled, next⟩ := enrolled
      cases enrolled with
      | false => exact joins
      | true =>
          obtain ⟨other, f, entries, turns, rest⟩ := joins
          have logs := (audited_accountable base).report next
            ⟨.debug, .transactions, "Enrolled dataset in open context"⟩
          exact ⟨other, f, entries, turns.quiet logs.adds, rest⟩

theorem addExtra_joins (cache : Cache) (p : Participant) (w : World (Journal (Ledger ε))) :
    Joins cache.context p w (cache.addExtra base.audited p w).2 := by
  unfold addExtra
  split
  · exact .none cache.context p w
  · cases cache.context with
    | none => exact .none none p w
    | some c => exact enrol_joins base c p w

theorem addExtra_unmoved (cache : Cache) (p : Participant) (w : World (Journal (Ledger ε))) :
    Unmoved cache (cache.addExtra base.audited p w).1 := by
  obtain ⟨extras, same⟩ := addExtra_rest cache p w base.audited
  rw [same]
  exact ⟨rfl, rfl, rfl⟩

theorem removeExtra_unmoved (cache : Cache) (p : Participant) (w : World (Journal (Ledger ε))) :
    Unmoved cache (cache.removeExtra p w).1.2 := by
  obtain ⟨extras, same⟩ := removeExtra_rest cache p w
  rw [same]
  exact ⟨rfl, rfl, rfl⟩

theorem removeExtra_turns (cache : Cache) (p : Participant) (w : World (Journal (Ledger ε))) :
    ∃ c f, Turns c f [] w (cache.removeExtra p w).2 ∧
      (f = id ∨ cache.extras.holds p = true ∧ f = expel p) := by
  have idle : ∃ c f, Turns c f [] w w ∧ (f = id ∨ cache.extras.holds p = true ∧ f = expel p) :=
    ⟨0, id, .ofAdds (.none w) 0, .inl rfl⟩
  unfold removeExtra
  split
  next held =>
    cases cache.context with
    | none => exact idle
    | some c =>
        simp only [bind_apply]
        cases active : (w.context c).isActive with
        | true =>
            rw [withdraw_active active]
            exact idle
        | false =>
            rw [withdraw_inactive active]
            exact ⟨c, expel p, .update w c (expel p), .inr ⟨held, rfl⟩⟩
  next => exact idle

end Parts

/-! ## One move -/

section Moves

variable {base : Services (StateM ε)} {n : Nat} {i : InstanceId} {running : List ContextId}
  {action : Action} {cache next : Cache} {w w' : World (Journal (Ledger ε))}

theorem Guarded.joins (guarded : Guarded n i (cache, w)) {p : Participant}
    (joins : Joins cache.context p w w') (calm : Calm w w')
    (part : p.id = i → cache.TakesPart i) (apart : Apart i (next, w'))
    (unmoved : Unmoved cache next) :
    Guarded n i (next, w') ∧ Discreet i (cache, w) (next, w') := by
  obtain ⟨c, f, entries, turns, joins, heard⟩ := joins
  refine ⟨guarded.turns apart unmoved turns fun own reached => ?_,
    .turns turns calm fun callback member => (part (heard i callback member)).held⟩
  rcases joins with rfl | ⟨opened, rfl⟩
  · exact .inl reached
  · have split : w.Reaches c i ∨ p.id = i := by
      simpa [World.Reaches, accept, Participant.isIn] using reached
    exact split.imp_right fun joined => ⟨opened, part joined⟩

omit base in
theorem Action.Asks.cases {operation : Operation} (asked : action.Asks running cache operation) :
    action = .use operation ∨ operation.drives = true ∧
      (cache.context = some operation.target ∨ operation.target ∈ running) := by
  cases action with
  | use other => exact .inl (congrArg Action.use asked.symm)
  | enter =>
      obtain ⟨c, opened, rfl⟩ := asked
      exact .inr ⟨rfl, .inl opened⟩
  | leave failure =>
      cases failure with
      | none =>
          obtain ⟨c, member, rfl⟩ := asked
          exact .inr ⟨rfl, .inr member⟩
      | some fault =>
          obtain ⟨c, member, rfl⟩ := asked
          exact .inr ⟨rfl, .inr member⟩
  | _ => exact asked.elim

theorem operate_guarded {L : List Dataset} (heeds : action.Heeds (!·.enrols) n i L)
    (own : ∀ c ∈ running, n ≤ c) (guarded : Guarded n i (cache, w)) {operation : Operation}
    (asked : action.Asks running cache operation)
    (apart : Apart i (cache, (operation.run base.audited w).2)) :
    Guarded n i (cache, (operation.run base.audited w).2) ∧ (¬ action.Foreign n →
      Discreet i (cache, w) (cache, (operation.run base.audited w).2)) := by
  obtain ⟨f, entries, turns, -, tame⟩ := operation_turns base w operation
  have calm := (audited_accountable base).run operation w
  have plain : n ≤ operation.target → operation.enrols = false := by
    intro inside
    rcases asked.cases with used | ⟨drives, -⟩
    · simpa using heeds.uses _ used inside
    · cases operation <;> simp_all [Operation.drives, Operation.enrols]
  refine ⟨guarded.turns apart ⟨rfl, rfl, rfl⟩ turns fun inside reached => ?_,
    fun own' => .turns turns calm fun callback member => ?_⟩
  · exact .inl ((tame (plain inside)).1 _ i reached)
  · have inside : n ≤ operation.target := by
      rcases asked.cases with used | ⟨-, opened | member⟩
      · exact Nat.not_lt.1 fun foreign => own' ⟨operation, used, foreign⟩
      · exact (guarded.inside opened).1
      · exact own _ member
    exact (guarded.seat inside ((tame (plain inside)).2 i callback member)).2.held

theorem letGo_guarded (guarded : Guarded n i (cache, w)) {j : InstanceId}
    (safe : w.Vacant n i ∨ j ≠ i ∨ cache.store.holds j = false)
    (apart : Apart i (cache.letGo base.audited j w)) :
    Guarded n i (cache.letGo base.audited j w) ∧
      Discreet i (cache, w) (cache.letGo base.audited j w) := by
  rcases letGo_cases (audited_accountable base) cache j w with
    ⟨-, same⟩ | ⟨key, d, stored, same, books, erased⟩
  · rw [same] at apart ⊢
    exact guarded.books apart (.none w) rfl rfl (fun _ => id) (by simp)
  have reaches : ∀ {c}, (cache.letGo base.audited j w).2.Reaches c i → w.Reaches c i := by
    intro c reached
    rwa [World.Reaches, World.context, books.contexts] at reached
  refine ⟨guarded.still apart rfl rfl (by rw [books.contexts]) fun own reached => ?_,
    .books books ?_⟩
  · obtain ⟨opened, e, member, rfl, capable⟩ := guarded.seat own (reaches reached)
    refine ⟨opened, e, ?_, rfl, capable⟩
    rcases safe with vacant | other | absent
    · exact absurd (reaches reached) (vacant _ own)
    · refine (List.mem_append.1 member).elim (fun held => List.mem_append_left _ ?_)
        (List.mem_append_right _)
      obtain ⟨place, found⟩ := Table.mem_values_iff.1 held
      refine Table.mem_values_iff.2 ⟨place, ?_⟩
      rw [erased, Table.get?_erase, if_neg, found]
      rintro rfl
      rw [Store.peek?, found] at stored
      rw [← same, ← Option.some.inj stored] at other
      exact other rfl
    · exact absurd same (Store.holds_eq_false_iff.1 absent key d stored)
  · intro time member
    rw [closings_closed] at member
    split at member
    · simpa using member
    · simp at member

theorem shut_vacates {c : ContextId} {entries : List Entry} (turns : Turns c shut entries w w')
    (guarded : Guarded n i (cache, w)) (opened : cache.context = some c) : w'.Vacant n i := by
  intro other own reached
  rw [World.Reaches] at reached
  rcases turns.context_cases other with before | ⟨rfl, -, after⟩
  · rw [before] at reached
    obtain rfl : c = other := Option.some.inj (opened.symm.trans (guarded.seat own reached).1)
    rw [← before, turns.context (guarded.inside opened).2] at reached
    cases reached
  · rw [after] at reached
    cases reached

theorem Guarded.ended (guarded : Guarded n i (cache, w)) {c : ContextId}
    (opened : cache.context = some c) (turns : Turns c shut (farewell (w.context c)) w w')
    (calm : Calm w w') {events : List Event} {last : World (Journal (Ledger ε))}
    (books : Books events w' last) (late : ∀ time ∈ closings i events, time = w'.time)
    (unopened : next.context = none) (statics : next.statics = cache.statics)
    (apart : Apart i (next, last)) :
    Guarded n i (next, last) ∧ Discreet i (cache, w) (next, last) := by
  refine ⟨.vacated ?_ unopened (fun other own reached => ?_) ?_ apart,
    .of turns calm (fun callback member => ?_) books late⟩
  · rw [books.contexts, turns.length]
    exact guarded.grown
  · rw [World.Reaches, World.context, books.contexts] at reached
    exact shut_vacates turns guarded opened other own reached
  · rw [statics]
    exact guarded.static
  · have heard := Heard.farewell _ i callback member
    exact (guarded.seat (guarded.inside opened).1 heard).2.held

theorem endContext_guarded (guarded : Guarded n i (cache, w)) {c : ContextId}
    (opened : cache.context = some c) (apart : Apart i (cache.endContext base.audited c w)) :
    Guarded n i (cache.endContext base.audited c w) ∧
      Discreet i (cache, w) (cache.endContext base.audited c w) := by
  obtain ⟨w', events, turns, calm, books, late, unopened, statics⟩ :=
    endContext_turns base cache c w
  exact guarded.ended opened turns calm books (late i) unopened statics apart

theorem part_of_member (sound : Sound (cache, w)) (fair : FairSoFar w)
    (guarded : Guarded n i (cache, w)) (member : Participant.isIn i cache.members = true) :
    cache.TakesPart i := by
  simp only [Participant.isIn, members, List.any_eq_true, List.mem_append, beq_iff_eq] at member
  obtain ⟨p, (static | tracked) | extra, rfl⟩ := member
  · obtain ⟨d, held, capable⟩ := guarded.static p static
    have held : d ∈ cache.datasets := List.mem_append_right _ held
    exact ⟨d, held, (sound.balanced.own fair held capable).symm, by simp [capable]⟩
  · obtain ⟨key, found⟩ := Table.mem_values_iff.1 tracked
    obtain ⟨d, stored, capable, own⟩ := Settled.held ⟨sound, fair⟩ found
    exact ⟨d, mem_datasets_of_stored stored, own.symm, by simp [capable]⟩
  · exact absurd rfl (guarded.apart.extras p extra)

theorem openWith_guarded (sound : Sound (cache, w)) (fair : FairSoFar w)
    (guarded : Guarded n i (cache, w)) (unopened : cache.context = none)
    (apart : Apart i (cache.openWith base.audited w)) :
    Guarded n i (cache.openWith base.audited w) ∧
      Discreet i (cache, w) (cache.openWith base.audited w) := by
  obtain ⟨length, journal, elders, -, joins⟩ := openWith_opens base cache w
  have calm : Calm w (cache.openWith base.audited w).2 :=
    openWith_calm (audited_accountable base) cache w
  refine ⟨⟨?_, ?_, ?_, guarded.static, apart⟩, ⟨[], by rw [journal, List.append_nil], by simp⟩,
    ⟨[], by rw [calm, List.append_nil], by simp⟩⟩
  · rw [length]
    exact Nat.le_succ_of_le guarded.grown
  · rintro _ ⟨⟩
    rw [length]
    exact ⟨guarded.grown, Nat.lt_succ_self _⟩
  · intro other own reached
    rw [World.Reaches] at reached
    by_cases same : other = w.contexts.length
    · subst same
      have part : cache.TakesPart i := part_of_member sound fair guarded (joins i reached)
      exact ⟨rfl, part⟩
    · rw [elders other same] at reached
      exact absurd reached (guarded.vacant unopened other own)

theorem reset_turns (base : Services (StateM ε)) (cache : Cache) (w : World (Journal (Ledger ε))) :
    ∃ w', (w' = w ∧ cache.context = none ∨ ∃ c, cache.context = some c ∧
        Turns c shut (farewell (w.context c)) w w') ∧ Calm w w' ∧
      Books (closingsOf cache.store.entries.values w'.time) w' (cache.reset base.audited w).2 := by
  have accounts := audited_accountable base
  unfold reset
  cases opened : cache.context with
  | none => exact ⟨w, .inl ⟨rfl, rfl⟩, rfl, Store.evictAll_books accounts cache.store⟩
  | some c =>
      exact ⟨_, .inr ⟨c, rfl, (close_audited base c w).2⟩, discard_calm accounts c w,
        Store.evictAll_books accounts cache.store⟩

theorem reset_guarded (guarded : Guarded n i (cache, w))
    (apart : Apart i ((cache.reset base.audited w).1.2, (cache.reset base.audited w).2)) :
    Guarded n i ((cache.reset base.audited w).1.2, (cache.reset base.audited w).2) ∧
      Discreet i (cache, w) ((cache.reset base.audited w).1.2, (cache.reset base.audited w).2) := by
  obtain ⟨statics, unopened⟩ := reset_rest base.audited cache w
  obtain ⟨w', ending, calm, books⟩ := reset_turns base cache w
  have late := closings_closingsOf i cache.store.entries.values w'.time
  rcases ending with ⟨rfl, vacant⟩ | ⟨c, opened, turns⟩
  · exact guarded.idle vacant books unopened (by rw [statics]; exact guarded.static) apart late
  · exact guarded.ended opened turns calm books late unopened statics apart

theorem Move.guarded {L : List Dataset} {before after : State ε}
    (move : Move base.audited running action before after) (heeds : action.Heeds (!·.enrols) n i L)
    (own : ∀ c ∈ running, n ≤ c) (known : ∀ d ∈ loads before.2.ledger, d ∈ L)
    (fair : FairSoFar before.2) (sound : Sound before) (guarded : Guarded n i before) :
    Guarded n i after ∧ (¬ action.Foreign n → Discreet i before after) := by
  have accounts := audited_accountable base
  obtain ⟨events, conserves⟩ := move.conserves accounts
  have apart := conserves.stays_apart guarded.apart heeds.adds
  have always : ∀ {P Q : Prop}, P ∧ Q → P ∧ (¬ action.Foreign n → Q) := fun both =>
    both.imp_right fun here _ => here
  cases move with
  | @log cache w d =>
      have books := accounts.report w d
      exact always (guarded.books apart books rfl rfl (fun _ => id) (by simp))
  | operate asked => exact operate_guarded heeds own guarded asked apart
  | @count cache w stats =>
      exact always (guarded.books apart (.none w) rfl rfl (fun _ => id) (by simp))
  | @miss cache w key fault failed | @bypass cache w typeName key asked =>
      have books := Loader.load_books accounts (w := w) cache.store.loader key
      refine always (guarded.books apart books rfl rfl (fun _ => id) ?_)
      cases (cache.store.loader.load base.audited key w).1 <;> simp [Event.ofAnswer]
  | @load cache w typeName key dataset asked living dynamic absent loaded =>
      have books := Loader.load_books accounts (w := w) cache.store.loader key
      have entries := (Table.entries_insert_perm absent dataset).map Prod.snd
      have more : ∀ d ∈ cache.datasets, d ∈ (cache.keeping key dataset).datasets := fun d held =>
        (entries.append_right _).mem_iff.2 (List.mem_cons_of_mem dataset held)
      refine always (guarded.books apart books rfl rfl more ?_)
      rw [loaded]
      simp [Event.ofAnswer]
  | @track cache w typeName key dataset p asked dynamic stored capable untracked =>
      have held := mem_datasets_of_stored stored
      have part : p.id = i → cache.TakesPart i := fun same =>
        ⟨dataset, held, (sound.balanced.own fair held capable).symm.trans same, by simp [capable]⟩
      have calm := welcome_calm accounts cache p w
      exact always (guarded.joins (welcome_joins base cache p w) calm part apart ⟨rfl, rfl, rfl⟩)
  | @defer cache w dataset c p asked dynamic opened capable stored =>
      have turns : Turns c (queue p) [] w (Context.defer c p w).2 := .update w c (queue p)
      exact always ⟨guarded.turns apart ⟨rfl, rfl, rfl⟩ turns fun _ => .inl,
        .turns turns rfl (by simp)⟩
  | @release cache w dataset asked dynamic idle =>
      refine always (letGo_guarded guarded ?_ apart)
      rcases idle with unopened | unable | absent
      · exact .inl (guarded.vacant unopened)
      · -- The handle is the dataset that is held, so it has no participant to be enrolled.
        refine or_iff_not_imp_right.2 fun held other own reached => ?_
        simp only [not_or, not_not] at held
        obtain ⟨-, d, member, same, capable⟩ := guarded.seat own reached
        have equal := heeds.dismisses dataset asked d (known d (sound.balanced.known d member))
          (same.trans held.1.symm)
        rw [equal, unable] at capable
        contradiction
      · exact .inr (.inr absent)
  | endContext ends opened => exact always (endContext_guarded guarded opened apart)
  | openContext ends unopened living =>
      exact always (openWith_guarded sound fair guarded unopened apart)
  | @addExtra cache w p asked =>
      have calm : Calm w (cache.addExtra base.audited p w).2 :=
        (addExtra_conserves accounts cache p w).ledger.trans (List.append_nil _)
      have other : p.id = i → cache.TakesPart i := fun same => absurd same (heeds.adds p asked)
      exact always (guarded.joins (addExtra_joins base cache p w) calm other apart
        (addExtra_unmoved base cache p w))
  | @removeExtra cache w p asked =>
      obtain ⟨c, f, turns, fewer⟩ := removeExtra_turns cache p w
      have unmoved := removeExtra_unmoved cache p w
      have conserves : Conserves action [] (cache, w) _ := removeExtra_conserves cache p w
      have calm : Calm w (cache.removeExtra p w).2 := conserves.ledger.trans (List.append_nil _)
      refine always ⟨guarded.turns apart unmoved turns fun own reached => .inl ?_,
        .turns turns calm (by simp)⟩
      rcases fewer with rfl | ⟨-, rfl⟩
      · exact reached
      · rw [expel, Participant.isIn_removeFrom] at reached
        exact (Bool.and_eq_true_iff.1 reached).1
  | reset => exact always (reset_guarded guarded apart)
  | @closeExtras cache w asked =>
      obtain ⟨events, books, closed⟩ := Extras.closeAll_books accounts (w := w) cache.extras
      refine always (guarded.books apart books rfl rfl (fun _ => id) ?_)
      intro time member
      obtain ⟨event, member, same⟩ := List.mem_filterMap.1 member
      obtain ⟨p, extra, when, rfl⟩ := closed event member
      simp [Event.closes?, guarded.apart.extras p extra] at same
  | @retire cache w asked unopened unstored =>
      have books := Statics.closeAll_books accounts (w := w) cache.statics
      exact always (guarded.idle unopened books unopened (by simp [retired]) apart
        (closings_closingsOf i _ _))
  | @closeLoader cache w asked =>
      have books := accounts.closeInstantiator w cache.store.loader.instantiator
      exact always (guarded.books apart books rfl rfl (fun _ => id) (by simp))

theorem not_held_of_closed {state : State ε} (balanced : Balanced state)
    (fair : FairSoFar state.2) (apart : Apart i state) (closed : closings i state.2.ledger ≠ []) :
    i ∉ ids state.1.datasets := by
  refine balanced.not_held fair.fresh (List.count_pos_iff.1 ?_)
  rw [← apart.closings_length]
  exact List.length_pos_iff.2 closed

end Moves

/-! ## Whole runs -/

section Runs

variable {base : Services (StateM ε)} {n : Nat} {i : InstanceId} {L : List Dataset}
  {s : Session} {w : World (Journal (Ledger ε))} {action : Action}

structure FairWithin (L : List Dataset) (w : World (Journal (Ledger ε))) : Prop where
  fair : FairSoFar w
  known : ∀ d ∈ loads w.ledger, d ∈ L

theorem Conserves.within {events : List Event} {before after : State ε}
    (conserves : Conserves action events before after) (within : FairWithin L after.2) :
    FairWithin L before.2 where
  fair := conserves.fair within.fair
  known d member := within.known d <| by
    rw [conserves.ledger, loads_append]
    exact List.mem_append_left _ member

theorem run_within (within : FairWithin L (s.run base.audited action w).2) : FairWithin L w := by
  obtain ⟨events, conserves⟩ := run_conserves (audited_accountable base) s action w
  exact conserves.within within

structure Watched (n : Nat) (i : InstanceId) (s : Session) (w : World (Journal (Ledger ε))) :
    Prop where
  sound : Sound (s.cache, w)
  guarded : Guarded n i (s.cache, w)
  running : ∀ c ∈ s.running, n ≤ c

theorem Watched.induct (watched : Watched n i s w) (heeds : action.Heeds (!·.enrols) n i L)
    (within : FairWithin L (s.run base.audited action w).2) {P : State ε → Prop}
    (here : P (s.cache, w))
    (step : ∀ {before after}, Move base.audited s.running action before after →
      FairWithin L after.2 → Sound before → Guarded n i before → Sound after → Guarded n i after →
      P before → P after) :
    let after := s.run base.audited action w
    Watched n i after.1.2 after.2 ∧ P (after.1.2.cache, after.2) := by
  have accounts := audited_accountable base
  have kept := run_induct base.audited s action w
    (P := fun state => FairWithin L state.2 → (Sound state ∧ Guarded n i state) ∧ P state)
    (fun _ => ⟨⟨watched.sound, watched.guarded⟩, here⟩) ?_ within
  · obtain ⟨⟨sound, guarded⟩, last⟩ := kept
    refine ⟨⟨sound, guarded, fun c member => ?_⟩, last⟩
    rcases run_running base.audited s action w c member with before | opened
    · exact watched.running c before
    · exact (guarded.inside opened).1
  · -- Loads are fair up to the end of the run, hence up to each move in it.
    intro before after move sofar within
    obtain ⟨events, conserves⟩ := move.conserves accounts
    have earlier := conserves.within within
    obtain ⟨⟨sound, guarded⟩, kept⟩ := sofar earlier
    have sound' : Sound after := move.sound accounts ⟨sound, earlier.fair⟩
    have guarded' :=
      (move.guarded heeds watched.running earlier.known earlier.fair sound guarded).1
    exact ⟨⟨sound', guarded'⟩, step move within sound guarded sound' guarded' kept⟩

theorem run_watched (heeds : action.Heeds (!·.enrols) n i L)
    (within : FairWithin L (s.run base.audited action w).2) (watched : Watched n i s w) :
    let after := s.run base.audited action w
    Watched n i after.1.2 after.2 ∧ (¬ action.Foreign n → Quiet w.time i after.2) := by
  refine watched.induct heeds within (P := fun state => ¬ action.Foreign n →
    Quiet w.time i state.2) (fun _ time _ callback heard => ?_) ?_
  · have past : w.journal.drop (max time w.time) = [] :=
      List.drop_eq_nil_of_le (Nat.le_max_right _ _)
    rw [past] at heard
    cases heard
  · intro before after move within sound guarded _ _ quiet own
    obtain ⟨events, conserves⟩ := move.conserves (audited_accountable base)
    have earlier := conserves.within within
    have discreet :=
      (move.guarded heeds watched.running earlier.known earlier.fair sound guarded).2 own
    exact (quiet own).after discreet
      (not_held_of_closed sound.balanced earlier.fair guarded.apart)

/-- What is closed is not called any more by a context of the cache, from the closing on or
from the beginning of the step, and no request finds it. -/
def AtRest (n : Nat) (i : InstanceId) : Condition (Journal (Ledger ε)) :=
  fun _ w action answer _ w' =>
    (¬ action.Foreign n → ∀ time ∈ closings i w'.ledger, ∀ callback,
      .received i callback ∉ w'.journal.drop (max time w.time)) ∧
    ∀ typeName key d, action = .get typeName key false → answer = .dataset d →
      closings i w'.ledger ≠ [] → d.id ≠ i

theorem create_watched {instantiator : InstantiatorId} {coordinator : CoordinatorId}
    {config : Config} {metrics : Option MetricsId} {contexts : List Context} {outside : ε}
    {cache : Cache}
    (created : create base.audited instantiator coordinator config metrics
      (.unwritten contexts outside) = (.ok cache, w)) :
    Watched contexts.length i { cache } w := by
  have accounts := audited_accountable base
  have creation := create_books accounts instantiator coordinator config metrics
    (.unwritten contexts outside)
  rw [created] at creation
  obtain ⟨first, books, plain, -, -, -, -, unaided, unopened, -, static⟩ := creation
  have same : w.contexts = contexts := books.contexts
  have start : w.ledger = first := books.ledger
  have apart : Apart i (cache, w) := ⟨by simp [unaided], fun time => start ▸ plain i time⟩
  refine ⟨create_sound accounts created,
    .vacated ?_ unopened (fun c own reached => ?_) static apart, by simp⟩
  · exact Nat.le_of_eq (congrArg List.length same.symm)
  · have none : w.contexts[c]? = none := by
      rw [same]
      exact List.getElem?_eq_none own
    rw [World.Reaches, World.context, none] at reached
    cases reached

theorem get_held {typeName : Option String} {key : Key} {d : Dataset}
    (found : (s.run base.audited (.get typeName key false) w).1.1 = .dataset d) :
    d ∈ (s.run base.audited (.get typeName key false) w).1.2.cache.datasets := by
  have offers := ((run_explains base.audited s typeName key false w).1 d found rfl).1
  rcases offers with static | ⟨-, stored⟩
  · exact List.mem_append_right _ (Table.mem_values_iff.2 ⟨key, static⟩)
  · exact mem_datasets_of_stored stored

/-- **No use after close.**  If loads give fresh instances that take part in transactions as
themselves, and callbacks call no contexts, and contexts of the cache are used to enrol
nobody, then an instance that has been closed is called by no context of the cache from then
on, and is not found by any request, unless it is added as an extra. -/
theorem no_use_after_close {instantiator : InstantiatorId} {coordinator : CoordinatorId}
    {config : Config} {metrics : Option MetricsId} {contexts : List Context} {outside : ε}
    {cache : Cache}
    (created : create base.audited instantiator coordinator config metrics
      (.unwritten contexts outside) = (.ok cache, w))
    {actions : List Action}
    (fair : FairSoFar (Session.runAll base.audited { cache } actions w).2)
    (heeds : ∀ action ∈ actions, action.Heeds (!·.enrols) contexts.length i
      (loads (Session.runAll base.audited { cache } actions w).2.ledger)) :
    Throughout base.audited (AtRest contexts.length i) { cache } w actions := by
  refine throughout_of_invariant (I := Watched contexts.length i) (FairWithin _)
    (fun _ _ _ => run_within) _ ?_ (create_watched created) heeds ⟨fair, fun _ => id⟩
  intro s action w heeds within watched
  obtain ⟨after, quiet⟩ := run_watched heeds within watched
  refine ⟨after, quiet, ?_⟩
  rintro typeName key d rfl found closed rfl
  exact not_held_of_closed after.sound.balanced within.fair after.guarded.apart closed
    (List.mem_map_of_mem (get_held found))

end Runs

theorem visit_heeds : ∀ action ∈ visit, action.Heeds Operation.drives 0 1
    (loads (Session.runAll Services.minting.audited { cache := minted } visit
      (.unwritten [] 0)).2.ledger) := by
  have known : loads (Session.runAll Services.minting.audited { cache := minted } visit
      (.unwritten [] 0)).2.ledger = [table 1 "users", table 2 "users"] := visit_loads
  rw [known]
  intro action member
  constructor
  · rintro operation rfl -
    simp [visit, arrival, departure] at member
    simp [member, Operation.drives]
  · rintro d rfl
    simp [visit, arrival, departure] at member
    simp [member, table]
  · rintro p rfl
    exact visit_extras 1 p member

theorem no_use_after_close_visit :
    let services := Services.minting.audited
    ∃ cache w, create services 0 0 {} none (.unwritten [] 0) = (.ok cache, w) ∧
      let datasets := loads (Session.runAll services { cache } visit w).2.ledger
      Fair datasets ∧ (∀ action ∈ visit, action.Heeds (!·.enrols) 0 1 datasets) ∧
      Throughout services (AtRest 0 1) { cache } w visit := by
  have heeds := fun action member => (visit_heeds action member).mono drives_not_enrols
  exact ⟨minted, _, create_minted, visit_fair, heeds,
    no_use_after_close create_minted visit_fair heeds⟩

end Cache

end DatasetCache
