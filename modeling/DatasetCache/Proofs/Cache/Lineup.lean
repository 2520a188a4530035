import DatasetCache.Proofs.Cache.Founding
import DatasetCache.Proofs.Cache.Opening
import DatasetCache.Proofs.Cache.Tracking

/-!
# Who is in a new context

The participants of a new context can be told from the calls so far.  Those of the static
datasets come first.  Then comes, in the order of the keys, every dataset of which the last
that has been heard is that a request has returned it: it has been neither dismissed nor
closed since, and nothing has been invalidated.  The extras that were added and not removed
come last.
-/

namespace DatasetCache

open Act Context

variable {ε : Type}

def Statics.seeds (statics : Statics) : List Participant :=
  statics.datasets.values.filterMap (·.participant)

namespace Cache

/-! ## What history says -/

/-- After the call an instance is not in use, unless it is requested again. -/
def Call.Retires (call : Call) (i : InstanceId) : Prop :=
  (∃ d, call.action = .dismiss d ∧ d.id = i) ∨ i ∈ call.closed ∨ call.action = .invalidate

/-- The last that history tells of a dataset is that a request for a key has returned it. -/
def InUse (history : List Call) (key : Key) (d : Dataset) : Prop :=
  ∃ before call after, history = before ++ call :: after ∧ call.Returns key d ∧
    ∀ later ∈ after, ¬ later.Retires d.id

theorem inUse_snoc {history : List Call} {call : Call} {key : Key} {d : Dataset} :
    InUse (history ++ [call]) key d ↔
      InUse history key d ∧ ¬ call.Retires d.id ∨ call.Returns key d := by
  constructor
  · rintro ⟨before, found, after, split, returns, spared⟩
    rcases List.eq_nil_or_concat after with rfl | ⟨after, last, rfl⟩
    · obtain ⟨-, same⟩ := List.append_inj' split rfl
      obtain rfl : call = found := by simpa using same
      exact .inr returns
    · rw [List.concat_eq_append, ← List.cons_append, ← List.append_assoc] at split
      obtain ⟨rfl, same⟩ := List.append_inj' split rfl
      obtain rfl : call = last := by simpa using same
      exact .inl ⟨⟨before, found, after, rfl, returns,
        fun later member => spared later (by simp [member])⟩, spared call (by simp)⟩
  · rintro (⟨⟨before, found, after, rfl, returns, spared⟩, last⟩ | returns)
    · refine ⟨before, found, after ++ [call], by simp, returns, fun later member => ?_⟩
      rcases List.mem_append.1 member with member | member
      · exact spared later member
      · rwa [List.mem_singleton.1 member]
    · exact ⟨history, call, [], rfl, returns, by simp⟩

/-- What an action does to the list of extras. -/
def Action.adjust (extras : List Participant) : Action → List Participant
  | .addExtra p => Participant.addTo extras p
  | .removeExtra p => Participant.removeFrom extras p.id
  | _ => extras

theorem nodup_adjust {extras : List Participant} (distinct : (extras.map (·.id)).Nodup)
    (action : Action) : ((action.adjust extras).map (·.id)).Nodup := by
  cases action with
  | addExtra p => exact Participant.nodup_addTo distinct p
  | removeExtra p => exact distinct.sublist (List.filter_sublist.map _)
  | _ => exact distinct

/-! ## The extras of a cache -/

section Extra

variable (services : Services (Act ε))

theorem addExtra_members (cache : Cache) (p : Participant) (w : World ε) :
    (cache.addExtra services p w).1.extras.members =
      Participant.addTo cache.extras.members p := by
  unfold addExtra
  split
  next held => exact (if_pos held).symm
  next => cases cache.context <;> rfl

theorem removeExtra_members (cache : Cache) (p : Participant) (w : World ε) :
    (cache.removeExtra p w).1.2.extras.members =
      Participant.removeFrom cache.extras.members p.id := by
  unfold removeExtra
  split
  · cases cache.context with
    | none => rfl
    | some c =>
        simp only [bind_apply]
        cases (withdraw c p w).1 <;> rfl
  next absent =>
      refine (List.filter_eq_self.2 fun q member => ?_).symm
      rw [Bool.not_eq_true, Extras.holds, Participant.isIn, List.any_eq_false] at absent
      simpa using absent q member

variable {services} in
theorem Move.extras {running : List ContextId} {action : Action} {before after : Cache × World ε}
    (move : Move services running action before after) :
    after.1.extras = before.1.extras ∨ (∃ p, action = .addExtra p) ∨
      ∃ p, action = .removeExtra p := by
  cases move with
  | @endContext cache w c ends opened =>
      let unopened : Cache := { cache with context := none }
      exact .inl (releaseDeferred_induct services
        (P := fun next _ => next.extras = cache.extras) (fun _ _ _ => id) (fun _ _ _ => id) _
        unopened _ rfl)
  | addExtra asked => exact .inr (.inl ⟨_, asked⟩)
  | removeExtra asked => exact .inr (.inr ⟨_, asked⟩)
  | @reset cache w ends =>
      left
      dsimp only
      unfold Cache.reset
      cases cache.context <;> rfl
  | _ => exact .inl rfl

theorem run_extras (s : Session) (action : Action) (w : World ε) :
    (s.run services action w).1.2.cache.extras.members =
      action.adjust s.cache.extras.members := by
  have others : (∀ p, action ≠ .addExtra p) → (∀ p, action ≠ .removeExtra p) →
      (s.run services action w).1.2.cache.extras = s.cache.extras := by
    intro added removed
    refine run_induct services s action w (P := fun state => state.1.extras = s.cache.extras) rfl
      fun move same => ?_
    rcases move.extras with still | ⟨p, adds⟩ | ⟨p, removes⟩
    · exact still.trans same
    · exact absurd adds (added p)
    · exact absurd removes (removed p)
  cases action with
  | addExtra p => exact addExtra_members services s.cache p w
  | removeExtra p => exact removeExtra_members s.cache p w
  | _ => exact congrArg Extras.members (others nofun nofun)

end Extra

/-! ## Datasets in use -/

structure Used (key : Key) (d : Dataset) (p : Participant) (cache : Cache) : Prop where
  stored : cache.store.peek? key = some d
  tracked : cache.tracker.get? key = some p

theorem Used.own {state : State ε} {key : Key} {d : Dataset} {p : Participant}
    (used : Used key d p state.1) (settled : Settled state) : p.id = d.id := by
  obtain ⟨e, stored, -, own⟩ := settled.held used.tracked
  obtain rfl : d = e := Option.some.inj (used.stored.symm.trans stored)
  exact own

section Steps

variable {services : Services (Act (Journal (Ledger (Register ε))))}
  (accounts : services.Accountable) {s : Session} {w : World (Journal (Ledger (Register ε)))}
  {action : Action} {key : Key} {d : Dataset} {p : Participant}

structure Orderly (state : State (Register ε)) : Prop where
  sound : Sound state
  living : state.1.closed = false
  plain : ∀ i time, .closedExtra i time ∉ state.2.ledger

theorem Orderly.unclosed {state : State (Register ε)} (orderly : Orderly state)
    (fair : Fair (loads state.2.ledger)) (stored : state.1.store.peek? key = some d) :
    d.id ∉ closedIn state.2.ledger := fun closed =>
  orderly.sound.balanced.not_held fair.fresh (releases_of_mem_closedIn orderly.plain closed)
    (List.mem_map_of_mem (mem_datasets_of_stored stored))

theorem Orderly.settled {state : State (Register ε)} (orderly : Orderly state)
    (fair : Fair (loads state.2.ledger)) : Settled state :=
  ⟨orderly.sound, fair⟩

include accounts

theorem run_orderly (orderly : Orderly (s.cache, w)) (living : action ≠ .close)
    (fair : FairSoFar (s.run services action w).2) :
    Orderly ((s.run services action w).1.2.cache, (s.run services action w).2) := by
  obtain ⟨events, conserves, restocks⟩ := run_restocks accounts s action w
  refine ⟨run_sound accounts orderly.sound fair, (restocks.living living).trans orderly.living,
    fun i time member => ?_⟩
  rw [conserves.ledger, List.mem_append] at member
  rcases member with old | new
  · exact orderly.plain i time old
  · exact living (conserves.apart i time new).1

theorem used_before (orderly : Orderly (s.cache, w)) (living : action ≠ .close)
    (fair : FairSoFar (s.run services action w).2)
    (used : Used key d p (s.run services action w).1.2.cache) :
    let after := s.run services action w
    let call := Call.of action after.1.1 w after.2
    Used key d p s.cache ∧ ¬ call.Retires d.id ∨ call.Returns key d := by
  intro after call
  have settled := orderly.settled (run_fair accounts fair)
  have orderly' := run_orderly accounts orderly living fair
  obtain ⟨events, -, restocks⟩ := run_restocks accounts s action w
  have unclosed : d.id ∉ closedIn events := fun closed => by
    refine orderly'.unclosed fair used.stored ?_
    rw [restocks.ledger, closedIn_append]
    exact List.mem_append_right _ closed
  have own := used.own (orderly'.settled fair)
  rcases run_came services used.tracked with tracked | ⟨⟨typeName, rfl⟩, -, e, answer, able⟩
  · left
    obtain ⟨e, stored, -, known⟩ := settled.held tracked
    have alike : e.id = d.id := known.symm.trans own
    have still := (restocks.kept stored).resolve_right (alike ▸ unclosed)
    obtain rfl : d = e := Option.some.inj (used.stored.symm.trans still)
    refine ⟨⟨stored, tracked⟩, ?_⟩
    rintro (⟨x, rfl, same⟩ | closed | rfl)
    · -- A dismissal untracks what is not static, and so what is stored.
      have untracked := dismiss_tracker services s.cache x w
      rw [same, settled.dynamic stored, if_neg (by simp)] at untracked
      refine not_tracked_iff.1 (settled.untracks d.id) key ⟨p, ?_, own⟩
      rw [untracking, ← untracked]
      exact used.tracked
    · have closed : d.id ∈ closedIn (after.2.ledger.drop w.ledger.length) := closed
      rw [restocks.ledger, List.drop_left] at closed
      exact unclosed closed
    · have tracked := used.tracked
      rw [show (s.run services .invalidate w).1.2.cache.tracker = {} from
        invalidate_tracker services s.cache w] at tracked
      cases tracked
  · right
    obtain ⟨offers, -⟩ := (run_explains services s typeName key false w).1 e answer rfl
    rcases offers with static | ⟨-, stored⟩
    · rw [orderly'.sound.synced.dynamic used.stored] at static
      cases static
    · obtain rfl : d = e := Option.some.inj (used.stored.symm.trans stored)
      exact ⟨⟨typeName, rfl⟩, answer⟩

theorem used_after (orderly : Orderly (s.cache, w))
    (fair : FairSoFar (s.run services action w).2) (used : Used key d p s.cache) :
    let after := s.run services action w
    ¬ (Call.of action after.1.1 w after.2).Retires d.id → Used key d p after.1.2.cache := by
  intro after spared
  have fair' : FairSoFar w := run_fair accounts fair
  obtain ⟨events, -, restocks⟩ := run_restocks accounts s action w
  have unclosed : d.id ∉ closedIn events := fun closed => by
    refine spared (.inr (.inl ?_))
    change d.id ∈ closedIn (after.2.ledger.drop w.ledger.length)
    rw [restocks.ledger, List.drop_left]
    exact closed
  have own := used.own (orderly.settled fair')
  refine ⟨(restocks.kept used.stored).resolve_right unclosed, ?_⟩
  rcases run_retains accounts orderly.sound fair used.tracked with tracked | closed | ⟨x, asked, same⟩
  · exact tracked
  · rw [restocks.ledger, closedIn_append, List.mem_append, own] at closed
    exact (closed.elim (orderly.unclosed fair' used.stored) unclosed).elim
  · exact absurd (.inl ⟨x, asked, same.trans own⟩) spared

theorem returned_used (orderly : Orderly (s.cache, w)) (living : action ≠ .close)
    (fair : FairSoFar (s.run services action w).2) (capable : d.participant = some p)
    (dynamic : s.cache.statics.get? key = none) :
    let after := s.run services action w
    (Call.of action after.1.1 w after.2).Returns key d → Used key d p after.1.2.cache := by
  rintro after ⟨⟨typeName, asked⟩, answer⟩
  obtain rfl : action = .get typeName key false := asked
  have orderly' := run_orderly accounts orderly living fair
  obtain ⟨events, -, restocks⟩ := run_restocks accounts s (.get typeName key false) w
  have dynamic' : after.1.2.cache.statics.get? key = none :=
    (congrArg (·.get? key) (restocks.statics nofun)).trans dynamic
  obtain ⟨offers, follows⟩ := (run_explains services s typeName key false w).1 d answer rfl
  have stored := (offers.resolve_left (by rw [dynamic']; exact nofun)).2
  obtain ⟨q, tracked, -⟩ := follows p capable dynamic'
  obtain ⟨e, present, able⟩ := orderly'.sound.synced.tracked tracked
  obtain rfl : d = e := Option.some.inj (stored.symm.trans present)
  obtain rfl : p = q := Option.some.inj (capable.symm.trans able)
  exact ⟨stored, tracked⟩

end Steps

/-! ## Whole runs -/

/-- A cache agrees with what history says of its datasets in use and of its extras. -/
structure Agrees (statics : Statics) (history : List Call) (extras : List Participant)
    (state : State (Register ε)) : Prop where
  orderly : Orderly state
  distinct : (extras.map (·.id)).Nodup
  used : ∀ {key d p}, d.participant = some p → statics.get? key = none →
    (Used key d p state.1 ↔ InUse history key d)
  statics : state.1.statics = statics
  extras : state.1.extras.members = extras

section Runs

variable {services : Services (Act (Journal (Ledger (Register ε))))}
  (accounts : services.Accountable) {statics : Statics} {history : List Call}
  {extras : List Participant} {s : Session} {w : World (Journal (Ledger (Register ε)))}

include accounts

theorem run_agrees {action : Action} (agrees : Agrees statics history extras (s.cache, w))
    (living : action ≠ .close) (fair : FairSoFar (s.run services action w).2) :
    let after := s.run services action w
    Agrees statics (history ++ [.of action after.1.1 w after.2]) (action.adjust extras)
      (after.1.2.cache, after.2) := by
  obtain ⟨events, -, restocks⟩ := run_restocks accounts s action w
  have known : s.cache.statics = statics := agrees.statics
  refine ⟨run_orderly accounts agrees.orderly living fair, nodup_adjust agrees.distinct action,
    fun {key d p} capable dynamic => ?_, (restocks.statics living).trans known, ?_⟩
  · rw [inUse_snoc, ← agrees.used capable dynamic]
    constructor
    · exact used_before accounts agrees.orderly living fair
    · rintro (⟨used, spared⟩ | returns)
      · exact used_after accounts agrees.orderly fair used spared
      · exact returned_used accounts agrees.orderly living fair capable
          (known ▸ dynamic) returns
  · rw [← agrees.extras]
    exact run_extras services s action w

theorem runAll_agrees {actions : List Action}
    (agrees : Agrees statics history extras (s.cache, w)) (living : .close ∉ actions)
    (fair : FairSoFar (s.runAll services actions w).2) :
    let ended := s.runAll services actions w
    Agrees statics (history ++ s.calls services w actions)
      (actions.foldl Action.adjust extras) (ended.1.cache, ended.2) := by
  induction actions generalizing s w history extras with
  | nil => simpa [Session.calls, Session.runAll] using agrees
  | cons action rest ih =>
      have now : action ≠ .close := fun same => living (same ▸ List.mem_cons_self)
      have here : FairSoFar (s.run services action w).2 :=
        runAll_backward FairSoFar (fun _ _ _ => run_fair accounts) fair
      have later := ih (run_agrees accounts agrees now here)
        (fun member => living (List.mem_cons_of_mem action member)) fair
      rwa [List.append_assoc] at later

theorem create_agrees {instantiator : InstantiatorId} {coordinator : CoordinatorId}
    {config : Config} {metrics : Option MetricsId} {contexts : List Context}
    {outside : Register ε} {cache : Cache}
    (created : create services instantiator coordinator config metrics
      (.unwritten contexts outside) = (.ok cache, w)) : Agrees cache.statics [] [] (cache, w) := by
  have sound := create_sound accounts created
  have creation := create_books accounts instantiator coordinator config metrics
    (.unwritten contexts outside)
  rw [created] at creation
  obtain ⟨first, books, plain, -, -, unstored, -, unaided, -, living, -⟩ := creation
  have start : w.ledger = first := books.ledger
  refine ⟨⟨sound, living, start ▸ plain⟩, by simp, fun _ _ => ?_, rfl, by rw [unaided]⟩
  refine iff_of_false (fun used => ?_) ?_
  · have stored := used.stored
    rw [Store.peek?, unstored] at stored
    cases stored
  · rintro ⟨before, call, after, split, -⟩
    simp at split

end Runs

/-! ## The order of the participants -/

/-- Who is in a new context and in which order: the static participants, those of the
datasets in use, and the extras that are not among these. -/
structure Lineup (config : Config) (statics : Statics) (history : List Call)
    (extras : List Participant) (active : List (Key × Participant))
    (participants : List Participant) : Prop where
  declared : statics.datasets.keys = config.staticKeys
  ascending : active.Pairwise fun entry other => compare entry.1 other.1 = .lt
  inUse : ∀ {key p}, (key, p) ∈ active ↔
    key ∉ config.staticKeys ∧ ∃ d, d.participant = some p ∧ InUse history key d
  listed : let first := statics.seeds ++ active.map (·.2)
    participants = first ++ extras.filter fun p => !Participant.isIn p.id first
  distinct : (participants.map (·.id)).Nodup

theorem seeds_distinct {datasets : List Dataset} (distinct : (ids datasets).Nodup)
    (own : ∀ d ∈ datasets, ∀ p, d.participant = some p → p.id = d.id) :
    ((datasets.filterMap (·.participant)).map (·.id)).Nodup := by
  refine List.pairwise_map.2 (List.pairwise_filterMap.2 ?_)
  refine (List.pairwise_map.1 distinct).imp_of_mem ?_
  intro d e known known' other p capable q capable'
  rw [own d known p capable, own e known' q capable']
  exact other

theorem Settled.tracker_distinct {state : State ε} (settled : Settled state) :
    (state.1.tracker.participants.map (·.id)).Nodup := by
  rw [Tracker.participants, Table.values, List.map_map]
  refine state.1.tracker.active.nodup_entries.map_on ?_
  rintro ⟨key, p⟩ member ⟨other, q⟩ member' same
  have tracked : state.1.tracker.get? key = some p := Table.get?_of_mem member
  have tracked' : state.1.tracker.get? other = some q := Table.get?_of_mem member'
  obtain rfl : key = other := settled.once ⟨p, tracked, same⟩ ⟨q, tracked', rfl⟩
  obtain rfl : p = q := Option.some.inj (tracked.symm.trans tracked')
  rfl

theorem Settled.first_distinct {state : State ε} (settled : Settled state) :
    ((state.1.statics.seeds ++ state.1.tracker.participants).map (·.id)).Nodup := by
  have distinct := settled.sound.balanced.distinct settled.fair.fresh
  rw [datasets, ids_append] at distinct
  have own : ∀ d ∈ state.1.statics.datasets.values, ∀ p, d.participant = some p → p.id = d.id :=
    fun d member p => settled.sound.balanced.own settled.fair (List.mem_append_right _ member)
  rw [List.map_append, List.nodup_append]
  refine ⟨seeds_distinct (List.nodup_append.1 distinct).2.1 own, settled.tracker_distinct, ?_⟩
  intro i static j tracked same
  obtain ⟨p, member, rfl⟩ := List.mem_map.1 static
  obtain ⟨q, member', rfl⟩ := List.mem_map.1 tracked
  obtain ⟨d, known, capable⟩ := List.mem_filterMap.1 member
  obtain ⟨key, found⟩ := Table.mem_values_iff.1 member'
  obtain ⟨e, stored, -, own'⟩ := settled.held found
  have dynamic := settled.dynamic stored
  rw [Statics.holds, List.any_eq_false] at dynamic
  have alike : d.id = e.id := (own d known p capable).symm.trans (same.trans own')
  exact dynamic d known (by simpa using alike)

theorem Founded.seeds {config : Config} {cache : Cache} {w : World (Journal (Ledger ε))}
    (founded : Founded config cache w) :
    cache.statics.datasets.keys = config.staticKeys ∧
      cache.statics.participants = cache.statics.seeds := by
  have values : cache.statics.datasets.values = loads w.ledger := by
    rw [Table.values, founded.entries]
    exact List.map_snd_zip (Nat.le_of_eq founded.length)
  refine ⟨?_, by rw [founded.participants, Statics.seeds, values]⟩
  rw [Table.keys, founded.entries]
  exact List.map_fst_zip (Nat.le_of_eq founded.length.symm)

theorem Agrees.lineup {config : Config} {statics : Statics} {history : List Call}
    {extras : List Participant} {state : State (Register ε)}
    (agrees : Agrees statics history extras state) (fair : Fair (loads state.2.ledger))
    (declared : statics.datasets.keys = config.staticKeys)
    (seeds : statics.participants = statics.seeds) :
    Lineup config statics history extras state.1.tracker.active.entries
      (state.1.members.foldl Participant.addTo []) := by
  have dynamic : ∀ {key}, statics.get? key = none ↔ key ∉ config.staticKeys := by
    intro key
    rw [← declared, Table.keys, List.mem_map, Option.eq_none_iff_forall_ne_some]
    constructor
    · rintro absent ⟨⟨other, d⟩, member, rfl⟩
      exact absent d (Table.get?_of_mem member)
    · intro absent d found
      exact absent ⟨(key, d), Table.mem_of_get? found, rfl⟩
  have distinct := (agrees.orderly.settled fair).first_distinct
  rw [agrees.statics] at distinct
  constructor
  case declared => exact declared
  case ascending => exact state.1.tracker.active.ascending
  case inUse =>
    intro key p
    rw [← Table.get?_eq_some_iff]
    constructor
    · intro tracked
      obtain ⟨d, stored, capable⟩ := agrees.orderly.sound.synced.tracked tracked
      have free := agrees.orderly.sound.synced.dynamic stored
      rw [agrees.statics] at free
      exact ⟨dynamic.1 free, d, capable, (agrees.used capable free).1 ⟨stored, tracked⟩⟩
    · rintro ⟨free, d, capable, used⟩
      exact ((agrees.used capable (dynamic.2 free)).2 used).tracked
  case listed =>
    let first := statics.seeds ++ state.1.tracker.participants
    have all : (first.filter fun p => !Participant.isIn p.id []) = first :=
      List.filter_eq_self.2 fun _ _ => rfl
    change _ = first ++ extras.filter fun p => !Participant.isIn p.id first
    rw [members, agrees.statics, agrees.extras, seeds, List.foldl_append,
      Participant.foldl_addTo_eq distinct, Participant.foldl_addTo_eq agrees.distinct,
      List.nil_append, all]
  case distinct => exact Participant.nodup_foldl_addTo (by simp) _

/-! ## Opening a context -/

/-- What the replaced context hands back for release is let go of before the new one is
filled: only as a static participant or as an extra can it be there. -/
structure Replaces (statics : Statics) (extras : List Participant) (call : Call)
    (before after : Cache) (context : Context) (p : Participant) : Prop where
  unstored : after.store.holds p.id = false
  untracked : after.tracker.holds p.id = false
  closed : before.store.holds p.id = true → p.id ∈ call.closed
  absent : context.has p = true →
    Participant.isIn p.id statics.seeds = true ∨ Participant.isIn p.id extras = true

theorem run_openContext {services : Services (Act ε)} {s : Session} {w w' : World ε}
    {c : ContextId} {next : Cache} (opened : s.cache.openContext services w = ((.ok c, next), w')) :
    s.run services .openContext w = ((.opened c, { s with cache := next }), w') := by
  simp only [Session.run, bind_apply, opened]
  rfl

theorem Agrees.replaces {services : Services (Act (Journal (Ledger (Register ε))))}
    (accounts : services.Accountable) {statics : Statics} {history : List Call}
    {extras : List Participant} {s : Session} {w w' : World (Journal (Ledger (Register ε)))}
    (agrees : Agrees statics history extras (s.cache, w)) (fair : FairSoFar w')
    (seeds : statics.participants = statics.seeds) {c : ContextId} {next : Cache}
    (opened : s.cache.openContext services w = ((.ok c, next), w')) {b : ContextId}
    (before : s.cache.context = some b) {p : Participant}
    (member : p ∈ (Context.close services b w).1) :
    Replaces statics extras (.of .openContext (.opened c) w w') s.cache next (w'.context c) p := by
  have opens := openContext_opens accounts opened
  have run := run_openContext opened
  obtain ⟨events, -, restocks⟩ := run_restocks accounts s .openContext w
  rw [run] at restocks
  have settled : Settled (s.cache, w) := by
    have past : FairSoFar (s.run services .openContext w).2 := by
      rw [run]
      exact fair
    exact agrees.orderly.settled (run_fair accounts past)
  have vacated : s.cache.vacated services w = s.cache.endContext services b w := by
    rw [Cache.vacated, before]
  have gone : Gone p.id next := by
    rw [opens.next, vacated]
    have gone := endContext_gone accounts settled member
    exact ⟨gone.unstored, gone.untracked⟩
  have unstored := Store.holds_eq_false_iff.2 fun _ _ => gone.unstored
  have untracked := Tracker.holds_eq_false_iff.2 fun _ _ => gone.untracked
  refine ⟨unstored, untracked, fun held => ?_, fun present => ?_⟩
  · obtain ⟨d, stored, same⟩ := List.any_eq_true.1 held
    have same : d.id = p.id := by simpa using same
    obtain ⟨key, found⟩ := Table.mem_values_iff.1 stored
    change p.id ∈ closedIn (w'.ledger.drop w.ledger.length)
    rw [show w'.ledger = w.ledger ++ events from restocks.ledger, List.drop_left, ← same]
    rcases restocks.kept found with still | closed
    · exact absurd same (gone.unstored still)
    · exact closed
  · obtain ⟨extras', rest⟩ : next.extras.members = extras ∧ next.statics = statics := by
      have after := run_extras services s .openContext w
      rw [run] at after
      exact ⟨after.trans agrees.extras, (restocks.statics (by simp)).trans agrees.statics⟩
    rw [has, opens.participants, Participant.isIn_foldl_addTo, Cache.members, extras', rest, seeds] at present
    have untracked' : Participant.isIn p.id next.tracker.participants = false := untracked
    have nobody : Participant.isIn p.id [] = false := rfl
    rwa [nobody, Participant.isIn_append, Participant.isIn_append, untracked', Bool.false_or,
      Bool.or_false, Bool.or_eq_true] at present

/-- **A new context has whom history says.**  Whatever is done with a new cache before it
closes and with contexts, and whatever services and callbacks answer, if loads give fresh
instances that take part in transactions as themselves, then every context that is opened is
lined up as history tells, and the cache reports the same instances.  What the context before
it hands back for release has been let go of by then. -/
theorem new_context_lineup {callbacks : Callbacks ε} {base : Services (StateM ε)} {depth : Nat}
    {instantiator : InstantiatorId} {coordinator : CoordinatorId} {config : Config}
    {metrics : Option MetricsId} {contexts : List Context} {outside : Register ε} {cache : Cache}
    {w : World (Journal (Ledger (Register ε)))}
    (created : create (callbacks.surveyed base depth) instantiator coordinator config metrics
      (.unwritten contexts outside) = (.ok cache, w))
    {actions : List Action} {s : Session} {before : World (Journal (Ledger (Register ε)))}
    (ended : Session.runAll (callbacks.surveyed base depth) { cache } actions w = (s, before))
    {c : ContextId} {next : Cache} {after : World (Journal (Ledger (Register ε)))}
    (opened : s.cache.openContext (callbacks.surveyed base depth) before = ((.ok c, next), after))
    (fair : Fair (loads after.ledger)) :
    let services := callbacks.surveyed base depth
    let opening := Call.of .openContext (.opened c) before after
    let history := Session.calls services { cache } w actions ++ [opening]
    let extras := actions.foldl Action.adjust []
    (∃ active, Lineup config cache.statics history extras active (after.context c).participants) ∧
      (next.participants.map (·.id)).Perm ((after.context c).participants.map (·.id)) ∧
      ∀ b, s.cache.context = some b → ∀ p ∈ (Context.close services b before).1,
        Replaces cache.statics extras opening s.cache next (after.context c) p := by
  intro services opening history extras
  have accounts : services.Accountable := callbacks.surveyed_accountable base depth
  have opens := openContext_opens accounts opened
  obtain ⟨declared, seeds⟩ := (create_founded accounts created).seeds
  have start := create_agrees accounts created
  have living : .close ∉ actions := by
    intro closes
    have empty : cache.closed = true → cache.Sealed := fun closed =>
      absurd closed (Bool.eq_false_iff.1 start.orderly.living)
    have closed := (runAll_sealed services (s := { cache }) actions w empty).2 (.inr closes)
    rw [ended] at closed
    exact absurd closed (Bool.eq_false_iff.1 opens.living)
  have run := run_openContext opened
  have fair' : FairSoFar (s.run services .openContext before).2 := by
    rw [run]
    exact fair
  have past : FairSoFar (Session.runAll services { cache } actions w).2 := by
    rw [ended]
    exact run_fair accounts fair'
  have sofar := runAll_agrees accounts start living past
  rw [ended] at sofar
  have agrees := run_agrees accounts sofar (show Action.openContext ≠ .close by simp) fair'
  rw [run] at agrees
  refine ⟨⟨next.tracker.active.entries, ?_⟩, opens.participants_perm,
    fun b replaced p member => ?_⟩
  · rw [opens.participants]
    exact agrees.lineup fair declared seeds
  · exact sofar.replaces accounts fair seeds opened replaced member

/-! ## A dataset that is an extra as well -/

def doubled : List Action :=
  [.openContext, .get none (Key.named "users") false, .get none (Key.named "orders") false,
    .addExtra { id := 1, name := "users" }, .dismiss (table 1 "users")]

theorem create_surveyed : create (Callbacks.silent.surveyed Services.minting 0) 0 0 {} none
    (.unwritten [] { inner := 0 }) = (.ok minted, .unwritten [] { inner := 0 }) := rfl

theorem doubled_opens :
    let services := Callbacks.silent.surveyed Services.minting 0
    let ended := Session.runAll services { cache := minted } doubled (.unwritten [] { inner := 0 })
    let opened := ended.1.cache.openContext services ended.2
    opened.1.1 = .ok 1 ∧ loads opened.2.ledger = [table 1 "users", table 2 "orders"] := by
  decide +kernel

theorem new_context_lineup_doubled :
    let services := Callbacks.silent.surveyed Services.minting 0
    let start := World.unwritten [] { inner := 0 }
    ∃ s before next after, Session.runAll services { cache := minted } doubled start = (s, before) ∧
      s.cache.openContext services before = ((.ok 1, next), after) ∧ Fair (loads after.ledger) ∧
      ∃ active, Lineup {} minted.statics (Session.calls services { cache := minted } start doubled ++
        [.of .openContext (.opened 1) before after]) (doubled.foldl Action.adjust []) active
          (after.context 1).participants := by
  have told := doubled_opens
  dsimp only at told
  -- The end of the run gets a name before it is computed with.
  obtain ⟨⟨s, before⟩, ended⟩ : ∃ past, Session.runAll (Callbacks.silent.surveyed Services.minting 0)
    { cache := minted } doubled (.unwritten [] { inner := 0 }) = past := ⟨_, rfl⟩
  rw [ended] at told
  dsimp only at told
  obtain ⟨⟨⟨answer, next⟩, after⟩, opened⟩ : ∃ result,
    s.cache.openContext (Callbacks.silent.surveyed Services.minting 0) before = result := ⟨_, rfl⟩
  rw [opened] at told
  obtain ⟨rfl, loaded⟩ := told
  have fair : Fair (loads after.ledger) := by
    rw [loaded]
    exact ⟨by decide, by simp [table]⟩
  have lineup := (new_context_lineup create_surveyed ended opened fair).1
  exact ⟨s, before, next, after, ended, opened, fair, lineup⟩

/-- The context hands the dismissed dataset back and it is closed, but the next context has
it as an extra. -/
theorem released_extra_seeded :
    let services := Callbacks.silent.surveyed Services.minting 0
    let ended := Session.runAll services { cache := minted } doubled (.unwritten [] { inner := 0 })
    let opened := ended.1.cache.openContext services ended.2
    ended.1.cache.context = some 0 ∧ opened.1.1 = .ok 1 ∧
      ∃ p ∈ (Context.close services 0 ended.2).1, p.id ∈ closedIn opened.2.ledger ∧
        (opened.2.context 1).has p = true :=
  ⟨by decide +kernel, by decide +kernel, { id := 1, name := "users" }, by decide +kernel,
    by decide +kernel, by decide +kernel⟩

end Cache

end DatasetCache
