import DatasetCache.Proofs.Cache.Opening
import DatasetCache.Proofs.Cache.Upshot

/-!
# A transaction of a cache in progress

A body begins in a new context, where a transaction has been started with the members of the
cache.  Until the cache ends that context, whoever comes joins in, nobody leaves, and the
journal gains nothing but the starts of those who join.
-/

namespace DatasetCache

open Act Context Relation

variable {ε : Type}

/-! ## Journals as transcripts -/

def Occurrence.noted? : Occurrence → Option Entry
  | started i tx => some (.received i (.start tx))
  | told i _ => some (.received i .changes)
  | persisted i _ => some (.received i .persist)
  | confirmed i => some (.received i .confirm)
  | rolledBack i _ => some (.received i .rollback)
  | coordinated (.began tx) => some (.began tx)
  | coordinated (.tried tx (.ok true)) => some (.committed tx)
  | coordinated (.aborted tx) => some (.undone tx)
  | coordinated (.invalidated tx) => some (.undone tx)
  | coordinated _ => none

def journalOf (occurrences : List Occurrence) : List Entry :=
  occurrences.filterMap Occurrence.noted?

@[simp] theorem journalOf_append (occurrences more : List Occurrence) :
    journalOf (occurrences ++ more) = journalOf occurrences ++ journalOf more :=
  List.filterMap_append

@[simp] theorem journalOf_each (call : InstanceId → Occurrence) {callback : Callback}
    (calls : ∀ i, (call i).noted? = some (.received i callback)) (ps : List Participant) :
    journalOf (each call ps) = DatasetCache.calls ps callback := by
  simp [journalOf, each, DatasetCache.calls, List.filterMap_map, calls]

theorem journalOf_round {α : Type} (call : InstanceId → α → Occurrence) {callback : Callback}
    (calls : ∀ i a, (call i a).noted? = some (.received i callback))
    (answers : List (Participant × α)) :
    journalOf (round call answers) = DatasetCache.calls (answers.map Prod.fst) callback := by
  simp [journalOf, round, DatasetCache.calls, List.filterMap_map, Function.comp_def, calls]

theorem journalOf_withdrawal (tx : Transaction) (rolls : List (Participant × Except Fault Bool)) :
    journalOf (withdrawal tx rolls) = calls (rolls.map Prod.fst) .rollback ++ [.undone tx] := by
  rw [withdrawal, journalOf_append, journalOf_round .rolledBack fun _ _ => rfl]
  cases (failures rolls).isEmpty <;> rfl

structure Tallies (change : List Context → List Context) (more : List Occurrence)
    (w w' : World (Journal (Ledger ε))) : Prop where
  contexts : w'.contexts = change w.contexts
  journal : w'.journal = w.journal ++ journalOf more
  calm : Calm w w'

section Tells

variable (base : Services (StateM ε))

theorem audited_tells : base.audited.Tells Tallies where
  none w := ⟨rfl, (List.append_nil _).symm, rfl⟩
  append first rest :=
    ⟨by rw [rest.contexts, first.contexts, Function.comp_apply],
      by rw [rest.journal, first.journal, journalOf_append, List.append_assoc],
      rest.calm.trans first.calm⟩
  update w c f := ⟨rfl, (List.append_nil _).symm, rfl⟩
  contexts told := told.contexts
  start p tx w := ⟨rfl, rfl, rfl⟩
  changes p w := ⟨rfl, rfl, rfl⟩
  persist p w := ⟨rfl, rfl, rfl⟩
  confirm p w := ⟨rfl, rfl, rfl⟩
  rollback p w := ⟨rfl, rfl, rfl⟩
  begin k w := by
    have adds : Adds (Entry.ofBegin (base.audited.begin k w).1) w (base.audited.begin k w).2 :=
      adds_begin .silent (base.map Ledger.within) 0 w k
    have same : journalOf (Occurrence.ofBegin (base.audited.begin k w).1) =
        Entry.ofBegin (base.audited.begin k w).1 := by
      cases (base.audited.begin k w).1 <;> rfl
    exact ⟨adds.contexts, by rw [same]; exact adds.entries,
      (journaled_calm .silent base 0).begin k w⟩
  canCommit k tx changes w := ⟨rfl, (List.append_nil _).symm, rfl⟩
  commit k tx w := by
    have adds : Adds (Entry.ofCommit tx (base.audited.commit k tx w).1) w
        (base.audited.commit k tx w).2 := adds_commit .silent (base.map Ledger.within) 0 w k tx
    have same : journalOf [.coordinated (.tried tx (base.audited.commit k tx w).1)] =
        Entry.ofCommit tx (base.audited.commit k tx w).1 := by
      match (base.audited.commit k tx w).1 with
      | .ok true => rfl
      | .ok false => rfl
      | .error fault => rfl
    exact ⟨adds.contexts, by rw [same]; exact adds.entries,
      (journaled_calm .silent base 0).commit k tx w⟩
  abort k tx w := ⟨rfl, rfl, rfl⟩
  invalidate k tx w := ⟨rfl, rfl, rfl⟩
  report d w := ⟨rfl, (List.append_nil _).symm, rfl⟩

end Tells

namespace Context

theorem start_idle {services : Services (Act ε)} {c : ContextId} {w : World ε}
    (idle : (w.context c).status = .idle) :
    start services c w = launch services c (w.context c).coordinator w := by
  unfold start
  rw [bind_apply, read, idle]
  rfl

end Context

namespace Cache

/-! ## The beginning of a body -/

/-- What the open context has to say when it is ended. -/
def parting (cache : Cache) (w : World (Journal (Ledger ε))) : List Entry :=
  match cache.context with
  | some c => farewell (w.context c)
  | none => []

/-- A transaction is in progress in the newest context, which is the one that the cache has
open. -/
structure Ongoing (c : ContextId) (tx : Transaction) (past : List Entry) (state : State ε) :
    Prop where
  opened : state.1.context = some c
  newest : state.2.contexts.length = c + 1
  current : (state.2.context c).current = some tx
  proper : (state.2.context c).Proper
  journal : state.2.journal =
    past ++ .began tx :: calls (state.2.context c).participants (.start tx)

section Begin

variable (base : Services (StateM ε)) {cache : Cache} (w : World (Journal (Ledger ε)))

theorem vacated_turns (cache : Cache) :
    let left := cache.vacated base.audited w
    left.2.contexts.length = w.contexts.length ∧ left.2.journal = w.journal ++ cache.parting w ∧
      left.1.context = none := by
  unfold vacated parting
  cases opened : cache.context with
  | none => exact ⟨rfl, (List.append_nil _).symm, opened⟩
  | some c =>
      obtain ⟨w', events, turns, -, books, -, unopened, -⟩ := endContext_turns base cache c w
      exact ⟨by rw [books.contexts, turns.length], books.journal.trans turns.entries, unopened⟩

theorem openContext_newest (living : cache.closed = false) :
    ∃ next w', cache.openContext base.audited w = ((.ok w.contexts.length, next), w') ∧
      next.context = some w.contexts.length ∧ w'.contexts.length = w.contexts.length + 1 ∧
      w'.journal = w.journal ++ cache.parting w ∧
      (w'.context w.contexts.length).status = .idle ∧
      (w'.context w.contexts.length).coordinator = next.coordinator ∧
      (w'.context w.contexts.length).deferred = [] ∧
      ((w'.context w.contexts.length).participants.map (·.id)).Nodup := by
  obtain ⟨length, journal, -⟩ := vacated_turns base w cache
  rw [openContext_vacated, living, if_neg (by simp), bind_apply]
  generalize cache.vacated base.audited w = vacant at length journal ⊢
  obtain ⟨cache', w'⟩ := vacant
  dsimp only at length journal ⊢
  obtain ⟨longer, same, -⟩ := openWith_opens base cache' w'
  have seeds := openWith_seeds base.audited cache' w'
  have logged := (audited_accountable base).report (cache'.openWith base.audited w').2
    ⟨.debug, .transactions, "Opened transaction context"⟩
  rw [← length]
  refine ⟨{ cache' with context := some w'.contexts.length }, _, rfl, rfl, ?_, ?_, ?_⟩
  · exact (congrArg List.length logged.contexts).trans longer
  · exact (logged.journal.trans same).trans journal
  · have seeded := (logged.adds.context w'.contexts.length).trans seeds
    have distinct : ((cache'.members.foldl Participant.addTo []).map (·.id)).Nodup :=
      Participant.nodup_foldl_addTo (by simp) _
    refine ⟨?_, ?_, ?_, ?_⟩
    · exact congrArg Context.status seeded
    · exact congrArg Context.coordinator seeded
    · exact congrArg Context.deferred seeded
    · exact (congrArg (fun context : Context => context.participants.map (·.id)) seeded) ▸ distinct

theorem enter_cases (living : cache.closed = false) :
    ∃ next w', cache.openContext base.audited w = ((.ok w.contexts.length, next), w') ∧
      ((∃ fault, ∃ left : State ε, (base.audited.begin next.coordinator w').1 = .error fault ∧
          cache.enter base.audited w = ((.error fault, left.1), left.2) ∧
          left.1.context = none) ∨
        ∃ tx w'', (base.audited.begin next.coordinator w').1 = .ok tx ∧
          cache.enter base.audited w = ((.ok w.contexts.length, next), w'') ∧
          Ongoing w.contexts.length tx (w.journal ++ cache.parting w) (next, w'') ∧
          (w''.context w.contexts.length).deferred = []) := by
  obtain ⟨next, w', opens, opened, newest, journal, idle, coordinator, unqueued, distinct⟩ :=
    openContext_newest base w living
  refine ⟨next, w', opens, ?_⟩
  have launches := (audited_tells base).launches w.contexts.length next.coordinator w'
  unfold enter
  rw [bind_apply, opens]
  dsimp only
  rw [bind_apply, start_idle idle, coordinator]
  generalize launch base.audited w.contexts.length next.coordinator w' = launched at launches ⊢
  obtain ⟨answer, w''⟩ := launched
  rcases launches with ⟨fault, rfl, refused, -⟩ | ⟨tx, rfl, begun, told⟩
  · have unopened := (dismissContext_rest base.audited next w'').2
    exact .inl ⟨fault, next.dismissContext base.audited w'', refused, rfl, unopened⟩
  · dsimp only at told
    have entered : w''.context w.contexts.length =
        Context.enter tx (w'.context w.contexts.length) := by
      simp [World.context, told.contexts, newest]
    refine .inr ⟨tx, w'', begun, rfl, ⟨opened, ?_, ?_, ?_, ?_⟩, ?_⟩
    · rw [told.contexts, List.length_modify, newest]
    · rw [entered]
      rfl
    · rw [entered]
      exact ⟨rfl, distinct⟩
    · have starts := journalOf_each (.started · tx) (fun _ => rfl)
        (w'.context w.contexts.length).participants
      rw [told.journal, journal, entered]
      exact congrArg (w.journal ++ cache.parting w ++ .began tx :: ·) starts
    · rw [entered]
      exact unqueued

end Begin

def outset : State Nat :=
  let entered := minted.enter Services.minting.audited (.unwritten [] 0)
  (entered.1.2, entered.2)

/-! ## While the body runs -/

namespace Ongoing

variable {base : Services (StateM ε)} {running : List ContextId} {action : Action}
  {before after : State ε} {c : ContextId} {tx : Transaction} {past : List Entry}

theorem inside (ongoing : Ongoing c tx past before) : c < before.2.contexts.length := by
  rw [ongoing.newest]
  exact Nat.lt_succ_self c

theorem adds (ongoing : Ongoing c tx past before) (adds : Adds [] before.2 after.2)
    (context : after.1.context = before.1.context) : Ongoing c tx past after := by
  have same := adds.context c
  have journal : after.2.journal = before.2.journal := adds.entries.trans (List.append_nil _)
  refine ⟨context.trans ongoing.opened, ?_, ?_, ?_, ?_⟩
  · rw [adds.contexts]
    exact ongoing.newest
  · rw [same]
    exact ongoing.current
  · rw [same]
    exact ongoing.proper
  · rw [same, journal]
    exact ongoing.journal

section Works

variable {f : Context → Context} {entries : List Entry}

theorem tends (ongoing : Ongoing c tx past before) (works : Works c f entries before after)
    (keeps : (f (before.2.context c)).current = (before.2.context c).current) :
    Ongoing c tx past after := by
  have active := ongoing.proper.consistent.active ongoing.current
  have turned := works.turns.context ongoing.inside
  have journal : after.2.journal = before.2.journal ++ entries := works.turns.entries
  refine ⟨works.context.trans ongoing.opened, works.turns.length.trans ongoing.newest, ?_, ?_, ?_⟩
  · rw [turned, keeps]
    exact ongoing.current
  · rw [turned]
    exact (works.way.tame ongoing.proper).proper ongoing.proper
  · rw [journal, turned, ongoing.journal]
    cases works.way with
    | idle | queued => exact List.append_nil _
    | begun other living unused | withdrawn p unused => rw [unused] at active; cases active
    | finished current | aborted reason current => rw [current] at keeps; cases keeps
    | closed => rw [ongoing.current] at keeps; cases keeps
    | joined p living absent => simp [greeting, ongoing.current, accept, calls]

theorem queued (ongoing : Ongoing c tx past before) (works : Works c f entries before after)
    (keeps : (f (before.2.context c)).current = (before.2.context c).current) {i : InstanceId}
    (waits : Participant.isIn i (before.2.context c).deferred = true) :
    Participant.isIn i (after.2.context c).deferred = true := by
  rw [works.turns.context ongoing.inside]
  cases works.way with
  | closed => rw [ongoing.current] at keeps; cases keeps
  | queued p => simp [queue, Participant.isIn_addTo, waits]
  | _ => exact waits

end Works

theorem upshot (ongoing : Ongoing c tx past before) (own : ∀ d ∈ running, c < d)
    (unused : ∀ operation, action ≠ .use operation)
    (upshot : Upshot base running action before after) :
    (Ongoing c tx past after ∧ ∀ i,
      Participant.isIn i (before.2.context c).deferred = true →
        Participant.isIn i (after.2.context c).deferred = true) ∨
      action.ends running = true ∧
        Turns c shut (farewell (before.2.context c)) before.2 after.2 ∧
        after.1.context = none := by
  cases upshot with
  | quiet adds context =>
      refine .inl ⟨ongoing.adds adds context, fun i waits => ?_⟩
      rw [adds.context]
      exact waits
  | tends opened works keeps =>
      obtain rfl := Option.some.inj (ongoing.opened.symm.trans opened)
      have consistent := ongoing.proper.consistent
      have keeps := keeps consistent (consistent.active ongoing.current)
      exact .inl ⟨ongoing.tends works keeps, fun i => ongoing.queued works keeps⟩
  | @settles d f entries inside works needs =>
      -- There is no such context yet, so there is nothing to settle.
      have outside : before.2.contexts.length ≤ d := by
        rw [ongoing.newest]
        exact own d inside
      obtain ⟨rfl, rfl⟩ := needs (by rw [World.context_outside outside]; rfl)
      have adds : Adds [] before.2 after.2 :=
        ⟨by rw [works.turns.contexts, List.modify_id], works.turns.entries⟩
      refine .inl ⟨ongoing.adds adds works.context, fun i waits => ?_⟩
      rw [adds.context]
      exact waits
  | uses used works => exact absurd used (unused _)
  | ends ends opened turns unopened =>
      obtain rfl := Option.some.inj (ongoing.opened.symm.trans opened)
      exact .inr ⟨ends, turns, unopened⟩
  | opens ends unopened opened =>
      rw [ongoing.opened] at unopened
      cases unopened

end Ongoing

end Cache

end DatasetCache
