import Mathlib.Data.List.Nodup
import DatasetCache.Proofs.Shared.Flight

/-!
# Conflicts between contexts

Any number of contexts share one coordinator and are asked for operations in any order.
A transaction that reports, at its finish, a change that somebody has committed since it
began loses before anybody has persisted anything, and no other transaction is told of a
conflict.
-/

namespace DatasetCache

open Act Context Coordinator

variable {ε : Type} (base : Services (StateM ε))

/-! ## Turns -/

/-- An operation on a context, and what can be seen of it. -/
structure Turn where
  operation : Operation
  before : Context
  outcome : Outcome
  occurrences : List Occurrence
  after : Context

namespace Turn

def play (operation : Operation) (w : World (Shared ε)) : Turn × World (Shared ε) :=
  let (outcome, next) := operation.run base.sharing w
  ({ operation
     before := w.context operation.target
     outcome
     occurrences := next.outside.transcript.drop w.outside.transcript.length
     after := next.context operation.target },
    next)

def playAll : List Operation → World (Shared ε) → List Turn × World (Shared ε)
  | [], w => ([], w)
  | operation :: rest, w =>
    let (turn, next) := play base operation w
    let (turns, last) := playAll rest next
    (turn :: turns, last)

theorem playAll_append (operations more : List Operation) (w : World (Shared ε)) :
    playAll base (operations ++ more) w =
      ((playAll base operations w).1 ++ (playAll base more (playAll base operations w).2).1,
        (playAll base more (playAll base operations w).2).2) := by
  induction operations generalizing w with
  | nil => rfl
  | cons operation rest ih => simp [playAll, ih]

theorem playAll_append_singleton (operations : List Operation) (operation : Operation)
    (w : World (Shared ε)) : (playAll base (operations ++ [operation]) w).1 =
      (playAll base operations w).1 ++
        [(play base operation (playAll base operations w).2).1] := by
  rw [playAll_append]
  rfl

end Turn

/-! ## Beaten transactions -/

/-- Since the transaction of a context began, somebody has committed one of these changes. -/
def Beaten (past : List Turn) (c : ContextId) (tx : Transaction) (changes : List Change) : Prop :=
  ∃ first begun between won late, past = first ++ begun :: (between ++ won :: late) ∧
    begun.operation = .start c ∧ begun.outcome = .started tx ∧
    (∃ other, won.operation = .finish other) ∧ won.outcome = .done ∧
    overlap (collected won.occurrences) changes = true

structure Loses (turn : Turn) (tx : Transaction) : Prop where
  unpersisted : ∀ i, (i, .persist) ∉ heard turn.occurrences
  unconfirmed : ∀ i, (i, .confirm) ∉ heard turn.occurrences
  rolledBack : ∀ p ∈ turn.before.participants,
    (heard turn.occurrences).count (p.id, .rollback) = 1
  aborted : turn.after.status = .aborted "conflict detected"
  conflict : undone turn.occurrences = true → turn.outcome = .failed (.conflict tx.id)
  failure : undone turn.occurrences = false →
    ∃ reason, turn.outcome = .failed (.transactionFailure tx.id reason)

/-! ## The history of a run -/

def told (past : List Turn) : History := past.flatMap fun turn => events turn.occurrences

@[simp] theorem told_append (past more : List Turn) : told (past ++ more) = told past ++ told more :=
  List.flatMap_append

@[simp] theorem told_cons (turn : Turn) (past : List Turn) :
    told (turn :: past) = events turn.occurrences ++ told past := rfl

@[simp] theorem told_nil : told [] = [] := rfl

def Turn.Sound (turn : Turn) : Prop :=
  ∃ coordinator f, Dealing turn.before coordinator turn.occurrences turn.operation turn.outcome f

namespace Turn.Sound

variable {turn : Turn}

theorem begins (sound : turn.Sound) {tx : Transaction} (begun : turn.outcome = .started tx) :
    events turn.occurrences = [.began tx] := by
  obtain ⟨coordinator, f, dealing⟩ := sound
  generalize turn.operation = operation at dealing
  generalize turn.outcome = outcome at dealing begun
  cases dealing with
  | aside silent current unstarted => exact absurd begun (unstarted tx)
  | begun idle events =>
      cases begun
      exact events
  | @finished c tx answer => cases answer <;> cases begun
  | settled current events left unstarted => exact absurd begun (unstarted tx)

theorem commits (sound : turn.Sound) {c : ContextId} (finishes : turn.operation = .finish c)
    (done : turn.outcome = .done) : ∃ tx, turn.before.current = some tx ∧
      events turn.occurrences =
        [.checked tx (collected turn.occurrences) (.ok true), .tried tx (.ok true)] := by
  obtain ⟨coordinator, f, dealing⟩ := sound
  generalize turn.operation = operation at dealing finishes
  generalize turn.outcome = outcome at dealing done
  cases dealing with
  | aside silent current unstarted unfinished =>
      obtain ⟨-, text, failed⟩ := unfinished c finishes
      rw [failed] at done
      cases done
  | begun => cases finishes
  | @finished c tx answer status current concludes =>
      refine ⟨tx, current, ?_⟩
      cases concludes with
      | kept events => exact events
      | lost heard events clean left =>
          cases answer with
          | ok value =>
              cases unclean : undone turn.occurrences with
              | true => cases clean unclean
              | false => obtain ⟨text, other⟩ := left unclean; cases other
          | error fault => cases done
      | refused reason events failed =>
          obtain ⟨text, rfl⟩ := failed
          cases done
  | settled current events left unstarted unfinished => exact absurd finishes (unfinished c)

theorem done (sound : turn.Sound) {id : Nat}
    (winner : id ∈ History.winners (events turn.occurrences)) :
    (∃ c, turn.operation = .finish c) ∧ turn.outcome = .done ∧
      ∃ tx, turn.before.current = some tx ∧ tx.id = id := by
  obtain ⟨coordinator, f, dealing⟩ := sound
  have settled : ∀ tx undone, History.winners [settlement tx undone] = [] := by
    intro tx undone
    cases undone <;> rfl
  generalize turn.operation = operation at dealing ⊢
  generalize turn.outcome = outcome at dealing ⊢
  cases dealing with
  | aside silent =>
      rw [silent] at winner
      cases winner
  | begun idle events =>
      rw [events] at winner
      cases winner
  | @finished c tx answer status current concludes =>
      cases concludes with
      | kept events =>
          rw [events] at winner
          exact ⟨⟨c, rfl⟩, rfl, tx, current, (List.mem_singleton.1 winner).symm⟩
      | lost heard events =>
          rw [events] at winner
          have winner : id ∈ History.winners [settlement tx (undone turn.occurrences)] := winner
          rw [settled] at winner
          cases winner
      | refused reason events =>
          rw [events] at winner
          have winner : id ∈ History.winners [settlement tx (undone turn.occurrences)] := winner
          rw [settled] at winner
          cases winner
  | settled current events =>
      rw [events, settled] at winner
      cases winner

end Turn.Sound

/-! ## What a run has led to -/

/-- The turns of a run tell what has become of contexts and coordinator. -/
structure Logged (past : List Turn) (w : World (Shared ε)) : Prop where
  flying : Flying w
  transcript : events w.outside.transcript = told past
  sound : ∀ turn ∈ past, turn.Sound
  rooted : ∀ {c tx}, (w.context c).current = some tx → ∃ first begun between,
    past = first ++ begun :: between ∧ begun.operation = .start c ∧
    begun.outcome = .started tx ∧ ∀ event ∈ told first, event.begins tx.id = false
  recorded : ∀ turn ∈ past, (∃ c, turn.operation = .finish c) → turn.outcome = .done →
    ∃ tx, turn.before.current = some tx ∧ tx.id ∈ (told past).winners ∧
      (told past).recorded tx.id = collected turn.occurrences

namespace Logged

variable {past : List Turn} {w : World (Shared ε)}

theorem ruled (logged : Logged past w) : Ruled (told past) w.outside.coordinator := by
  rw [← logged.transcript]
  exact logged.flying.ruled

theorem beaten_iff (logged : Logged past w) {c : ContextId} {tx : Transaction}
    (current : (w.context c).current = some tx) (changes : List Change) :
    Beaten past c tx changes ↔ (told past).conflicts tx.id changes = true := by
  constructor
  · rintro ⟨first, begun, between, won, late, rfl, -, started, finishes, done, shared⟩
    have begunMember : begun ∈ first ++ begun :: (between ++ won :: late) := by simp
    have wonMember : won ∈ first ++ begun :: (between ++ won :: late) := by simp
    obtain ⟨winner, before, -, recorded⟩ := logged.recorded won wonMember finishes done
    obtain ⟨finisher, finishes⟩ := finishes
    obtain ⟨winner', before', commits⟩ := (logged.sound won wonMember).commits finishes done
    obtain rfl : winner = winner' := Option.some.inj (before.symm.trans before')
    have begins := (logged.sound begun begunMember).begins started
    have since : winner.id ∈ History.winners (History.since
        ((told first ++ .began tx :: told between ++
          [.checked winner (collected won.occurrences) (.ok true)]) ++
          .tried winner (.ok true) :: told late) tx.id) :=
      mem_winners_since (by simp [Event.begins])
    refine List.any_eq_true.2 ⟨winner.id, ?_, ?_⟩
    · simpa [begins, commits] using since
    · rw [recorded]
      exact shared
  · intro conflicts
    obtain ⟨id, since, shared⟩ := List.any_eq_true.1 conflicts
    -- what counts for the coordinator since the start comes after the turn that began it
    obtain ⟨first, begun, between, rfl, starts, started, unheard⟩ := logged.rooted current
    have begins := (logged.sound begun (by simp)).begins started
    have after : (told (first ++ begun :: between)).since tx.id = .began tx :: told between := by
      rw [told_append, told_cons, begins, History.since, List.dropWhile_append_of_pos]
      · simp [Event.begins]
      · intro event member
        rw [unheard event member]
        rfl
    rw [after] at since
    obtain ⟨event, member, wins⟩ := List.mem_filterMap.1 since
    rcases List.mem_cons.1 member with rfl | member
    · cases wins
    obtain ⟨won, turnMember, member⟩ := List.mem_flatMap.1 member
    have wonMember : won ∈ first ++ begun :: between := by simp [turnMember]
    obtain ⟨finishes, done, winner, before, rfl⟩ := (logged.sound won wonMember).done
      (List.mem_filterMap.2 ⟨event, member, wins⟩)
    obtain ⟨winner', before', -, recorded⟩ := logged.recorded won wonMember finishes done
    obtain rfl : winner = winner' := Option.some.inj (before.symm.trans before')
    rw [recorded] at shared
    obtain ⟨between, late, rfl⟩ := List.append_of_mem turnMember
    exact ⟨first, begun, between, won, late, rfl, starts, started, finishes, done, shared⟩

theorem unheard (logged : Logged past w) :
    ∀ event ∈ told past, event.begins w.outside.coordinator.begin.1.id = false := by
  have none := logged.ruled.unborn
  rw [History.since, List.dropWhile_eq_nil_iff] at none
  intro event member
  change event.begins (w.outside.coordinator.lastId + 1) = false
  simpa using none event member

theorem rooted_append (logged : Logged past w) {c : ContextId} {tx : Transaction}
    (current : (w.context c).current = some tx) (turn : Turn) : ∃ first begun between,
      past ++ [turn] = first ++ begun :: between ∧ begun.operation = .start c ∧
      begun.outcome = .started tx ∧ ∀ event ∈ told first, event.begins tx.id = false := by
  obtain ⟨first, begun, between, rfl, rooted⟩ := logged.rooted current
  exact ⟨first, begun, between ++ [turn], by simp, rooted⟩

theorem recorded_commit (h : History) (tx : Transaction) (changes : List Change) :
    History.recorded (h ++ [.checked tx changes (.ok true), .tried tx (.ok true)]) tx.id =
      changes := by
  rw [List.append_cons, History.recorded_append_singleton, History.recorded_append_singleton]
  simp [Event.accepted?]

theorem play (logged : Logged past w) {operation : Operation}
    (inside : operation.target < w.contexts.length) :
    Logged (past ++ [(Turn.play base operation w).1]) (Turn.play base operation w).2 := by
  have deals := run_deals base (logged.flying.proper_at operation.target) fun _ => logged.flying.found
  have flying := logged.flying.deals inside deals
  unfold Turn.play
  generalize operation.run base.sharing w = answered at deals flying ⊢
  obtain ⟨outcome, next⟩ := answered
  obtain ⟨f, more, dealing, -, passage⟩ := deals
  dsimp only at dealing passage flying ⊢
  rw [passage.transcript, List.drop_left]
  refine ⟨flying, ?_, ?_, ?_, ?_⟩
  · simp [passage.transcript, logged.transcript]
  · intro turn member
    rcases List.mem_append.1 member with member | member
    · exact logged.sound turn member
    · rw [List.mem_singleton.1 member]
      exact ⟨_, f, dealing⟩
  · intro c tx current
    rcases passage.context_cases c with same | ⟨rfl, same⟩
    · rw [same] at current
      exact logged.rooted_append current _
    rw [same] at current
    cases dealing with
    | aside silent kept =>
        rw [kept] at current
        exact logged.rooted_append current _
    | begun idle events =>
        cases current
        exact ⟨past, _, [], rfl, rfl, rfl, logged.unheard⟩
    | finished => cases current
    | settled _ _ left =>
        rw [left] at current
        cases current
  · intro turn member finishes done
    rw [told_append, told_cons, told_nil, List.append_nil]
    rcases List.mem_append.1 member with member | member
    · obtain ⟨tx, current, won, recorded⟩ := logged.recorded turn member finishes done
      refine ⟨tx, current, ?_, ?_⟩
      · rw [History.winners, List.filterMap_append]
        exact List.mem_append_left _ won
      · rw [logged.ruled.recorded_winner passage.course won]
        exact recorded
    · obtain rfl := List.mem_singleton.1 member
      obtain ⟨c, finishes⟩ := finishes
      obtain ⟨tx, current, commits⟩ :=
        Turn.Sound.commits ⟨w.outside.coordinator, f, dealing⟩ finishes done
      dsimp only at commits ⊢
      rw [commits]
      refine ⟨tx, current, ?_, recorded_commit _ _ _⟩
      simp [History.winners, Event.winner?]

end Logged

/-! ## Runs -/

theorem Turn.length_play (operation : Operation) {past : List Turn} {w : World (Shared ε)}
    (logged : Logged past w) :
    (Turn.play base operation w).2.contexts.length = w.contexts.length := by
  obtain ⟨f, more, -, -, passage⟩ :=
    run_deals base (logged.flying.proper_at operation.target) fun _ => logged.flying.found
  exact (congrArg List.length passage.contexts).trans (List.length_modify ..)

theorem Logged.playAll {past : List Turn} {operations : List Operation} {w : World (Shared ε)}
    (logged : Logged past w)
    (inside : ∀ operation ∈ operations, operation.target < w.contexts.length) :
    Logged (past ++ (Turn.playAll base operations w).1) (Turn.playAll base operations w).2 ∧
      (Turn.playAll base operations w).2.contexts.length = w.contexts.length := by
  induction operations generalizing past w with
  | nil => exact ⟨by simpa [Turn.playAll] using logged, rfl⟩
  | cons operation rest ih =>
      have next := logged.play base (inside operation List.mem_cons_self)
      have length := Turn.length_play base operation logged
      obtain ⟨after, same⟩ := ih next fun other member =>
        length ▸ inside other (List.mem_cons_of_mem operation member)
      refine ⟨?_, same.trans length⟩
      rwa [List.append_assoc] at after

theorem Turn.playAll_split {operations : List Operation} {w : World (Shared ε)}
    {past future : List Turn} {turn : Turn}
    (log : (Turn.playAll base operations w).1 = past ++ turn :: future) :
    ∃ before operation after, operations = before ++ operation :: after ∧
      past = (Turn.playAll base before w).1 ∧
      turn = (Turn.play base operation (Turn.playAll base before w).2).1 := by
  induction past generalizing operations w with
  | nil =>
      cases operations with
      | nil => cases log
      | cons operation rest => exact ⟨[], operation, rest, rfl, rfl, (List.cons.inj log).1.symm⟩
  | cons first past ih =>
      cases operations with
      | nil => cases log
      | cons operation rest =>
          obtain ⟨same, log⟩ := List.cons.inj log
          obtain ⟨before, next, after, rfl, rfl, rfl⟩ := ih log
          exact ⟨operation :: before, next, after, rfl, by rw [← same]; rfl, rfl⟩

theorem logged_fresh (n : Nat) (k : CoordinatorId) (outside : ε) :
    Logged [] (fresh n k outside) := by
  refine ⟨flying_fresh n k outside, rfl, ?_, ?_, ?_⟩
  · intro turn member
    cases member
  · intro c tx current
    obtain ⟨entry, found⟩ := (flying_fresh n k outside).found current
    cases found
  · intro turn member
    cases member

/-! ## The law -/

theorem loses {turn : Turn} {tx : Transaction} {answer : Except Fault Unit}
    (distinct : (turn.before.participants.map (·.id)).Nodup)
    (answered : turn.outcome = .ofExcept (fun _ => .done) answer)
    (after : turn.after.status = .aborted "conflict detected")
    (calls : heard turn.occurrences =
      (turn.before.participants.map fun p => (p.id, .changes)) ++
        turn.before.participants.map fun p => (p.id, .rollback))
    (clean : undone turn.occurrences = true → answer = .error (.conflict tx.id))
    (left : undone turn.occurrences = false →
      ∃ text, answer = .error (.transactionFailure tx.id text)) : Loses turn tx where
  unpersisted i member := by simp [calls] at member
  unconfirmed i member := by simp [calls] at member
  rolledBack p member := by
    have once : ∀ {ps : List Participant}, (ps.map (·.id)).Nodup → p ∈ ps →
        (ps.map fun p => (p.id, Callback.rollback)).count (p.id, .rollback) = 1 := by
      intro ps distinct member
      refine List.count_eq_one_of_mem ?_ (List.mem_map.2 ⟨p, member, rfl⟩)
      have both := distinct.map (f := fun i => (i, Callback.rollback)) fun i j same =>
        (Prod.mk.inj same).1
      rwa [List.map_map] at both
    rw [calls, List.count_append, once distinct member, List.count_eq_zero.2 (by simp)]
  aborted := after
  conflict undoes := by rw [answered, clean undoes]; rfl
  failure lingers := by
    obtain ⟨text, same⟩ := left lingers
    exact ⟨text, by rw [answered, same]; rfl⟩

/-- How a finish of a context must come out, after the turns before it. -/
structure Decided (past : List Turn) (c : ContextId) (turn : Turn) : Prop where
  idle : turn.before.current = none → ∃ text, turn.outcome = .failed (.invalidState text)
  collects : turn.before.current ≠ none →
    asked turn.occurrences = turn.before.participants.map fun p => (p.id, .changes)
  beaten : ∀ tx, turn.before.current = some tx →
    Beaten past c tx (collected turn.occurrences) → Loses turn tx
  conflict : ∀ id, turn.outcome = .failed (.conflict id) → ∃ tx,
    turn.before.current = some tx ∧ tx.id = id ∧ Beaten past c tx (collected turn.occurrences)

theorem Logged.check {past : List Turn} {w next : World (Shared ε)} (logged : Logged past w)
    {c : ContextId} {tx : Transaction} {more : List Occurrence} {changes : List Change}
    {free : Bool} {rest : History} {change : List Context → List Context}
    (current : (w.context c).current = some tx)
    (events : events more = .checked tx changes (.ok free) :: rest)
    (passage : Passage change more w next) : Beaten past c tx changes ↔ free = false := by
  have course := passage.course
  rw [events] at course
  have answered := course.checked
  rw [logged.ruled.canCommit_answer,
    if_pos (logged.ruled.flying_iff.2 (logged.flying.found current))] at answered
  rw [logged.beaten_iff current, ← Except.ok.inj answered, Bool.not_eq_false']

theorem Logged.finish {past : List Turn} {w : World (Shared ε)} (logged : Logged past w)
    (c : ContextId) : Decided past c (Turn.play base (.finish c) w).1 := by
  have deals : Deals (.finish c) w ((Operation.finish c).run base.sharing w) :=
    run_deals base (logged.flying.proper_at c) fun _ => logged.flying.found
  have proper := logged.flying.proper_at c
  unfold Turn.play
  generalize (Operation.finish c).run base.sharing w = answered at deals ⊢
  obtain ⟨outcome, next⟩ := answered
  obtain ⟨f, more, dealing, -, passage⟩ := deals
  dsimp only [Operation.target] at dealing passage ⊢
  rw [passage.transcript, List.drop_left]
  cases dealing with
  | aside silent same unstarted unfinished =>
      obtain ⟨idle, text, refused⟩ := unfinished c rfl
      refine ⟨fun _ => ⟨text, refused⟩, fun busy => absurd idle busy, fun tx current => ?_, ?_⟩
      · rw [idle] at current
        cases current
      · intro id conflict
        rw [refused] at conflict
        cases conflict
  | @finished c tx answer status current concludes asks =>
      have after := passage.context_self (World.inside_of_current current)
      have busy : (w.context c).current ≠ none := by rw [current]; simp
      have only : ∀ {other}, (w.context c).current = some other → other = tx :=
        fun same => Option.some.inj (same.symm.trans current)
      cases concludes with
      | kept events =>
          have check := logged.check current events passage
          refine ⟨fun idle => absurd idle busy, fun _ => asks, fun tx same beaten => ?_, nofun⟩
          obtain rfl := only same
          cases check.1 beaten
      | lost heard events clean left =>
          have check := logged.check current events passage
          have status : (next.context c).status = .aborted "conflict detected" := by
            rw [after]
            rfl
          refine ⟨fun idle => absurd idle busy, fun _ => asks, fun tx same _ => ?_,
            fun id conflict => ⟨tx, current, ?_, check.2 rfl⟩⟩
          · obtain rfl := only same
            exact loses proper.distinct rfl status heard clean left
          · cases undoes : undone more with
            | true =>
                rw [clean undoes] at conflict
                cases conflict
                rfl
            | false =>
                obtain ⟨text, failure⟩ := left undoes
                rw [failure] at conflict
                cases conflict
      | refused reason events failed =>
          have check := logged.check current events passage
          refine ⟨fun idle => absurd idle busy, fun _ => asks, fun tx same beaten => ?_,
            fun id conflict => ?_⟩
          · obtain rfl := only same
            cases check.1 beaten
          · obtain ⟨text, failure⟩ := failed
            rw [failure] at conflict
            cases conflict
  | settled current events left unstarted unfinished => exact absurd rfl (unfinished c)

/-- Operations on any number of contexts that share a coordinator.  A finish of a
transaction collects the changes of all its participants, in order.  If somebody has
committed one of these changes since the transaction began, the finish fails: nobody has
persisted, everybody is rolled back once, and the fault is a conflict unless a rollback
fails.  A conflict is reported for no other reason. -/
theorem conflicting_transaction_loses (n : Nat) (k : CoordinatorId) (outside : ε)
    (operations : List Operation) {past future : List Turn} {turn : Turn} {c : ContextId}
    (log : (Turn.playAll base (operations.filter (·.target < n)) (fresh n k outside)).1 =
      past ++ turn :: future)
    (finishes : turn.operation = .finish c) : Decided past c turn := by
  obtain ⟨before, operation, after, split, rfl, rfl⟩ := Turn.playAll_split base log
  have inside : ∀ operation ∈ before,
      operation.target < (fresh n k outside).contexts.length := by
    intro other member
    have allowed : other ∈ operations.filter (·.target < n) := by simp [split, member]
    simpa [fresh] using (List.mem_filter.1 allowed).2
  obtain ⟨logged, -⟩ := (logged_fresh n k outside).playAll base inside
  obtain rfl : operation = .finish c := finishes
  exact logged.finish base c

def Services.rivalry : Services (StateM Nat) :=
  { Services.willing fun _ => none with changes := fun _ => pure ["row"] }

def rivals : List Operation :=
  [.enrol 0 { id := 1, name := "first" }, .enrol 1 { id := 2, name := "second" }, .start 0,
    .start 1, .finish 0, .finish 1]

def rivalTurns (operations : List Operation) : List Turn :=
  (Turn.playAll Services.rivalry operations (fresh 2 0 0)).1

def rivalTurn (past : List Operation) (operation : Operation) : Turn :=
  (Turn.play Services.rivalry operation
    (Turn.playAll Services.rivalry past (fresh 2 0 0)).2).1

theorem rivalTurns_snoc (past : List Operation) (operation : Operation) :
    rivalTurns (past ++ [operation]) = rivalTurns past ++ [rivalTurn past operation] :=
  Turn.playAll_append_singleton _ past operation _

theorem rivalTurn_operation (past : List Operation) (operation : Operation) :
    (rivalTurn past operation).operation = operation := rfl

theorem conflicting_transaction_loses_rivals :
    rivalTurns (rivals.filter (·.target < 2)) =
        rivalTurns (rivals.take 5) ++ [rivalTurn (rivals.take 5) (.finish 1)] ∧
      Beaten (rivalTurns (rivals.take 5)) 1 ⟨2, 0⟩
        (collected (rivalTurn (rivals.take 5) (.finish 1)).occurrences) ∧
      Loses (rivalTurn (rivals.take 5) (.finish 1)) ⟨2, 0⟩ := by
  have all : rivals.filter (·.target < 2) = rivals.take 5 ++ [.finish 1] := by decide
  have log : rivalTurns (rivals.filter (·.target < 2)) =
      rivalTurns (rivals.take 5) ++ [rivalTurn (rivals.take 5) (.finish 1)] := by
    rw [all]
    exact rivalTurns_snoc _ _
  have five : rivals.take 5 = rivals.take 3 ++ [.start 1] ++ [.finish 0] := by decide
  have past : rivalTurns (rivals.take 5) = rivalTurns (rivals.take 3) ++
      rivalTurn (rivals.take 3) (.start 1) ::
        ([] ++ [rivalTurn (rivals.take 3 ++ [.start 1]) (.finish 0)]) := by
    rw [five, rivalTurns_snoc, rivalTurns_snoc, List.append_assoc]
    rfl
  have beaten : Beaten (rivalTurns (rivals.take 5)) 1 ⟨2, 0⟩
      (collected (rivalTurn (rivals.take 5) (.finish 1)).occurrences) :=
    ⟨_, _, _, _, _, past, rivalTurn_operation _ _, by decide +kernel,
      ⟨0, rivalTurn_operation _ _⟩, by decide +kernel, by decide +kernel⟩
  have decided : Decided (rivalTurns (rivals.take 5)) 1 (rivalTurn (rivals.take 5) (.finish 1)) :=
    conflicting_transaction_loses Services.rivalry 2 0 0 rivals log (rivalTurn_operation _ _)
  exact ⟨log, beaten, decided.beaten _ (by decide +kernel) beaten⟩

end DatasetCache
