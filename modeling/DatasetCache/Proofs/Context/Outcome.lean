import DatasetCache.Coordinator.Service
import DatasetCache.Proofs.Context.Reentrancy

/-!
# Which callbacks leave participants in agreement

Participants agree on the outcome of every transaction if callbacks obey a safe rule, and
a rule that is not safe has a run in which they do not: for each move at each other stage,
two participants of which the first makes the move once.
-/

namespace DatasetCache

open Act Context

variable {ε : Type}

/-! ## Safe rules -/

namespace Callbacks

variable {callbacks : Callbacks ε} (base : Services (StateM ε)) {c : ContextId}

theorem Obeys.prudent {rule : Rule} (obeys : callbacks.Obeys rule) (safe : rule.Safe)
    (c : ContextId) : (callbacks.retarget c).Prudent c := by
  intro p callback s operation member
  obtain ⟨aimed, asked, rfl⟩ := List.mem_map.1 member
  refine ⟨aimed, rfl, fun settles => ?_⟩
  have permitted : rule callback.stage aimed.move := obeys p callback s aimed asked
  obtain ⟨stage, other⟩ := safe _ _ permitted settles
  refine ⟨?_, other⟩
  cases callback with
  | rollback => rfl
  | _ => cases stage

variable (prudent : callbacks.Prudent c)

include prudent

theorem run_leads (depth : Nat) (operation : Operation) :
    Leads (At c (Orderly nobody nobody nobody))
      ((operation.retarget c).run (callbacks.journaled base depth))
      fun _ => At c (Orderly nobody nobody nobody) := by
  by_cases finish : operation.move = .finish
  · cases operation with
    | finish _ =>
        refine .bind (finish_leads base prudent depth) fun _ => ?_
        exact fun _ here => here
    | _ => cases finish
  · exact unwind_keep base prudent depth operation finish nobody nobody

theorem runAll_leads (depth : Nat) (operations : List Operation) :
    Leads (At c (Orderly nobody nobody nobody))
      (Operation.runAll (callbacks.journaled base depth) (operations.map (Operation.retarget c)))
      fun _ => At c (Orderly nobody nobody nobody) := by
  induction operations with
  | nil => exact fun _ here => here
  | cons operation rest ih => exact .bind (run_leads base prudent depth operation) fun _ => ih

end Callbacks

theorem orderly_create (k : CoordinatorId) (outside : ε) :
    At 0 (Orderly nobody nobody nobody)
      (Context.create k { outside := { inner := outside } : World (Journal ε) }).2 := by
  refine ⟨Nat.zero_lt_one, ?_⟩
  exact {
    active := rfl
    joined := fun tx current => by cases current
    began := fun tx cause => by rcases cause with current | member <;> cases ‹_›
    uncommitted := fun _ tx current => by cases current
    clear := fun _ i absurd => absurd.elim
    held := fun i tx member => by cases member
    irrevocable := fun _ n i tx found => by cases found }

/-- The law of a safe rule: what any run leaves behind is in agreement. -/
theorem agreement_of_safe {rule : Rule} (safe : rule.Safe) {callbacks : Callbacks ε}
    (obeys : callbacks.Obeys rule) (base : Services (StateM ε)) (depth : Nat)
    (k : CoordinatorId) (operations : List Operation) (outside : ε) :
    let w := Context.after ((callbacks.retarget 0).journaled base depth) k operations
      { inner := outside }
    (issued w.outside.entries).Nodup → Agreement (w.context 0) w.outside.entries := by
  intro w distinct
  have orderly : At 0 (Orderly nobody nobody nobody) w :=
    Callbacks.runAll_leads base (obeys.prudent safe 0) depth operations _
      (orderly_create k outside)
  exact orderly.holds.agreement distinct

/-! ## Disagreement -/

section

variable {context : Context} {entries : List Entry} {i : InstanceId} {tx : Transaction}

theorem not_agreement_of_held (undone : .undone tx ∈ entries)
    (uncommitted : .committed tx ∉ entries) (held : tx ∈ (standing i entries).held) :
    ¬ Agreement context entries := by
  intro agreement
  have settled : Settled context entries tx := .inl undone
  exact agreement.unheld tx settled uncommitted i held

def Revokes (i : InstanceId) (tx : Transaction) (entries : List Entry) : Prop :=
  ∃ n, n < entries.length ∧ entries[n]? = some (.received i .rollback) ∧
    (standing i (entries.take n)).joined = some tx ∧ .committed tx ∈ entries.take n

instance (entries : List Entry) : Decidable (Revokes i tx entries) :=
  inferInstanceAs (Decidable (∃ n, n < entries.length ∧ _))

theorem not_agreement_of_revokes (revokes : Revokes i tx entries) :
    ¬ Agreement context entries := by
  obtain ⟨n, -, found, joined, committed⟩ := revokes
  intro agreement
  exact agreement.irrevocable n i tx found joined committed

end

/-! ## Scripts -/

structure Script where
  armed : Bool := true
  coordinator : Coordinator := {}
  /-- Answers given instead of the coordinator's own, for as long as there are any. -/
  checks : List Bool := []
  commits : List Bool := []

namespace Script

def coordination : Coordination (StateM Script) :=
  CoordinatorAccess.service
    { get := fun _ script => script.coordinator
      set := fun _ coordinator script => { script with coordinator } } fun _ => pure ()

def services : Services (StateM Script) where
  start _ _ := pure ()
  changes _ := pure []
  persist _ := pure (.ok true)
  confirm _ := pure ()
  rollback _ := pure (.ok true)
  begin := coordination.begin
  canCommit k tx changes := fun script =>
    match script.checks with
    | [] => coordination.canCommit k tx changes script
    | answer :: checks => (.ok answer, { script with checks })
  commit k tx := fun script =>
    match script.commits with
    | [] => coordination.commit k tx script
    | answer :: commits => (.ok answer, { script with commits })
  abort := coordination.abort
  invalidate := coordination.invalidate
  load _ _ _ := pure (.ok none)
  closeInstantiator _ := pure (.ok ())
  closeDataset _ := pure (.ok ())
  closeParticipant _ := pure (.ok ())
  meter _ _ _ _ := pure ()
  report _ := pure ()

def first : Participant := { id := 1, name := "first" }

def second : Participant := { id := 2, name := "second" }

def callbacks (stage : Stage) (operation : Operation) : Callbacks Script where
  enter p callback := fun script =>
    if callback.stage = stage ∧ p.id = first.id ∧ script.armed = true then
      ([operation], { script with armed := false })
    else ([], script)
  observe _ _ _ _ := pure ()

theorem callbacks_obeys {rule : Rule} {stage : Stage} {operation : Operation}
    (permitted : rule stage operation.move) : (callbacks stage operation).Obeys rule := by
  intro p callback script other member
  by_cases now : callback.stage = stage ∧ p.id = first.id ∧ script.armed = true
  · have asked : other ∈ [operation] := by
      simpa only [callbacks, if_pos now] using member
    obtain rfl := List.mem_singleton.1 asked
    rw [now.1]
    exact permitted
  · simp only [callbacks, if_neg now, List.not_mem_nil] at member

def after (stage : Stage) (operation : Operation) (operations : List Operation)
    (script : Script) : World (Journal Script) :=
  Context.after (((callbacks stage operation).retarget 0).journaled services 1) 0 operations
    { inner := script }

/-- With the coordinator's own answers: the first participant aborts while it persists, and
the finish goes on to have the second one persist for good. -/
theorem abort_while_persisting :
    let w := after .persist (.abort 0) [.enrol 0 first, .enrol 0 second, .start 0, .finish 0] {}
    (issued w.outside.entries).Nodup ∧ ¬ Agreement (w.context 0) w.outside.entries := by
  intro w
  have undone : .undone ⟨1, 0⟩ ∈ w.outside.entries := by decide +kernel
  have uncommitted : .committed ⟨1, 0⟩ ∉ w.outside.entries := by decide +kernel
  have held : ⟨1, 0⟩ ∈ (standing second.id w.outside.entries).held := by decide +kernel
  exact ⟨by decide +kernel, not_agreement_of_held undone uncommitted held⟩

/-! ## One script for each settlement at each stage -/

def settlement : Move → Operation
  | .abort => .abort 0
  | .cleanup => .cleanup 0
  | .discard => .discard 0
  | _ => .finish 0

theorem settlement_move {move : Move} (settles : move.settles = true) :
    (settlement move).move = move := by
  cases move <;> cases settles <;> rfl

def plan : Stage → List Operation × Script
  | .start => ([.enrol 0 second, .start 0, .finish 0, .withdraw 0 second,
      .enrol 0 first, .enrol 0 second, .start 0], { checks := [true, false] })
  | .changes | .persist => ([.enrol 0 first, .enrol 0 second, .start 0, .finish 0],
      { checks := [true, true], commits := [false, false] })
  | .confirm => ([.enrol 0 first, .enrol 0 second, .start 0, .finish 0],
      { checks := [true, false] })
  | .rollback => ([.enrol 0 first, .enrol 0 second, .start 0, .abort 0], {})

def outcome (stage : Stage) (move : Move) : World (Journal Script) :=
  after stage (settlement move) (plan stage).1 (plan stage).2

variable {stage : Stage} {move : Move}

/-- Before the commit: the finish goes on with what the first participant has settled, and
the second one persists for good. -/
theorem outcome_held (before : stage = .changes ∨ stage = .persist)
    (settles : move.settles = true) :
    .undone ⟨1, 0⟩ ∈ (outcome stage move).outside.entries ∧
      .committed ⟨1, 0⟩ ∉ (outcome stage move).outside.entries ∧
      ⟨1, 0⟩ ∈ (standing second.id (outcome stage move).outside.entries).held := by
  rcases before with rfl | rfl <;> cases move <;> cases settles <;> decide +kernel

/-- After a commit, or while the second participant still stands where an earlier commit
has left it: it undoes what is committed. -/
theorem outcome_revokes (after : stage = .start ∨ stage = .confirm)
    (settles : move.settles = true) :
    Revokes second.id ⟨1, 0⟩ (outcome stage move).outside.entries := by
  rcases after with rfl | rfl <;> cases move <;> cases settles <;> decide +kernel

/-- In the middle of an abort: the first participant commits, and the second one is rolled
back all the same. -/
theorem finish_while_rolling_back :
    Revokes second.id ⟨1, 0⟩ (outcome .rollback .finish).outside.entries := by
  decide +kernel

theorem outcome_issued (stage : Stage) (settles : move.settles = true) :
    (issued (outcome stage move).outside.entries).Nodup := by
  cases stage <;> cases move <;> cases settles <;> decide +kernel

theorem outcome_disagrees (settles : move.settles = true)
    (violates : ¬ (stage = .rollback ∧ move ≠ .finish)) :
    ¬ Agreement ((outcome stage move).context 0) (outcome stage move).outside.entries := by
  have held : stage = .changes ∨ stage = .persist →
      ¬ Agreement ((outcome stage move).context 0) (outcome stage move).outside.entries := by
    intro before
    obtain ⟨undone, uncommitted, held⟩ := outcome_held before settles
    exact not_agreement_of_held undone uncommitted held
  have revoked : stage = .start ∨ stage = .confirm →
      ¬ Agreement ((outcome stage move).context 0) (outcome stage move).outside.entries :=
    fun after => not_agreement_of_revokes (outcome_revokes after settles)
  cases stage with
  | start => exact revoked (.inl rfl)
  | changes => exact held (.inl rfl)
  | persist => exact held (.inr rfl)
  | confirm => exact revoked (.inr rfl)
  | rollback =>
      have finish : move = .finish := Decidable.byContradiction fun other => violates ⟨rfl, other⟩
      subst finish
      exact not_agreement_of_revokes finish_while_rolling_back

end Script

/-! ## The rules that leave participants in agreement -/

/-- Participants agree on the outcome of all transactions, whatever they and the coordinator
answer and however deep their callbacks nest, exactly if the rule is safe.  The coordinator
issues every transaction once. -/
theorem callbacks_agree_iff (rule : Rule) :
    (∀ (ε : Type) (callbacks : Callbacks ε) (base : Services (StateM ε)) (depth : Nat)
      (k : CoordinatorId) (operations : List Operation) (outside : ε), callbacks.Obeys rule →
      let w := Context.after ((callbacks.retarget 0).journaled base depth) k operations
        { inner := outside }
      (issued w.outside.entries).Nodup → Agreement (w.context 0) w.outside.entries) ↔
    rule.Safe := by
  constructor
  · intro agrees stage move permitted settles
    refine Decidable.byContradiction fun violates => ?_
    have same := Script.settlement_move settles
    have obeys : (Script.callbacks stage (Script.settlement move)).Obeys rule := by
      refine Script.callbacks_obeys ?_
      rw [same]
      exact permitted
    have agreement := agrees Script _ Script.services 1 0 (Script.plan stage).1
      (Script.plan stage).2 obeys (Script.outcome_issued stage settles)
    exact Script.outcome_disagrees settles violates agreement
  · intro safe ε callbacks base depth k operations outside obeys
    exact agreement_of_safe safe obeys base depth k operations outside

end DatasetCache
