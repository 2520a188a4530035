import DatasetCache.Proofs.Context.Closing
import DatasetCache.Proofs.Context.Outcome

/-!
# Which callbacks let a context end

A closed context stays closed whatever its participants and its coordinator answer if the
callbacks obey a terminal rule.  For a rule that is not terminal there is a run of one or
two participants in which the context comes back: a playbook says which operations the
callbacks ask for, one cue after the other.
-/

namespace DatasetCache

open Act Context

/-! ## Contexts that come back -/

/-- Whether an open context is seen after a closed one. -/
def reopens : List Context → Bool
  | [] => false
  | frame :: rest => frame.isClosed && rest.any (!·.isClosed) || reopens rest

theorem Final.tail {frame : Context} {frames : List Context} (final : Final (frame :: frames)) :
    Final frames :=
  fun m n earlier later order => final (m + 1) (n + 1) earlier later (by omega)

theorem not_final_of_reopens {frames : List Context} (back : reopens frames = true) :
    ¬ Final frames := by
  induction frames with
  | nil => cases back
  | cons frame rest ih =>
      intro final
      rw [reopens, Bool.or_eq_true, Bool.and_eq_true] at back
      rcases back with ⟨closed, back⟩ | back
      · obtain ⟨later, member, opened⟩ := List.any_eq_true.1 back
        obtain ⟨n, reached⟩ := List.mem_iff_getElem?.1 member
        have sealed := final 0 (n + 1) frame later (Nat.zero_le _) rfl closed reached
        simp [isClosed, sealed.status] at opened
      · exact ih back final.tail

/-! ## Playbooks -/

/-- At the next callback of this stage, some operations. -/
structure Cue where
  stage : Stage
  operations : List Operation

abbrev Playbook := List Cue

namespace Playbook

def callbacks (cues : Playbook) : Callbacks Nat where
  enter _ callback := fun past =>
    match cues[past]? with
    | some cue => if callback.stage = cue.stage then (cue.operations, past + 1) else ([], past)
    | none => ([], past)
  observe _ _ _ _ := pure ()

def services : Services (StateM Nat) :=
  { Services.willing fun _ => none with begin := fun _ => pure (.ok ⟨1, 0⟩) }

def Permitted (rule : Rule) (cues : Playbook) : Prop :=
  ∀ cue ∈ cues, ∀ operation ∈ cue.operations, rule cue.stage operation.move

theorem callbacks_obeys {rule : Rule} {cues : Playbook} (permitted : cues.Permitted rule) :
    (callbacks cues).Obeys rule := by
  intro p callback past operation member
  cases found : cues[past]? with
  | none => simp [callbacks, found] at member
  | some cue =>
      by_cases now : callback.stage = cue.stage
      · simp only [callbacks, found, if_pos now] at member
        rw [now]
        exact permitted cue (List.mem_of_getElem? found) operation member
      · simp [callbacks, found, now] at member

def ending : Stage → Operation
  | .rollback => .abort 0
  | _ => .finish 0

def film (cues : Playbook) (stage : Stage) : List Context :=
  (callbacks cues).film services 3 0 [.enrol 0 Script.first, .start 0, ending stage] 0

variable {stage earlier : Stage} {move settling : Move}

/-- Closes the context within the callbacks of an operation that goes on afterwards. -/
def closeAt (stage : Stage) (move : Move) : Playbook := [⟨stage, [Script.settlement move]⟩]

def joinAt (stage : Stage) (move : Move) : Playbook :=
  [⟨stage, [.enrol 0 Script.second]⟩, ⟨.start, [Script.settlement move]⟩]

/-- Ends the transaction at one stage and starts another one at the next, which closes the
context.  A finish at the first stage has callbacks of the second stage itself. -/
def restartAt (earlier stage : Stage) (settling move : Move) : Playbook :=
  let settle := Script.settlement settling
  let bolt : Cue := ⟨.start, [Script.settlement move]⟩
  if earlier = stage then [⟨stage, [settle, .start 0]⟩, bolt]
  else if settling = .finish then
    [⟨earlier, [settle]⟩, ⟨stage, []⟩, ⟨stage, [.start 0]⟩, bolt]
  else [⟨earlier, [settle]⟩, ⟨stage, [.start 0]⟩, bolt]

theorem closeAt_reopens (other : stage ≠ .start) (closes : move.closes = true) :
    reopens (film (closeAt stage move) stage) = true := by
  cases stage <;> first | contradiction | cases move <;> cases closes <;> decide +kernel

theorem joinAt_reopens (other : stage ≠ .start) (closes : move.closes = true) :
    reopens (film (joinAt stage move) stage) = true := by
  cases stage <;> first | contradiction | cases move <;> cases closes <;> decide +kernel

theorem restartAt_reopens (leads : earlier.leadsTo stage = true)
    (ends : settling = .finish ∨ settling = .abort) (closes : move.closes = true) :
    reopens (film (restartAt earlier stage settling move) stage) = true := by
  cases earlier <;> cases stage <;> cases leads <;> rcases ends with rfl | rfl <;>
    cases move <;> cases closes <;> decide +kernel

/-! ### Playbooks within a rule -/

section

variable {rule : Rule}

theorem settlement_permitted (settles : move.settles = true) (permitted : rule stage move) :
    rule stage (Script.settlement move).move := by
  rwa [Script.settlement_move settles]

theorem closeAt_permitted (settles : move.settles = true) (closes : rule stage move) :
    (closeAt stage move).Permitted rule := by
  simpa [Permitted, closeAt] using settlement_permitted settles closes

theorem joinAt_permitted (settles : move.settles = true) (joins : rule stage .enrol)
    (closes : rule .start move) : (joinAt stage move).Permitted rule := by
  have bolts := settlement_permitted settles closes
  simpa [Permitted, joinAt] using ⟨joins, bolts⟩

theorem restartAt_permitted (ends : settling.settles = true) (settles : move.settles = true)
    (settled : rule earlier settling) (restarts : rule stage .start) (closes : rule .start move) :
    (restartAt earlier stage settling move).Permitted rule := by
  have ends := settlement_permitted ends settled
  have bolts := settlement_permitted settles closes
  unfold restartAt
  split
  · rename_i same
    subst same
    simpa [Permitted] using ⟨⟨ends, restarts⟩, bolts⟩
  · split <;> simpa [Permitted] using ⟨ends, restarts, bolts⟩

end

end Playbook

/-! ## The rules under which closed contexts stay closed -/

/-- With the coordinator's own answers: a participant closes the context on being told of
the commit, and the finish then calls the context committed. -/
theorem cleanup_while_confirming :
    ¬ Final ((Script.callbacks .confirm (.cleanup 0)).film Script.services 1 0
      [.enrol 0 Script.first, .start 0, .finish 0] {}) :=
  not_final_of_reopens (by decide +kernel)

/-- Closed contexts stay closed and empty in all runs, whatever participants and coordinator
answer and however deep their callbacks nest, exactly if the rule is terminal. -/
theorem closed_contexts_final_iff (rule : Rule) :
    (∀ (ε : Type) (callbacks : Callbacks ε) (base : Services (StateM ε)) (depth : Nat)
      (k : CoordinatorId) (operations : List Operation) (outside : ε), callbacks.Obeys rule →
      Final (callbacks.film base depth k operations outside)) ↔ rule.Terminal := by
  constructor
  · intro final stage move permitted closes
    have settles : move.settles = true := by cases move <;> first | rfl | cases closes
    have barred : ∀ {stage cues}, reopens (Playbook.film cues stage) = true →
        ¬ cues.Permitted rule := by
      intro stage cues back permitted
      exact not_final_of_reopens back (final _ _ _ _ _ _ _ (Playbook.callbacks_obeys permitted))
    have start : stage = .start := by
      refine Decidable.byContradiction fun other => ?_
      exact barred (Playbook.closeAt_reopens other closes)
        (Playbook.closeAt_permitted settles permitted)
    subst start
    refine ⟨rfl, fun other different => ⟨fun joins => ?_, fun restarts earlier leads => ?_⟩⟩
    · exact barred (Playbook.joinAt_reopens different closes)
        (Playbook.joinAt_permitted settles joins permitted)
    · have calm : ∀ {settling : Move}, settling = .finish ∨ settling = .abort →
          settling.settles = true → ¬ rule earlier settling := by
        intro settling ends ended settled
        exact barred (Playbook.restartAt_reopens leads ends closes)
          (Playbook.restartAt_permitted ended settles settled restarts permitted)
      exact ⟨calm (.inl rfl) rfl, calm (.inr rfl) rfl⟩
  · intro terminal ε callbacks base depth k operations outside obeys
    exact final_of_terminal terminal obeys base depth k operations outside

end DatasetCache
