import DatasetCache.Proofs.Cache.Deferral
import DatasetCache.Proofs.Cache.Program
import DatasetCache.Proofs.Cache.Progress

/-!
# Running a body in a transaction

A body that leaves the contexts alone changes who takes part in its transaction, and
dismisses what it does not need any more.  When it is done, the transaction is committed or
rolled back for everybody who takes part by then, the context is closed, and what has been
dismissed in it is released.
-/

namespace DatasetCache

open Act Context Relation

variable {ε : Type}

/-! ## The end of the transaction -/

/-- What becomes of the transaction of a body: the answer of the body, the one of the finish, the
one of the run as a whole, and what the journal gains. -/
inductive Finale {α : Type} (ps : List Participant) (tx : Transaction) :
    Except Fault α → Except Fault Unit → Except Fault α → List Entry → Prop where
  | committed (value : α) : Finale ps tx (.ok value) (.ok ()) (.ok value)
      (calls ps .changes ++ calls ps .persist ++ [.committed tx] ++ calls ps .confirm)
  | undone (value : α) (fault : Fault) {asked : List Participant} (first : asked <+: ps) :
      Finale ps tx (.ok value) (.error fault) (.error fault)
        (calls ps .changes ++ calls asked .persist ++ (calls ps .rollback ++ [.undone tx]))
  /-- A body that fails is not finished. -/
  | aborted (fault : Fault) (finished : Except Fault Unit) :
      Finale ps tx (.error fault) finished (.error fault)
        (calls ps .rollback ++ [.undone tx])

section Phases

variable {ps : List Participant} {tx : Transaction}

theorem Setback.journal {changes : List Change} {done : List Occurrence} {reason : String}
    {fault : Fault} (setback : Setback ps tx changes done reason fault) :
    ∃ asked, asked <+: ps ∧ journalOf done = calls asked .persist := by
  have persists := journalOf_each (.persisted · (.ok true)) fun _ => rfl
  cases setback with
  | conflict => exact ⟨[], List.nil_prefix, rfl⟩
  | unchecked => exact ⟨[], List.nil_prefix, rfl⟩
  | @refused before after p answer split =>
      refine ⟨before ++ [p], ⟨after, by simp [split]⟩, ?_⟩
      rw [journalOf_append, journalOf_append, persists, calls, calls, List.map_append]
      rfl
  | outrun =>
      refine ⟨ps, List.prefix_rfl, ?_⟩
      rw [journalOf_append, journalOf_append, persists]
      exact List.append_nil _
  | broken =>
      refine ⟨ps, List.prefix_rfl, ?_⟩
      rw [journalOf_append, journalOf_append, persists]
      exact List.append_nil _

theorem TwoPhase.journal {occurrences : List Occurrence} {finished : Except Fault Unit}
    {status : Status} (phases : TwoPhase ps tx occurrences finished status) :
    finished = .ok () ∧ journalOf occurrences =
        calls ps .changes ++ calls ps .persist ++ [.committed tx] ++ calls ps .confirm ∨
      ∃ fault asked, finished = .error fault ∧ asked <+: ps ∧ journalOf occurrences =
        calls ps .changes ++ calls asked .persist ++ (calls ps .rollback ++ [.undone tx]) := by
  have tellings := journalOf_round .told fun _ _ => rfl
  cases phases with
  | @kept tells told =>
      refine .inl ⟨rfl, ?_⟩
      simp only [journalOf_append, tellings, told]
      rw [journalOf_each (.persisted · (.ok true)) fun _ => rfl,
        journalOf_each .confirmed fun _ => rfl]
      simp [journalOf, Occurrence.noted?]
  | @undone tells done reason fault rolls told setback rolled =>
      obtain ⟨asked, first, persisted⟩ := setback.journal
      refine .inr ⟨_, asked, rfl, first, ?_⟩
      rw [journalOf_append, journalOf_append, tellings, told, persisted, journalOf_withdrawal,
        rolled]

end Phases

namespace Cache

section Leaving

variable {base : Services (StateM ε)} {cache : Cache} {w : World (Journal (Ledger ε))}
  {c : ContextId} {tx : Transaction} {α : Type}

theorem leave_concludes (base : Services (StateM ε)) (cache : Cache)
    (current : (w.context c).current = some tx) (answer : Except Fault α) :
    let left := cache.leave base.audited c (failure answer) w
    ∃ status entries w', Finale (w.context c).participants tx answer
        (Context.finish base.audited c w).1 (result answer left.1.1) entries ∧
      Turns c (Context.leave status) entries w w' ∧ Calm w w' ∧
      (left.1.2, left.2) = cache.dismissContext base.audited w' := by
  have tells := audited_tells base
  cases answer with
  | ok value =>
      obtain ⟨occurrences, status, phases, told⟩ := tells.finishes current
      refine ⟨status, journalOf occurrences, (Context.finish base.audited c w).2, ?_⟩
      have turns : Turns c (Context.leave status) (journalOf occurrences) w
          (Context.finish base.audited c w).2 := ⟨told.contexts, told.journal⟩
      refine ⟨?_, turns, told.calm, ?_⟩
      · unfold leave failure
        rcases phases.journal with ⟨finished, journal⟩ | ⟨fault, asked, finished, first, journal⟩
        · simp only [bind_apply, finished, journal]
          exact .committed value
        · simp only [bind_apply, finished, journal]
          exact .undone value fault first
      · unfold leave failure
        simp only [bind_apply]
        cases (Context.finish base.audited c w).1 <;> rfl
  | error fault =>
      obtain ⟨rolls, everybody, -, told⟩ := tells.withdrawing current fault.message
      have journal := journalOf_withdrawal tx rolls
      rw [everybody] at journal
      have aborted : ∃ w', Tallies (·.modify c (Context.leave (.aborted fault.message)))
          (withdrawal tx rolls) w w' ∧
          cache.leave base.audited c (some fault) w =
            ((some fault, (cache.dismissContext base.audited w').1),
              (cache.dismissContext base.audited w').2) := by
        unfold leave
        simp only [bind_apply]
        cases (Context.abort base.audited c fault.message w).1 with
        | ok done => exact ⟨_, told, rfl⟩
        | error failed => exact ⟨_, tells.quiet told (tells.report _ _), rfl⟩
      obtain ⟨w', told, leaves⟩ := aborted
      have turns : Turns c (Context.leave (.aborted fault.message))
          (calls (w.context c).participants .rollback ++ [.undone tx]) w w' :=
        ⟨told.contexts, journal ▸ told.journal⟩
      refine ⟨_, _, w', ?_, turns, told.calm, ?_⟩
      · rw [failure, leaves]
        exact .aborted fault _
      · rw [failure, leaves]
        rfl

end Leaving

/-! ## What has been dismissed -/

/-- An instance is held until it is closed, once, at the end. -/
structure Discharged (i : InstanceId) (before after : State ε) : Prop where
  held : i ∈ ids before.1.datasets
  kept : i ∉ releases before.2.ledger
  closed : ∃ events, after.2.ledger = before.2.ledger ++ events ∧
    closings i events = [after.2.time]
  unheld : i ∉ ids after.1.datasets
  untracked : after.1.tracker.holds i = false

section Dismissal

variable {base : Services (StateM ε)} {cache : Cache} {w : World (Journal (Ledger ε))}
  {c : ContextId} {key : Key} {r : Dataset}

structure Shelved (c : ContextId) (key : Key) (r : Dataset) (state : State ε) : Prop where
  stored : state.1.store.peek? key = some r
  queued : Participant.isIn r.id (state.2.context c).deferred = true

variable (base) in
theorem dismissContext_opened (opened : cache.context = some c) (w : World (Journal (Ledger ε))) :
    ∃ w', cache.dismissContext base.audited w = ((cache.endContext base.audited c w).1, w') ∧
      Books [] (cache.endContext base.audited c w).2 w' := by
  have logs := (audited_accountable base).report (cache.endContext base.audited c w).2
    ⟨.debug, .transactions, "Dismissed transaction context"⟩
  refine ⟨_, ?_, logs⟩
  unfold dismissContext
  rw [opened]
  rfl

theorem Settled.lets_go {state : State ε} (settled : Settled state) {i : InstanceId}
    (gone : i ∈ releases state.2.ledger) :
    i ∉ ids state.1.datasets ∧ state.1.tracker.holds i = false := by
  have unheld := settled.sound.balanced.not_held settled.fair.fresh gone
  refine ⟨unheld, Tracker.holds_eq_false_iff.2 fun key p found same => unheld ?_⟩
  obtain ⟨d, stored, -, own⟩ := settled.held found
  rw [← same, own]
  exact List.mem_map_of_mem (mem_datasets_of_stored stored)

variable (base) in
theorem Shelved.discharged (shelved : Shelved c key r (cache, w)) (settled : Settled (cache, w))
    (opened : cache.context = some c) :
    Discharged r.id (cache, w) (cache.dismissContext base.audited w) := by
  have accounts := audited_accountable base
  have settled' := endContext_settled accounts settled c
  have move : Move base.audited [] .dismissContext (cache, w) _ := .endContext rfl opened
  have last : Over c (cache, w) (cache.endContext base.audited c w) := endContext_over opened w
  obtain ⟨events, conserves⟩ := move.conserves accounts
  obtain ⟨-, -, ⟨w', more, turns, calm, books, late⟩, released⟩ := last
  obtain ⟨w'', dismisses, logs⟩ := dismissContext_opened base opened w
  have ledger := conserves.ledger
  obtain rfl : more = events := by
    rw [books.ledger, calm] at ledger
    exact List.append_cancel_left ledger
  have held : r.id ∈ ids cache.datasets :=
    List.mem_map_of_mem (mem_datasets_of_stored shelved.stored)
  have kept : r.id ∉ releases w.ledger := fun gone =>
    settled.sound.balanced.not_held settled.fair.fresh gone held
  have gone := released shelved.stored shelved.queued
  have once : (closings r.id more).length = 1 := by
    have bound := settled'.sound.balanced.bounded r.id
    have fresh := List.nodup_iff_count_le_one.1 settled'.fair.fresh r.id
    have plain : ∀ time, .closedExtra r.id time ∉ more := fun time member =>
      nomatch (conserves.apart r.id time member).1
    rw [ledger] at fresh
    rw [ledger, releases_append] at bound gone
    have some := List.count_pos_iff.2 ((List.mem_append.1 gone).resolve_left kept)
    rw [List.count_append] at bound
    rw [closings_length plain]
    omega
  obtain ⟨unheld, untracked⟩ := settled'.lets_go gone
  have now : closings r.id more = List.replicate (closings r.id more).length w'.time :=
    List.eq_replicate_of_mem fun time member => late r.id time member
  rw [once, ← books.time, ← logs.time] at now
  rw [dismisses]
  exact ⟨held, kept, ⟨more, logs.calm.trans ledger, now⟩, unheld, untracked⟩

variable (base) in
theorem dismissContext_silent (opened : cache.context = some c) (inside : c < w.contexts.length)
    (unused : (w.context c).current = none) :
    let after := cache.dismissContext base.audited w
    after.2.journal = w.journal ∧ (after.2.context c).isClosed = true := by
  obtain ⟨w', events, turns, -, books, -⟩ := endContext_turns base cache c w
  obtain ⟨w'', dismisses, logs⟩ := dismissContext_opened base opened w
  have silent : farewell (w.context c) = [] := by
    unfold farewell
    rw [unused]
    split
    next same => cases same
    next => rfl
  have journal : w'.journal = w.journal ++ farewell (w.context c) := turns.entries
  rw [silent, List.append_nil] at journal
  rw [dismisses]
  refine ⟨(logs.journal.trans books.journal).trans journal, ?_⟩
  have last : w''.context c = shut (w.context c) := by
    rw [logs.adds.context, books.adds.context, turns.context inside]
  exact congrArg Context.isClosed last

theorem Discharged.calm {i : InstanceId} {w' : World (Journal (Ledger ε))} {after : State ε}
    (discharged : Discharged i (cache, w') after) (calm : Calm w w') :
    Discharged i (cache, w) after := by
  obtain ⟨held, kept, closed, unheld, untracked⟩ := discharged
  have same : w'.ledger = w.ledger := calm
  dsimp only at kept closed
  rw [same] at kept closed
  exact ⟨held, kept, closed, unheld, untracked⟩

end Dismissal

/-! ## Bodies that leave the contexts alone -/

/-- An action has to do with datasets and extra participants only.  What it dismisses is known
for what it is, if it is known. -/
def Action.Plain (datasets : List Dataset) : Action → Prop
  | .get _ _ _ | .addExtra _ | .removeExtra _ => True
  | .dismiss r => ∀ known ∈ datasets, known.id = r.id → known = r
  | _ => False

section Plain

variable {base : Services (StateM ε)} {L : List Dataset} {action : Action}
  {before after : State ε} {c : ContextId} {tx : Transaction} {past : List Entry} {key : Key}
  {r : Dataset}

theorem Action.Plain.ends (plain : action.Plain L) (running : List ContextId) :
    action.ends running = false := by
  cases action <;> first | rfl | exact plain.elim

theorem Action.Plain.unused (plain : action.Plain L) (operation : Operation) :
    action ≠ .use operation := by
  rintro rfl
  exact plain

theorem Move.stays (move : Move base.audited [] action before after) (plain : action.Plain L)
    (opened : before.1.context = some c) (known : r ∈ L) (capable : r.participant.isSome = true)
    (stored : before.1.store.peek? key = some r) : after.1.store.peek? key = some r := by
  have goes : action.ends [] ≠ true := by simp [plain.ends]
  cases move with
  | @load cache w typeName place dataset asked living dynamic absent loaded =>
      have different : key ≠ place := by
        rintro rfl
        rw [absent] at stored
        cases stored
      simpa [keeping, Store.peek?, different] using stored
  | @release cache w dataset asked dynamic idle =>
      have other : dataset.id ≠ r.id := by
        rintro same
        subst asked
        rcases idle with unopened | incapable | absent
        · rw [unopened] at opened
          cases opened
        · obtain rfl := plain r known same.symm
          rw [incapable] at capable
          cases capable
        · exact Store.holds_eq_false_iff.1 absent key r stored same.symm
      exact (letGo_keeps base stored other).stored
  | @addExtra cache w p asked =>
      obtain ⟨extras, same⟩ := addExtra_rest cache p w base.audited
      rw [same]
      exact stored
  | @removeExtra cache w p asked =>
      obtain ⟨extras, same⟩ := removeExtra_rest cache p w
      rw [same]
      exact stored
  | endContext ends | openContext ends | reset ends => exact absurd ends goes
  | closeExtras asked | retire asked | closeLoader asked => subst asked; exact plain.elim
  | _ => exact stored

theorem Move.shelved (move : Move base.audited [] action before after) (plain : action.Plain L)
    (ongoing : Ongoing c tx past before) (known : r ∈ L) (capable : r.participant.isSome = true)
    (shelved : Shelved c key r before) : Shelved c key r after := by
  refine ⟨move.stays plain ongoing.opened known capable shelved.stored, ?_⟩
  rcases ongoing.upshot (by simp) plain.unused move.upshot with ⟨-, queued⟩ | ⟨ends, -⟩
  · exact queued r.id shelved.queued
  · rw [plain.ends] at ends
    cases ends

end Plain

section Sound

variable {base : Services (StateM ε)} {L : List Dataset} {running : List ContextId}
  {action : Action} {before after : State ε}

theorem FairWithin.calm {w w' : World (Journal (Ledger ε))} (within : FairWithin L w')
    (calm : Calm w w') : FairWithin L w := by
  have same : w'.ledger = w.ledger := calm
  obtain ⟨fair, known⟩ := within
  rw [FairSoFar, same] at fair
  rw [same] at known
  exact ⟨fair, known⟩

theorem Move.within (move : Move base.audited running action before after)
    (within : FairWithin L after.2) : FairWithin L before.2 := by
  obtain ⟨events, conserves⟩ := move.conserves (audited_accountable base)
  exact conserves.within within

def SoundWithin (L : List Dataset) (state : State ε) : Prop := FairWithin L state.2 → Sound state

theorem SoundWithin.move (sound : SoundWithin L before)
    (move : Move base.audited running action before after) : SoundWithin L after := by
  intro within
  have sofar := move.within within
  exact move.sound (audited_accountable base) ⟨sound sofar, sofar.fair⟩

theorem SoundWithin.working {cache : Cache} {w : World (Journal (Ledger ε))}
    (sound : SoundWithin L (cache, w)) (change : ε → ε) :
    SoundWithin L (cache, w.working change) := by
  intro within
  have before := sound (within.calm (books_working w change).calm)
  exact ⟨⟨before.balanced.known, before.balanced.bounded⟩, before.synced⟩

variable (base) in
theorem Program.run_within {α : Type} (program : Program ε α) {cache : Cache}
    {w : World (Journal (Ledger ε))} :
    FairWithin L (program.run base.audited cache w).2 → FairWithin L w :=
  run_induct base.audited (P := fun state => FairWithin L state.2 → FairWithin L w)
    (fun change sofar within => sofar (within.calm (books_working _ change).calm))
    (fun move sofar within => sofar (move.within within)) program id

end Sound

section Programs

variable {base : Services (StateM ε)} {L : List Dataset} {c : ContextId} {tx : Transaction}
  {past : List Entry} {α : Type} {cache : Cache} {w : World (Journal (Ledger ε))}
  {P : State ε → Prop}

/-- In the course of a body its transaction goes on, and the cache is in order. -/
structure Going (L : List Dataset) (c : ContextId) (tx : Transaction) (past : List Entry)
    (P : State ε → Prop) (state : State ε) : Prop where
  ongoing : Ongoing c tx past state
  sound : SoundWithin L state
  holds : P state

section Going

variable
  (works : ∀ {cache w} change, P (cache, w) → P (cache, w.working change))
  (moves : ∀ {action before after}, Action.Plain L action → Ongoing c tx past before →
    Move base.audited [] action before after → P before → P after)

include works in
omit base in
theorem Going.working (going : Going L c tx past P (cache, w)) (change : ε → ε) :
    Going L c tx past P (cache, w.working change) :=
  ⟨going.ongoing.adds (books_working _ change).adds rfl, going.sound.working change,
    works change going.holds⟩

include moves

variable (base) in
theorem run_going {action : Action} (plain : action.Plain L)
    (going : Going L c tx past P (cache, w)) :
    let after := Session.run base.audited { cache } action w
    Going L c tx past P (after.1.2.cache, after.2) := by
  refine Cache.run_induct base.audited { cache } action w going fun move going => ?_
  refine ⟨?_, going.sound.move move, moves plain going.ongoing move going.holds⟩
  rcases going.ongoing.upshot (by simp) plain.unused move.upshot with ⟨still, -⟩ | ⟨ends, -⟩
  · exact still
  · rw [plain.ends] at ends
    cases ends

include works

theorem Program.run_going (program : Program ε α)
    (obeys : program.Obeys base.audited (fun _ => Action.Plain L) cache w)
    (going : Going L c tx past P (cache, w)) :
    let ran := program.run base.audited cache w
    Going L c tx past P (ran.1.2, ran.2) := by
  refine passes_keeps (P := Going L c tx past P) (fun change going => going.working works change)
    (fun _ => False) ?_ ?_ ?_ program obeys going (passes_end _ _ _ _)
  · exact fun _ plain going => Cache.run_going base moves plain going
  · exact fun plain => plain.elim
  · exact fun _ own => own.elim

end Going

theorem dismiss_shelves {r : Dataset} (ongoing : Ongoing c tx past (cache, w))
    (sound : Sound (cache, w)) (within : FairWithin L w) (plain : (Action.dismiss r).Plain L)
    (holds : cache.store.holds r.id = true) (capable : r.participant.isSome = true) :
    let after := Session.run base.audited { cache } (.dismiss r) w
    r ∈ L ∧ ∃ key, Shelved c key r (after.1.2.cache, after.2) := by
  have settled : Settled (cache, w) := ⟨sound, within.fair⟩
  obtain ⟨d, stored, same⟩ := List.any_eq_true.1 holds
  obtain ⟨key, stored⟩ := Table.mem_values_iff.1 stored
  have held := mem_datasets_of_stored stored
  have known := within.known d (sound.balanced.known d held)
  obtain rfl := plain d known (beq_iff_eq.1 same)
  obtain ⟨p, able⟩ := Option.isSome_iff_exists.1 capable
  have own := sound.balanced.own within.fair held able
  obtain ⟨e, queues⟩ := dismiss_queues base.audited (settled.dynamic stored) ongoing.opened able
    holds w
  have logs := (audited_accountable base).report w e
  have after : Session.run base.audited { cache } (.dismiss d) w = ((.done,
      { cache := cache.untracking d.id }), (Context.defer c p (base.audited.report e w).2).2) := by
    simp only [Session.run, bind_apply, pure_apply, queues]
  have inside : c < (base.audited.report e w).2.contexts.length := by
    rw [logs.contexts]
    exact ongoing.inside
  have place : (Context.defer c p (base.audited.report e w).2).2.context c =
      queue p ((base.audited.report e w).2.context c) := World.context_update_self inside
  rw [after]
  refine ⟨known, key, stored, ?_⟩
  rw [place, queue, Participant.isIn_addTo, own]
  simp

theorem run_shelves {r : Dataset} {point : State ε} (program : Program ε α)
    (obeys : program.Obeys base.audited (fun _ => Action.Plain L) cache w)
    (going : Going L c tx past (fun _ => True) (cache, w))
    (within : FairWithin L (program.run base.audited cache w).2)
    (passed : program.Passes base.audited point (some (.dismiss r)) cache w)
    (holds : point.1.store.holds r.id = true) (capable : r.participant.isSome = true) :
    let ran := program.run base.audited cache w
    ∃ key, Shelved c key r (ran.1.2, ran.2) := by
  induction program generalizing cache w with
  | done answer => cases passed.2
  | look next ih => exact ih cache w.bare obeys going within passed
  | work change next ih =>
      rcases passed with ⟨-, none⟩ | passed
      · cases none
      · exact ih obeys (going.working (fun _ => id) change) within passed
  | act action whole next ih =>
      obtain ⟨plain, obeys⟩ := obeys
      have going' := run_going base (fun _ _ _ => id) plain going
      rcases passed with ⟨rfl, same⟩ | passed
      · obtain rfl := Option.some.inj same
        have after : FairWithin L (Session.run base.audited { cache } (.dismiss r) w).2 :=
          Program.run_within base (next _) within
        have before := run_within after
        obtain ⟨known, key, shelved⟩ :=
          dismiss_shelves going.ongoing (going.sound before) before plain holds capable
        refine ⟨key, (Program.run_going (P := Shelved c key r) ?_ ?_ (next _) obeys
          ⟨going'.ongoing, going'.sound, shelved⟩).holds⟩
        · exact fun _ shelved => ⟨shelved.stored, shelved.queued⟩
        · exact fun plain ongoing move => move.shelved plain ongoing known capable
      · exact ih _ obeys going' within passed
  | execute body next inner ih => exact obeys.1.elim

variable (base) in
theorem Going.leaves (going : Going L c tx past P (cache, w)) (answer : Except Fault α) :
    let left := cache.leave base.audited c (failure answer) w
    (∃ entries, left.2.journal = w.journal ++ entries ∧
      Finale (w.context c).participants tx answer (Context.finish base.audited c w).1
        (result answer left.1.1) entries) ∧
    (left.2.context c).isClosed = true ∧
    (FairWithin L left.2 → ∀ {key r}, Shelved c key r (cache, w) →
      Discharged r.id (cache, w) (left.1.2, left.2)) := by
  intro left
  have ongoing := going.ongoing
  obtain ⟨status, entries, w', finale, turns, calm, dismisses⟩ :=
    leave_concludes base cache ongoing.current answer
  have inside : c < w'.contexts.length := by
    rw [turns.length]
    exact ongoing.inside
  have turned : w'.context c = Context.leave status (w.context c) := turns.context ongoing.inside
  obtain ⟨journal, closed⟩ := dismissContext_silent base ongoing.opened inside
    (by rw [turned]; rfl)
  have left_eq : (left.1.2, left.2) = cache.dismissContext base.audited w' := dismisses
  rw [← left_eq] at journal closed
  refine ⟨⟨entries, journal.trans turns.entries, finale⟩, closed, fun within key r shelved => ?_⟩
  have moves : Moves base.audited [] .dismissContext (cache, w') (left.1.2, left.2) :=
    left_eq ▸ dismissContext_moves base.audited [] rfl cache w'
  have within' : FairWithin L w' := moves.keeps (P := fun state => FairWithin L state.2 → _) id
    (fun move sofar within => sofar (move.within within)) within
  have before := within'.calm calm
  have settled : Settled (cache, w) := ⟨going.sound before, before.fair⟩
  have shelved' : Shelved c key r (cache, w') := by
    refine ⟨shelved.stored, ?_⟩
    rw [turned]
    exact shelved.queued
  have discharged := shelved'.discharged base (settled.calm calm rfl rfl rfl) ongoing.opened
  rw [← left_eq] at discharged
  exact discharged.calm calm

theorem body_concludes (program : Program ε α)
    (obeys : program.Obeys base.audited (fun _ => Action.Plain L) cache w)
    (going : Going L c tx past (fun _ => True) (cache, w)) :
    let ended := program.run base.audited cache w
    let ps := (ended.2.context c).participants
    let left := ended.1.2.leave base.audited c (failure ended.1.1) ended.2
    (ps.map (·.id)).Nodup ∧ ended.2.journal = past ++ .began tx :: calls ps (.start tx) ∧
      (∃ entries, left.2.journal = ended.2.journal ++ entries ∧
        Finale ps tx ended.1.1 (Context.finish base.audited c ended.2).1
          (result ended.1.1 left.1.1) entries) ∧
      (left.2.context c).isClosed = true ∧
      (FairWithin L left.2 → ∀ r point,
        program.Passes base.audited point (some (.dismiss r)) cache w →
        point.1.store.holds r.id = true → r.participant.isSome = true →
        Discharged r.id (ended.1.2, ended.2) (left.1.2, left.2)) := by
  intro ended ps left
  have went := program.run_going (fun _ => id) (fun _ _ _ => id) obeys going
  obtain ⟨finale, closed, discharges⟩ := went.leaves base ended.1.1
  refine ⟨went.ongoing.proper.distinct, went.ongoing.journal, finale, closed, ?_⟩
  intro within r point passed holds capable
  have moves : Moves base.audited [c] _ (ended.1.2, ended.2) (left.1.2, left.2) :=
    leave_moves base.audited [c] rfl List.mem_cons_self ended.1.2 ended.2
  have before := moves.keeps (P := fun state => FairWithin L state.2 → FairWithin L ended.2) id
    (fun move sofar within => sofar (move.within within)) within
  obtain ⟨key, shelved⟩ := run_shelves program obeys going before passed holds capable
  exact discharges within shelved

end Programs

/-! ## Whole runs -/

/-- What can become of a new cache, whatever is done with it and with contexts. -/
inductive Reachable (services : Services (Act (Journal (Ledger ε)))) :
    Cache → World (Journal (Ledger ε)) → Prop where
  | created {instantiator : InstantiatorId} {coordinator : CoordinatorId} {config : Config}
      {metrics : Option MetricsId} {contexts : List Context} {outside : ε} {cache : Cache}
      {w : World (Journal (Ledger ε))}
      (created : create services instantiator coordinator config metrics
        (.unwritten contexts outside) = (.ok cache, w)) : Reachable services cache w
  | acts {s : Session} {w : World (Journal (Ledger ε))} (reached : Reachable services s.cache w)
      (action : Action) :
      Reachable services (s.run services action w).1.2.cache (s.run services action w).2
  | works {cache : Cache} {w : World (Journal (Ledger ε))} (reached : Reachable services cache w)
      (change : ε → ε) : Reachable services cache (w.working change)

section Runs

variable {base : Services (StateM ε)} {L : List Dataset} {cache : Cache}
  {w : World (Journal (Ledger ε))} {α : Type}

theorem Reachable.sound (reached : Reachable base.audited cache w) :
    SoundWithin L (cache, w) := by
  induction reached with
  | created created => exact fun _ => create_sound (audited_accountable base) created
  | acts reached action ih =>
      exact Cache.run_induct base.audited _ action _ ih fun move sound => sound.move move
  | works reached change ih => exact ih.working change

/-- **A transaction for a body.**  A body gets, dismisses and changes datasets, adds and removes
extra participants, and leaves the contexts alone; loads are fair.  If the coordinator issues no
transaction, no body runs and its fault is the answer.  Else everybody who is enrolled when the
body is done has been told of the transaction, and it comes to one of the three ends that
`Finale` lists.  In each case no context is open any more.  What takes part in transactions
and was dismissed while it was stored is held until then and closed after all that, once. -/
theorem execute_commits_or_rolls_back (base : Services (StateM ε))
    (reached : Reachable base.audited cache w) (living : cache.closed = false)
    (program : Program ε α)
    (fair : FairSoFar (cache.execute base.audited (program.run base.audited) w).2)
    (plain : ∀ c opened begun, cache.enter base.audited w = ((.ok c, opened), begun) →
      program.Obeys base.audited (fun _ => Action.Plain
        (loads (cache.execute base.audited (program.run base.audited) w).2.ledger)) opened begun) :
    let services := base.audited
    let c := w.contexts.length
    let ran := cache.execute services (program.run services) w
    ran.1.2.context = none ∧
    ∃ opened w', cache.openContext services w = ((.ok c, opened), w') ∧
      ((∃ fault, ∃ left : State ε, (services.begin opened.coordinator w').1 = .error fault ∧
        ∀ (β : Type) (body : Cache → Act (Journal (Ledger ε)) (Except Fault β × Cache)),
          cache.execute services body w = ((.error fault, left.1), left.2)) ∨
      ∃ tx begun, (services.begin opened.coordinator w').1 = .ok tx ∧
        cache.enter services w = ((.ok c, opened), begun) ∧
        let ended := program.run services opened begun
        let ps := (ended.2.context c).participants
        (ps.map (·.id)).Nodup ∧
        ended.2.journal = w.journal ++ cache.parting w ++ .began tx :: calls ps (.start tx) ∧
        (∃ entries, ran.2.journal = ended.2.journal ++ entries ∧
          Finale ps tx ended.1.1 (Context.finish services c ended.2).1 ran.1.1 entries) ∧
        (ran.2.context c).isClosed = true ∧
        ∀ r point, program.Passes services point (some (.dismiss r)) opened begun →
          point.1.store.holds r.id = true → r.participant.isSome = true →
          Discharged r.id (ended.1.2, ended.2) (ran.1.2, ran.2)) := by
  intro services c ran
  obtain ⟨opened, w', opens, ⟨fault, left, refused, enters, unopened⟩ | ⟨tx, begun, issued, enters,
    ongoing, -⟩⟩ := enter_cases base w living
  · have refuses : ∀ (β : Type) (body : Cache → Act (Journal (Ledger ε)) (Except Fault β × Cache)),
        cache.execute services body w = ((.error fault, left.1), left.2) :=
      fun _ body => execute_refused enters body
    refine ⟨?_, opened, w', opens, .inl ⟨fault, left, refused, refuses⟩⟩
    have same : ran = ((.error fault, left.1), left.2) := refuses _ _
    rw [same]
    exact unopened
  · have same := execute_begun enters (program.run services)
    have moves := (enter_moves services [] rfl cache w).1
    rw [enters] at moves
    have sound : SoundWithin (loads ran.2.ledger) (opened, begun) :=
      moves.keeps reached.sound fun move sound => sound.move move
    obtain ⟨distinct, journal, finale, closed, discharges⟩ :=
      body_concludes program (plain c opened begun enters) ⟨ongoing, sound, trivial⟩
    have within : FairWithin (loads ran.2.ledger) ran.2 := ⟨fair, fun _ => id⟩
    have world : ran.2 = _ := congrArg Prod.snd same
    have ended := discharges (world.subst (motive := FairWithin (loads ran.2.ledger)) within)
    have run : ran = _ := same
    have unopened : ran.1.2.context = none := by
      rw [run]
      exact leave_unopened _ _ _ _
    refine ⟨unopened, opened, w', opens, .inr ⟨tx, begun, issued, enters, distinct, journal, ?_⟩⟩
    rw [run]
    exact ⟨finale, closed, ended⟩

end Runs

def housekeeper : Program Nat String :=
  .act (.get none (Key.named "users") false) rfl fun _ =>
    .act (.addExtra { id := 7, name := "audit" }) rfl fun _ => .work (· + 1) <|
      .act (.dismiss (table 2 "users")) rfl fun _ => .done (.ok "kept")

theorem housekeeper_loads :
    loads (minted.execute Services.minting.audited (housekeeper.run Services.minting.audited)
      (.unwritten [] 0)).2.ledger = [table 2 "users"] := by
  decide +kernel

theorem execute_commits_or_rolls_back_housekeeper :
    let services := Services.minting.audited
    let ran := minted.execute services (housekeeper.run services) (.unwritten [] 0)
    let ended := housekeeper.run services outset.1 outset.2
    Reachable services minted (.unwritten [] 0) ∧ FairSoFar ran.2 ∧
      housekeeper.Obeys services (fun _ => Action.Plain (loads ran.2.ledger)) outset.1 outset.2 ∧
      ran.1.2.context = none ∧
      failure ran.1.1 = none ∧
      (∃ tx entries, ran.2.journal = ended.2.journal ++ entries ∧
        Finale (ended.2.context 0).participants tx ended.1.1
          (Context.finish services 0 ended.2).1 ran.1.1 entries) ∧
      Discharged 2 (ended.1.2, ended.2) (ran.1.2, ran.2) := by
  have reached : Reachable Services.minting.audited minted (.unwritten [] 0) :=
    .created create_minted
  have fair : FairSoFar (minted.execute Services.minting.audited
      (housekeeper.run Services.minting.audited) (.unwritten [] 0)).2 := by
    rw [FairSoFar, housekeeper_loads]
    exact ⟨by decide, by simp [table]⟩
  have enters : minted.enter Services.minting.audited (.unwritten [] 0) =
      ((.ok 0, outset.1), outset.2) := rfl
  have plain : housekeeper.Obeys Services.minting.audited (fun _ => Action.Plain
      (loads (minted.execute Services.minting.audited
        (housekeeper.run Services.minting.audited) (.unwritten [] 0)).2.ledger)) outset.1 outset.2 := by
    rw [housekeeper_loads]
    exact ⟨trivial, trivial, by simp [Action.Plain, table], trivial⟩
  have issues : ∀ k w, ∃ tx, (Services.minting.audited.begin k w).1 = .ok tx := fun _ _ => ⟨_, rfl⟩
  obtain ⟨unopened, opened, w', -, ⟨fault, -, refused, -⟩ | ⟨tx, begun, -, entered, -, -, finale, -,
    discharges⟩⟩ := execute_commits_or_rolls_back Services.minting reached rfl housekeeper fair
      (fun c opened begun entered => by
        obtain ⟨begins, rfl⟩ := Prod.mk.inj (enters.symm.trans entered)
        obtain ⟨-, rfl⟩ := Prod.mk.inj begins
        exact plain)
  · obtain ⟨tx, issued⟩ := issues opened.coordinator w'
    cases refused.symm.trans issued
  · obtain ⟨begins, rfl⟩ := Prod.mk.inj (enters.symm.trans entered)
    obtain ⟨-, rfl⟩ := Prod.mk.inj begins
    refine ⟨reached, fair, plain, unopened, by decide +kernel, ⟨tx, finale⟩, ?_⟩
    exact discharges (table 2 "users") _ (.inr (.inr (.inr (.inl ⟨rfl, rfl⟩))))
      (by decide +kernel) rfl

end Cache

end DatasetCache
