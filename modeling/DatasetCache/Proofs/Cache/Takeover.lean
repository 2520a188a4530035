import DatasetCache.Proofs.Cache.Deferral
import DatasetCache.Proofs.Cache.Program
import DatasetCache.Proofs.Cache.Progress

/-!
# Transactions that are taken away

A body has the whole cache at its disposal, so it can end the context that it runs in, or
open another one in its place.  The transaction that was begun for it is then rolled back, no
context is left to commit it, and the run fails whatever the body says.
-/

namespace DatasetCache

open Act Context Relation

variable {ε : Type}

/-! ## On whose behalf somebody is called -/

theorem starts_prefix {ps qs : List Participant} {tx : Transaction} {rest : List Entry}
    (told : calls qs (.start tx) <+: calls ps (.start tx) ++ rest)
    (other : ∀ i, rest.head? ≠ some (.received i (.start tx))) :
    qs.map (·.id) <+: ps.map (·.id) := by
  induction qs generalizing ps with
  | nil => exact List.nil_prefix
  | cons q qs ih =>
      cases ps with
      | nil =>
          obtain ⟨more, same⟩ := told
          exact absurd (congrArg List.head? same).symm (other q.id)
      | cons p ps =>
          obtain ⟨same, told⟩ := List.cons_prefix_cons.1 told
          injection same with same
          exact List.cons_prefix_cons.2 ⟨same, ih told⟩

def HasStarted (i : InstanceId) (entries : List Entry) : Prop :=
  ∃ tx, .received i (.start tx) ∈ entries

theorem HasStarted.mono {i : InstanceId} {entries more : List Entry}
    (started : HasStarted i entries) (within : entries ⊆ more) : HasStarted i more := by
  obtain ⟨tx, member⟩ := started
  exact ⟨tx, within member⟩

theorem hasStarted_calls {ps : List Participant} {p : Participant} (member : p ∈ ps)
    (tx : Transaction) : HasStarted p.id (calls ps (.start tx)) :=
  ⟨tx, List.mem_map.2 ⟨p, member, rfl⟩⟩

/-- Every callback but a start goes to an instance that has been told, in the same entries, to
start a transaction.  It is not for a transaction from before. -/
def Introduced (entries : List Entry) : Prop :=
  ∀ n i callback, entries[n]? = some (.received i callback) → (∀ tx, callback ≠ .start tx) →
    HasStarted i (entries.take n)

namespace Introduced

variable {entries more : List Entry}

theorem nil : Introduced [] := nofun

theorem append (first : Introduced entries)
    (rest : ∀ i callback, .received i callback ∈ more → (∀ tx, callback ≠ .start tx) →
      HasStarted i entries) : Introduced (entries ++ more) := by
  intro n i callback found other
  rw [List.getElem?_append] at found
  split at found
  next inside =>
    have before : (entries ++ more).take n = entries.take n :=
      List.take_append_of_le_length (Nat.le_of_lt inside)
    rw [before]
    exact first n i callback found other
  next outside =>
    refine (rest i callback (List.mem_of_getElem? found) other).mono fun entry member => ?_
    rw [List.take_append, List.take_of_length_le (Nat.not_lt.1 outside)]
    exact List.mem_append_left _ member

theorem heard {ps : List Participant} (first : Introduced entries) (heard : Heard ps more)
    (told : ∀ p ∈ ps, HasStarted p.id entries) : Introduced (entries ++ more) := by
  refine first.append fun i callback member _ => ?_
  obtain ⟨p, present, same⟩ := List.any_eq_true.1 (heard i callback member)
  exact beq_iff_eq.1 same ▸ told p present

end Introduced

def Context.Initiated (context : Context) (entries : List Entry) : Prop :=
  context.current.isSome = true → ∀ p ∈ context.participants, HasStarted p.id entries

theorem Context.Initiated.mono {context : Context} {entries more : List Entry}
    (initiated : context.Initiated entries) (within : entries ⊆ more) : context.Initiated more :=
  fun underway p member => (initiated underway p member).mono within

theorem Context.Initiated.of_unused {context : Context} {entries : List Entry}
    (unused : context.current = none) : context.Initiated entries := by
  intro underway
  rw [unused] at underway
  cases underway

theorem Context.Way.introduces {context : Context} {f : Context → Context}
    {entries more : List Entry} (way : Way context f more) (first : Introduced entries)
    (initiated : context.Initiated entries) :
    Introduced (entries ++ more) ∧ (f context).Initiated (entries ++ more) := by
  have kept : ∀ others, context.Initiated (entries ++ others) := fun others =>
    initiated.mono (List.subset_append_left entries others)
  have rolled : ∀ {tx : Transaction}, context.current = some tx →
      Introduced (entries ++ (calls context.participants .rollback ++ [.undone tx])) := by
    intro tx current
    have heard : Heard context.participants
        (calls context.participants .rollback ++ [.undone tx]) :=
      (Heard.calls (fun _ => id) _).append (.cons (by simp) .nil)
    exact first.heard heard (initiated (by rw [current]; rfl))
  cases way with
  | idle => exact ⟨first.append (by simp), kept []⟩
  | queued p => exact ⟨first.append (by simp), kept []⟩
  | withdrawn p unused =>
      refine ⟨first.append (by simp), fun underway q member => ?_⟩
      exact kept [] underway q (List.mem_of_mem_filter member)
  | begun tx living unused =>
      refine ⟨first.append fun i callback member other => ?_, fun _ p member => ?_⟩
      · simp only [List.mem_cons, reduceCtorEq, false_or, calls, List.mem_map] at member
        obtain ⟨p, -, same⟩ := member
        injection same with _ same
        exact absurd same.symm (other tx)
      · exact (hasStarted_calls member tx).mono fun entry started =>
          List.mem_append_right _ (List.mem_cons_of_mem _ started)
  | finished current ending =>
      exact ⟨first.heard (.ending ending) (initiated (by rw [current]; rfl)), .of_unused rfl⟩
  | aborted reason current => exact ⟨rolled current, .of_unused rfl⟩
  | closed =>
      refine ⟨?_, .of_unused rfl⟩
      unfold farewell
      split
      next tx active current => exact rolled current
      next => exact first.append (by simp)
  | joined p living absent =>
      cases current : context.current with
      | none =>
          rw [greeting, current]
          exact ⟨first.append (by simp), fun underway => by simp [accept, current] at underway⟩
      | some tx =>
          rw [greeting, current]
          refine ⟨first.append fun i callback member other => ?_, fun _ q member => ?_⟩
          · rw [List.mem_singleton] at member
            injection member with _ same
            exact absurd same (other tx)
          · rcases List.mem_append.1 member with old | new
            · exact kept _ (by rw [current]; rfl) q old
            · rw [List.mem_singleton.1 new]
              exact ⟨tx, by simp⟩

namespace Cache

/-! ## A context that has been taken away -/

/-- A transaction that has been started and rolled back. -/
def vain (ps : List Participant) (tx : Transaction) : List Entry :=
  .began tx :: calls ps (.start tx) ++ (calls ps .rollback ++ [.undone tx])

/-- A context has been ended, with the transaction that was in progress there.  The contexts
that are used from then on are newer ones, and have transactions of their own. -/
structure Lost (c : ContextId) (tx : Transaction) (past : List Entry) (state : State ε) : Prop where
  later : ∀ {d}, state.1.context = some d → c < d
  inside : c < state.2.contexts.length
  unused : (state.2.context c).current = none
  story : ∃ ps after, (ps.map (·.id)).Nodup ∧
    state.2.journal = past ++ vain ps tx ++ after ∧ Introduced after ∧
    ∀ {d}, c < d → (state.2.context d).Initiated after

/-- An action uses contexts that exist, and only newer ones than a given one. -/
def Action.Later (c : ContextId) (w : World (Journal (Ledger ε))) (action : Action) : Prop :=
  ∀ operation, action = .use operation → c < operation.target ∧
    operation.target < w.contexts.length

theorem Action.later_use {c : ContextId} {w : World (Journal (Ledger ε))}
    {operation : Operation} : Action.Later c w (.use operation) ↔
      c < operation.target ∧ operation.target < w.contexts.length := by
  simp [Action.Later]

section Moves

variable {base : Services (StateM ε)} {running : List ContextId} {action : Action}
  {before after : State ε} {c d : ContextId} {tx : Transaction} {past : List Entry}

namespace Lost

theorem adds (lost : Lost c tx past before) (adds : Adds [] before.2 after.2)
    (context : after.1.context = before.1.context) : Lost c tx past after := by
  obtain ⟨later, inside, unused, ps, more, distinct, journal, introduced, initiated⟩ := lost
  refine ⟨fun opened => later (context ▸ opened), ?_, ?_, ps, more, distinct, ?_, introduced, ?_⟩
  · rw [adds.contexts]
    exact inside
  · rw [adds.context c]
    exact unused
  · exact (adds.entries.trans (List.append_nil _)).trans journal
  · intro d newer
    rw [adds.context d]
    exact initiated newer

theorem turns (lost : Lost c tx past before) (newer : c < d) {f : Context → Context}
    {entries : List Entry} (way : Way (before.2.context d) f entries)
    (turns : Turns d f entries before.2 after.2)
    (later : ∀ {e}, after.1.context = some e → c < e) : Lost c tx past after := by
  obtain ⟨-, inside, unused, ps, more, distinct, journal, introduced, initiated⟩ := lost
  obtain ⟨introduced', initiated'⟩ := way.introduces introduced (initiated newer)
  refine ⟨later, ?_, ?_, ps, more ++ entries, distinct, ?_, introduced', ?_⟩
  · rw [turns.length]
    exact inside
  · rcases turns.context_cases c with same | ⟨rfl, -⟩
    · rw [same]
      exact unused
    · exact absurd newer (Nat.lt_irrefl c)
  · rw [← List.append_assoc, ← journal]
    exact turns.entries
  · intro e behind
    rcases turns.context_cases e with same | ⟨rfl, -, changed⟩
    · rw [same]
      exact (initiated behind).mono (List.subset_append_left _ _)
    · rw [changed]
      exact initiated'

theorem works (lost : Lost c tx past before) (newer : c < d) {f : Context → Context}
    {entries : List Entry} (works : Works d f entries before after) : Lost c tx past after :=
  lost.turns newer works.way works.turns fun opened => lost.later (works.context ▸ opened)

theorem upshot (lost : Lost c tx past before) (own : ∀ d ∈ running, c < d)
    (later : action.Later c before.2) (upshot : Upshot base running action before after) :
    Lost c tx past after := by
  cases upshot with
  | quiet adds context => exact lost.adds adds context
  | tends opened works => exact lost.works (lost.later opened) works
  | settles inside works => exact lost.works (own _ inside) works
  | uses used works => exact lost.works (later _ used).1 works
  | ends ends opened turns unopened =>
      exact lost.turns (lost.later opened) .closed turns (by simp [unopened])
  | opens ends unopened opened =>
      obtain ⟨-, inside, unused, ps, more, distinct, journal, introduced, initiated⟩ := lost
      obtain ⟨length, same, others, -⟩ := openWith_opens base before.1 before.2
      have seeds := openWith_seeds base.audited before.1 before.2
      rw [opened]
      refine ⟨?_, ?_, ?_, ps, more, distinct, same.trans journal, introduced, ?_⟩
      · rintro _ ⟨⟩
        exact inside
      · rw [length]
        exact Nat.lt_succ_of_lt inside
      · rw [others c (Nat.ne_of_lt inside)]
        exact unused
      · intro e behind
        by_cases fresh : e = before.2.contexts.length
        · rw [fresh, seeds]
          exact nofun
        · rw [others e fresh]
          exact initiated behind

end Lost

theorem Ongoing.lost (ongoing : Ongoing c tx past before)
    (turns : Turns c shut (farewell (before.2.context c)) before.2 after.2)
    (unopened : after.1.context = none) : Lost c tx past after := by
  have active := ongoing.proper.consistent.active ongoing.current
  refine ⟨by simp [unopened], ?_, ?_, _, [], ongoing.proper.distinct, ?_, .nil, ?_⟩
  · rw [turns.length]
    exact ongoing.inside
  · rw [turns.context ongoing.inside]
    rfl
  · have journal : after.2.journal = before.2.journal ++ farewell (before.2.context c) :=
      turns.entries
    rw [journal, ongoing.journal, farewell, active, ongoing.current]
    simp [vain]
  · intro d newer
    have outside : after.2.contexts.length ≤ d := by
      rw [turns.length, ongoing.newest]
      exact newer
    rw [World.context_outside outside]
    exact .of_unused rfl

theorem Ongoing.among {state : State ε} (ongoing : Ongoing c tx past state)
    {ps : List Participant} {more : List Entry}
    (grows : state.2.journal <+: past ++ vain ps tx ++ more) :
    (state.2.context c).participants.map (·.id) <+: ps.map (·.id) := by
  have split : past ++ vain ps tx ++ more = past ++ .began tx ::
      (calls ps (.start tx) ++ (calls ps .rollback ++ .undone tx :: more)) := by
    simp [vain]
  rw [ongoing.journal, split, List.prefix_append_right_inj, List.cons_prefix_cons] at grows
  exact starts_prefix grows.2 (by cases ps <;> simp [calls])

/-- The transaction of a body goes on, or it has been taken away. -/
def Fate (c : ContextId) (tx : Transaction) (past : List Entry) (state : State ε) : Prop :=
  Ongoing c tx past state ∨ Lost c tx past state

theorem Fate.upshot (fate : Fate c tx past before) (own : ∀ d ∈ running, c < d)
    (later : action.Later c before.2) (upshot : Upshot base running action before after) :
    Fate c tx past after := by
  rcases fate with ongoing | lost
  · have unused : ∀ operation, action ≠ .use operation := by
      intro operation used
      obtain ⟨newer, inside⟩ := later operation used
      rw [ongoing.newest] at inside
      exact Nat.not_lt_of_le newer inside
    rcases ongoing.upshot own unused upshot with ⟨still, -⟩ | ⟨-, turns, unopened⟩
    · exact .inl still
    · exact .inr (ongoing.lost turns unopened)
  · exact .inr (lost.upshot own later upshot)

end Moves

/-! ## Whole programs -/

section Programs

variable {base : Services (StateM ε)} {cache : Cache} {w : World (Journal (Ledger ε))}
  {c : ContextId} {tx : Transaction} {past : List Entry} {α : Type}

theorem enter_newest (entered : (cache.enter base.audited w).1.1 = .ok c) :
    c = w.contexts.length := by
  cases closed : cache.closed with
  | true =>
      simp [enter, openContext, closed] at entered
  | false =>
      obtain ⟨next, w', -, ⟨fault, left, -, refused, -⟩ | ⟨tx, w'', -, enters, -⟩⟩ :=
        enter_cases base w closed
      · rw [refused] at entered
        cases entered
      · rw [enters] at entered
        cases entered
        rfl

theorem Fate.inside {state : State ε} (fate : Fate c tx past state) :
    c < state.2.contexts.length :=
  fate.elim Ongoing.inside Lost.inside

theorem Fate.moves {running : List ContextId} {action : Action} {before after : State ε}
    (fate : Fate c tx past before) (own : ∀ d ∈ running, c < d)
    (unused : ∀ operation, action ≠ .use operation)
    (moves : Moves base.audited running action before after) : Fate c tx past after :=
  moves.keeps fate fun move fate =>
    fate.upshot own (fun _ used => absurd used (unused _)) move.upshot

theorem passes_fate (program : Program ε α)
    (obeys : program.Obeys base.audited (Action.Later c) cache w)
    (fate : Fate c tx past (cache, w)) {state : State ε} {action : Option Action}
    (passed : program.Passes base.audited state action cache w) : Fate c tx past state := by
  have nobody : ∀ d ∈ ([] : List ContextId), c < d := by simp
  have works : ∀ {cache : Cache} {w : World (Journal (Ledger ε))} (change : ε → ε),
      Fate c tx past (cache, w) → Fate c tx past (cache, w.working change) := by
    intro cache w change fate
    have books := books_working w change
    exact fate.imp (·.adds books.adds rfl) (·.adds books.adds rfl)
  refine Program.passes_keeps works (c < ·) ?_ ?_ ?_ program obeys fate passed
  · intro cache w action whole later fate
    by_cases used : ∃ operation, action = .use operation
    · obtain ⟨operation, rfl⟩ := used
      exact fate.upshot nobody later (operate_upshot rfl)
    · exact fate.moves nobody (fun operation same => used ⟨operation, same⟩)
        (run_moves base.audited { cache } action w)
  · intro cache w later fate
    refine ⟨fate.moves nobody (by simp) (enter_moves base.audited [] rfl cache w).1, ?_⟩
    intro d entered
    show c < d
    rw [enter_newest entered]
    exact fate.inside
  · intro cache w d failure newer fate
    exact fate.moves (by simpa using newer) (by simp)
      (leave_moves base.audited [d] rfl List.mem_cons_self cache w)

theorem leave_unused (base : Services (StateM ε)) (cache : Cache)
    (unused : (w.context c).current = none) (failure : Option Fault) :
    cache.leave base.audited c failure w =
      ((some (failure.getD (.invalidState "no transaction in progress")),
        (cache.dismissContext base.audited w).1), (cache.dismissContext base.audited w).2) := by
  cases failure with
  | none =>
      have finishes : Context.finish base.audited c w =
          (.error (.invalidState "no transaction in progress"), w) := by
        rw [finish_eq, bind_apply, Context.read, unused]
        rfl
      unfold leave
      simp only [bind_apply, finishes]
      rfl
  | some fault =>
      have aborts : Context.abort base.audited c fault.message w = (.ok (), w) := by
        rw [abort_eq, bind_apply, Context.read, unused]
        rfl
      unfold leave
      simp only [bind_apply, aborts]
      rfl

/-- From a number on all contexts are closed, but for the one that the cache has open. -/
structure Tidy (n : Nat) (state : State ε) : Prop where
  proper : ∀ {d}, n ≤ d → (state.2.context d).Proper
  alone : ∀ {d}, n ≤ d → d < state.2.contexts.length → (state.2.context d).isClosed = false →
    state.1.context = some d

namespace Tidy

variable {n : Nat} {running : List ContextId} {action : Action} {before after : State ε}

theorem start (cache : Cache) (w : World (Journal (Ledger ε))) :
    Tidy w.contexts.length (cache, w) where
  proper outside := by
    rw [World.context_outside outside]
    exact ⟨rfl, List.nodup_nil⟩
  alone outside inside := absurd inside (Nat.not_lt_of_le outside)

theorem adds (tidy : Tidy n before) (adds : Adds [] before.2 after.2)
    (context : after.1.context = before.1.context) : Tidy n after where
  proper newer := by
    rw [adds.context]
    exact tidy.proper newer
  alone newer inside living := by
    rw [adds.contexts] at inside
    rw [adds.context] at living
    exact context.trans (tidy.alone newer inside living)

theorem turns {d : ContextId} {f : Context → Context} {entries : List Entry} (tidy : Tidy n before)
    (way : Way (before.2.context d) f entries) (turns : Turns d f entries before.2 after.2)
    {e : ContextId}
    (newer : n ≤ e) : (after.2.context e).Proper ∧ (e < after.2.contexts.length →
      (after.2.context e).isClosed = false → before.1.context = some e) := by
  have proper := tidy.proper newer
  rw [turns.length]
  rcases turns.context_cases e with same | ⟨rfl, -, changed⟩
  · rw [same]
    exact ⟨proper, tidy.alone newer⟩
  · have tame := way.tame proper
    rw [changed]
    refine ⟨tame.proper proper, fun inside living => tidy.alone newer inside ?_⟩
    rw [← Bool.not_eq_true] at living ⊢
    exact fun closed => living (tame.closed closed)

theorem works {d : ContextId} {f : Context → Context} {entries : List Entry} (tidy : Tidy n before)
    (works : Works d f entries before after) : Tidy n after where
  proper newer := (tidy.turns works.way works.turns newer).1
  alone newer inside living :=
    works.context.trans ((tidy.turns works.way works.turns newer).2 inside living)

theorem upshot (tidy : Tidy n before) (upshot : Upshot base running action before after) :
    Tidy n after := by
  cases upshot with
  | quiet adds context => exact tidy.adds adds context
  | tends opened works => exact tidy.works works
  | settles inside works => exact tidy.works works
  | uses used works => exact tidy.works works
  | ends ends opened turns unopened =>
      refine ⟨fun newer => (tidy.turns .closed turns newer).1, fun newer inside living => ?_⟩
      have same := (tidy.turns .closed turns newer).2 inside living
      obtain rfl := Option.some.inj (opened.symm.trans same)
      rw [turns.length] at inside
      rw [turns.context inside] at living
      cases living
  | opens ends unopened opened =>
      obtain ⟨length, -, others, -⟩ := openWith_opens base before.1 before.2
      have seeds := openWith_seeds base.audited before.1 before.2
      have distinct : ((before.1.members.foldl Participant.addTo []).map (·.id)).Nodup :=
        Participant.nodup_foldl_addTo (by simp) _
      rw [opened]
      refine ⟨fun {e} newer => ?_, fun {e} newer inside living => ?_⟩
      · by_cases fresh : e = before.2.contexts.length
        · rw [fresh, seeds]
          exact ⟨rfl, distinct⟩
        · rw [others e fresh]
          exact tidy.proper newer
      · by_cases fresh : e = before.2.contexts.length
        · rw [fresh]
          rfl
        · rw [others e fresh] at living
          rw [length] at inside
          have known := tidy.alone newer
            (Nat.lt_of_le_of_ne (Nat.le_of_lt_succ inside) fresh) living
          rw [unopened] at known
          cases known

theorem idle {state : State ε} (tidy : Tidy n state) (unopened : state.1.context = none)
    {d : ContextId} (newer : n ≤ d) : (state.2.context d).current = none := by
  by_cases inside : d < state.2.contexts.length
  · cases current : (state.2.context d).current with
    | none => rfl
    | some tx =>
        have opened := tidy.alone newer inside ((tidy.proper newer).living current)
        rw [unopened] at opened
        cases opened
  · rw [World.context_outside (Nat.not_lt.1 inside)]
    rfl

end Tidy

theorem execute_unopened (living : cache.closed = false)
    (body : Cache → Act (Journal (Ledger ε)) (Except Fault α × Cache)) :
    (cache.execute base.audited body w).1.2.context = none := by
  obtain ⟨next, w', -, ⟨fault, left, -, refused, unopened⟩ | ⟨tx, w'', -, enters, -⟩⟩ :=
    enter_cases base w living
  · rw [execute_refused refused]
    exact unopened
  · rw [execute_begun enters]
    exact leave_unopened _ _ _ _

theorem passes_grows (program : Program ε α) {opened : Cache} {begun : World (Journal (Ledger ε))}
    (entered : cache.enter base.audited w = ((.ok c, opened), begun)) {state : State ε}
    {action : Option Action} (passed : program.Passes base.audited state action opened begun) :
    state.2.journal <+:
      (cache.execute base.audited (program.run base.audited) w).2.journal := by
  have ended := Program.passes_induct base.audited
    (P := fun next : State ε => state.2.journal <+: next.2.journal)
    (fun change grown => grown) (fun move grown => grown.trans move.upshot.grows)
    program passed (List.prefix_refl _)
  rw [execute_begun entered]
  exact (leave_moves base.audited [c] rfl List.mem_cons_self _ _).keeps
    (P := fun next : State ε => state.2.journal <+: next.2.journal) ended
    fun move grown => grown.trans move.upshot.grows

theorem execute_taken (program : Program ε α) {opened : Cache}
    {begun : World (Journal (Ledger ε))}
    (entered : cache.enter base.audited w = ((.ok c, opened), begun))
    (ongoing : Ongoing c tx past (opened, begun))
    (obeys : program.Obeys base.audited (Action.Later c) opened begun)
    (taken : (program.run base.audited opened begun).1.2.context ≠ some c) :
    let ran := cache.execute base.audited (program.run base.audited) w
    ran.1.1 = .error ((failure (program.run base.audited opened begun).1.1).getD
      (.invalidState "no transaction in progress")) ∧ Lost c tx past (ran.1.2, ran.2) := by
  generalize ends : program.run base.audited opened begun = ended at taken ⊢
  have fate := passes_fate program obeys (.inl ongoing) (program.passes_end base.audited opened begun)
  rw [ends] at fate
  have lost : Lost c tx past (ended.1.2, ended.2) :=
    fate.resolve_left fun still => taken still.opened
  have moves : Moves base.audited [] .dismissContext (ended.1.2, ended.2) _ :=
    dismissContext_moves base.audited [] rfl ended.1.2 ended.2
  have gone : Lost c tx past (ended.1.2.dismissContext base.audited ended.2) :=
    moves.keeps lost fun move lost => lost.upshot (by simp) (by simp [Action.Later]) move.upshot
  have left := leave_unused base ended.1.2 lost.unused (failure ended.1.1)
  dsimp only at left
  simp only [execute_begun entered, ends, left]
  exact ⟨rfl, gone⟩

/-- **No success without the transaction.**  Whatever a body does with the cache, with contexts
and in transactions within, no context is open when the run is over, and none that was opened
in the course of it is in a transaction.  If the body uses only contexts that were opened after
its own, and its own one is not open any more when it is done, then the run fails whatever the
body answers.  The transaction that was begun for the body has been rolled back by everybody
who was told to start it, once, and is over at that; what follows are calls for others.  Who was
enrolled in the context at any time while it was open is among them. -/
theorem no_success_without_transaction (base : Services (StateM ε)) {cache : Cache}
    (living : cache.closed = false) (w : World (Journal (Ledger ε))) (program : Program ε α) :
    let services := base.audited
    let ran := cache.execute services (program.run services) w
    (ran.1.2.context = none ∧
      ∀ c, w.contexts.length ≤ c → (ran.2.context c).current = none) ∧
    ∀ c opened begun, cache.enter services w = ((.ok c, opened), begun) →
      program.Obeys services (Action.Later c) opened begun →
      let ended := program.run services opened begun
      ended.1.2.context ≠ some c →
      ran.1.1 = .error ((failure ended.1.1).getD (.invalidState "no transaction in progress")) ∧
      ∃ tx ps after, (begun.context c).current = some tx ∧ (ps.map (·.id)).Nodup ∧
        ran.2.journal = w.journal ++ cache.parting w ++ vain ps tx ++ after ∧
        Introduced after ∧
        ∀ state action, program.Passes services state action opened begun →
          state.1.context = some c →
          (state.2.context c).participants.map (·.id) <+: ps.map (·.id) := by
  intro services ran
  have unopened : ran.1.2.context = none := execute_unopened living _
  refine ⟨⟨unopened, fun c newer => ?_⟩, ?_⟩
  · have whole : Tidy w.contexts.length (ran.1.2, ran.2) :=
      Program.run_induct base.audited (P := Tidy w.contexts.length)
        (fun change tidy => tidy.adds (books_working _ change).adds rfl)
        (fun move tidy => tidy.upshot move.upshot) (.execute program .done) (.start cache w)
    exact whole.idle unopened newer
  · intro c opened begun entered obeys ended taken
    obtain ⟨next, w', -, ⟨fault, left, -, refused, -⟩ | ⟨tx, w'', -, enters, ongoing, -⟩⟩ :=
      enter_cases base w living
    · rw [refused] at entered
      cases entered
    · obtain ⟨begins, rfl⟩ := Prod.mk.inj (entered.symm.trans enters)
      obtain ⟨answers, rfl⟩ := Prod.mk.inj begins
      obtain rfl := Except.ok.inj answers
      obtain ⟨failed, -, -, -, ps, after, distinct, journal, introduced, -⟩ :=
        execute_taken program entered ongoing obeys taken
      refine ⟨failed, tx, ps, after, ongoing.current, distinct, journal, introduced,
        fun state action passed still => ?_⟩
      have here : Ongoing w.contexts.length tx (w.journal ++ cache.parting w) state :=
        (passes_fate program obeys (.inl ongoing) passed).resolve_right
          fun lost => Nat.lt_irrefl _ (lost.later still)
      have grows := passes_grows program entered passed
      exact here.among (journal ▸ grows)

end Programs

def usurper : Program Nat String :=
  .act (.get none (Key.named "orders") false) rfl fun _ => .act .openContext rfl fun _ =>
    .act (.use (.start 1)) rfl fun _ => .act (.use (.finish 1)) rfl fun _ => .done (.ok "fine")

theorem no_success_without_transaction_usurper :
    let services := Services.minting.audited
    let ran := minted.execute services (usurper.run services) (.unwritten [] 0)
    minted.closed = false ∧
      minted.enter services (.unwritten [] 0) = ((.ok 0, outset.1), outset.2) ∧
      usurper.Obeys services (Action.Later 0) outset.1 outset.2 ∧
      (usurper.run services outset.1 outset.2).1.2.context ≠ some 0 ∧
      ran.1.1 = .error (.invalidState "no transaction in progress") ∧
      ∃ tx ps after, (ps.map (·.id)).Nodup ∧ ran.2.journal = vain ps tx ++ after ∧
        Introduced after := by
  have obeys : usurper.Obeys Services.minting.audited (Action.Later 0) outset.1 outset.2 := by
    simp only [usurper, Program.Obeys, Action.later_use]
    exact ⟨nofun, nofun, by decide +kernel, by decide +kernel, trivial⟩
  have taken : (usurper.run Services.minting.audited outset.1 outset.2).1.2.context ≠ some 0 := by
    decide +kernel
  have answered : failure (usurper.run Services.minting.audited outset.1 outset.2).1.1 = none := by
    decide +kernel
  have living : minted.closed = false := rfl
  obtain ⟨failed, tx, ps, after, -, distinct, journal, introduced, -⟩ :=
    (no_success_without_transaction Services.minting living (.unwritten [] 0) usurper).2
      0 outset.1 outset.2 rfl obeys taken
  rw [answered] at failed
  exact ⟨living, rfl, obeys, taken, failed, tx, ps, after, distinct, journal, introduced⟩

end Cache

end DatasetCache
