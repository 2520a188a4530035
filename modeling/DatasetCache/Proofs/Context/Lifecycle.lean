import DatasetCache.Proofs.Context.Effects

/-!
# The lifecycle of participants

Participants that call no context back see a transaction as a block of callbacks: they
are told that it starts, and then either it is undone, at any point, or they report their
changes, persist and are told of the commit.  The journal of a context falls into rounds,
one for each transaction, and in a round all participants see the same outcome.
-/

namespace DatasetCache

open Act Context

variable {ε : Type}

/-! ## Blocks and rounds -/

inductive Fate where
  | kept
  | undone
  deriving DecidableEq, Repr

/-- What a participant of a transaction can have received when the transaction is over. -/
def Fate.blocks (tx : Transaction) : Fate → List (List Callback)
  | .kept => [[.start tx, .changes, .persist, .confirm]]
  | .undone =>
    [[.start tx, .rollback], [.start tx, .changes, .rollback],
      [.start tx, .changes, .persist, .rollback]]

def Fate.entry (tx : Transaction) : Fate → Entry
  | .kept => .committed tx
  | .undone => .undone tx

def Entry.isCallback : Entry → Bool
  | .received _ _ => true
  | _ => false

def coordination (entries : List Entry) : List Entry :=
  entries.filter fun entry => !entry.isCallback

structure Round where
  tx : Transaction
  fate : Fate
  entries : List Entry

/-- The transaction is issued once and settled once, and whoever took part in it has seen
a whole block with the outcome of the round. -/
structure Round.Sound (round : Round) : Prop where
  coordination : coordination round.entries = [.began round.tx, round.fate.entry round.tx]
  callbacks : ∀ i, callbacksOf i round.entries = [] ∨
    callbacksOf i round.entries ∈ round.fate.blocks round.tx

/-- What stands in the journal after the last round belongs to the transaction in progress. -/
def Unsettled (context : Context) (entries : List Entry) : Prop :=
  entries = [] ∨ ∃ tx, context.status = .active ∧ context.current = some tx ∧
    coordination entries = [.began tx] ∧
    ∀ i, callbacksOf i entries = [] ∨ callbacksOf i entries = [.start tx]

@[simp] theorem coordination_append (entries more : List Entry) :
    coordination (entries ++ more) = coordination entries ++ coordination more := by
  simp [coordination]

@[simp] theorem coordination_nil : coordination [] = [] := rfl

@[simp] theorem coordination_began (tx : Transaction) (entries : List Entry) :
    coordination (.began tx :: entries) = .began tx :: coordination entries := rfl

@[simp] theorem coordination_committed (tx : Transaction) (entries : List Entry) :
    coordination (.committed tx :: entries) = .committed tx :: coordination entries := rfl

@[simp] theorem coordination_undone (tx : Transaction) (entries : List Entry) :
    coordination (.undone tx :: entries) = .undone tx :: coordination entries := rfl

@[simp] theorem coordination_calls (ps : List Participant) (callback : Callback) :
    coordination (calls ps callback) = [] := by
  simp [coordination, calls, Entry.isCallback]

/-! ## Rounds are sound -/

def underway (context : Context) : List Entry :=
  match context.current with
  | none => []
  | some tx => .began tx :: calls context.participants (.start tx)

section Rounds

variable {ps : List Participant} (distinct : (ps.map (·.id)).Nodup) (tx : Transaction)

include distinct

theorem sound_aborted :
    Round.Sound ⟨tx, .undone,
      (.began tx :: calls ps (.start tx)) ++ (calls ps .rollback ++ [.undone tx])⟩ := by
  constructor
  · simp [Fate.entry]
  · intro i
    by_cases present : Participant.isIn i ps = true
    · right
      simp [callbacksOf_calls distinct, present, Fate.blocks]
    · left
      simp [callbacksOf_calls distinct, present]

theorem sound_ending {status : Context.Status} {entries : List Entry}
    (ending : Ending ps tx status entries) :
    ∃ fate, Round.Sound ⟨tx, fate, (.began tx :: calls ps (.start tx)) ++ entries⟩ := by
  cases ending with
  | kept =>
      refine ⟨.kept, ?_, fun i => ?_⟩
      · simp [Fate.entry]
      · by_cases present : Participant.isIn i ps = true
        · right
          simp [callbacksOf_calls distinct, present, Fate.blocks]
        · left
          simp [callbacksOf_calls distinct, present]
  | @undone asked reason first =>
      have distinct' : (asked.map (·.id)).Nodup :=
        distinct.sublist (first.sublist.map _)
      have within : ∀ i, Participant.isIn i asked = true → Participant.isIn i ps = true := by
        intro i
        simp only [Participant.isIn, List.any_eq_true]
        rintro ⟨p, member, same⟩
        exact ⟨p, first.subset member, same⟩
      refine ⟨.undone, ?_, fun i => ?_⟩
      · simp [Fate.entry]
      · by_cases present : Participant.isIn i ps = true
        · right
          by_cases persisted : Participant.isIn i asked = true
          · simp [callbacksOf_calls distinct, callbacksOf_calls distinct', present, persisted,
              Fate.blocks]
          · simp [callbacksOf_calls distinct, callbacksOf_calls distinct', present, persisted,
              Fate.blocks]
        · left
          have unpersisted : Participant.isIn i asked = false :=
            Bool.eq_false_iff.2 fun h => present (within i h)
          simp [callbacksOf_calls distinct, callbacksOf_calls distinct', present, unpersisted]

end Rounds

/-! ## The invariant -/

structure Chronicle (context : Context) (entries : List Entry) : Prop where
  active : context.Consistent
  distinct : (context.participants.map (·.id)).Nodup
  rounds : ∃ rounds : List Round, entries = rounds.flatMap Round.entries ++ underway context ∧
    ∀ round ∈ rounds, round.Sound

namespace Chronicle

variable {context next : Context} {entries more : List Entry}

theorem settle {tx : Transaction} (chronicle : Chronicle context entries)
    (current : context.current = some tx)
    (sound : ∃ fate, Round.Sound ⟨tx, fate,
      (.began tx :: calls context.participants (.start tx)) ++ more⟩)
    (status : Context.Status) (inactive : status ≠ .active) :
    Chronicle (context.leave status) (entries ++ more) := by
  refine ⟨by simp [Consistent, leave, isActive, inactive], chronicle.distinct, ?_⟩
  obtain ⟨rounds, same, sounds⟩ := chronicle.rounds
  obtain ⟨fate, sound⟩ := sound
  refine ⟨rounds ++ [⟨tx, fate, (.began tx :: calls context.participants (.start tx)) ++ more⟩],
    ?_, ?_⟩
  · simp [same, underway, current, leave]
  · intro round member
    rcases List.mem_append.1 member with member | member
    · exact sounds round member
    · obtain rfl := List.mem_singleton.1 member
      exact sound

theorem join (chronicle : Chronicle context entries) (p : Participant)
    (absent : context.has p = false) :
    Chronicle (context.accept p) (entries ++ match context.current with
      | none => []
      | some tx => [.received p.id (.start tx)]) := by
  refine ⟨chronicle.active, ?_, ?_⟩
  · have fresh : p.id ∉ context.participants.map (·.id) := by
      intro member
      obtain ⟨q, member, same⟩ := List.mem_map.1 member
      have present := Participant.isIn_of_mem member
      rw [same] at present
      rw [has, present] at absent
      contradiction
    have distinct := chronicle.distinct
    simp only [accept, List.map_append, List.map_cons, List.map_nil]
    refine List.nodup_append.2 ⟨distinct, by simp, ?_⟩
    rintro i member j other rfl
    obtain rfl := List.mem_singleton.1 other
    exact fresh member
  · obtain ⟨rounds, same, sounds⟩ := chronicle.rounds
    refine ⟨rounds, ?_, sounds⟩
    cases current : context.current with
    | none => simp [same, underway, accept, current]
    | some tx => simp [same, underway, accept, current, calls]

theorem begin (chronicle : Chronicle context entries) (inactive : context.isActive = false)
    (tx : Transaction) :
    Chronicle (context.enter tx)
      (entries ++ (.began tx :: calls context.participants (.start tx))) := by
  have unused : context.current = none := chronicle.active.unused_iff.2 inactive
  obtain ⟨rounds, same, sounds⟩ := chronicle.rounds
  refine ⟨by simp [Consistent, enter, isActive], chronicle.distinct, rounds, ?_, sounds⟩
  simp [same, underway, unused, enter]

theorem idle (chronicle : Chronicle context entries) (unused : context.current = none)
    (still : next.current = none) (inactive : next.isActive = false)
    (distinct : (next.participants.map (·.id)).Nodup) : Chronicle next entries := by
  refine ⟨by rw [Consistent, inactive, still]; rfl, distinct, ?_⟩
  obtain ⟨rounds, same, sounds⟩ := chronicle.rounds
  exact ⟨rounds, by simpa [underway, unused, still] using same, sounds⟩

end Chronicle

/-! ## Operations keep the invariant -/

structure Chronicled (c : ContextId) (w : World (Journal ε)) : Prop where
  inside : c < w.contexts.length
  chronicle : Chronicle (w.context c) w.outside.entries

namespace Chronicled

variable {c : ContextId} {w w' : World (Journal ε)}

theorem adds (chronicled : Chronicled c w) (adds : Adds [] w w') : Chronicled c w' := by
  refine ⟨by rw [adds.contexts]; exact chronicled.inside, ?_⟩
  rw [adds.context, adds.entries, List.append_nil]
  exact chronicled.chronicle

theorem turns {f : Context → Context} {entries : List Entry} (chronicled : Chronicled c w)
    (turns : Turns c f entries w w')
    (chronicle : Chronicle (f (w.context c)) (w.outside.entries ++ entries)) :
    Chronicled c w' := by
  refine ⟨by rw [turns.length]; exact chronicled.inside, ?_⟩
  rw [turns.context chronicled.inside, turns.entries]
  exact chronicle

end Chronicled

section Operations

variable (base : Services (StateM ε)) (c : ContextId)

theorem enrol_chronicled (p : Participant) :
    Leads (Chronicled c) (enrol base.journaled c p) fun _ => Chronicled c := by
  intro w chronicled
  rw [enrol_eq, bind_apply, Context.read]
  split
  · exact chronicled.adds (adds_report .silent base 0 w _)
  split
  · exact chronicled
  next absent =>
      have joined := chronicled.chronicle.join p (by simpa using absent)
      rw [bind_apply]
      cases current : (w.context c).current with
      | none =>
          refine chronicled.turns (.update w c (accept p)) ?_
          simpa [current] using joined
      | some tx =>
          have started := adds_start base (w.update c (accept p)) p tx
          refine chronicled.turns (.after (.update w c (accept p)) started) ?_
          simpa [current] using joined

theorem withdraw_chronicled (p : Participant) :
    Leads (Chronicled c) (withdraw c p) fun _ => Chronicled (ε := ε) c := by
  intro w chronicled
  cases active : (w.context c).isActive with
  | true =>
      rw [withdraw_active active]
      exact chronicled
  | false =>
      rw [withdraw_inactive active]
      have unused := chronicled.chronicle.active.unused_iff.2 active
      refine chronicled.turns (.update w c (expel p)) ?_
      rw [List.append_nil]
      refine chronicled.chronicle.idle unused unused active ?_
      exact chronicled.chronicle.distinct.sublist (List.filter_sublist.map _)

theorem defer_chronicled (p : Participant) :
    Leads (Chronicled c) (defer c p) fun _ => Chronicled (ε := ε) c := by
  intro w chronicled
  refine chronicled.turns (.update w c (queue p)) ?_
  rw [List.append_nil]
  obtain ⟨active, distinct, rounds⟩ := chronicled.chronicle
  exact ⟨active, distinct, rounds⟩

theorem start_chronicled :
    Leads (Chronicled c) (start base.journaled c) fun _ => Chronicled c := by
  intro w chronicled
  rcases start_cases base.journaled c w with ⟨fault, refused⟩ | ⟨inactive, launched⟩
  · rw [refused]
    exact chronicled
  · rw [launched]
    rcases launch_turns base c w (w.context c).coordinator with adds | ⟨tx, turns⟩
    · exact chronicled.adds adds
    · exact chronicled.turns turns (chronicled.chronicle.begin inactive tx)

theorem abort_chronicled (reason : String) :
    Leads (Chronicled c) (abort base.journaled c reason) fun _ w =>
      Chronicled c w ∧ (w.context c).current = none := by
  intro w chronicled
  cases current : (w.context c).current with
  | none =>
      rw [abort_eq, bind_apply, Context.read, current]
      exact ⟨chronicled, current⟩
  | some tx =>
      have aborted := abort_turns base current reason
      have sound := sound_aborted chronicled.chronicle.distinct tx
      have settled := chronicled.chronicle.settle current ⟨_, sound⟩ (.aborted reason) (by simp)
      refine ⟨chronicled.turns aborted settled, ?_⟩
      rw [aborted.context chronicled.inside]
      rfl

theorem finish_chronicled :
    Leads (Chronicled c) (finish base.journaled c) fun _ => Chronicled c := by
  intro w chronicled
  cases current : (w.context c).current with
  | none =>
      rw [finish_eq, bind_apply, Context.read, current]
      exact chronicled
  | some tx =>
      obtain ⟨status, entries, ending, finished⟩ := finish_turns base current
      have sound := sound_ending chronicled.chronicle.distinct tx ending
      have inactive : status ≠ .active := by cases ending <;> simp
      exact chronicled.turns finished
        (chronicled.chronicle.settle current sound status inactive)

theorem abandon_chronicled :
    Leads (Chronicled c) (abandon base.journaled c) fun _ w =>
      Chronicled c w ∧ (w.context c).current = none := by
  have logs : ∀ d, Leads (Chronicled c) (base.journaled.report d) fun _ => Chronicled c :=
    fun d w chronicled => chronicled.adds (adds_report .silent base 0 w d)
  refine .bind (logs _) fun _ => .bind (abort_chronicled base c _) fun answer w after => ?_
  cases answer with
  | ok done => exact after
  | error fault =>
      have logged := adds_report .silent base 0 w
        ⟨.warn, .transactions, "Abort during context cleanup did not complete"⟩
      exact ⟨after.1.adds logged, (congrArg Context.current (logged.context c)).trans after.2⟩

theorem close_chronicled :
    Leads (Chronicled c) (close base.journaled c) fun _ => Chronicled c := by
  intro w chronicled
  rw [close_eq, bind_apply, Context.read]
  have drained : ∀ {w : World (Journal ε)}, Chronicled c w → (w.context c).current = none →
      Chronicled c (drain c w).2 := by
    intro w chronicled unused
    refine chronicled.turns (.update w c shut) ?_
    rw [List.append_nil]
    exact chronicled.chronicle.idle unused rfl rfl List.nodup_nil
  cases active : (w.context c).isActive with
  | true =>
      obtain ⟨abandoned, unused⟩ := abandon_chronicled base c w chronicled
      exact drained abandoned unused
  | false => exact drained chronicled (chronicled.chronicle.active.unused_iff.2 active)

theorem run_chronicled (operation : Operation) :
    Leads (Chronicled c) ((operation.retarget c).run base.journaled) fun _ => Chronicled c := by
  intro w chronicled
  cases operation with
  | enrol _ p => exact enrol_chronicled base c p w chronicled
  | withdraw _ p => exact withdraw_chronicled c p w chronicled
  | contains _ p => exact chronicled
  | defer _ p => exact defer_chronicled c p w chronicled
  | start _ => exact start_chronicled base c w chronicled
  | finish _ => exact finish_chronicled base c w chronicled
  | abort _ => exact (abort_chronicled base c _ w chronicled).1
  | abortWith _ reason => exact (abort_chronicled base c reason w chronicled).1
  | cleanup _ => exact close_chronicled base c w chronicled
  | discard _ => exact close_chronicled base c w chronicled
  | inspect _ => exact chronicled

theorem runAll_chronicled (operations : List Operation) :
    Leads (Chronicled c)
      (Operation.runAll base.journaled (operations.map (Operation.retarget c)))
      fun _ => Chronicled c := by
  induction operations with
  | nil => exact fun _ chronicled => chronicled
  | cons operation rest ih =>
      exact .bind (run_chronicled base c operation) fun _ => ih

end Operations

/-! ## The journal of a run -/

/-- Blocks of callbacks, one for each transaction, of which the last may be open as long as
the context is in that transaction. -/
def InBlocks (context : Context) (callbacks : List Callback) : Prop :=
  ∃ (blocks : List (List Callback)) (last : List Callback), callbacks = blocks.flatten ++ last ∧
    (∀ block ∈ blocks, ∃ tx fate, block ∈ Fate.blocks tx fate) ∧
    (last = [] ∨ ∃ tx, last = [.start tx] ∧ context.status = .active ∧ context.current = some tx)

theorem unsettled_underway {context : Context} (active : context.Consistent)
    (distinct : (context.participants.map (·.id)).Nodup) :
    Unsettled context (underway context) := by
  unfold underway
  cases current : context.current with
  | none => exact .inl rfl
  | some tx =>
      refine .inr ⟨tx, active.status current, current, by simp, fun i => ?_⟩
      rw [callbacksOf_began, callbacksOf_calls distinct]
      split
      · exact .inr rfl
      · exact .inl rfl

theorem inBlocks_of_rounds {context : Context} {rounds : List Round} {rest : List Entry}
    (sounds : ∀ round ∈ rounds, round.Sound) (unsettled : Unsettled context rest)
    (i : InstanceId) :
    InBlocks context (callbacksOf i (rounds.flatMap Round.entries ++ rest)) := by
  induction rounds with
  | nil =>
      refine ⟨[], callbacksOf i rest, by simp, by simp, ?_⟩
      rcases unsettled with rfl | ⟨tx, status, current, -, started⟩
      · exact .inl rfl
      · rcases started i with none | started
        · exact .inl none
        · exact .inr ⟨tx, started, status, current⟩
  | cons round others ih =>
      obtain ⟨blocks, last, same, whole, open'⟩ :=
        ih fun other member => sounds other (List.mem_cons_of_mem _ member)
      have sound := sounds round List.mem_cons_self
      have split : callbacksOf i ((round :: others).flatMap Round.entries ++ rest) =
          callbacksOf i round.entries ++ (blocks.flatten ++ last) := by
        rw [← same]
        simp
      rw [split]
      rcases sound.callbacks i with none | block
      · exact ⟨blocks, last, by rw [none, List.nil_append], whole, open'⟩
      · refine ⟨callbacksOf i round.entries :: blocks, last, by simp, ?_, open'⟩
        intro b member
        rcases List.mem_cons.1 member with rfl | member
        · exact ⟨_, _, block⟩
        · exact whole b member

/-- **The lifecycle of participants.**  Whatever is asked of a context, and whatever the
participants and the coordinator answer, the journal falls into sound rounds and what
belongs to the transaction in progress, and every instance has received blocks of
callbacks. -/
theorem participants_follow_lifecycle (base : Services (StateM ε)) (k : CoordinatorId)
    (operations : List Operation) (outside : ε) :
    let w := Context.after base.journaled k operations { inner := outside }
    (∃ (rounds : List Round) (rest : List Entry),
      w.outside.entries = rounds.flatMap Round.entries ++ rest ∧
      (∀ round ∈ rounds, round.Sound) ∧ Unsettled (w.context 0) rest) ∧
    ∀ i, InBlocks (w.context 0) (callbacksOf i w.outside.entries) := by
  have fresh : Chronicled 0 (Context.create k { outside := { inner := outside } }).2 := by
    refine ⟨by simp [Context.create], rfl, List.nodup_nil, [], rfl, by simp⟩
  have chronicle := (runAll_chronicled base 0 operations _ fresh).chronicle
  obtain ⟨rounds, same, sounds⟩ := chronicle.rounds
  have unsettled := unsettled_underway chronicle.active chronicle.distinct
  refine ⟨⟨rounds, _, same, sounds, unsettled⟩, fun i => ?_⟩
  have blocks := inBlocks_of_rounds sounds unsettled i
  rwa [← same] at blocks

end DatasetCache
