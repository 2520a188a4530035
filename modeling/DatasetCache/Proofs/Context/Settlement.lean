import DatasetCache.Proofs.Shared.Telling

/-!
# Every transaction is settled once

A context runs its transactions with any coordinator, which need not be one that can be
trusted: it only must not issue the same transaction twice.  The services keep minutes of
all calls on participants and coordinators with the answers, so how often a transaction is
settled, and how, is read off the minutes.
-/

namespace DatasetCache

open Act Context

variable {ε α : Type}

/-! ## What the coordinator hears of a transaction -/

namespace Coordinator

namespace Event

def transaction : Event → Transaction
  | .began tx | .checked tx _ _ | .tried tx _ | .aborted tx | .invalidated tx => tx

def issues? : Event → Option Transaction
  | .began tx => some tx
  | _ => none

def concludes (tx : Transaction) : Event → Bool
  | .tried other (.ok true) => other = tx
  | .aborted other => other = tx
  | .invalidated other => other = tx
  | _ => false

theorem transaction_of_concludes {tx : Transaction} {e : Event} (concludes : e.concludes tx = true) :
    e.transaction = tx := by
  cases e with
  | tried other answer =>
      cases answer with
      | error fault => cases concludes
      | ok agreed => cases agreed <;> simp_all [Event.concludes, transaction]
  | _ => simp_all [Event.concludes, transaction]

end Event

namespace History

def issued (h : History) : List Transaction := h.filterMap Event.issues?

def settlements (h : History) (tx : Transaction) : History := h.filter (·.concludes tx)

@[simp] theorem issued_append (h more : History) : issued (h ++ more) = issued h ++ issued more :=
  List.filterMap_append

@[simp] theorem settlements_append (h more : History) (tx : Transaction) :
    settlements (h ++ more) tx = settlements h tx ++ settlements more tx :=
  List.filter_append ..

theorem settlements_nil {h : History} {tx : Transaction} (others : ∀ e ∈ h, e.transaction ≠ tx) :
    h.settlements tx = [] := by
  refine List.filter_eq_nil_iff.2 fun e member => ?_
  exact fun concludes => others e member (Event.transaction_of_concludes concludes)

end History

end Coordinator

open Coordinator

def rolledBack (occurrences : List Occurrence) : List InstanceId :=
  ((heard occurrences).filter (·.2 = .rollback)).map Prod.fst

@[simp] theorem rolledBack_append (occurrences more : List Occurrence) :
    rolledBack (occurrences ++ more) = rolledBack occurrences ++ rolledBack more := by
  simp [rolledBack]

theorem Sweep.rolledBack {ps : List Participant} {callback : Callback} {more : List Occurrence}
    (sweep : Sweep ps callback more) (other : callback ≠ .rollback) :
    DatasetCache.rolledBack more = [] := by
  simp [DatasetCache.rolledBack, sweep.heard, List.filter_map, Function.comp_def, other]

theorem mem_rolledBack {occurrences : List Occurrence} {i : InstanceId} {answer : Except Fault Bool}
    (member : .rolledBack i answer ∈ occurrences) : i ∈ rolledBack occurrences := by
  refine List.mem_map.2 ⟨(i, .rollback), List.mem_filter.2 ⟨?_, by simp⟩, rfl⟩
  exact List.mem_filterMap.2 ⟨_, member, rfl⟩

theorem not_undone_iff {occurrences : List Occurrence} :
    undone occurrences = false ↔
      ∃ i answer, .rolledBack i answer ∈ occurrences ∧ answer ≠ .ok true := by
  rw [undone, List.all_eq_false]
  constructor
  · rintro ⟨occurrence, member, failed⟩
    cases occurrence with
    | rolledBack i answer =>
        refine ⟨i, answer, member, ?_⟩
        rintro rfl
        exact failed rfl
    | _ => exact absurd rfl failed
  · rintro ⟨i, answer, member, failed⟩
    refine ⟨_, member, ?_⟩
    cases answer with
    | error fault => simp [Occurrence.undoes]
    | ok agreed => cases agreed <;> simp_all [Occurrence.undoes]

/-! ## How a transaction ends -/

/-- The coordinator hears of one transaction only, and is told once how it has ended: it is
kept and nobody is rolled back, or everybody is. -/
structure Resolution (ps : List Participant) (tx : Transaction) (more : List Occurrence)
    (last : Event) : Prop where
  about : ∀ e ∈ events more, e.transaction = tx ∧ e.issues? = none
  settled : (events more).settlements tx = [last]
  outcome : last = .tried tx (.ok true) ∧ rolledBack more = [] ∨
    last = settlement tx (undone more) ∧ rolledBack more = ps.map (·.id)

namespace Resolution

variable {ps : List Participant} {tx : Transaction} {more : List Occurrence} {last : Event}

theorem invalidated_iff (resolution : Resolution ps tx more last) :
    last = .invalidated tx ↔ ∃ i answer, .rolledBack i answer ∈ more ∧ answer ≠ .ok true := by
  rw [← not_undone_iff]
  rcases resolution.outcome with ⟨rfl, nobody⟩ | ⟨rfl, -⟩
  · refine ⟨nofun, fun left => ?_⟩
    obtain ⟨i, answer, member, -⟩ := not_undone_iff.1 left
    have rolled := mem_rolledBack member
    rw [nobody] at rolled
    cases rolled
  · cases undone more <;> simp [settlement]

theorem settlement_concludes (tx : Transaction) (undone : Bool) :
    (settlement tx undone).concludes tx = true ∧ (settlement tx undone).transaction = tx ∧
      (settlement tx undone).issues? = none := by
  cases undone <;> simp [settlement, Event.concludes, Event.transaction, Event.issues?]

theorem of_retreat {good answer : Except Fault Unit} (retreat : Retreat ps tx good answer more) :
    Resolution ps tx more (settlement tx (undone more)) := by
  obtain ⟨concludes, about, old⟩ := settlement_concludes tx (undone more)
  refine ⟨fun e member => ?_, ?_, .inr ⟨rfl, ?_⟩⟩
  · rw [retreat.events, List.mem_singleton] at member
    rw [member]
    exact ⟨about, old⟩
  · simp [retreat.events, History.settlements, concludes]
  · rw [rolledBack, retreat.heard, List.filter_eq_self.2 (by simp)]
    simp [Function.comp_def]

end Resolution

structure Unsettling (tx : Transaction) (before : List Occurrence) : Prop where
  about : ∀ e ∈ events before, e.transaction = tx ∧ e.issues? = none ∧ e.concludes tx = false
  undone : undone before = true
  nobody : rolledBack before = []

namespace Unsettling

variable {ps : List Participant} {tx : Transaction} {before more : List Occurrence}

theorem sweep {callback : Callback} (sweep : Sweep ps callback more)
    (other : callback ≠ .rollback) : Unsettling tx more :=
  ⟨by simp [sweep.events], sweep.undone other, sweep.rolledBack other⟩

theorem event {e : Event} (about : e.transaction = tx) (old : e.issues? = none)
    (open' : e.concludes tx = false) : Unsettling tx [.coordinated e] := by
  refine ⟨fun other member => ?_, rfl, rfl⟩
  obtain rfl : other = e := by simpa using member
  exact ⟨about, old, open'⟩

theorem append (first : Unsettling tx before) (rest : Unsettling tx more) :
    Unsettling tx (before ++ more) where
  about e member := by
    rw [events_append, List.mem_append] at member
    exact member.elim (first.about e) (rest.about e)
  undone := by rw [undone_append, first.undone, rest.undone, Bool.and_true]
  nobody := by rw [rolledBack_append, first.nobody, rest.nobody, List.append_nil]

theorem settlements (unsettling : Unsettling tx before) : (events before).settlements tx = [] :=
  List.filter_eq_nil_iff.2 fun e member => by simp [(unsettling.about e member).2.2]

theorem resolution {last : Event} (unsettling : Unsettling tx before)
    (resolution : Resolution ps tx more last) : Resolution ps tx (before ++ more) last where
  about e member := by
    rw [events_append, List.mem_append] at member
    rcases member with member | member
    · exact ⟨(unsettling.about e member).1, (unsettling.about e member).2.1⟩
    · exact resolution.about e member
  settled := by
    rw [events_append, History.settlements_append, unsettling.settlements, resolution.settled,
      List.nil_append]
  outcome := by
    rw [undone_append, unsettling.undone, Bool.true_and, rolledBack_append, unsettling.nobody,
      List.nil_append]
    exact resolution.outcome

end Unsettling

variable {ps : List Participant} {tx : Transaction}

theorem Unsettling.persisted {asked : List Participant} {told persisted : List Occurrence}
    (telling : Sweep ps .changes told) (persisting : Sweep asked .persist persisted) :
    Unsettling tx
      (told ++ [.coordinated (.checked tx (collected told) (.ok true))] ++ persisted) := by
  have checked : Unsettling tx [.coordinated (.checked tx (collected told) (.ok true))] :=
    .event rfl rfl rfl
  exact ((Unsettling.sweep telling (by simp)).append checked).append
    (.sweep persisting (by simp))

theorem Attempt.unsettling {before : List Occurrence} {reason : String} {fault : Fault}
    (attempt : Attempt ps tx before reason fault) : Unsettling tx before := by
  cases attempt with
  | conflict telling => exact (Unsettling.sweep telling (by simp)).append (.event rfl rfl rfl)
  | unchecked telling fault =>
      exact (Unsettling.sweep telling (by simp)).append (.event rfl rfl rfl)
  | refused telling first persisting reason => exact .persisted telling persisting
  | outrun telling persisting =>
      exact (Unsettling.persisted telling persisting).append (.event rfl rfl rfl)
  | broken telling persisting fault =>
      exact (Unsettling.persisted telling persisting).append (.event rfl rfl rfl)

theorem Sweep.resolution {confirmed : List Occurrence} (confirming : Sweep ps .confirm confirmed) :
    Resolution ps tx ([.coordinated (.tried tx (.ok true))] ++ confirmed)
      (.tried tx (.ok true)) := by
  refine ⟨fun e member => ?_, ?_, .inl ⟨rfl, ?_⟩⟩
  · obtain rfl : e = .tried tx (.ok true) := by simpa [confirming.events] using member
    exact ⟨rfl, rfl⟩
  · simp [confirming.events, History.settlements, Event.concludes]
  · rw [rolledBack_append, confirming.rolledBack (by simp)]
    rfl

theorem Finish.resolution {more : List Occurrence} {answer : Except Fault Unit} {status : Status}
    (finish : Finish ps tx more answer status) : ∃ last, Resolution ps tx more last := by
  cases finish with
  | undone attempt retreat => exact ⟨_, attempt.unsettling.resolution (.of_retreat retreat)⟩
  | kept telling persisting confirming =>
      refine ⟨.tried tx (.ok true), ?_⟩
      rw [List.append_assoc]
      exact (Unsettling.persisted telling persisting).resolution confirming.resolution

theorem Finish.status {more : List Occurrence} {answer : Except Fault Unit} {status : Status}
    (finish : Finish ps tx more answer status) : status = .committed ∨ ∃ reason, status = .aborted reason := by
  cases finish with
  | kept => exact .inl rfl
  | undone => exact .inr ⟨_, rfl⟩

/-! ## One operation -/

namespace Context

/-- Whether an operation leaves no transaction in progress. -/
def Operation.ends : Operation → Bool
  | .finish _ | .abort _ | .abortWith _ _ | .cleanup _ | .discard _ => true
  | _ => false

def Status.Final (status : Status) : Prop :=
  status = .committed ∨ (∃ reason, status = .aborted reason) ∨ status = .closed

/-- What an operation does to its context, and what the coordinator hears of it. -/
inductive Treatment (context : Context) (more : List Occurrence) :
    Operation → Outcome → (Context → Context) → Prop where
  | aside {operation : Operation} {outcome : Outcome} {f : Context → Context}
      (silent : events more = []) (current : (f context).current = context.current)
      (consistent : (f context).Consistent) (unstarted : ∀ tx, outcome ≠ .started tx)
      (idle : operation.ends = true → context.current = none) :
      Treatment context more operation outcome f
  | begun {c : ContextId} {tx : Transaction} (idle : context.current = none)
      (events : events more = [.began tx]) :
      Treatment context more (.start c) (.started tx) (enter tx)
  | ended {operation : Operation} {outcome : Outcome} {f : Context → Context} {tx : Transaction}
      {last : Event} (current : context.current = some tx)
      (resolution : Resolution context.participants tx more last)
      (left : (f context).current = none) (status : (f context).status.Final)
      (unstarted : ∀ tx, outcome ≠ .started tx) :
      Treatment context more operation outcome f

def Treats (R : Account ε) (operation : Operation) (w : World ε)
    (answered : Outcome × World ε) : Prop :=
  ∃ f more, Treatment (w.context operation.target) more operation answered.1 f ∧
    R (·.modify operation.target f) more w answered.2

section Treats

variable {services : Services (Act ε)} {R : Account ε} (tells : services.Tells R) {w : World ε}

include tells

theorem idle_treats {operation : Operation} {outcome : Outcome}
    (consistent : (w.context operation.target).Consistent) (unstarted : ∀ tx, outcome ≠ .started tx)
    (idle : operation.ends = true → (w.context operation.target).current = none) :
    Treats R operation w (outcome, w) := by
  exact ⟨id, [], .aside events_nil rfl consistent unstarted idle, Account.still (tells.none w) _⟩

theorem start_treats (c : ContextId) (consistent : (w.context c).Consistent) :
    Treats R (.start c) w ((Operation.start c).run services w) := by
  simp only [Operation.run, bind_apply]
  rcases start_cases services c w with ⟨fault, refused⟩ | ⟨inactive, launched⟩
  · rw [refused]
    exact idle_treats tells consistent (by simp [Outcome.ofExcept]) (by simp [Operation.ends])
  · rw [launched]
    have idle := consistent.unused_iff.2 inactive
    rcases tells.launching c (w.context c).coordinator w with
      ⟨fault, refused, -, told⟩ | ⟨tx, more, answers, -, begun, told⟩
    · rw [refused]
      exact ⟨id, [], .aside events_nil rfl consistent (by simp [Outcome.ofExcept])
        (by simp [Operation.ends]), Account.still told c⟩
    · rw [answers]
      exact ⟨_, more, .begun idle begun, told⟩

theorem finish_treats (c : ContextId) (consistent : (w.context c).Consistent) :
    Treats R (.finish c) w ((Operation.finish c).run services w) := by
  simp only [Operation.run, bind_apply]
  have unstarted : ∀ (answer : Except Fault Unit) tx,
      Outcome.ofExcept (fun _ => .done) answer ≠ .started tx := by
    intro answer tx
    cases answer <;> simp [Outcome.ofExcept]
  cases current : (w.context c).current with
  | none =>
      have refused : Context.finish services c w =
          (.error (.invalidState "no transaction in progress"), w) := by
        rw [finish_eq, bind_apply, Context.read, current]
        rfl
      rw [refused]
      exact idle_treats tells consistent (unstarted _) fun _ => current
  | some tx =>
      obtain ⟨more, status, finish, told⟩ := tells.finishing current
      obtain ⟨last, resolution⟩ := finish.resolution
      exact ⟨_, more, .ended current resolution rfl (finish.status.imp_right .inl) (unstarted _),
        told⟩

theorem abort_treats (operation : Operation)
    (consistent : (w.context operation.target).Consistent) (reason : String) :
    Treats R operation w (.ofExcept (fun _ => .done)
      (Context.abort services operation.target reason w).1,
        (Context.abort services operation.target reason w).2) := by
  have unstarted : ∀ (answer : Except Fault Unit) tx,
      Outcome.ofExcept (fun _ => .done) answer ≠ .started tx := by
    intro answer tx
    cases answer <;> simp [Outcome.ofExcept]
  cases current : (w.context operation.target).current with
  | none =>
      have idle : Context.abort services operation.target reason w = (.ok (), w) := by
        rw [abort_eq, bind_apply, Context.read, current]
        rfl
      rw [idle]
      exact idle_treats tells consistent (unstarted _) fun _ => current
  | some tx =>
      obtain ⟨more, retreat, told⟩ := tells.aborting current reason
      exact ⟨_, more, .ended current (.of_retreat retreat) rfl (.inr (.inl ⟨reason, rfl⟩))
        (unstarted _), told⟩

theorem close_treats (operation : Operation) {outcome : Outcome}
    (consistent : (w.context operation.target).Consistent)
    (unstarted : ∀ tx, outcome ≠ .started tx) :
    Treats R operation w (outcome, (Context.close services operation.target w).2) := by
  obtain ⟨more, told, settles⟩ := tells.closing consistent
  cases current : (w.context operation.target).current with
  | none =>
      rw [current] at settles
      subst settles
      exact ⟨shut, [], .aside events_nil current.symm rfl unstarted fun _ => current, told⟩
  | some tx =>
      rw [current] at settles
      obtain ⟨answer, retreat⟩ := settles
      exact ⟨_, more, .ended current (.of_retreat retreat) rfl (.inr (.inr rfl)) unstarted, told⟩

theorem run_treats (operation : Operation) (consistent : (w.context operation.target).Consistent) :
    Treats R operation w (operation.run services w) := by
  cases operation with
  | enrol c p =>
      obtain ⟨more, silent, same | ⟨-, joined⟩⟩ := tells.enrolling c p w
      · exact ⟨id, more, .aside silent rfl consistent (by rintro _ ⟨⟩) (by rintro ⟨⟩), Account.still same c⟩
      · exact ⟨_, more, .aside silent rfl consistent (by rintro _ ⟨⟩) (by rintro ⟨⟩), joined⟩
  | withdraw c p =>
      simp only [Operation.run, bind_apply]
      cases active : (w.context c).isActive with
      | true =>
          rw [withdraw_active active]
          exact idle_treats tells consistent (by simp [Outcome.ofExcept]) (by rintro ⟨⟩)
      | false =>
          rw [withdraw_inactive active]
          exact ⟨_, [], .aside events_nil rfl consistent (by simp [Outcome.ofExcept]) (by rintro ⟨⟩),
            tells.update w c (expel p)⟩
  | contains c p => exact idle_treats tells consistent (by rintro _ ⟨⟩) (by rintro ⟨⟩)
  | defer c p =>
      exact ⟨queue p, [], .aside events_nil rfl consistent (by rintro _ ⟨⟩) (by rintro ⟨⟩), tells.update w c _⟩
  | start c => exact start_treats tells c consistent
  | finish c => exact finish_treats tells c consistent
  | abort c => exact abort_treats tells (.abort c) consistent _
  | abortWith c reason => exact abort_treats tells (.abortWith c reason) consistent _
  | cleanup c => exact close_treats tells (.cleanup c) consistent (by rintro _ ⟨⟩)
  | discard c => exact close_treats tells (.discard c) consistent (by rintro _ ⟨⟩)
  | inspect c => exact idle_treats tells consistent (by rintro _ ⟨⟩) (by rintro ⟨⟩)

end Treats

end Context

/-! ## Minutes -/

/-- All calls so far with their answers, beside what the services keep. -/
structure Minutes (ε : Type) where
  occurrences : List Occurrence := []
  inner : ε

def Minutes.taken (call : α → List Occurrence) (x : StateM ε α) : StateM (Minutes ε) α :=
  fun minutes =>
    let (answer, inner) := x minutes.inner
    (answer, { occurrences := minutes.occurrences ++ call answer, inner })

def Services.minuted (base : Services (StateM ε)) : Services (Act (Minutes ε)) :=
  let services := base.map (Minutes.taken fun _ => [])
  Services.detached { services with
    start := fun p tx => Minutes.taken (fun _ => [.started p.id tx]) (base.start p tx)
    changes := fun p => Minutes.taken (fun changes => [.told p.id changes]) (base.changes p)
    persist := fun p => Minutes.taken (fun answer => [.persisted p.id answer]) (base.persist p)
    confirm := fun p => Minutes.taken (fun _ => [.confirmed p.id]) (base.confirm p)
    rollback := fun p => Minutes.taken (fun answer => [.rolledBack p.id answer]) (base.rollback p)
    begin := fun k => Minutes.taken Occurrence.ofBegin (base.begin k)
    canCommit := fun k tx changes =>
      Minutes.taken (fun answer => [.coordinated (.checked tx changes answer)])
        (base.canCommit k tx changes)
    commit := fun k tx =>
      Minutes.taken (fun answer => [.coordinated (.tried tx answer)]) (base.commit k tx)
    abort := fun k tx => Minutes.taken (fun _ => [.coordinated (.aborted tx)]) (base.abort k tx)
    invalidate := fun k tx =>
      Minutes.taken (fun _ => [.coordinated (.invalidated tx)]) (base.invalidate k tx) }

structure Minuted (change : List Context → List Context) (more : List Occurrence)
    (w w' : World (Minutes ε)) : Prop where
  contexts : w'.contexts = change w.contexts
  occurrences : w'.outside.occurrences = w.outside.occurrences ++ more

theorem minuted_tells (base : Services (StateM ε)) : base.minuted.Tells Minuted where
  none _ := ⟨rfl, (List.append_nil _).symm⟩
  append first rest :=
    ⟨by rw [rest.contexts, first.contexts, Function.comp_apply],
      by rw [rest.occurrences, first.occurrences, List.append_assoc]⟩
  update _ _ _ := ⟨rfl, (List.append_nil _).symm⟩
  contexts minuted := minuted.contexts
  start _ _ _ := ⟨rfl, rfl⟩
  changes _ _ := ⟨rfl, rfl⟩
  persist _ _ := ⟨rfl, rfl⟩
  confirm _ _ := ⟨rfl, rfl⟩
  rollback _ _ := ⟨rfl, rfl⟩
  begin _ _ := ⟨rfl, rfl⟩
  canCommit _ _ _ _ := ⟨rfl, rfl⟩
  commit _ _ _ := ⟨rfl, rfl⟩
  abort _ _ _ := ⟨rfl, rfl⟩
  invalidate _ _ _ := ⟨rfl, rfl⟩
  report _ _ := ⟨rfl, rfl⟩

/-- What the coordinator has heard so far. -/
def World.history (w : World (Minutes ε)) : History := events w.outside.occurrences

theorem World.history_append {w w' : World (Minutes ε)} {more : List Occurrence}
    (grown : w'.outside.occurrences = w.outside.occurrences ++ more) :
    w'.history = w.history ++ events more := by
  rw [World.history, World.history, grown, events_append]

/-! ## How the transactions of a context stand -/

/-- Whatever the coordinator has heard is about a transaction it has issued.  The current one
is open, and all others are settled. -/
structure Docket (h : History) (context : Context) : Prop where
  about : ∀ e ∈ h, e.transaction ∈ h.issued
  current : ∀ tx, context.current = some tx → tx ∈ h.issued ∧ h.settlements tx = []
  past : ∀ tx ∈ h.issued, context.current ≠ some tx → ∃ last, h.settlements tx = [last]

namespace Docket

variable {h : History} {context : Context} {more : List Occurrence} {operation : Operation}
  {outcome : Outcome} {f : Context → Context} (docket : Docket h context)

include docket

theorem at_most_one (tx : Transaction) (issued : tx ∈ h.issued) :
    (h.settlements tx).length ≤ 1 := by
  by_cases current : context.current = some tx
  · simp [(docket.current tx current).2]
  · obtain ⟨last, settled⟩ := docket.past tx issued current
    simp [settled]

theorem stranger {tx : Transaction} (new : tx ∉ h.issued) : ∀ e ∈ h, e.transaction ≠ tx := by
  rintro e member rfl
  exact new (docket.about e member)

omit docket in
theorem fresh_of_nodup {tx : Transaction} (distinct : (h ++ [Event.began tx]).issued.Nodup) :
    tx ∉ h.issued := by
  rw [History.issued_append, List.nodup_append] at distinct
  exact fun member => distinct.2.2 tx member tx (List.mem_singleton.2 rfl) rfl

theorem begun {next : Context} {new : Transaction} (idle : context.current = none)
    (current : next.current = some new) (distinct : (h ++ [Event.began new]).issued.Nodup) :
    Docket (h ++ [.began new]) next := by
  have fresh := fresh_of_nodup distinct
  refine ⟨fun e member => ?_, fun tx here => ?_, fun tx issued other => ?_⟩
  · rw [History.issued_append, List.mem_append]
    rcases List.mem_append.1 member with old | last
    · exact .inl (docket.about e old)
    · obtain rfl := List.mem_singleton.1 last
      exact .inr (List.mem_singleton.2 rfl)
  · obtain rfl : new = tx := Option.some.inj (current.symm.trans here)
    refine ⟨by simp [History.issued, Event.issues?], ?_⟩
    rw [History.settlements_append, History.settlements_nil (docket.stranger fresh)]
    rfl
  · rw [History.issued_append, List.mem_append] at issued
    rcases issued with old | same
    · obtain ⟨last, settled⟩ := docket.past tx old (by simp [idle])
      exact ⟨last, by rw [History.settlements_append, settled]; rfl⟩
    · obtain rfl : tx = new := by simpa [History.issued, Event.issues?] using same
      exact absurd current other

theorem resolved {next : Context} {ps : List Participant} {tx : Transaction} {last : Event}
    (current : context.current = some tx) (resolution : Resolution ps tx more last)
    (left : next.current = none) : Docket (h ++ events more) next := by
  have same : (h ++ events more).issued = h.issued := by
    have none : (events more).issued = [] :=
      List.filterMap_eq_nil_iff.2 fun e member => (resolution.about e member).2
    rw [History.issued_append, none, List.append_nil]
  obtain ⟨issued, open'⟩ := docket.current tx current
  refine ⟨fun e member => ?_, fun tx here => ?_, fun other old _ => ?_⟩
  · rw [same]
    rcases List.mem_append.1 member with old | late
    · exact docket.about e old
    · rw [(resolution.about e late).1]
      exact issued
  · rw [left] at here
    cases here
  · rw [History.settlements_append]
    by_cases here : other = tx
    · subst here
      exact ⟨last, by rw [open', resolution.settled]; rfl⟩
    · have others : ∀ e ∈ events more, e.transaction ≠ other := fun e member =>
        (resolution.about e member).1 ▸ Ne.symm here
      obtain ⟨settled, alone⟩ := docket.past other (same ▸ old)
        (by rw [current]; exact fun equal => here (Option.some.inj equal).symm)
      exact ⟨settled, by rw [alone, History.settlements_nil others]; rfl⟩

theorem treat (treatment : Treatment context more operation outcome f)
    (distinct : (h ++ events more).issued.Nodup) : Docket (h ++ events more) (f context) := by
  cases treatment with
  | aside silent current consistent unstarted idle =>
      rw [silent, List.append_nil]
      exact ⟨docket.about, fun tx here => docket.current tx (current ▸ here),
        fun tx issued other => docket.past tx issued (current ▸ other)⟩
  | begun idle events =>
      rw [events] at distinct ⊢
      exact docket.begun idle rfl distinct
  | ended current resolution left status unstarted => exact docket.resolved current resolution left

end Docket

theorem Context.Treatment.consistent {context : Context} {more : List Occurrence}
    {operation : Operation} {outcome : Outcome} {f : Context → Context}
    (treatment : Treatment context more operation outcome f) : (f context).Consistent := by
  cases treatment with
  | aside silent current consistent unstarted idle => exact consistent
  | begun idle events => rfl
  | ended current resolution left status unstarted =>
      rw [Consistent, left, isActive]
      rcases status with status | ⟨reason, status⟩ | status <;> rw [status] <;> rfl

theorem Context.Treatment.starts {context : Context} {more : List Occurrence}
    {operation : Operation} {outcome : Outcome} {f : Context → Context} {tx : Transaction}
    (treatment : Treatment context more operation outcome f) (started : outcome = .started tx) :
    (f context).current = some tx := by
  cases treatment with
  | aside silent current consistent unstarted idle => exact absurd started (unstarted tx)
  | begun idle events => exact congrArg some (Outcome.started.inj started)
  | ended current resolution left status unstarted => exact absurd started (unstarted tx)

theorem Context.Treatment.ends {context : Context} {more : List Occurrence}
    {operation : Operation} {outcome : Outcome} {f : Context → Context}
    (treatment : Treatment context more operation outcome f) (ends : operation.ends = true) :
    (f context).current = none ∧ ∀ tx, context.current = some tx →
      (f context).status.Final ∧ ∃ last, Resolution context.participants tx more last := by
  cases treatment with
  | aside silent current consistent unstarted idle =>
      have none := idle ends
      exact ⟨current.trans none, fun tx here => by cases none.symm.trans here⟩
  | begun idle events => cases ends
  | ended current resolution left status unstarted =>
      refine ⟨left, fun tx here => ⟨status, ?_⟩⟩
      obtain rfl := Option.some.inj (current.symm.trans here)
      exact ⟨_, resolution⟩

theorem Context.Treatment.past {h : History} {context : Context} {more : List Occurrence}
    {operation : Operation} {outcome : Outcome} {f : Context → Context} {tx : Transaction}
    (treatment : Treatment context more operation outcome f)
    (distinct : (h ++ events more).issued.Nodup) (issued : tx ∈ h.issued)
    (past : context.current ≠ some tx) :
    (∀ e ∈ events more, e.transaction ≠ tx) ∧ (f context).current ≠ some tx := by
  cases treatment with
  | aside silent current consistent unstarted idle =>
      rw [silent, current]
      exact ⟨nofun, past⟩
  | @begun _ new idle events =>
      rw [events] at distinct ⊢
      have different : new ≠ tx := by
        rintro rfl
        exact Docket.fresh_of_nodup distinct issued
      refine ⟨fun e member => ?_, fun same => different (Option.some.inj same)⟩
      obtain rfl := List.mem_singleton.1 member
      exact different
  | ended current resolution left status unstarted =>
      refine ⟨fun e member same => past ?_, by rw [left]; nofun⟩
      rw [current, ← (resolution.about e member).1, same]

/-! ## Runs -/

/-- What holds after every run on one context, provided that the coordinator has not issued
a transaction twice. -/
structure Recorded (w : World (Minutes ε)) : Prop where
  inside : 0 < w.contexts.length
  consistent : (w.context 0).Consistent
  docket : w.history.issued.Nodup → Docket w.history (w.context 0)

theorem World.nodup_of_append {w w' : World (Minutes ε)} {more : History}
    (grown : w'.history = w.history ++ more) (distinct : w'.history.issued.Nodup) :
    w.history.issued.Nodup := by
  rw [grown, History.issued_append] at distinct
  exact (List.nodup_append.1 distinct).1

section Runs

variable (base : Services (StateM ε))

theorem minuted_treats_of (operation : Operation) {w : World (Minutes ε)}
    (inside : 0 < w.contexts.length) (consistent : (w.context 0).Consistent) :
    ∃ f more, let answered := (operation.retarget 0).run base.minuted w
      Treatment (w.context 0) more (operation.retarget 0) answered.1 f ∧
        answered.2.outside.occurrences = w.outside.occurrences ++ more ∧
        answered.2.context 0 = f (w.context 0) ∧ 0 < answered.2.contexts.length := by
  have target : (operation.retarget 0).target = 0 := by cases operation <;> rfl
  obtain ⟨f, more, treatment, minuted⟩ := run_treats (minuted_tells base) (operation.retarget 0)
    (by rw [target]; exact consistent)
  rw [target] at treatment minuted
  refine ⟨f, more, treatment, minuted.occurrences, ?_, ?_⟩
  · simp [World.context, minuted.contexts, inside]
  · simpa [minuted.contexts] using inside

theorem minuted_treats (operation : Operation) {w : World (Minutes ε)} (recorded : Recorded w) :
    ∃ f more, let answered := (operation.retarget 0).run base.minuted w
      Treatment (w.context 0) more (operation.retarget 0) answered.1 f ∧
        answered.2.outside.occurrences = w.outside.occurrences ++ more ∧
        answered.2.context 0 = f (w.context 0) ∧ 0 < answered.2.contexts.length :=
  minuted_treats_of base operation recorded.inside recorded.consistent

theorem run_recorded (operation : Operation) {w : World (Minutes ε)} (recorded : Recorded w) :
    Recorded ((operation.retarget 0).run base.minuted w).2 := by
  obtain ⟨f, more, treatment, grown, context, inside⟩ := minuted_treats base operation recorded
  have heard := World.history_append grown
  refine ⟨inside, by rw [context]; exact treatment.consistent, fun distinct => ?_⟩
  have docket := recorded.docket (World.nodup_of_append heard distinct)
  rw [heard] at distinct ⊢
  rw [context]
  exact docket.treat treatment distinct

theorem runAll_recorded (operations : List Operation) {w : World (Minutes ε)}
    (recorded : Recorded w) :
    Recorded (Operation.runAll base.minuted (operations.map (Operation.retarget 0)) w).2 := by
  induction operations generalizing w with
  | nil => exact recorded
  | cons operation rest ih => exact ih (run_recorded base operation recorded)

theorem runAll_grows (operations : List Operation) {w : World (Minutes ε)} (recorded : Recorded w) :
    ∃ more, (Operation.runAll base.minuted (operations.map (Operation.retarget 0)) w).2.history =
      w.history ++ more := by
  induction operations generalizing w with
  | nil => exact ⟨[], (List.append_nil _).symm⟩
  | cons operation rest ih =>
      obtain ⟨f, first, -, grown, -⟩ := minuted_treats base operation recorded
      obtain ⟨others, later⟩ := ih (run_recorded base operation recorded)
      refine ⟨events first ++ others, later.trans ?_⟩
      rw [World.history_append grown, List.append_assoc]

theorem runAll_past (operations : List Operation) {w : World (Minutes ε)} (recorded : Recorded w)
    {tx : Transaction} (issued : tx ∈ w.history.issued) (past : (w.context 0).current ≠ some tx)
    (distinct : (Operation.runAll base.minuted
      (operations.map (Operation.retarget 0)) w).2.history.issued.Nodup) :
    ∃ more, (∀ e ∈ more, e.transaction ≠ tx) ∧
      (Operation.runAll base.minuted (operations.map (Operation.retarget 0)) w).2.history =
        w.history ++ more := by
  induction operations generalizing w with
  | nil => exact ⟨[], nofun, (List.append_nil _).symm⟩
  | cons operation rest ih =>
      obtain ⟨f, first, treatment, grown, context, -⟩ := minuted_treats base operation recorded
      have next := run_recorded base operation recorded
      obtain ⟨others, later⟩ := runAll_grows base rest next
      have heard := World.history_append grown
      have sofar := World.nodup_of_append later distinct
      rw [heard] at sofar
      obtain ⟨elsewhere, still⟩ := treatment.past sofar issued past
      obtain ⟨more, nowhere, rest⟩ := ih next
        (by rw [heard, History.issued_append]; exact List.mem_append_left _ issued)
        (by rw [context]; exact still) distinct
      refine ⟨events first ++ more, fun e member => ?_, rest.trans ?_⟩
      · exact (List.mem_append.1 member).elim (elsewhere e) (nowhere e)
      · rw [heard, List.append_assoc]

end Runs

theorem Context.Operation.runAll_append (services : Services (Act ε))
    (operations more : List Operation) (w : World ε) :
    (runAll services (operations ++ more) w).2 =
      (runAll services more (runAll services operations w).2).2 := by
  induction operations generalizing w with
  | nil => rfl
  | cons operation rest ih => exact ih _

/-- A new context after some operations, with the minutes of the calls in their course. -/
def minutesAfter (base : Services (StateM ε)) (k : CoordinatorId) (outside : ε)
    (operations : List Operation) : World (Minutes ε) :=
  Context.after base.minuted k operations { inner := outside }

theorem minutesAfter_append (base : Services (StateM ε)) (k : CoordinatorId) (outside : ε)
    (operations more : List Operation) :
    minutesAfter base k outside (operations ++ more) =
      (Operation.runAll base.minuted (more.map (Operation.retarget 0))
        (minutesAfter base k outside operations)).2 := by
  rw [minutesAfter, Context.after, List.map_append, Operation.runAll_append]
  rfl

theorem minutesAfter_recorded (base : Services (StateM ε)) (k : CoordinatorId) (outside : ε)
    (operations : List Operation) : Recorded (minutesAfter base k outside operations) := by
  exact runAll_recorded base operations
    ⟨by simp [Context.create], rfl, fun _ => ⟨by rintro _ ⟨⟩, by rintro _ ⟨⟩, by rintro _ ⟨⟩⟩⟩

/-- How the transaction that an operation finds in progress comes to its end. -/
structure Concluded (w w' final : World (Minutes ε)) (tx : Transaction) (more : List Occurrence)
    (last : Event) : Prop where
  minutes : w'.outside.occurrences = w.outside.occurrences ++ more
  resolution : Resolution (w.context 0).participants tx more last
  once : w'.history.settlements tx = [last]
  invalidated : last = .invalidated tx ↔ ∃ i answer, .rolledBack i answer ∈ more ∧ answer ≠ .ok true
  left : (w'.context 0).current = none
  status : (w'.context 0).status.Final
  silence : ∃ rest, (∀ e ∈ rest, e.transaction ≠ tx) ∧ final.history = w'.history ++ rest

/-- Every transaction is settled once, whatever the coordinator and the participants answer.
It is settled when an operation returns that ends it, and from then on the coordinator does
not hear of it.  Whether or not there has been one, and whether or not the operation
succeeds, no transaction is in progress then. -/
theorem every_transaction_settled_once (base : Services (StateM ε)) (k : CoordinatorId)
    (outside : ε) (operations : List Operation)
    (distinct : (minutesAfter base k outside operations).history.issued.Nodup) :
    let final := minutesAfter base k outside operations
    (∀ tx ∈ final.history.issued, (final.history.settlements tx).length ≤ 1) ∧
      ∀ before operation later, operations = before ++ operation :: later →
        let w := minutesAfter base k outside before
        let answered := (operation.retarget 0).run base.minuted w
        (answered.2.context 0).Consistent ∧
          (∀ tx, answered.1 = .started tx →
            (answered.2.context 0).current = some tx ∧ tx ∈ final.history.issued) ∧
          (operation.ends = true → (answered.2.context 0).isActive = false ∧
            ∀ tx, (w.context 0).current = some tx →
              ∃ more last, Concluded w answered.2 final tx more last) := by
  intro final
  have whole := minutesAfter_recorded base k outside operations
  refine ⟨fun tx issued => (whole.docket distinct).at_most_one tx issued, ?_⟩
  intro before operation later split w answered
  have recorded : Recorded w := minutesAfter_recorded base k outside before
  have next : Recorded answered.2 := run_recorded base operation recorded
  have onward : final =
      (Operation.runAll base.minuted (later.map (Operation.retarget 0)) answered.2).2 := by
    simp only [final, split]
    exact minutesAfter_append ..
  obtain ⟨f, more, treatment, grown, context, -⟩ := minuted_treats base operation recorded
  obtain ⟨rest, later'⟩ := runAll_grows base later next
  rw [← onward] at later'
  have sofar : answered.2.history.issued.Nodup := World.nodup_of_append later' distinct
  have docket := next.docket sofar
  refine ⟨next.consistent, fun tx started => ?_, fun ends => ?_⟩
  · have current : (answered.2.context 0).current = some tx := by
      rw [context]
      exact treatment.starts started
    refine ⟨current, ?_⟩
    rw [later', History.issued_append]
    exact List.mem_append_left _ (docket.current tx current).1
  · obtain ⟨left, finds⟩ := treatment.ends (by cases operation <;> exact ends)
    rw [← context] at left finds
    refine ⟨next.consistent.unused_iff.1 left, fun tx here => ?_⟩
    obtain ⟨status, last, resolution⟩ := finds tx here
    have heard := World.history_append grown
    have before := recorded.docket (World.nodup_of_append heard sofar)
    obtain ⟨issued, open'⟩ := before.current tx here
    have issued' : tx ∈ answered.2.history.issued := by
      rw [heard, History.issued_append]
      exact List.mem_append_left _ issued
    refine ⟨more, last, grown, resolution, ?_, resolution.invalidated_iff, left, status, ?_⟩
    · rw [heard, History.settlements_append, open', resolution.settled, List.nil_append]
    · rw [onward]
      exact runAll_past base later next issued' (by rw [left]; nofun) (onward ▸ distinct)

def Services.stubborn : Services (StateM Nat) :=
  { Services.willing fun _ => none with rollback := fun _ => pure (.ok false) }

theorem every_transaction_settled_once_stubborn :
    let operations : List Operation :=
      [.enrol 0 { id := 7, name := "sales" }, .start 0, .abort 0, .start 0, .finish 0]
    let final := minutesAfter Services.stubborn 0 0 operations
    let w := minutesAfter Services.stubborn 0 0 (operations.take 2)
    final.history.issued = [⟨1, 0⟩, ⟨2, 0⟩] ∧
      (∀ tx ∈ final.history.issued, (final.history.settlements tx).length ≤ 1) ∧
      ∃ more last, Concluded w ((Operation.abort 0).run Services.stubborn.minuted w).2 final ⟨1, 0⟩
        more last := by
  intro operations final w
  have issued : final.history.issued = [⟨1, 0⟩, ⟨2, 0⟩] := by decide +kernel
  obtain ⟨once, ends⟩ := every_transaction_settled_once Services.stubborn 0 0 operations
    (by decide +kernel)
  obtain ⟨-, -, concludes⟩ := ends (operations.take 2) (.abort 0) (operations.drop 3) (by decide)
  exact ⟨issued, once, (concludes rfl).2 ⟨1, 0⟩ (by decide +kernel)⟩

end DatasetCache
