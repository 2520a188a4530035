import DatasetCache.Proofs.Cache.Frame
import DatasetCache.Proofs.Context.Effects
import DatasetCache.Proofs.Table

/-!
# A ledger of what is loaded and closed

Next to the journal of transactions stands a ledger of the datasets that are loaded and
of the instances that are closed.  A closing carries a time, which is the number of
entries that the journal has by then, so the two can be read together.  Operations on
contexts enter nothing in the ledger, and what the cache enters there leaves the contexts
and the journal as they are.
-/

namespace DatasetCache

open Act

variable {ε α : Type}

inductive Event where
  | loaded (dataset : Dataset)
  | closed (i : InstanceId) (time : Nat)
  /-- An extra participant is closed. -/
  | closedExtra (i : InstanceId) (time : Nat)
  deriving DecidableEq, Repr

structure Ledger (ε : Type) where
  events : List Event := []
  inner : ε

def Ledger.within (x : StateM ε α) : StateM (Ledger ε) α := fun ledger =>
  ((x ledger.inner).1, { ledger with inner := (x ledger.inner).2 })

namespace World

def journal (w : World (Journal (Ledger ε))) : List Entry := w.outside.entries

def ledger (w : World (Journal (Ledger ε))) : List Event := w.outside.inner.events

/-- The time that a closing would carry. -/
def time (w : World (Journal (Ledger ε))) : Nat := w.journal.length

/-- A world where nothing has been noted yet. -/
def unwritten (contexts : List Context) (outside : ε) : World (Journal (Ledger ε)) :=
  { contexts, outside := { inner := { inner := outside } } }

end World

/-! ## Services that keep a ledger -/

def Act.account (event : World (Journal (Ledger ε)) → List Event) :
    Act (Journal (Ledger ε)) Unit := fun w =>
  let ledger := w.outside.inner
  ((), { w with outside := { w.outside with
    inner := { ledger with events := ledger.events ++ event w } } })

def Event.ofLoad : Except Fault (Option Dataset) → List Event
  | .ok (some dataset) => [.loaded dataset]
  | _ => []

def Services.accounted (services : Services (Act (Journal (Ledger ε)))) :
    Services (Act (Journal (Ledger ε))) :=
  { services with
    load := fun i realm key => do
      let answer ← services.load i realm key
      Act.account fun _ => Event.ofLoad answer
      return answer
    closeDataset := fun d => do
      Act.account fun w => [.closed d.id w.time]
      services.closeDataset d
    closeParticipant := fun p => do
      Act.account fun w => [.closedExtra p.id w.time]
      services.closeParticipant p }

def Callbacks.within (callbacks : Callbacks ε) : Callbacks (Ledger ε) where
  enter p callback := Ledger.within (callbacks.enter p callback)
  observe p callback operation outcome :=
    Ledger.within (callbacks.observe p callback operation outcome)

/-- Services that call back, to a given depth, with a journal and a ledger of it all. -/
def Callbacks.audited (callbacks : Callbacks ε) (base : Services (StateM ε)) (depth : Nat) :
    Services (Act (Journal (Ledger ε))) :=
  (callbacks.within.journaled (base.map Ledger.within) depth).accounted

/-- Services with a journal and a ledger, whose callbacks call no context back. -/
def Services.audited (base : Services (StateM ε)) : Services (Act (Journal (Ledger ε))) :=
  Callbacks.silent.audited base 0

/-! ## Reading a ledger -/

def Event.dataset? : Event → Option Dataset
  | loaded dataset => some dataset
  | _ => none

def Event.releases? : Event → Option InstanceId
  | closed i _ => some i
  | _ => none

def Event.closes? (i : InstanceId) : Event → Option Nat
  | closed j time => if j = i then some time else none
  | closedExtra j time => if j = i then some time else none
  | loaded _ => none

def loads (events : List Event) : List Dataset := events.filterMap Event.dataset?

def releases (events : List Event) : List InstanceId := events.filterMap Event.releases?

/-- When an instance was closed, be it as a dataset or as an extra participant. -/
def closings (i : InstanceId) (events : List Event) : List Nat :=
  events.filterMap (Event.closes? i)

@[simp] theorem loads_append (events more : List Event) :
    loads (events ++ more) = loads events ++ loads more := by
  simp [loads]

@[simp] theorem releases_append (events more : List Event) :
    releases (events ++ more) = releases events ++ releases more := by
  simp [releases]

@[simp] theorem closings_append (i : InstanceId) (events more : List Event) :
    closings i (events ++ more) = closings i events ++ closings i more := by
  simp [closings]

section Reading

variable (i j : InstanceId) (dataset : Dataset) (time : Nat) (events : List Event)

@[simp] theorem loads_nil : loads [] = [] := rfl

@[simp] theorem loads_loaded : loads (.loaded dataset :: events) = dataset :: loads events := rfl

@[simp] theorem loads_closed : loads (.closed j time :: events) = loads events := rfl

@[simp] theorem loads_closedExtra : loads (.closedExtra j time :: events) = loads events := rfl

@[simp] theorem releases_nil : releases [] = [] := rfl

@[simp] theorem releases_loaded : releases (.loaded dataset :: events) = releases events := rfl

@[simp] theorem releases_closed :
    releases (.closed j time :: events) = j :: releases events := rfl

@[simp] theorem releases_closedExtra :
    releases (.closedExtra j time :: events) = releases events := rfl

@[simp] theorem closings_nil : closings i [] = [] := rfl

@[simp] theorem closings_loaded : closings i (.loaded dataset :: events) = closings i events := rfl

@[simp] theorem closings_closed : closings i (.closed j time :: events) =
    if j = i then time :: closings i events else closings i events := by
  by_cases same : j = i <;> simp [closings, Event.closes?, same]

@[simp] theorem closings_closedExtra : closings i (.closedExtra j time :: events) =
    if j = i then time :: closings i events else closings i events := by
  by_cases same : j = i <;> simp [closings, Event.closes?, same]

end Reading

/-! ## What is entered in the ledger -/

structure Books (more : List Event) (w w' : World (Journal (Ledger ε))) : Prop where
  contexts : w'.contexts = w.contexts
  journal : w'.journal = w.journal
  ledger : w'.ledger = w.ledger ++ more

namespace Books

variable {events more : List Event} {w w' w'' : World (Journal (Ledger ε))}

theorem none (w : World (Journal (Ledger ε))) : Books [] w w := ⟨rfl, rfl, by simp⟩

theorem append (first : Books events w w') (rest : Books more w' w'') :
    Books (events ++ more) w w'' :=
  ⟨rest.contexts.trans first.contexts, rest.journal.trans first.journal,
    by rw [rest.ledger, first.ledger, List.append_assoc]⟩

theorem quiet (first : Books events w w') (rest : Books [] w' w'') : Books events w w'' := by
  have both := first.append rest
  rwa [List.append_nil] at both

theorem time (books : Books events w w') : w'.time = w.time := by
  rw [World.time, World.time, books.journal]

theorem adds (books : Books events w w') : Adds [] w w' :=
  ⟨books.contexts, books.journal.trans (List.append_nil _).symm⟩

end Books

def Calm (w w' : World (Journal (Ledger ε))) : Prop := w'.ledger = w.ledger

theorem Books.calm {w w' : World (Journal (Ledger ε))} (books : Books [] w w') : Calm w w' := by
  rw [Calm, books.ledger, List.append_nil]

/-- Loads and closings are entered, and operations on contexts enter nothing. -/
structure Services.Accountable (services : Services (Act (Journal (Ledger ε)))) : Prop where
  report : ∀ w d, Books [] w (services.report d w).2
  meter : ∀ w sink tag value d, Books [] w (services.meter sink tag value d w).2
  closeInstantiator : ∀ w i, Books [] w (services.closeInstantiator i w).2
  load : ∀ w i realm key,
    Books (Event.ofLoad (services.load i realm key w).1) w (services.load i realm key w).2
  closeDataset : ∀ w d, Books [.closed d.id w.time] w (services.closeDataset d w).2
  closeParticipant : ∀ w p, Books [.closedExtra p.id w.time] w (services.closeParticipant p w).2
  run : ∀ operation : Context.Operation, Keeps Calm (operation.run services)

/-! ## Operations on contexts enter nothing -/

theorem calm_order : Order (Calm (ε := ε)) where
  refl _ := rfl
  trans first second := second.trans first

section Steady

variable {γ : Type} (f : ε → γ) {base : Services (StateM ε)} {callbacks : Callbacks ε}
  (steady : base.detached.Keep fun w w' => f w'.outside = f w.outside)

include steady

theorem recorded_keep :
    base.recorded.detached.Keep fun w w' => f w'.outside.inner = f w.outside.inner where
  start p tx w := steady.start p tx ⟨w.contexts, w.outside.inner⟩
  changes p w := steady.changes p ⟨w.contexts, w.outside.inner⟩
  persist p w := steady.persist p ⟨w.contexts, w.outside.inner⟩
  confirm p w := steady.confirm p ⟨w.contexts, w.outside.inner⟩
  rollback p w := steady.rollback p ⟨w.contexts, w.outside.inner⟩
  begin k w := by
    have call := steady.begin k ⟨w.contexts, w.outside.inner⟩
    simp only [Services.detached, Services.map, Act.outside, Services.recorded, bind,
      StateT.bind, Journal.within] at call ⊢
    cases (base.begin k w.outside.inner).1 <;> exact call
  canCommit k tx changes w := steady.canCommit k tx changes ⟨w.contexts, w.outside.inner⟩
  commit k tx w := by
    have call := steady.commit k tx ⟨w.contexts, w.outside.inner⟩
    simp only [Services.detached, Services.map, Act.outside, Services.recorded, bind,
      StateT.bind, Journal.within] at call ⊢
    cases (base.commit k tx w.outside.inner).1 with
    | error fault => exact call
    | ok agreed => cases agreed <;> exact call
  abort k tx w := steady.abort k tx ⟨w.contexts, w.outside.inner⟩
  invalidate k tx w := steady.invalidate k tx ⟨w.contexts, w.outside.inner⟩
  load i realm key w := steady.load i realm key ⟨w.contexts, w.outside.inner⟩
  closeInstantiator i w := steady.closeInstantiator i ⟨w.contexts, w.outside.inner⟩
  closeDataset d w := steady.closeDataset d ⟨w.contexts, w.outside.inner⟩
  closeParticipant p w := steady.closeParticipant p ⟨w.contexts, w.outside.inner⟩
  meter i tag value d w := steady.meter i tag value d ⟨w.contexts, w.outside.inner⟩
  report d w := steady.report d ⟨w.contexts, w.outside.inner⟩

theorem journaled_keep (own : callbacks.Keep fun w w' => f w'.outside = f w.outside)
    (depth : Nat) :
    (callbacks.journaled base depth).Keep fun w w' => f w'.outside.inner = f w.outside.inner := by
  have order : Order fun w w' : World (Journal ε) => f w'.outside.inner = f w.outside.inner :=
    ⟨fun _ => rfl, fun first second => second.trans first⟩
  have own' : callbacks.recorded.Keep fun w w' => f w'.outside.inner = f w.outside.inner :=
    ⟨fun p call w => own.enter p call ⟨w.contexts, w.outside.inner⟩,
      fun p call operation outcome w =>
        own.observe p call operation outcome ⟨w.contexts, w.outside.inner⟩⟩
  have asks : callbacks.recorded.Ask fun _ _ => True := fun _ _ _ _ _ => trivial
  refine Callbacks.nested_keep_of order own' (recorded_keep f steady) asks ?_ depth
  intro services keep _ operation _
  exact Context.run_keeps order keep (fun _ _ _ => rfl) operation

end Steady

theorem journaled_calm (callbacks : Callbacks ε) (base : Services (StateM ε)) (depth : Nat) :
    (callbacks.within.journaled (base.map Ledger.within) depth).Keep Calm := by
  refine journaled_keep Ledger.events ?_ ⟨fun _ _ _ => rfl, fun _ _ _ _ _ => rfl⟩ depth
  constructor <;> intros <;> intro w <;> rfl

/-! ## Operations on contexts load and close nothing -/

def Services.provided {m : Type → Type} (services : Services m) (provision : Provision m) :
    Services m :=
  { services with toProvision := provision }

section Provided

variable (services : Services (Act ε)) (provision : Provision (Act ε))

theorem Services.rollbackAll_provided (ps : List Participant) :
    (services.provided provision).rollbackAll ps = services.rollbackAll ps := by
  induction ps with
  | nil => rfl
  | cons p rest ih =>
      unfold Services.rollbackAll
      rw [ih]
      rfl

namespace Context

theorem abort_provided (c : ContextId) (reason : String) :
    abort (services.provided provision) c reason = abort services c reason := by
  unfold abort
  simp only [Services.rollbackAll_provided]
  rfl

theorem abortFor_provided (c : ContextId) (reason : String) (fault : Fault) :
    abortFor (services.provided provision) c reason fault = abortFor services c reason fault := by
  rw [abortFor, abort_provided, abortFor]

theorem finish_provided (c : ContextId) :
    finish (services.provided provision) c = finish services c := by
  unfold finish
  simp only [abortFor_provided]
  rfl

theorem close_provided (c : ContextId) :
    close (services.provided provision) c = close services c := by
  unfold close
  simp only [abort_provided]
  rfl

theorem Operation.run_provided (operation : Operation) :
    operation.run (services.provided provision) = operation.run services := by
  cases operation with
  | finish c => rw [run, finish_provided, run]
  | abort c => rw [run, abort_provided, run]
  | abortWith c reason => rw [run, abort_provided, run]
  | cleanup c => rw [run, close_provided, run]
  | discard c => rw [run, Context.discard, close_provided, run, Context.discard]
  | _ => rfl

end Context

end Provided

namespace Context

variable (services : Services (Act (Journal (Ledger ε))))

theorem close_accounted (c : ContextId) : close services.accounted c = close services c :=
  close_provided services services.accounted.toProvision c

theorem Operation.run_accounted (operation : Operation) :
    operation.run services.accounted = operation.run services :=
  run_provided services services.accounted.toProvision operation

end Context

theorem Callbacks.audited_accountable (callbacks : Callbacks ε) (base : Services (StateM ε))
    (depth : Nat) : (callbacks.audited base depth).Accountable where
  report w d := by cases depth <;> exact ⟨rfl, rfl, (List.append_nil _).symm⟩
  meter w sink tag value d := by cases depth <;> exact ⟨rfl, rfl, (List.append_nil _).symm⟩
  closeInstantiator w i := by cases depth <;> exact ⟨rfl, rfl, (List.append_nil _).symm⟩
  load w i realm key := by cases depth <;> exact ⟨rfl, rfl, rfl⟩
  closeDataset w d := by cases depth <;> exact ⟨rfl, rfl, rfl⟩
  closeParticipant w p := by cases depth <;> exact ⟨rfl, rfl, rfl⟩
  run operation := by
    rw [audited, Context.Operation.run_accounted]
    exact Context.run_keeps calm_order (journaled_calm callbacks base depth) (fun _ _ _ => rfl) _

namespace Context

variable {services : Services (Act (Journal (Ledger ε)))} (accounts : services.Accountable)

include accounts

theorem enrol_calm (c : ContextId) (p : Participant) : Keeps Calm (enrol services c p) :=
  fun w => accounts.run (.enrol c p) w

theorem close_calm (c : ContextId) : Keeps Calm (close services c) :=
  fun w => accounts.run (.cleanup c) w

theorem discard_calm (c : ContextId) : Keeps Calm (discard services c) :=
  fun w => accounts.run (.discard c) w

omit accounts in
theorem withdraw_calm (c : ContextId) (p : Participant) :
    Keeps (Calm (ε := ε)) (withdraw c p) :=
  withdraw_keeps calm_order c p fun _ => rfl

end Context

/-! ## What the parts of a cache enter -/

section Parts

variable {services : Services (Act (Journal (Ledger ε)))} (accounts : services.Accountable)
  {w : World (Journal (Ledger ε))}

def Event.ofAnswer : Except Fault Dataset → List Event
  | .ok dataset => [.loaded dataset]
  | .error _ => []

include accounts

theorem Loader.load_books (loader : Loader) (key : Key) :
    let load := loader.load services key w
    Books (Event.ofAnswer load.1) w load.2 := by
  have call := accounts.load w loader.instantiator loader.realm key
  unfold Loader.load
  simp only [bind_apply]
  generalize services.load loader.instantiator loader.realm key w = answered
    at call ⊢
  obtain ⟨answer, next⟩ := answered
  match answer with
  | .error fault => exact call
  | .ok none => exact call
  | .ok (some dataset) =>
      dsimp only
      cases loader.metrics with
      | none => exact call
      | some metrics =>
          cases dataset.metered with
          | false => exact call
          | true => exact call.quiet (accounts.meter next _ _ _ _)

def closingsOf (datasets : List Dataset) (time : Nat) : List Event :=
  datasets.map fun d => .closed d.id time

namespace Store

theorem release_books (store : Store) (key : Key) (dataset : Dataset) :
    Books [.closed dataset.id w.time] w
      (store.release services key dataset w).2 := by
  have call := accounts.closeDataset w dataset
  unfold release
  simp only [bind_apply]
  generalize services.closeDataset dataset w = answered at call ⊢
  obtain ⟨answer, next⟩ := answered
  cases answer <;> exact call.quiet (accounts.report next _)

theorem releaseEach_books (store : Store) (entries : List (Key × Dataset)) :
    Books (closingsOf (entries.map (·.2)) w.time) w
      (store.releaseEach services entries w).2 := by
  induction entries generalizing store w with
  | nil => exact .none w
  | cons entry rest ih =>
      have first : Books [.closed entry.2.id w.time] w
          (store.release services entry.1 entry.2 w).2 :=
        release_books accounts store entry.1 entry.2
      have others := ih (store.release services entry.1 entry.2 w).1.2
        (w := (store.release services entry.1 entry.2 w).2)
      rw [first.time] at others
      exact first.append others

theorem evictAll_books (store : Store) :
    Books (closingsOf store.entries.values w.time) w
      (store.evictAll services w).2 :=
  releaseEach_books accounts _ _

end Store

theorem Statics.closeAll_books (statics : Statics) :
    Books (closingsOf statics.datasets.values w.time) w
      (statics.closeAll services w).2 := by
  have each : ∀ (entries : List (Key × Dataset)) (w : World (Journal (Ledger ε))),
      Books (closingsOf (entries.map (·.2)) w.time) w
        (Statics.closeEach services entries w).2 := by
    intro entries
    induction entries with
    | nil => exact .none
    | cons entry rest ih =>
        intro w
        have first := accounts.closeDataset w entry.2
        simp only [Statics.closeEach, bind_apply]
        generalize services.closeDataset entry.2 w = answered at first ⊢
        obtain ⟨answer, next⟩ := answered
        rw [List.map_cons, closingsOf, List.map_cons, ← first.time]
        rw [← first.time] at first
        cases answer with
        | ok done => exact first.append (ih next)
        | error fault =>
            have logged := first.quiet (accounts.report next
              ⟨.warn, .cache, "Error closing static dataset"⟩)
            have others := ih (services.report
              ⟨.warn, .cache, "Error closing static dataset"⟩ next).2
            rw [(accounts.report next _).time] at others
            exact logged.append others
  exact each _ w

theorem Extras.closeAll_books (extras : Extras) :
    ∃ more, Books more w (extras.closeAll services w).2 ∧
      ∀ event ∈ more, ∃ p ∈ extras.members, ∃ time, event = .closedExtra p.id time := by
  have each : ∀ (ps : List Participant) (w : World (Journal (Ledger ε))),
      ∃ more, Books more w (Extras.closeEach services ps w).2 ∧
        ∀ event ∈ more, ∃ p ∈ ps, ∃ time, event = .closedExtra p.id time := by
    intro ps
    induction ps with
    | nil => exact fun w => ⟨[], .none w, by simp⟩
    | cons p rest ih =>
        intro w
        have rest' : ∀ {w' : World (Journal (Ledger ε))} {first : List Event}, Books first w w' →
            (∀ event ∈ first, ∃ time, event = .closedExtra p.id time) →
            ∃ more, Books more w (Extras.closeEach services rest w').2 ∧
              ∀ event ∈ more, ∃ q ∈ p :: rest, ∃ time, event = .closedExtra q.id time := by
          intro w' first books own
          obtain ⟨more, others, closed⟩ := ih w'
          refine ⟨first ++ more, books.append others, fun event member => ?_⟩
          rcases List.mem_append.1 member with member | member
          · exact ⟨p, List.mem_cons_self, own event member⟩
          · obtain ⟨q, member, closed⟩ := closed event member
            exact ⟨q, List.mem_cons_of_mem p member, closed⟩
        unfold Extras.closeEach
        split
        · have first := accounts.closeParticipant w p
          simp only [bind_apply]
          generalize services.closeParticipant p w = answered at first ⊢
          obtain ⟨answer, next⟩ := answered
          cases answer with
          | ok done => exact rest' first (by simp)
          | error fault =>
              exact rest' (first.quiet (accounts.report next _)) (by simp)
        · exact rest' (.none w) (by simp)
  exact each _ w

end Parts

end DatasetCache
