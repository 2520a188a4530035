import DatasetCache.Proofs.Context.Film

/-!
# Callbacks that close their context

An abort and a finish write their last status after the callbacks that they have made, so
no callback within them may close the context.  What is left is the start of a
transaction, which writes nothing after its callbacks; but then no other callback may
bring a start about, neither by an enrolment nor by a start of its own.  A start of its
own comes to nothing as long as the transaction that the callback is for is in progress.
-/

namespace DatasetCache

open Act Context

variable {ε α : Type}

/-! ## Rules -/

def Move.closes : Move → Bool
  | .cleanup | .discard => true
  | _ => false

/-- Whether callbacks of one stage may come before those of another, or before others of
their own, for one and the same transaction. -/
def Stage.leadsTo : Stage → Stage → Bool
  | .changes, .changes | .changes, .persist | .changes, .confirm => true
  | .persist, .persist | .persist, .confirm => true
  | .confirm, .confirm => true
  | .rollback, .rollback => true
  | _, _ => false

namespace Rule

variable (rule : Rule)

def Bolts : Prop := ∃ move, Move.closes move = true ∧ rule .start move

def Calm (stage : Stage) : Prop :=
  ∀ earlier, Stage.leadsTo earlier stage = true → ¬ rule earlier .finish ∧ ¬ rule earlier .abort

/-- Callbacks close the context at most when a transaction starts, and then those of no
other stage have a transaction start. -/
def Terminal : Prop :=
  ∀ stage move, rule stage move → move.closes = true → stage = .start ∧
    ∀ other, other ≠ .start → ¬ rule other .enrol ∧ (rule other .start → rule.Calm other)

end Rule

/-! ## What a context must not lose -/

/-- What a context must not lose while callbacks are at work. -/
structure Care where
  living : Prop
  busy : Prop

structure Intact (c : ContextId) (care : Care) (w : World (Film ε)) : Prop where
  rolling : Rolling c w
  living : care.living → (w.context c).isClosed = false
  busy : care.busy → (w.context c).isActive = true

def Rule.care (rule : Rule) (stage : Stage) : Care where
  living := stage = .start → ¬ rule.Bolts
  busy := stage ≠ .start ∧ rule.Bolts ∧ rule.Calm stage

def Care.none : Care := ⟨False, False⟩

def Care.alive : Care := ⟨True, False⟩

def Care.Admits (care : Care) (rule : Rule) : Move → Prop
  | .cleanup | .discard => ¬ care.living ∧ ¬ care.busy
  | .finish | .abort => ¬ care.busy
  | .enrol => (care.living → ¬ rule.Bolts) ∧ ¬ care.busy
  | .start => (care.living → ¬ rule.Bolts) ∨ care.busy
  | .withdraw | .contains | .defer | .inspect => True

theorem Care.none_admits (rule : Rule) (move : Move) : Care.none.Admits rule move := by
  cases move <;> simp [Care.none, Care.Admits]

theorem Stage.ne_start_of_leadsTo {stage later : Stage} (leads : stage.leadsTo later = true) :
    stage ≠ .start := by
  rintro rfl
  cases later <;> cases leads

theorem Stage.leadsTo_trans {first second third : Stage} (early : first.leadsTo second = true)
    (late : second.leadsTo third = true) : first.leadsTo third = true := by
  cases first <;> cases second <;> cases early <;> cases third <;> cases late <;> rfl

theorem Stage.leadsTo_self {stage : Stage} (other : stage ≠ .start) :
    stage.leadsTo stage = true := by
  cases stage <;> first | rfl | contradiction

theorem Rule.Terminal.admits {rule : Rule} (terminal : rule.Terminal) {stage : Stage}
    {move : Move} (permitted : rule stage move) : (rule.care stage).Admits rule move := by
  have calls : ∀ {other}, other ≠ .start → rule.Bolts →
      ¬ rule other .enrol ∧ (rule other .start → rule.Calm other) := by
    rintro other different ⟨closing, closes, bolts⟩
    exact (terminal _ _ bolts closes).2 other different
  have closing : move.closes = true → ¬ (rule.care stage).living ∧ ¬ (rule.care stage).busy := by
    intro closes
    obtain ⟨rfl, -⟩ := terminal _ _ permitted closes
    exact ⟨fun living => living rfl ⟨move, closes, permitted⟩, fun busy => busy.1 rfl⟩
  cases move with
  | cleanup => exact closing rfl
  | discard => exact closing rfl
  | finish => exact fun ⟨other, _, calm⟩ => (calm stage (Stage.leadsTo_self other)).1 permitted
  | abort => exact fun ⟨other, _, calm⟩ => (calm stage (Stage.leadsTo_self other)).2 permitted
  | enrol =>
      refine ⟨fun living bolts => ?_, fun ⟨other, bolts, _⟩ => (calls other bolts).1 permitted⟩
      by_cases start : stage = .start
      · exact living start bolts
      · exact (calls start bolts).1 permitted
  | start =>
      by_cases bolts : rule.Bolts
      · by_cases start : stage = .start
        · exact .inl fun living => living start
        · exact .inr ⟨start, bolts, (calls start bolts).2 permitted⟩
      · exact .inl fun _ => bolts
  | _ => exact trivial

/-! ## Calls that change no context -/

namespace Intact

variable {c : ContextId} {care : Care} {w w' : World (Film ε)}

theorem imp {care' : Care} (intact : Intact c care w) (living : care'.living → care.living)
    (busy : care'.busy → care.busy) : Intact c care' w :=
  ⟨intact.rolling, fun cared => intact.living (living cared), fun cared => intact.busy (busy cared)⟩

theorem of_current (rolling : Rolling c w) {tx : Transaction}
    (current : (w.context c).current = some tx) : Intact c care w := by
  have status := rolling.consistent.status current
  exact ⟨rolling, fun _ => by simp [isClosed, status], fun _ => by simp [isActive, status]⟩

theorem alive {rule : Rule} {stage : Stage} (intact : Intact c (rule.care stage) w)
    (other : stage ≠ .start) : Intact c .alive w :=
  intact.imp (fun _ start => absurd start other) False.elim

theorem proceed {rule : Rule} {stage later : Stage} (intact : Intact c (rule.care stage) w)
    (next : stage.leadsTo later = true) : Intact c (rule.care later) w := by
  have other := Stage.ne_start_of_leadsTo next
  refine intact.imp (fun _ start => absurd start other) ?_
  rintro ⟨-, bolts, calm⟩
  exact ⟨other, bolts, fun earlier leads => calm earlier (Stage.leadsTo_trans leads next)⟩

theorem of_alive (alive : Intact c .alive w) (unbound : ¬ care.busy) : Intact c care w :=
  alive.imp (fun _ => trivial) unbound

theorem expose (intact : Intact c care w) (contexts : w'.contexts = w.contexts)
    (frames : w'.outside.frames = w.outside.frames ++ [w.context c]) : Intact c care w' := by
  have same : w'.context c = w.context c := by rw [World.context, World.context, contexts]
  refine ⟨intact.rolling.expose contexts frames, ?_, ?_⟩
  · rw [same]
    exact intact.living
  · rw [same]
    exact intact.busy

theorem unseen (intact : Intact c care w) (contexts : w'.contexts = w.contexts)
    (frames : w'.outside.frames = w.outside.frames) : Intact c care w' := by
  have same : w'.context c = w.context c := by rw [World.context, World.context, contexts]
  refine ⟨intact.rolling.unseen contexts frames, ?_, ?_⟩
  · rw [same]
    exact intact.living
  · rw [same]
    exact intact.busy

theorem update {care' : Care} (intact : Intact c care w) {f : Context → Context}
    (consistent : (f (w.context c)).Consistent)
    (stays : (w.context c).isClosed = true → (f (w.context c)).isClosed = true)
    (deserted : (f (w.context c)).isClosed = true → (f (w.context c)).participants = [])
    (living : care'.living → (f (w.context c)).isClosed = false)
    (busy : care'.busy → (f (w.context c)).isActive = true) : Intact c care' (w.update c f) := by
  have same := World.context_update_self (f := f) intact.rolling.inside
  refine ⟨intact.rolling.update consistent stays deserted, ?_, ?_⟩
  · rwa [same]
  · rwa [same]

end Intact

theorem filmed_leads (c : ContextId) (care : Care) (x : StateM ε α) :
    Leads (Intact c care) (do Film.shot c; Act.outside (Film.within x))
      fun _ => Intact c care :=
  fun _ intact => intact.expose rfl rfl

/-! ## Services that keep a context intact -/

/-- Callbacks of each stage keep what is taken care of there, and the other calls keep all. -/
structure Services.Careful (rule : Rule) (c : ContextId) (services : Services (Act (Film ε))) :
    Prop where
  start : ∀ p tx, Leads (Intact c (rule.care .start)) (services.start p tx)
    fun _ => Intact c (rule.care .start)
  changes : ∀ p, Leads (Intact c (rule.care .changes)) (services.changes p)
    fun _ => Intact c (rule.care .changes)
  persist : ∀ p, Leads (Intact c (rule.care .persist)) (services.persist p)
    fun _ => Intact c (rule.care .persist)
  confirm : ∀ p, Leads (Intact c (rule.care .confirm)) (services.confirm p)
    fun _ => Intact c (rule.care .confirm)
  rollback : ∀ p, Leads (Intact c (rule.care .rollback)) (services.rollback p)
    fun _ => Intact c (rule.care .rollback)
  begin : ∀ care k, Leads (Intact c care) (services.begin k) fun _ => Intact c care
  canCommit : ∀ care k tx changes, Leads (Intact c care) (services.canCommit k tx changes)
    fun _ => Intact c care
  commit : ∀ care k tx, Leads (Intact c care) (services.commit k tx) fun _ => Intact c care
  abort : ∀ care k tx, Leads (Intact c care) (services.abort k tx) fun _ => Intact c care
  invalidate : ∀ care k tx, Leads (Intact c care) (services.invalidate k tx)
    fun _ => Intact c care
  report : ∀ care d, Leads (Intact c care) (services.report d) fun _ => Intact c care

namespace Context

variable {rule : Rule} {c : ContextId} {care : Care} {services : Services (Act (Film ε))}
  (careful : services.Careful rule c)

/-! ### Operations -/

theorem leave_intact {status : Status} (inactive : status ≠ .active) (opened : status ≠ .closed) :
    Leads (Intact c .alive) (Context.modify c (leave status) : Act (Film ε) Unit)
      fun _ => Intact c .alive := by
  intro w alive
  have living := alive.living trivial
  refine alive.update ?_ ?_ ?_ ?_ False.elim
  · simp [Consistent, leave, isActive, inactive]
  · simp [living]
  · simp [leave, isClosed, opened]
  · simp [leave, isClosed, opened]

include careful

theorem abort_intact (unbound : ¬ care.busy) (reason : String) :
    Leads (Intact c care) (abort services c reason) fun _ => Intact c care := by
  intro w intact
  rw [abort_eq, bind_apply, Context.read]
  cases current : (w.context c).current with
  | none => exact intact
  | some tx =>
      have settles : ∀ failed, Leads (Intact c .alive)
          (settle services (w.context c).coordinator tx failed) fun _ => Intact c .alive := by
        intro failed
        unfold settle
        split
        · exact careful.abort _ _ _
        · exact careful.invalidate _ _ _
      have rolls : Leads (Intact c (rule.care .rollback))
          (services.rollbackAll (w.context c).participants)
          fun _ => Intact c (rule.care .rollback) :=
        rollbackAll_keeps (.lasting _) _ careful.rollback (careful.report _)
      have undoes : Leads (Intact c (rule.care .rollback)) (do
          let failed ← services.rollbackAll (w.context c).participants
          settle services (w.context c).coordinator tx failed
          Context.modify c (leave (.aborted reason))
          services.debug .transactions "Context transaction aborted"
          return verdict tx failed) fun _ => Intact c .alive := by
        refine .bind (rolls.imp fun _ _ undone => undone.alive (by simp)) fun failed => ?_
        refine .bind (settles failed) fun _ => ?_
        refine .bind (leave_intact (by simp) (by simp)) fun _ => ?_
        exact .bind (careful.report _ _) fun _ => .pure fun _ alive => alive
      -- nothing need be cared for before: a transaction in progress shows that the context is open
      exact (undoes w (.of_current intact.rolling current)).of_alive unbound

theorem abortFor_intact (reason : String) (fault : Fault) :
    Leads (Intact c .alive) (abortFor services c reason fault) fun _ => Intact c .alive := by
  refine .bind (abort_intact careful id reason) fun answer w alive => ?_
  cases answer <;> exact alive

theorem conclude_intact (k : CoordinatorId) (tx : Transaction) (ps : List Participant) :
    Leads (Intact c (rule.care .changes)) (conclude services c k tx ps)
      fun _ => Intact c .alive := by
  have fails : ∀ {stage : Stage}, stage ≠ .start → ∀ reason fault,
      Leads (Intact c (rule.care stage)) (abortFor services c reason fault)
        fun _ => Intact c .alive :=
    fun other reason fault w intact => abortFor_intact careful reason fault w (intact.alive other)
  have collects : Leads (Intact c (rule.care .changes)) (services.collectChanges ps)
      fun _ => Intact c (rule.care .changes) :=
    collectChanges_keeps (.lasting _) ps careful.changes
  have persists : Leads (Intact c (rule.care .changes)) (services.persistAll ps)
      fun _ => Intact c (rule.care .persist) := fun w told =>
    persistAll_keeps (.lasting _) ps careful.persist w (told.proceed rfl)
  have confirms : Leads (Intact c (rule.care .persist)) (services.confirmAll ps)
      fun _ => Intact c (rule.care .confirm) := fun w kept =>
    confirmAll_keeps (.lasting _) ps careful.confirm w (kept.proceed rfl)
  refine .bind collects fun changes => ?_
  refine .bind (careful.canCommit _ k tx changes) fun answer => ?_
  match answer with
  | .ok false => exact fails (by simp) _ _
  | .error fault => exact fails (by simp) _ _
  | .ok true =>
      refine .bind persists fun refusal => ?_
      cases refusal with
      | some reason => exact fails (by simp) _ _
      | none =>
          refine .bind (careful.commit _ k tx) fun answer => ?_
          match answer with
          | .ok false => exact fails (by simp) _ _
          | .error fault => exact fails (by simp) _ _
          | .ok true =>
              refine .bind (confirms.imp fun _ _ told => told.alive (by simp)) fun _ => ?_
              exact .bind (leave_intact (by simp) (by simp)) fun _ => .pure fun _ alive => alive

theorem finish_intact (unbound : ¬ care.busy) :
    Leads (Intact c care) (Context.finish services c) fun _ => Intact c care := by
  intro w intact
  rw [finish_eq, bind_apply, Context.read]
  cases current : (w.context c).current with
  | none => exact intact
  | some tx =>
      exact (conclude_intact careful _ tx _ w (.of_current intact.rolling current)).of_alive unbound

theorem enrol_intact (calls : care.living → ¬ rule.Bolts) (unbound : ¬ care.busy)
    (p : Participant) :
    Leads (Intact c care) (enrol services c p) fun _ => Intact c care := by
  intro w intact
  rw [enrol_eq, bind_apply, Context.read]
  cases closed : (w.context c).isClosed with
  | true => exact careful.report _ _ w intact
  | false =>
      by_cases present : (w.context c).has p = true
      · rw [if_neg (by simp), if_pos present]
        exact intact
      have accepted : ∀ {care' : Care}, ¬ care'.busy → Intact c care' (w.update c (accept p)) := by
        intro care' unbound'
        refine intact.update intact.rolling.consistent (fun h => h) ?_ (fun _ => closed)
          fun busy => absurd busy unbound'
        intro closed'
        rw [accept, isClosed] at closed'
        rw [isClosed, closed'] at closed
        contradiction
      rw [if_neg (by simp), if_neg present, bind_apply]
      cases current : (w.context c).current with
      | none => exact accepted unbound
      | some tx =>
          have told := careful.start p tx _ (accepted fun busy => busy.1 rfl)
          exact told.imp (fun living _ => calls living) fun busy => absurd busy unbound

theorem launch_intact (calls : care.living → ¬ rule.Bolts) (unbound : ¬ care.busy)
    (k : CoordinatorId) : Leads (Intact c .alive) (launch services c k) fun _ => Intact c care := by
  have enters : ∀ tx, Leads (Intact c .alive) (Context.modify c (enter tx) : Act (Film ε) Unit)
      fun _ => Intact c (rule.care .start) := by
    intro tx w alive
    refine alive.update rfl ?_ ?_ (fun _ => rfl) fun busy => absurd rfl busy.1
    · simp [alive.living trivial]
    · simp [enter, isClosed]
  refine .bind (careful.begin _ k) fun answer => ?_
  cases answer with
  | error fault => exact .pure fun _ alive => alive.of_alive unbound
  | ok tx =>
      have starts : ∀ ps, Leads (Intact c (rule.care .start)) (services.startAll tx ps)
          fun _ => Intact c (rule.care .start) :=
        fun ps => startAll_keeps (.lasting _) ps fun p => careful.start p tx
      refine .bind (enters tx) fun _ => ?_
      refine .bind (Q := fun _ => Intact c (rule.care .start)) (fun _ intact => intact)
        fun context => ?_
      refine .bind (starts _) fun _ => .bind (careful.report _ _) fun _ => ?_
      exact .pure fun _ started =>
        started.imp (fun living _ => calls living) fun busy => absurd busy unbound

theorem start_intact (calls : (care.living → ¬ rule.Bolts) ∨ care.busy) :
    Leads (Intact c care) (Context.start services c) fun _ => Intact c care := by
  intro w intact
  cases closed : (w.context c).isClosed with
  | true =>
      rw [start_closed services closed]
      exact intact
  | false =>
      rcases start_cases services c w with ⟨fault, refused⟩ | ⟨inactive, launched⟩
      · rw [refused]
        exact intact
      have unbound : ¬ care.busy := fun busy => by simp [intact.busy busy] at inactive
      rw [launched]
      exact launch_intact careful (calls.resolve_right unbound) unbound _ w
        ⟨intact.rolling, fun _ => closed, False.elim⟩

omit careful in
theorem drain_intact (unbound : ¬ care.living ∧ ¬ care.busy) :
    Leads (Intact c care) (drain c : Act (Film ε) _) fun _ => Intact c care := by
  intro w intact
  refine intact.update rfl (fun _ => rfl) (fun _ => rfl) ?_ ?_
  · exact fun living => absurd living unbound.1
  · exact fun busy => absurd busy unbound.2

theorem close_intact (unbound : ¬ care.living ∧ ¬ care.busy) :
    Leads (Intact c care) (Context.close services c) fun _ => Intact c care := by
  have abandons : Leads (Intact c care) (abandon services c) fun _ => Intact c care := by
    refine .bind (careful.report _ _) fun _ => ?_
    refine .bind (abort_intact careful unbound.2 _) fun answer => ?_
    cases answer with
    | ok done => exact fun _ intact => intact
    | error fault => exact careful.report _ _
  intro w intact
  rw [close_eq, bind_apply, Context.read]
  cases active : (w.context c).isActive with
  | true => exact drain_intact unbound _ (abandons w intact)
  | false => exact drain_intact unbound _ intact

omit careful in
theorem withdraw_intact (p : Participant) :
    Leads (Intact c care) (withdraw c p : Act (Film ε) _) fun _ => Intact c care := by
  intro w intact
  cases active : (w.context c).isActive with
  | true =>
      rw [withdraw_active active]
      exact intact
  | false =>
      rw [withdraw_inactive active]
      refine intact.update intact.rolling.consistent (fun h => h) ?_ intact.living intact.busy
      intro closed
      rw [expel, intact.rolling.deserted closed]
      rfl

theorem run_intact (operation : Operation) (admitted : care.Admits rule operation.move) :
    Leads (Intact c care) ((operation.retarget c).run services) fun _ => Intact c care := by
  have gives : ∀ {β : Type} {x : Act (Film ε) β} (f : β → Outcome),
      Leads (Intact c care) x (fun _ => Intact c care) →
      Leads (Intact c care) (do return f (← x)) fun _ => Intact c care :=
    fun _ kept => .bind kept fun _ => .pure fun _ intact => intact
  cases operation with
  | enrol _ p => exact gives _ (enrol_intact careful admitted.1 admitted.2 p)
  | withdraw _ p => exact gives _ (withdraw_intact p)
  | contains _ p => exact fun _ intact => intact
  | defer _ p =>
      intro w intact
      exact intact.update intact.rolling.consistent (fun h => h) intact.rolling.deserted
        intact.living intact.busy
  | start _ => exact gives _ (start_intact careful admitted)
  | finish _ => exact gives _ (finish_intact careful admitted)
  | abort _ => exact gives _ (abort_intact careful admitted _)
  | abortWith _ reason => exact gives _ (abort_intact careful admitted reason)
  | cleanup _ => exact gives _ (close_intact careful admitted)
  | discard _ =>
      exact .bind (.bind (close_intact careful admitted) fun _ => .pure fun _ intact => intact)
        fun _ => .pure fun _ intact => intact
  | inspect _ => exact fun _ intact => intact

omit careful in
theorem run_state (operation : Operation) {w : World (Film ε)} {context : Context}
    (told : ((operation.retarget c).run services w).1 = .state context) :
    ((operation.retarget c).run services w).2.context c = context := by
  have other : ∀ {answer : Except Fault Unit}, Outcome.ofExcept (fun _ => .done) answer ≠
      .state context := by
    rintro (fault | done) <;> simp [Outcome.ofExcept]
  cases operation with
  | inspect _ => exact Outcome.state.inj told
  | withdraw _ p =>
      simp only [Operation.retarget, Operation.run, bind_apply, pure_apply] at told
      cases answer : (withdraw c p w).1 <;> simp [answer, Outcome.ofExcept] at told
  | start _ =>
      simp only [Operation.retarget, Operation.run, bind_apply, pure_apply] at told
      cases answer : (Context.start services c w).1 <;> simp [answer, Outcome.ofExcept] at told
  | finish _ => exact absurd told other
  | abort _ => exact absurd told other
  | abortWith _ _ => exact absurd told other
  | _ => cases told

end Context

/-! ## Callbacks that keep a context intact -/

namespace Callbacks

variable {callbacks : Callbacks ε} {base : Services (StateM ε)} {rule : Rule} {c : ContextId}

def scene (callbacks : Callbacks ε) (base : Services (StateM ε)) (c : ContextId) :
    Nat → Participant → Callback → Act (Film ε) Unit
  | 0, p, callback => do
    let _ ← Act.outside ((callbacks.filmed c).enter p callback)
  | depth + 1, p, callback => do
    let operations ← Act.outside ((callbacks.filmed c).enter p callback)
    (callbacks.filmed c).runOperations (callbacks.screened base c depth) p callback operations

theorem screened_eq (callbacks : Callbacks ε) (base : Services (StateM ε)) (c : ContextId)
    (depth : Nat) : callbacks.screened base c depth =
      entering (base.filmed c) (callbacks.scene base c depth) := by
  cases depth <;> rfl

theorem entering_careful {body : Participant → Callback → Act (Film ε) Unit}
    (bodies : ∀ p callback, Leads (Intact c (rule.care callback.stage)) (body p callback)
      fun _ => Intact c (rule.care callback.stage)) :
    (entering (base.filmed c) body).Careful rule c where
  start p tx := .bind (bodies p (.start tx)) fun _ => filmed_leads c _ _
  changes p := .bind (bodies p .changes) fun _ => filmed_leads c _ _
  persist p := .bind (bodies p .persist) fun _ => filmed_leads c _ _
  confirm p := .bind (bodies p .confirm) fun _ => filmed_leads c _ _
  rollback p := .bind (bodies p .rollback) fun _ => filmed_leads c _ _
  begin _ _ := filmed_leads c _ _
  canCommit _ _ _ _ := filmed_leads c _ _
  commit _ _ _ := filmed_leads c _ _
  abort _ _ _ := filmed_leads c _ _
  invalidate _ _ _ := filmed_leads c _ _
  report _ _ := filmed_leads c _ _

theorem observe_intact (callbacks : Callbacks ε) {care : Care} {w : World (Film ε)}
    (intact : Intact c care w) (p : Participant) (callback : Callback) (operation : Operation)
    {outcome : Outcome} (told : ∀ context, outcome = .state context → w.context c = context) :
    Intact c care (Act.outside ((callbacks.filmed c).observe p callback operation outcome) w).2 := by
  have frames : ((callbacks.filmed c).observe p callback operation outcome w.outside).2.frames =
      (w.outside.notice outcome).frames := by
    simp only [filmed]
    split <;> rfl
  cases outcome with
  | state context =>
      obtain rfl := told context rfl
      exact intact.expose rfl frames
  | _ => exact intact.unseen rfl frames

theorem runOperations_intact {callbacks : Callbacks ε} {care : Care}
    {services : Services (Act (Film ε))} (careful : services.Careful rule c) (p : Participant)
    (callback : Callback) (operations : List Operation)
    (admitted : ∀ operation ∈ operations, ∃ aimed : Operation,
      operation = aimed.retarget c ∧ care.Admits rule aimed.move) :
    Leads (Intact c care)
      ((callbacks.filmed c).runOperations services p callback operations)
      fun _ => Intact c care := by
  induction operations with
  | nil => exact fun _ intact => intact
  | cons operation rest ih =>
      obtain ⟨aimed, rfl, admits⟩ := admitted operation List.mem_cons_self
      have others := ih fun other member => admitted other (List.mem_cons_of_mem _ member)
      intro w intact
      have ran := run_intact careful aimed admits w intact
      exact others _ (observe_intact callbacks ran p callback _ fun _ => run_state aimed)

theorem asked_of_filmed (terminal : rule.Terminal) (obeys : callbacks.Obeys rule)
    (p : Participant) (callback : Callback) (film : Film ε) (operation : Operation)
    (member : operation ∈ (((callbacks.retarget c).filmed c).enter p callback film).1) :
    ∃ aimed : Operation, operation = aimed.retarget c ∧
      (rule.care callback.stage).Admits rule aimed.move := by
  have looks : ∃ aimed : Operation, Operation.inspect c = aimed.retarget c ∧
      (rule.care callback.stage).Admits rule aimed.move := ⟨.inspect c, rfl, trivial⟩
  rcases List.mem_cons.1 member with rfl | member
  · exact looks
  obtain ⟨own, asked, member⟩ := List.mem_flatMap.1 member
  rcases List.mem_cons.1 member with rfl | member
  · obtain ⟨aimed, first, rfl⟩ := List.mem_map.1 asked
    exact ⟨aimed, rfl, terminal.admits (obeys p callback film.inner aimed first)⟩
  · obtain rfl := List.mem_singleton.1 member
    exact looks

theorem screened_careful (terminal : rule.Terminal) (obeys : callbacks.Obeys rule)
    (base : Services (StateM ε)) (depth : Nat) :
    ((callbacks.retarget c).screened base c depth).Careful rule c := by
  -- what a callback asks for is run one level below
  induction depth with
  | zero =>
      rw [screened_eq]
      refine entering_careful fun p callback w intact => ?_
      exact intact.unseen rfl rfl
  | succ depth ih =>
      rw [screened_eq]
      refine entering_careful fun p callback w intact => ?_
      exact runOperations_intact ih p callback _
        (asked_of_filmed terminal obeys p callback w.outside) _ (intact.unseen rfl rfl)

end Callbacks

namespace Film

theorem shot_intact {c : ContextId} {care : Care} :
    Leads (Intact c care) (shot (ε := ε) c) fun _ => Intact c care :=
  fun _ intact => intact.expose rfl rfl

theorem play_intact {rule : Rule} {c : ContextId} {services : Services (Act (Film ε))}
    (careful : services.Careful rule c) (operations : List Operation) :
    Leads (Intact c .none) (play services c (operations.map (Operation.retarget c)))
      fun _ => Intact c .none := by
  induction operations with
  | nil => exact shot_intact
  | cons operation rest ih =>
      refine .bind shot_intact fun _ => ?_
      exact .bind (run_intact careful operation (Care.none_admits rule _)) fun _ => ih

end Film

theorem intact_create (k : CoordinatorId) (outside : ε) :
    Intact 0 .none (Context.create k { outside := { inner := outside } : World (Film ε) }).2 := by
  refine ⟨⟨Nat.zero_lt_one, rfl, fun _ => rfl, ?_, ?_⟩, False.elim, False.elim⟩
  · intro m n earlier later order found
    cases found
  · intro frame member
    cases member

/-- The law of a terminal rule: no film shows a context that comes back from its end. -/
theorem final_of_terminal {rule : Rule} (terminal : rule.Terminal) {callbacks : Callbacks ε}
    (obeys : callbacks.Obeys rule) (base : Services (StateM ε)) (depth : Nat)
    (k : CoordinatorId) (operations : List Operation) (outside : ε) :
    Final (callbacks.film base depth k operations outside) :=
  (Film.play_intact (Callbacks.screened_careful terminal obeys base depth) operations _
    (intact_create k outside)).rolling.final

end DatasetCache
