import DatasetCache.Proofs.Context.Order

/-!
# Callbacks that call back

Callbacks may call the context that called them, and these calls may lead to callbacks
again.  Two kinds of calls are harmless.  From any callback, operations that settle
nothing: they leave the transaction in progress and at most add participants to it.  From
a rollback, all operations but a commit: they settle what was to be settled anyway.
-/

namespace DatasetCache

open Act Context

variable {ε α : Type}

/-! ## Conditions on a context and the journal -/

structure At (c : ContextId) (P : Context → List Entry → Prop) (w : World (Journal ε)) : Prop where
  inside : c < w.contexts.length
  holds : P (w.context c) w.outside.entries

namespace At

variable {c : ContextId} {P Q : Context → List Entry → Prop} {w w' : World (Journal ε)}

theorem imp (here : At c P w) (step : ∀ context entries, P context entries → Q context entries) :
    At c Q w := ⟨here.inside, step _ _ here.holds⟩

theorem adds {more : List Entry} (here : At c P w) (adds : Adds more w w')
    (step : ∀ context entries, P context entries → Q context (entries ++ more)) : At c Q w' := by
  refine ⟨by rw [adds.contexts]; exact here.inside, ?_⟩
  rw [adds.context, adds.entries]
  exact step _ _ here.holds

theorem update {f : Context → Context} (here : At c P w)
    (step : ∀ context entries, P context entries → Q (f context) entries) :
    At c Q (w.update c f) := by
  refine ⟨by simpa using here.inside, ?_⟩
  rw [World.context_update_self here.inside]
  exact step _ _ here.holds

theorem quiet (here : At c P w) (adds : Adds [] w w') : At c P w' := by
  refine here.adds adds fun context entries holds => ?_
  rwa [List.append_nil]

theorem leads_of_adds {x : Act (Journal ε) α} (calm : ∀ w, Adds [] w (x w).2) :
    Leads (At c P) x fun _ => At c P :=
  fun w here => here.quiet (calm w)

end At

/-! ## A callback, from its arrival to its answer -/

namespace Callbacks

variable (callbacks : Callbacks ε) (base : Services (StateM ε))

def body : Nat → Participant → Callback → Act (Journal ε) Unit
  | 0, p, callback => do
    let _ ← Act.outside (callbacks.recorded.enter p callback)
  | depth + 1, p, callback => do
    let operations ← Act.outside (callbacks.recorded.enter p callback)
    callbacks.recorded.runOperations (callbacks.journaled base depth) p callback operations

theorem journaled_eq (depth : Nat) :
    callbacks.journaled base depth =
      entering base.recorded.detached (callbacks.body base depth) := by
  cases depth <;> rfl

def Prudent (c : ContextId) : Prop :=
  callbacks.Ask fun callback operation => ∃ aimed : Operation, operation = aimed.retarget c ∧
    (aimed.move.settles = true → callback = .rollback ∧ aimed.move ≠ .finish)

variable {callbacks base} {c : ContextId} (prudent : callbacks.Prudent c)
  {P Q : Context → List Entry → Prop}

include prudent

/-- A callback leads from `P` to `Q` if its arrival does and if the operations that it may
ask for keep `Q`. -/
theorem body_leads {depth : Nat} {p : Participant} {callback : Callback}
    (arrival : ∀ context entries, P context entries →
      Q context (entries ++ [.received p.id callback]))
    (keeps : ∀ below, depth = below + 1 → ∀ operation : Operation,
      (operation.move.settles = true → callback = .rollback ∧ operation.move ≠ .finish) →
      Leads (At c Q) ((operation.retarget c).run (callbacks.journaled base below))
        fun _ => At c Q) :
    Leads (At c P) (callbacks.body base depth p callback) fun _ => At c Q := by
  have arrives : ∀ w : World (Journal ε),
      Adds [.received p.id callback] w (Act.outside (callbacks.recorded.enter p callback) w).2 :=
    fun w => ⟨rfl, rfl⟩
  intro w here
  have received : At c Q (Act.outside (callbacks.recorded.enter p callback) w).2 :=
    here.adds (arrives w) arrival
  cases depth with
  | zero => exact received
  | succ below =>
      have each : ∀ operations : List Operation,
          (∀ operation ∈ operations, ∃ aimed : Operation, operation = aimed.retarget c ∧
            (aimed.move.settles = true → callback = .rollback ∧ aimed.move ≠ .finish)) →
          Leads (At c Q) (callbacks.recorded.runOperations (callbacks.journaled base below) p
            callback operations) fun _ => At c Q := by
        intro operations
        induction operations with
        | nil => exact fun _ _ here => here
        | cons operation rest ih =>
            intro asked
            obtain ⟨aimed, rfl, rule⟩ := asked operation List.mem_cons_self
            refine .bind (keeps below rfl aimed rule) fun outcome => ?_
            refine .bind (At.leads_of_adds (adds_within _)) fun _ => ?_
            exact ih fun other member => asked other (List.mem_cons_of_mem _ member)
      refine each _ ?_ _ received
      exact prudent p callback w.outside.inner

/-! ## Operations that settle nothing -/

omit prudent in
/-- A condition that holds throughout a transaction: participants may join, and nothing
else happens. -/
structure Steady (tx : Transaction) (Q : Context → List Entry → Prop) : Prop where
  active : ∀ {context entries}, Q context entries →
    context.status = .active ∧ context.current = some tx
  join : ∀ {context entries} p, Q context entries →
    Q (context.accept p) (entries ++ [.received p.id (.start tx)])
  queue : ∀ {context entries} p, Q context entries → Q (context.queue p) entries

def MildKeep (callbacks : Callbacks ε) (base : Services (StateM ε)) (c : ContextId)
    (Q : Context → List Entry → Prop) (depth : Nat) : Prop :=
  ∀ operation : Operation, operation.move.settles = false →
    Leads (At c Q) ((operation.retarget c).run (callbacks.journaled base depth)) fun _ => At c Q

theorem mild_body_leads {depth : Nat} {p : Participant} {callback : Callback}
    (other : callback ≠ .rollback)
    (arrival : ∀ context entries, P context entries →
      Q context (entries ++ [.received p.id callback]))
    (keeps : ∀ below, depth = below + 1 → MildKeep callbacks base c Q below) :
    Leads (At c P) (callbacks.body base depth p callback) fun _ => At c Q := by
  refine body_leads prudent arrival fun below same operation rule => ?_
  refine keeps below same operation ?_
  cases settles : operation.move.settles with
  | false => rfl
  | true => exact absurd (rule settles).1 other

theorem start_call {depth : Nat} {p : Participant} {tx : Transaction}
    (arrival : ∀ context entries, P context entries →
      Q context (entries ++ [.received p.id (.start tx)]))
    (keeps : ∀ below, depth = below + 1 → MildKeep callbacks base c Q below) :
    Leads (At c P) ((callbacks.journaled base depth).start p tx) fun _ => At c Q := by
  rw [journaled_eq]
  have other : Callback.start tx ≠ .rollback := by simp
  exact .bind (mild_body_leads prudent other arrival keeps) fun _ =>
    At.leads_of_adds (adds_within _)

theorem enrol_steady {depth : Nat} {tx : Transaction} (steady : Steady tx Q)
    (keeps : ∀ below, depth = below + 1 → MildKeep callbacks base c Q below) (p : Participant) :
    Leads (At c Q) (enrol (callbacks.journaled base depth) c p) fun _ => At c Q := by
  intro w here
  obtain ⟨status, current⟩ := steady.active here.holds
  rw [enrol_eq, bind_apply, Context.read, if_neg (by simp [isClosed, status])]
  split
  · exact here
  · let Joining := fun context entries => ∃ before, Q before entries ∧ context = before.accept p
    have accepted : At c Joining (w.update c (accept p)) :=
      here.update fun context entries holds => ⟨context, holds, rfl⟩
    have told : Leads (At c Joining) ((callbacks.journaled base depth).start p tx)
        fun _ => At c Q := by
      refine start_call prudent ?_ keeps
      rintro _ entries ⟨before, holds, rfl⟩
      exact steady.join p holds
    rw [bind_apply, current]
    exact told _ accepted

theorem mild_keep (depth : Nat) {tx : Transaction} (steady : Steady tx Q) :
    MildKeep callbacks base c Q depth := by
  -- Only an enrolment calls a participant, and what that one asks for runs one level below.
  induction depth using Nat.strongRecOn with
  | _ depth ih =>
      intro operation mild w here
      obtain ⟨status, current⟩ := steady.active here.holds
      have active : (w.context c).isActive = true := by simp [isActive, status]
      cases operation with
      | enrol _ p =>
          exact enrol_steady prudent steady (fun below same => ih below (by omega)) p w here
      | withdraw _ p =>
          simp only [Operation.retarget, Operation.run, bind_apply, withdraw_active active]
          exact here
      | contains _ p => exact here
      | defer _ p => exact here.update fun _ _ holds => steady.queue p holds
      | start _ =>
          rcases start_cases (callbacks.journaled base depth) c w with
            ⟨fault, refused⟩ | ⟨inactive, -⟩
          · simp only [Operation.retarget, Operation.run, bind_apply, refused]
            exact here
          · rw [active] at inactive
            contradiction
      | inspect _ => exact here
      | _ => simp [Operation.move, Move.settles] at mild

/-! ## The beginning of a transaction -/

omit prudent in
def During (tx : Transaction) (clear owing waiting : InstanceId → Prop) (context : Context)
    (entries : List Entry) : Prop :=
  Orderly clear owing waiting context entries ∧ context.current = some tx

omit prudent in
theorem steady_during (tx : Transaction) (clear owing waiting : InstanceId → Prop) :
    Steady tx (During tx clear owing waiting) where
  active := by
    rintro context entries ⟨orderly, current⟩
    exact ⟨orderly.active.status current, current⟩
  join p := fun ⟨orderly, current⟩ => ⟨orderly.join current, current⟩
  queue p := fun ⟨orderly, current⟩ => ⟨orderly.queue p, current⟩

variable (base) {clear owing : InstanceId → Prop}

theorem startAll_leads (depth : Nat) (tx : Transaction) (ps : List Participant) :
    Leads (At c (During tx clear owing (among ps)))
      ((callbacks.journaled base depth).startAll tx ps)
      fun _ => At c (During tx clear owing nobody) := by
  induction ps with
  | nil =>
      intro w here
      refine here.imp fun context entries ⟨orderly, current⟩ => ⟨?_, current⟩
      exact orderly.imp (fun _ h => h) (fun _ h => h) among_nil
  | cons p rest ih =>
      have steady := steady_during tx clear owing (among rest)
      refine .bind (start_call prudent ?_ fun below _ => mild_keep prudent below steady)
        fun _ => ih
      rintro context entries ⟨orderly, current⟩
      refine ⟨(orderly.start current).imp (fun _ h => h) (fun _ h => h) ?_, current⟩
      rintro i ⟨waits, other⟩
      exact (among_cons.1 waits).resolve_left (Ne.symm other)

theorem launch_leads (depth : Nat) (k : CoordinatorId) :
    Leads (At c fun context entries =>
        Orderly clear owing nobody context entries ∧ context.isActive = false)
      (launch (callbacks.journaled base depth) c k)
      fun _ => At c (Orderly clear owing nobody) := by
  intro w ⟨inside, orderly, inactive⟩
  have here : At c (Orderly clear owing nobody) w := ⟨inside, orderly⟩
  have began := adds_begin callbacks base depth w k
  unfold launch
  rw [bind_apply]
  generalize (callbacks.journaled base depth).begin k w = answered at began ⊢
  obtain ⟨answer, next⟩ := answered
  cases answer with
  | error fault => exact here.quiet began
  | ok tx =>
      have began : Adds [.began tx] w next := began
      have people : At c (fun context entries =>
          During tx clear owing (among context.participants) context entries)
          (next.update c (Context.enter tx)) := by
        refine At.update (P := fun context entries =>
          During tx clear owing (among context.participants) (context.enter tx) entries) ?_
          fun _ _ holds => holds
        refine ⟨by rw [began.contexts]; exact inside, ?_⟩
        rw [began.context, began.entries]
        exact ⟨orderly.begin inactive tx, rfl⟩
      have started := startAll_leads base prudent depth tx _ _ ⟨people.inside, people.holds⟩
      have logged := At.leads_of_adds (fun w => adds_report callbacks base depth w
        ⟨.debug, .transactions, "Context transaction started"⟩) _ started
      exact logged.imp fun context entries holds => holds.1

theorem start_leads (depth : Nat) :
    Leads (At c (Orderly clear owing nobody)) (Context.start (callbacks.journaled base depth) c)
      fun _ => At c (Orderly clear owing nobody) := by
  intro w here
  rcases start_cases (callbacks.journaled base depth) c w with
    ⟨fault, refused⟩ | ⟨inactive, launched⟩
  · rw [refused]
    exact here
  · rw [launched]
    exact launch_leads base prudent depth _ w ⟨here.inside, here.holds, inactive⟩

omit prudent in
theorem unused_update {owing' : InstanceId → Prop} {w : World (Journal ε)} {f : Context → Context}
    (here : At c (Orderly clear owing nobody) w) (unused : (w.context c).current = none)
    (inactive : (f (w.context c)).isActive = false) (still : (f (w.context c)).current = none) :
    At c (Orderly clear owing' nobody) (w.update c f) := by
  refine ⟨by simpa using here.inside, ?_⟩
  rw [World.context_update_self here.inside]
  exact here.holds.unused (fun _ _ => unused) inactive still

theorem enrol_leads (depth : Nat) (p : Participant) :
    Leads (At c (Orderly clear owing nobody)) (enrol (callbacks.journaled base depth) c p)
      fun _ => At c (Orderly clear owing nobody) := by
  intro w here
  cases current : (w.context c).current with
  | some tx =>
      have steady := steady_during tx clear owing nobody
      have joined : At c (During tx clear owing nobody)
          (enrol (callbacks.journaled base depth) c p w).2 :=
        enrol_steady prudent steady (fun below _ => mild_keep prudent below steady) p w
          ⟨here.inside, here.holds, current⟩
      exact joined.imp fun context entries during => during.1
  | none =>
      have inactive := here.holds.active.unused_iff.1 current
      rw [enrol_eq, bind_apply, Context.read]
      split
      · exact At.leads_of_adds (fun w => adds_report callbacks base depth w _) _ here
      split
      · exact here
      · rw [bind_apply, current]
        exact unused_update here current inactive current

/-! ## The end of a transaction without a commit -/

def UnwindKeep (callbacks : Callbacks ε) (base : Services (StateM ε)) (c : ContextId)
    (depth : Nat) : Prop :=
  ∀ operation : Operation, operation.move ≠ .finish → ∀ clear owing : InstanceId → Prop,
    Leads (At c (Orderly clear owing nobody))
      ((operation.retarget c).run (callbacks.journaled base depth))
      fun _ => At c (Orderly clear owing nobody)

section

variable {depth : Nat} (keeps : ∀ below, depth = below + 1 → UnwindKeep callbacks base c below)

include keeps

theorem rollbackAll_leads (ps : List Participant) :
    Leads (At c (Orderly (fun i => clear i ∨ among ps i) (among ps) nobody))
      ((callbacks.journaled base depth).rollbackAll ps)
      fun _ => At c (Orderly clear nobody nobody) := by
  induction ps with
  | nil =>
      intro w here
      exact here.imp fun context entries orderly =>
        orderly.imp (fun _ => .inl) among_nil (fun _ h => h)
  | cons p rest ih =>
      have called : Leads
          (At c (Orderly (fun i => clear i ∨ among (p :: rest) i) (among (p :: rest)) nobody))
          ((callbacks.journaled base depth).rollback p)
          fun _ => At c (Orderly (fun i => clear i ∨ among rest i) (among rest) nobody) := by
        rw [journaled_eq]
        refine .bind (body_leads prudent (fun _ _ orderly => orderly.rollback_first)
          fun below same operation rule => ?_) fun _ => At.leads_of_adds (adds_within _)
        refine keeps below same operation ?_ _ _
        intro finish
        exact (rule (by rw [finish]; rfl)).2 finish
      refine .bind called fun answer => ?_
      match answer with
      | .ok true => exact ih
      | .ok false => exact .bind ih fun _ => fun _ here => here
      | .error fault =>
          refine .bind (At.leads_of_adds fun w => adds_report callbacks base depth w _) fun _ => ?_
          exact .bind ih fun _ => fun _ here => here

theorem abort_leads (reason : String) :
    Leads (At c (Orderly clear owing nobody))
      (Context.abort (callbacks.journaled base depth) c reason)
      fun _ => At c fun context entries =>
        Orderly clear nobody nobody context entries ∧ context.current = none := by
  intro w here
  rw [abort_eq, bind_apply, Context.read]
  cases current : (w.context c).current with
  | none =>
      refine ⟨here.inside, ?_, current⟩
      have inactive := here.holds.active.unused_iff.1 current
      exact here.holds.unused (fun _ _ => current) inactive current
  | some tx =>
      have people : At c (Orderly (fun i => clear i ∨ among (w.context c).participants i)
          (among (w.context c).participants) nobody) w :=
        ⟨here.inside, here.holds.enlist current⟩
      have rolled := rollbackAll_leads base prudent keeps (w.context c).participants w people
      dsimp only
      rw [bind_apply]
      generalize (callbacks.journaled base depth).rollbackAll (w.context c).participants w =
        answered at rolled ⊢
      obtain ⟨failed, next⟩ := answered
      have settled := rolled.adds
        (adds_settle callbacks base depth next (w.context c).coordinator tx failed)
        fun context entries orderly => orderly.undo tx
      have left : ∀ context entries, Orderly clear nobody nobody context entries →
          Orderly clear nobody nobody (context.leave (.aborted reason)) entries ∧
            (context.leave (.aborted reason)).current = none :=
        fun context entries orderly => ⟨orderly.unused (fun _ => False.elim) rfl rfl, rfl⟩
      exact At.leads_of_adds (fun w => adds_report callbacks base depth w _) _
        (settled.update left)

theorem close_leads :
    Leads (At c (Orderly clear owing nobody)) (Context.close (callbacks.journaled base depth) c)
      fun _ => At c (Orderly clear owing nobody) := by
  have reports : ∀ (P : Context → List Entry → Prop) d, Leads (At c P)
      ((callbacks.journaled base depth).report d) fun _ => At c P :=
    fun P d => At.leads_of_adds fun w => adds_report callbacks base depth w d
  have abandoned : Leads (At c (Orderly clear owing nobody))
      (abandon (callbacks.journaled base depth) c) fun _ => At c fun context entries =>
        Orderly clear nobody nobody context entries ∧ context.current = none := by
    refine .bind (reports _ _) fun _ => .bind (abort_leads base prudent keeps _) fun answer => ?_
    cases answer with
    | ok done => exact fun _ here => here
    | error fault => exact reports _ _
  have drained : ∀ {owing' : InstanceId → Prop}, Leads
      (At c fun context entries =>
        Orderly clear owing' nobody context entries ∧ context.current = none)
      (drain c : Act (Journal ε) _) fun _ => At c (Orderly clear owing nobody) := by
    intro owing' w here
    exact unused_update ⟨here.inside, here.holds.1⟩ here.holds.2 rfl rfl
  intro w here
  rw [close_eq, bind_apply, Context.read]
  cases active : (w.context c).isActive with
  | true => exact drained _ (abandoned w here)
  | false =>
      have current := here.holds.active.unused_iff.2 active
      exact drained w ⟨here.inside, here.holds, current⟩

theorem unwind_step : UnwindKeep callbacks base c depth := by
  intro operation other clear owing w here
  have aborts : ∀ reason, Leads (At c (Orderly clear owing nobody))
      (Context.abort (callbacks.journaled base depth) c reason)
      fun _ => At c (Orderly clear owing nobody) := by
    intro reason
    refine (abort_leads base prudent keeps reason).imp fun _ w after => ?_
    refine after.imp ?_
    rintro context entries ⟨orderly, -⟩
    exact orderly.imp (fun _ h => h) (fun _ => False.elim) (fun _ h => h)
  cases operation with
  | enrol _ p => exact enrol_leads base prudent depth p w here
  | withdraw _ p =>
      cases active : (w.context c).isActive with
      | true =>
          simp only [Operation.retarget, Operation.run, bind_apply, withdraw_active active]
          exact here
      | false =>
          have current := here.holds.active.unused_iff.2 active
          simp only [Operation.retarget, Operation.run, bind_apply, withdraw_inactive active]
          exact unused_update here current active current
  | contains _ p => exact here
  | defer _ p => exact here.update fun _ _ orderly => orderly.queue p
  | start _ => exact start_leads base prudent depth w here
  | finish _ => exact absurd rfl other
  | abort _ => exact aborts _ w here
  | abortWith _ reason => exact aborts reason w here
  | cleanup _ => exact close_leads base prudent keeps w here
  | discard _ => exact close_leads base prudent keeps w here
  | inspect _ => exact here

end

theorem unwind_keep (depth : Nat) : UnwindKeep callbacks base c depth := by
  -- What a rollback asks for at one depth is run at the depth below.
  induction depth using Nat.strongRecOn with
  | _ depth ih => exact unwind_step base prudent fun below same => ih below (by omega)

/-! ## A commit -/

omit prudent in
def Working (tx : Transaction) (ps : List Participant) (owing : InstanceId → Prop)
    (context : Context) (entries : List Entry) : Prop :=
  During tx nobody owing nobody context entries ∧
    ∀ i, among ps i → among context.participants i

omit prudent in
def Agreed (tx : Transaction) (context : Context) (entries : List Entry) : Prop :=
  Orderly nobody nobody nobody (context.leave .committed) entries ∧
    context.status = .active ∧ context.current = some tx

omit prudent in
def Decided (tx : Transaction) (ps : List Participant) :
    Except Fault Bool → Context → List Entry → Prop
  | .ok true => Agreed tx
  | _ => Working tx ps (among ps)

omit prudent in
theorem steady_working (tx : Transaction) (ps : List Participant) (owing : InstanceId → Prop) :
    Steady tx (Working tx ps owing) := by
  have during := steady_during tx nobody owing nobody
  refine ⟨fun holds => during.active holds.1, fun p holds => ?_, fun p holds => ?_⟩
  · refine ⟨during.join p holds.1, fun i present => ?_⟩
    have known := holds.2 i present
    rw [among, accept, Participant.isIn_append, known]
    rfl
  · exact ⟨during.queue p holds.1, holds.2⟩

omit prudent in
theorem steady_agreed (tx : Transaction) : Steady tx (Agreed tx) where
  active holds := holds.2
  join p := fun ⟨orderly, current⟩ =>
    ⟨(orderly.unused (fun _ => False.elim) rfl rfl).overhear rfl (fun _ => rfl) (by simp), current⟩
  queue p := fun ⟨orderly, current⟩ => ⟨orderly.unused (fun _ => False.elim) rfl rfl, current⟩

variable {base} in
theorem steady_body_leads {depth : Nat} {p : Participant} {callback : Callback}
    {tx : Transaction} (steady : Steady tx Q) (other : callback ≠ .rollback)
    (arrival : ∀ context entries, Q context entries →
      Q context (entries ++ [.received p.id callback])) :
    Leads (At c Q) (callbacks.body base depth p callback) fun _ => At c Q :=
  mild_body_leads prudent other arrival fun below _ => mild_keep prudent below steady

theorem collectChanges_leads (depth : Nat) {tx : Transaction} (steady : Steady tx Q)
    (hears : ∀ i context entries, Q context entries →
      Q context (entries ++ [.received i .changes])) (ps : List Participant) :
    Leads (At c Q) ((callbacks.journaled base depth).collectChanges ps) fun _ => At c Q := by
  induction ps with
  | nil => exact fun _ here => here
  | cons p rest ih =>
      have called : Leads (At c Q) ((callbacks.journaled base depth).changes p)
          fun _ => At c Q := by
        rw [journaled_eq]
        refine .bind ?_ fun _ => At.leads_of_adds (adds_within _)
        exact steady_body_leads prudent steady (by simp) (hears p.id)
      exact .bind called fun _ => .bind ih fun _ => fun _ here => here

theorem confirmAll_leads (depth : Nat) {tx : Transaction} (steady : Steady tx Q)
    (hears : ∀ i context entries, Q context entries →
      Q context (entries ++ [.received i .confirm])) (ps : List Participant) :
    Leads (At c Q) ((callbacks.journaled base depth).confirmAll ps) fun _ => At c Q := by
  induction ps with
  | nil => exact fun _ here => here
  | cons p rest ih =>
      have called : Leads (At c Q) ((callbacks.journaled base depth).confirm p)
          fun _ => At c Q := by
        rw [journaled_eq]
        refine .bind ?_ fun _ => At.leads_of_adds (adds_within _)
        exact steady_body_leads prudent steady (by simp) (hears p.id)
      exact .bind called fun _ => ih

theorem persistAll_leads (depth : Nat) (tx : Transaction) (ps qs : List Participant)
    (within : ∀ i, among qs i → among ps i) :
    Leads (At c (Working tx ps (among ps))) ((callbacks.journaled base depth).persistAll qs)
      fun _ => At c (Working tx ps (among ps)) := by
  have steady := steady_working tx ps (among ps)
  induction qs with
  | nil => exact fun _ here => here
  | cons p rest ih =>
      have known : among ps p.id := within p.id (among_cons.2 (.inl rfl))
      have called : Leads (At c (Working tx ps (among ps)))
          ((callbacks.journaled base depth).persist p)
          fun _ => At c (Working tx ps (among ps)) := by
        rw [journaled_eq]
        refine .bind ?_ fun _ => At.leads_of_adds (adds_within _)
        refine steady_body_leads prudent steady (by simp) ?_
        rintro context entries ⟨⟨orderly, current⟩, present⟩
        exact ⟨⟨orderly.persist current (present p.id known) known, current⟩, present⟩
      refine .bind called fun answer => ?_
      match answer with
      | .ok true => exact ih fun i member => within i (among_cons.2 (.inr member))
      | .ok false => exact fun _ here => here
      | .error fault => exact fun _ here => here

omit prudent in
theorem commit_leads (depth : Nat) (k : CoordinatorId) (tx : Transaction)
    (ps : List Participant) :
    Leads (At c (Working tx ps (among ps))) ((callbacks.journaled base depth).commit k tx)
      fun answer => At c (Decided tx ps answer) := by
  intro w here
  have added := adds_commit callbacks base depth w k tx
  generalize (callbacks.journaled base depth).commit k tx w = answered at added ⊢
  obtain ⟨answer, next⟩ := answered
  rcases answer with fault | _ | _
  · exact here.quiet added
  · exact here.quiet added
  · refine here.adds added ?_
    rintro context entries ⟨⟨orderly, current⟩, -⟩
    have status := ((steady_during tx nobody (among ps) nobody).active ⟨orderly, current⟩).1
    exact ⟨orderly.commit current, status, current⟩

theorem abortFor_leads (depth : Nat) (reason : String) (fault : Fault) :
    Leads (At c (Orderly nobody owing nobody))
      (abortFor (callbacks.journaled base depth) c reason fault)
      fun _ => At c (Orderly nobody nobody nobody) := by
  have below : ∀ below, depth = below + 1 → UnwindKeep callbacks base c below :=
    fun below _ => unwind_keep base prudent below
  refine .bind (abort_leads base prudent below reason) fun answer w after => ?_
  have orderly := after.imp fun _ _ settled => settled.1
  cases answer <;> exact orderly

theorem conclude_leads (depth : Nat) (k : CoordinatorId) (tx : Transaction)
    (ps : List Participant) :
    Leads (At c (Working tx ps nobody)) (conclude (callbacks.journaled base depth) c k tx ps)
      fun _ => At c (Orderly nobody nobody nobody) := by
  have fails : ∀ owing reason fault, Leads (At c (Working tx ps owing))
      (abortFor (callbacks.journaled base depth) c reason fault)
      fun _ => At c (Orderly nobody nobody nobody) := by
    intro owing reason fault w here
    exact abortFor_leads base prudent depth reason fault w
      (here.imp fun _ _ working => working.1.1)
  have collects := collectChanges_leads base prudent depth (steady_working tx ps nobody)
    (fun i context entries ⟨⟨orderly, current⟩, present⟩ =>
      ⟨⟨orderly.hear (fun _ => rfl) (by simp), current⟩, present⟩) ps
  have persists : Leads (At c (Working tx ps nobody))
      ((callbacks.journaled base depth).persistAll ps)
      fun _ => At c (Working tx ps (among ps)) := by
    intro w here
    refine persistAll_leads base prudent depth tx ps ps (fun _ present => present) w ?_
    exact here.imp fun _ _ ⟨⟨orderly, current⟩, present⟩ =>
      ⟨⟨orderly.imp (fun _ h => h) (fun _ => False.elim) (fun _ h => h), current⟩, present⟩
  have confirms := confirmAll_leads base prudent depth (steady_agreed tx)
    (fun i context entries ⟨orderly, current⟩ =>
      ⟨orderly.overhear rfl (fun _ => rfl) (by simp), current⟩) ps
  refine .bind collects fun changes => .bind (At.leads_of_adds fun w =>
    adds_canCommit callbacks base depth w k tx changes) fun answer => ?_
  match answer with
  | .ok false => exact fails _ _ _
  | .error fault => exact fails _ _ _
  | .ok true =>
      refine .bind persists fun refusal => ?_
      cases refusal with
      | some reason => exact fails _ _ _
      | none =>
          refine .bind (commit_leads base depth k tx ps) fun answer => ?_
          match answer with
          | .ok false => exact fails _ _ _
          | .error fault => exact fails _ _ _
          | .ok true =>
              refine .bind confirms fun _ w here => ?_
              exact here.update fun _ _ agreed => agreed.1

theorem finish_leads (depth : Nat) :
    Leads (At c (Orderly nobody nobody nobody))
      (Context.finish (callbacks.journaled base depth) c)
      fun _ => At c (Orderly nobody nobody nobody) := by
  intro w here
  rw [finish_eq, bind_apply, Context.read]
  cases current : (w.context c).current with
  | none => exact here
  | some tx =>
      have working : At c (Working tx (w.context c).participants nobody) w :=
        ⟨here.inside, ⟨here.holds, current⟩, fun _ present => present⟩
      exact conclude_leads base prudent depth _ tx _ w working

end Callbacks

end DatasetCache
