import DatasetCache.Proofs.Context.Parts

/-!
# What operations on contexts leave alone

An operation keeps every relation that its services and its own changes keep.  With
services that call back, this holds at every depth of nesting.
-/

namespace DatasetCache

open Act

variable {ε : Type} {R : World ε → World ε → Prop}

namespace Context

/-- What operations do to a context, apart from taking a participant in. -/
inductive Change : (Context → Context) → Prop where
  | enter (tx : Transaction) : Change (enter tx)
  | leave {status : Status} (living : status ≠ .closed) : Change (leave status)
  | expel (p : Participant) : Change (expel p)
  | queue (p : Participant) : Change (queue p)
  | shut : Change shut

theorem Change.thins {f : Context → Context} (change : Change f) (context : Context) :
    (f context).participants ⊆ context.participants := by
  cases change with
  | expel p => exact List.filter_sublist.subset
  | shut => exact List.nil_subset _
  | _ => exact List.Subset.refl _

section

variable {services : Services (Act ε)} (order : Order R) (keep : services.Keep R) (c : ContextId)

include order

theorem read_keeps : Keeps R (read (ε := ε) c) := fun w => order.refl w

include keep

theorem enrol_keeps (p : Participant)
    (accepts : ∀ w, (w.context c).has p = false → R w (w.update c (accept p))) :
    Keeps R (enrol services c p) := by
  intro w
  rw [enrol_eq, bind_apply, read]
  dsimp only
  split
  · exact Keeps.bind order (keep.report _) (fun _ => .pure order _) w
  split
  · exact order.refl w
  next absent =>
  refine order.trans (accepts w (by simpa using absent)) ?_
  cases (w.context c).current with
  | none => exact order.refl _
  | some tx => exact keep.start p tx _

theorem launch_keeps (enters : ∀ w tx, R w (w.update c (enter tx))) (k : CoordinatorId) :
    Keeps R (launch services c k) := by
  refine .bind order (keep.begin _) fun answer => ?_
  cases answer with
  | error fault => exact .pure order _
  | ok tx =>
      refine .bind order (fun w => enters w tx) fun _ => ?_
      refine .bind order (read_keeps order c) fun context => ?_
      refine .bind order (startAll_keeps order _ fun p => keep.start p tx) fun _ => ?_
      exact .bind order (keep.report _) fun _ => .pure order _

theorem start_keeps (enters : ∀ w tx, R w (w.update c (enter tx))) :
    Keeps R (start services c) := by
  intro w
  rcases start_cases services c w with ⟨fault, refused⟩ | ⟨-, launched⟩
  · rw [refused]
    exact order.refl w
  · rw [launched]
    exact launch_keeps order keep c enters _ w

variable (leaves : ∀ w status, status ≠ .closed → R w (w.update c (leave status)))

include leaves

theorem abort_keeps (reason : String) : Keeps R (abort services c reason) := by
  rw [abort_eq]
  refine .bind order (read_keeps order c) fun context => ?_
  cases context.current with
  | none => exact .pure order _
  | some tx =>
      refine .bind order (rollbackAll_keeps order _ keep.rollback keep.report) fun failed => ?_
      have settles : Keeps R (settle services context.coordinator tx failed) := by
        unfold settle
        split
        · exact keep.abort _ _
        · exact keep.invalidate _ _
      refine .bind order settles fun _ => ?_
      refine .bind order (fun w => leaves w _ (by simp)) fun _ => ?_
      exact .bind order (keep.report _) fun _ => .pure order _

theorem abortFor_keeps (reason : String) (fault : Fault) :
    Keeps R (abortFor services c reason fault) := by
  refine .bind order (abort_keeps order keep c leaves reason) fun answer => ?_
  cases answer <;> exact .pure order _

theorem finish_keeps : Keeps R (finish services c) := by
  have aborts := abortFor_keeps order keep c leaves
  refine .bind order (read_keeps order c) fun context => ?_
  cases context.current with
  | none => exact .pure order _
  | some tx =>
      refine .bind order (collectChanges_keeps order _ keep.changes) fun changes => ?_
      refine .bind order (keep.canCommit _ tx changes) fun answer => ?_
      match answer with
      | .ok false => exact aborts _ _
      | .error fault => exact aborts _ _
      | .ok true =>
          refine .bind order (persistAll_keeps order _ keep.persist) fun refusal => ?_
          cases refusal with
          | some reason => exact aborts _ _
          | none =>
              refine .bind order (keep.commit _ tx) fun answer => ?_
              match answer with
              | .ok false => exact aborts _ _
              | .error fault => exact aborts _ _
              | .ok true =>
                  refine .bind order (confirmAll_keeps order _ keep.confirm) fun _ => ?_
                  exact .bind order (fun w => leaves w .committed (by simp)) fun _ =>
                    .pure order _

theorem close_keeps (shuts : ∀ w, R w (w.update c shut)) : Keeps R (close services c) := by
  rw [close_eq]
  have abandons : Keeps R (abandon services c) := by
    refine .bind order (keep.report _) fun _ => ?_
    refine .bind order (abort_keeps order keep c leaves _) fun answer => ?_
    cases answer with
    | ok done => exact .pure order _
    | error fault => exact keep.report _
  have drains : Keeps R (drain (ε := ε) c) := shuts
  refine .bind order (read_keeps order c) fun context => ?_
  split
  · exact .bind order abandons fun _ => drains
  · exact drains

omit keep leaves in
theorem withdraw_keeps (p : Participant) (expels : ∀ w, R w (w.update c (expel p))) :
    Keeps R (withdraw c p) := by
  intro w
  cases active : (w.context c).isActive with
  | true =>
      rw [withdraw_active active]
      exact order.refl w
  | false =>
      rw [withdraw_inactive active]
      exact expels w

omit c leaves in
theorem run_keeps_of (operation : Operation)
    (accepts : ∀ c p, operation = .enrol c p → ∀ w, (w.context c).has p = false →
      R w (w.update c (accept p)))
    (others : ∀ w c f, Change f → R w (w.update c f)) : Keeps R (operation.run services) := by
  have enters := fun c w tx => others w c _ (.enter tx)
  have leaves := fun c w status living => others w c (leave status) (.leave living)
  have shuts := fun c w => others w c _ .shut
  cases operation with
  | enrol c p =>
      exact .bind order (enrol_keeps order keep c p (accepts c p rfl)) fun _ => .pure order _
  | withdraw c p =>
      have expels := fun w => others w c _ (.expel p)
      exact .bind order (withdraw_keeps order c p expels) fun _ => .pure order _
  | contains c p => exact .bind order (read_keeps order c) fun _ => .pure order _
  | defer c p =>
      have queues := fun w => others w c _ (.queue p)
      exact .bind order queues fun _ => .pure order _
  | start c => exact .bind order (start_keeps order keep c (enters c)) fun _ => .pure order _
  | finish c => exact .bind order (finish_keeps order keep c (leaves c)) fun _ => .pure order _
  | abort c => exact .bind order (abort_keeps order keep c (leaves c) _) fun _ => .pure order _
  | abortWith c reason =>
      exact .bind order (abort_keeps order keep c (leaves c) reason) fun _ => .pure order _
  | cleanup c =>
      exact .bind order (close_keeps order keep c (leaves c) (shuts c)) fun _ => .pure order _
  | discard c =>
      have closes := close_keeps order keep c (leaves c) (shuts c)
      exact .bind order (.bind order closes fun _ => .pure order _) fun _ => .pure order _
  | inspect c => exact .bind order (read_keeps order c) fun _ => .pure order _

omit c leaves in
theorem run_keeps (updates : ∀ w c f, R w (w.update c f)) (operation : Operation) :
    Keeps R (operation.run services) :=
  run_keeps_of order keep operation (fun c p _ w _ => updates w c (accept p)) fun w c f _ =>
    updates w c f

end

end Context

/-! ## Services that call back -/

namespace Callbacks

variable (callbacks : Callbacks ε)

def Ask (allowed : Context.Callback → Context.Operation → Prop) : Prop :=
  ∀ p callback outside, ∀ operation ∈ (callbacks.enter p callback outside).1,
    allowed callback operation

def silent : Callbacks ε := ⟨fun _ _ => pure [], fun _ _ _ _ => pure ()⟩

theorem silent_asks (allowed : Context.Callback → Context.Operation → Prop) :
    (silent : Callbacks ε).Ask allowed := by
  intro p callback outside operation member
  cases member

structure Keep (R : World ε → World ε → Prop) (callbacks : Callbacks ε) : Prop where
  enter : ∀ p call, Keeps R (Act.outside (callbacks.enter p call))
  observe : ∀ p call operation outcome,
    Keeps R (Act.outside (callbacks.observe p call operation outcome))

theorem keep_of_frame (frame : Frame R) : callbacks.Keep R :=
  ⟨fun _ _ => .outside frame _, fun _ _ _ _ => .outside frame _⟩

variable {services : Services (Act ε)} (order : Order R)

include order

theorem entering_keep (keep : services.Keep R)
    {body : Participant → Context.Callback → Act ε Unit}
    (bodies : ∀ p call, Keeps R (body p call)) :
    (entering services body).Keep R :=
  { keep with
    start := fun p tx => .bind order (bodies p _) fun _ => keep.start p tx
    changes := fun p => .bind order (bodies p _) fun _ => keep.changes p
    persist := fun p => .bind order (bodies p _) fun _ => keep.persist p
    confirm := fun p => .bind order (bodies p _) fun _ => keep.confirm p
    rollback := fun p => .bind order (bodies p _) fun _ => keep.rollback p }

variable {callbacks} (own : callbacks.Keep R)

include own

theorem runOperations_keeps (p : Participant) (call : Context.Callback)
    (operations : List Context.Operation)
    (runs : ∀ operation ∈ operations, Keeps R (operation.run services)) :
    Keeps R (callbacks.runOperations services p call operations) := by
  induction operations with
  | nil => exact .pure order _
  | cons operation rest ih =>
      have first := runs operation List.mem_cons_self
      have others := ih fun other member => runs other (List.mem_cons_of_mem _ member)
      exact .bind order first fun _ => .bind order (own.observe p call operation _) fun _ => others

theorem nested_keep_of (keep : services.Keep R)
    {allowed : Context.Callback → Context.Operation → Prop} (asks : callbacks.Ask allowed)
    (runs : ∀ {services : Services (Act ε)}, services.Keep R →
      ∀ call operation, allowed call operation → Keeps R (operation.run services)) (depth : Nat) :
    (callbacks.nested services depth).Keep R := by
  induction depth with
  | zero =>
      exact entering_keep order keep fun p call =>
        .bind order (own.enter p call) fun _ => .pure order _
  | succ depth ih =>
      -- the operations that a callback asks for run over the services of the depth below
      refine entering_keep order keep fun p call w => ?_
      refine order.trans (own.enter p call w) ?_
      refine runOperations_keeps order own p call _ ?_ _
      intro operation member
      exact runs ih call operation (asks p call w.outside operation member)

omit order own in
theorem nested_keep (callbacks : Callbacks ε) (frame : Frame R) (keep : services.Keep R)
    {allowed : Context.Callback → Context.Operation → Prop} (asks : callbacks.Ask allowed)
    (runs : ∀ {services : Services (Act ε)}, services.Keep R →
      ∀ call operation, allowed call operation → Keeps R (operation.run services)) (depth : Nat) :
    (callbacks.nested services depth).Keep R :=
  nested_keep_of frame.toOrder (callbacks.keep_of_frame frame) keep asks runs depth

end Callbacks

end DatasetCache
