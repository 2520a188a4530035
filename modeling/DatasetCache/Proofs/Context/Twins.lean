import DatasetCache.Proofs.Context.Frame

/-!
# Two runs side by side

Two acts run in two worlds that a relation links.  They are twins if their answers
correspond and the worlds stay linked.  Linked worlds have the same contexts, with some
participants for guests and no others, so operations over services that are twins for
these guests are twins, and so they are at every depth of callbacks.
-/

namespace DatasetCache

variable {ε ε' α β γ δ : Type}

namespace Act

/-- From linked worlds two acts lead to linked worlds, and `φ` turns the one answer into the
other. -/
def Twin (A : World ε → World ε' → Prop) (φ : α → β) (x : Act ε α) (y : Act ε' β) : Prop :=
  ∀ w w', A w w' → (y w').1 = φ (x w).1 ∧ A (x w).2 (y w').2

namespace Twin

variable {A : World ε → World ε' → Prop} {φ : α → β} {ψ : γ → δ} {x : Act ε α} {y : Act ε' β}

theorem pure {a : α} {b : β} (same : b = φ a) : Twin A φ (Pure.pure a) (Pure.pure b) :=
  fun _ _ here => ⟨same, here⟩

theorem bind {f : α → Act ε γ} {g : β → Act ε' δ} (first : Twin A φ x y)
    (rest : ∀ a, Twin A ψ (f a) (g (φ a))) : Twin A ψ (x >>= f) (y >>= g) := by
  intro w w' here
  obtain ⟨same, there⟩ := first w w' here
  rw [bind_apply, bind_apply, same]
  exact rest _ _ _ there

theorem step {y : Act ε' α} {f : α → Act ε γ} {g : α → Act ε' δ} (first : Twin A id x y)
    (rest : ∀ a, Twin A ψ (f a) (g a)) : Twin A ψ (x >>= f) (y >>= g) :=
  first.bind rest

theorem keeps {A : World ε → World ε → Prop} {I : World ε → Prop} {x : Act ε α}
    (twin : Twin A id x x) (diagonal : ∀ w, A w w ↔ I w) : Keeps (fun w w' => I w → I w') x :=
  fun w here => (diagonal _).1 (twin w w ((diagonal w).2 here)).2

end Twin

end Act

open Act Context

/-- Linked worlds have the same contexts, and their participants are among the guests. -/
structure Link (guests : Participant → Prop) (A : World ε → World ε' → Prop) : Prop where
  contexts : ∀ {w w'}, A w w' → w'.contexts = w.contexts
  seats : ∀ {w w'}, A w w' → ∀ c, ∀ p ∈ (w.context c).participants, guests p
  change : ∀ {w w'} c {f}, Context.Change f → A w w' → A (w.update c f) (w'.update c f)
  accept : ∀ {w w'} c {p}, guests p → A w w' → A (w.update c (accept p)) (w'.update c (accept p))
  create : ∀ {w w'} k, A w w' → A (Context.create k w).2 (Context.create k w').2

/-- Every call has the same answer on both sides, if a participant that is called is a guest. -/
structure Services.Twins (guests : Participant → Prop) (A : World ε → World ε' → Prop)
    (services : Services (Act ε)) (others : Services (Act ε')) : Prop where
  start : ∀ p, guests p → ∀ tx, Twin A id (services.start p tx) (others.start p tx)
  changes : ∀ p, guests p → Twin A id (services.changes p) (others.changes p)
  persist : ∀ p, guests p → Twin A id (services.persist p) (others.persist p)
  confirm : ∀ p, guests p → Twin A id (services.confirm p) (others.confirm p)
  rollback : ∀ p, guests p → Twin A id (services.rollback p) (others.rollback p)
  begin : ∀ k, Twin A id (services.begin k) (others.begin k)
  canCommit : ∀ k tx changes,
    Twin A id (services.canCommit k tx changes) (others.canCommit k tx changes)
  commit : ∀ k tx, Twin A id (services.commit k tx) (others.commit k tx)
  abort : ∀ k tx, Twin A id (services.abort k tx) (others.abort k tx)
  invalidate : ∀ k tx, Twin A id (services.invalidate k tx) (others.invalidate k tx)
  load : ∀ i realm key, Twin A id (services.load i realm key) (others.load i realm key)
  closeInstantiator : ∀ i, Twin A id (services.closeInstantiator i) (others.closeInstantiator i)
  closeDataset : ∀ d, Twin A id (services.closeDataset d) (others.closeDataset d)
  closeParticipant : ∀ p, Twin A id (services.closeParticipant p) (others.closeParticipant p)
  meter : ∀ i tag value d, Twin A id (services.meter i tag value d) (others.meter i tag value d)
  report : ∀ d, Twin A id (services.report d) (others.report d)

theorem Services.Twins.supply {guests : Participant → Prop} {A : World ε → World ε → Prop}
    {I : World ε → Prop} {services : Services (Act ε)} (twins : services.Twins guests A services)
    (diagonal : ∀ w, A w w ↔ I w) : services.Supply fun w w' => I w → I w' where
  load i realm key := (twins.load i realm key).keeps diagonal
  meter i tag value d := (twins.meter i tag value d).keeps diagonal
  report d := (twins.report d).keeps diagonal
  closeInstantiator i := (twins.closeInstantiator i).keeps diagonal
  closeDataset d := (twins.closeDataset d).keeps diagonal
  closeParticipant p := (twins.closeParticipant p).keeps diagonal

variable {guests : Participant → Prop} {A : World ε → World ε' → Prop}
  {services : Services (Act ε)} {others : Services (Act ε')}

/-! ## Calls on all participants -/

section Calls

variable (twins : services.Twins guests A others) {ps : List Participant}
  (invited : ∀ p ∈ ps, guests p)

include twins invited

theorem startAll_twin (tx : Transaction) :
    Twin A id (services.startAll tx ps) (others.startAll tx ps) := by
  induction ps with
  | nil => exact .pure rfl
  | cons p rest ih =>
      obtain ⟨first, others⟩ := List.forall_mem_cons.1 invited
      exact .step (twins.start p first tx) fun _ => ih others

theorem collectChanges_twin :
    Twin A id (services.collectChanges ps) (others.collectChanges ps) := by
  induction ps with
  | nil => exact .pure rfl
  | cons p rest ih =>
      obtain ⟨first, others⟩ := List.forall_mem_cons.1 invited
      exact .step (twins.changes p first) fun _ => .step (ih others) fun _ => .pure rfl

theorem persistAll_twin : Twin A id (services.persistAll ps) (others.persistAll ps) := by
  induction ps with
  | nil => exact .pure rfl
  | cons p rest ih =>
      obtain ⟨first, others⟩ := List.forall_mem_cons.1 invited
      refine .step (twins.persist p first) fun answer => ?_
      match answer with
      | .ok true => exact ih others
      | .ok false => exact .pure rfl
      | .error fault => exact .pure rfl

theorem confirmAll_twin : Twin A id (services.confirmAll ps) (others.confirmAll ps) := by
  induction ps with
  | nil => exact .pure rfl
  | cons p rest ih =>
      obtain ⟨first, others⟩ := List.forall_mem_cons.1 invited
      exact .step (twins.confirm p first) fun _ => ih others

theorem rollbackAll_twin : Twin A id (services.rollbackAll ps) (others.rollbackAll ps) := by
  induction ps with
  | nil => exact .pure rfl
  | cons p rest ih =>
      obtain ⟨first, others⟩ := List.forall_mem_cons.1 invited
      refine .step (twins.rollback p first) fun answer => ?_
      match answer with
      | .ok true => exact ih others
      | .ok false => exact .step (ih others) fun _ => .pure rfl
      | .error fault =>
          exact .step (twins.report _) fun _ => .step (ih others) fun _ => .pure rfl

end Calls

/-! ## Operations -/

namespace Context

def Operation.Invites (guests : Participant → Prop) : Operation → Prop
  | .enrol _ p => guests p
  | _ => True

variable (link : Link guests A) (twins : services.Twins guests A others) (c : ContextId)

section Parts

include link

theorem reading_twin {φ : α → β} {f : Context → Act ε α} {g : Context → Act ε' β}
    (rest : ∀ context, (∀ p ∈ context.participants, guests p) → Twin A φ (f context) (g context)) :
    Twin A φ (read c >>= f) (read c >>= g) := by
  intro w w' here
  have same : w'.context c = w.context c := by
    rw [World.context, World.context, link.contexts here]
  rw [bind_apply, bind_apply, read, read, same]
  exact rest _ (link.seats here c) w w' here

theorem modify_twin {f : Context → Context} (change : Context.Change f) :
    Twin A id (modify c f) (modify c f) :=
  fun _ _ here => ⟨rfl, link.change c change here⟩

theorem create_twin (k : CoordinatorId) : Twin A id (create k) (create k) := by
  intro w w' here
  exact ⟨congrArg List.length (link.contexts here), link.create k here⟩

theorem defer_twin (p : Participant) : Twin A id (defer c p) (defer c p) :=
  modify_twin link c (.queue p)

theorem withdraw_twin (p : Participant) : Twin A id (withdraw c p) (withdraw c p) := by
  refine reading_twin link c fun context _ => ?_
  split
  · exact .pure rfl
  · exact .step (modify_twin link c (.expel p)) fun _ => .pure rfl

theorem drain_twin : Twin A id (drain c) (drain c) := by
  intro w w' here
  have same : w'.context c = w.context c := by
    rw [World.context, World.context, link.contexts here]
  exact ⟨congrArg Context.deferred same, link.change c .shut here⟩

end Parts

include link twins

theorem enrol_twin {p : Participant} (invited : guests p) :
    Twin A id (enrol services c p) (enrol others c p) := by
  refine reading_twin link c fun context _ => ?_
  split
  · exact .step (twins.report _) fun _ => .pure rfl
  split
  · exact .pure rfl
  have accepts : Twin A id (modify c (accept p)) (modify c (accept p)) :=
    fun _ _ here => ⟨rfl, link.accept c invited here⟩
  refine .step accepts fun _ => ?_
  cases context.current with
  | none => exact .pure rfl
  | some tx => exact .step (twins.start p invited tx) fun _ => .pure rfl

theorem launch_twin (k : CoordinatorId) : Twin A id (launch services c k) (launch others c k) := by
  refine .step (twins.begin k) fun answer => ?_
  cases answer with
  | error fault => exact .pure rfl
  | ok tx =>
      refine .step (modify_twin link c (.enter tx)) fun _ => ?_
      refine reading_twin link c fun context invited => ?_
      refine .step (startAll_twin twins invited tx) fun _ => ?_
      exact .step (twins.report _) fun _ => .pure rfl

theorem start_twin : Twin A id (start services c) (start others c) := by
  refine reading_twin link c fun context _ => ?_
  cases context.status with
  | active => exact .pure rfl
  | closed => exact .pure rfl
  | _ => exact launch_twin link twins c _

theorem abort_twin (reason : String) :
    Twin A id (abort services c reason) (abort others c reason) := by
  rw [abort_eq, abort_eq]
  refine reading_twin link c fun context invited => ?_
  cases context.current with
  | none => exact .pure rfl
  | some tx =>
      refine .step (rollbackAll_twin twins invited) fun failed => ?_
      have settles : Twin A id (settle services context.coordinator tx failed)
          (settle others context.coordinator tx failed) := by
        unfold settle
        split
        · exact twins.abort _ _
        · exact twins.invalidate _ _
      refine .step settles fun _ => .step (modify_twin link c (.leave (by simp))) fun _ => ?_
      exact .step (twins.report _) fun _ => .pure rfl

theorem abortFor_twin (reason : String) (fault : Fault) :
    Twin A id (abortFor services c reason fault) (abortFor others c reason fault) := by
  refine .step (abort_twin link twins c reason) fun answer => ?_
  cases answer <;> exact .pure rfl

theorem conclude_twin (k : CoordinatorId) (tx : Transaction) {ps : List Participant}
    (invited : ∀ p ∈ ps, guests p) :
    Twin A id (conclude services c k tx ps) (conclude others c k tx ps) := by
  have aborts := abortFor_twin link twins c
  refine .step (collectChanges_twin twins invited) fun changes => ?_
  refine .step (twins.canCommit k tx changes) fun answer => ?_
  match answer with
  | .ok false => exact aborts _ _
  | .error fault => exact aborts _ _
  | .ok true =>
      refine .step (persistAll_twin twins invited) fun refusal => ?_
      cases refusal with
      | some reason => exact aborts _ _
      | none =>
          refine .step (twins.commit k tx) fun answer => ?_
          match answer with
          | .ok false => exact aborts _ _
          | .error fault => exact aborts _ _
          | .ok true =>
              refine .step (confirmAll_twin twins invited) fun _ => ?_
              exact .step (modify_twin link c (.leave (by simp))) fun _ => .pure rfl

theorem finish_twin : Twin A id (finish services c) (finish others c) := by
  rw [finish_eq, finish_eq]
  refine reading_twin link c fun context invited => ?_
  cases context.current with
  | none => exact .pure rfl
  | some tx => exact conclude_twin link twins c _ tx invited

theorem abandon_twin : Twin A id (abandon services c) (abandon others c) := by
  refine .step (twins.report _) fun _ => .step (abort_twin link twins c _) fun answer => ?_
  cases answer with
  | ok done => exact .pure rfl
  | error fault => exact twins.report _

theorem close_twin : Twin A id (close services c) (close others c) := by
  rw [close_eq, close_eq]
  refine reading_twin link c fun context _ => ?_
  split
  · exact .step (abandon_twin link twins c) fun _ => drain_twin link c
  · exact drain_twin link c

theorem discard_twin : Twin A id (discard services c) (discard others c) :=
  .step (close_twin link twins c) fun _ => .pure rfl

omit c in
theorem run_twin {operation : Operation} (invites : operation.Invites guests) :
    Twin A id (operation.run services) (operation.run others) := by
  cases operation with
  | enrol c p => exact .step (enrol_twin link twins c invites) fun _ => .pure rfl
  | withdraw c p => exact .step (withdraw_twin link c p) fun _ => .pure rfl
  | contains c p => exact reading_twin link c fun _ _ => .pure rfl
  | defer c p => exact .step (defer_twin link c p) fun _ => .pure rfl
  | start c => exact .step (start_twin link twins c) fun _ => .pure rfl
  | finish c => exact .step (finish_twin link twins c) fun _ => .pure rfl
  | abort c => exact .step (abort_twin link twins c _) fun _ => .pure rfl
  | abortWith c reason => exact .step (abort_twin link twins c reason) fun _ => .pure rfl
  | cleanup c => exact .step (close_twin link twins c) fun _ => .pure rfl
  | discard c => exact .step (discard_twin link twins c) fun _ => .pure rfl
  | inspect c => exact reading_twin link c fun _ _ => .pure rfl

end Context

/-! ## Callbacks -/

structure Callbacks.Twins (guests : Participant → Prop) (A : World ε → World ε' → Prop)
    (callbacks : Callbacks ε) (others : Callbacks ε') : Prop where
  enter : ∀ p, guests p → ∀ call,
    Twin A id (Act.outside (callbacks.enter p call)) (Act.outside (others.enter p call))
  observe : ∀ p, guests p → ∀ call operation outcome,
    Twin A id (Act.outside (callbacks.observe p call operation outcome))
      (Act.outside (others.observe p call operation outcome))

namespace Callbacks

theorem entering_twins (twins : services.Twins guests A others)
    {body : Participant → Callback → Act ε Unit} {body' : Participant → Callback → Act ε' Unit}
    (bodies : ∀ p, guests p → ∀ call, Twin A id (body p call) (body' p call)) :
    (entering services body).Twins guests A (entering others body') :=
  { twins with
    start := fun p invited tx => .step (bodies p invited _) fun _ => twins.start p invited tx
    changes := fun p invited => .step (bodies p invited _) fun _ => twins.changes p invited
    persist := fun p invited => .step (bodies p invited _) fun _ => twins.persist p invited
    confirm := fun p invited => .step (bodies p invited _) fun _ => twins.confirm p invited
    rollback := fun p invited => .step (bodies p invited _) fun _ => twins.rollback p invited }

variable {callbacks : Callbacks ε} {callbacks' : Callbacks ε'}

theorem runOperations_twin (link : Link guests A) (twins : services.Twins guests A others)
    (own : callbacks.Twins guests A callbacks') {p : Participant} (invited : guests p)
    (call : Callback) {operations : List Operation}
    (invite : ∀ operation ∈ operations, operation.Invites guests) :
    Twin A id (callbacks.runOperations services p call operations)
      (callbacks'.runOperations others p call operations) := by
  induction operations with
  | nil => exact .pure rfl
  | cons operation rest ih =>
      obtain ⟨first, later⟩ := List.forall_mem_cons.1 invite
      refine .step (run_twin link twins first) fun outcome => ?_
      exact .step (own.observe p invited call operation outcome) fun _ => ih later

theorem nested_twins (link : Link guests A) (twins : services.Twins guests A others)
    (own : callbacks.Twins guests A callbacks')
    (asks : callbacks.Ask fun _ operation => operation.Invites guests) (depth : Nat) :
    (callbacks.nested services depth).Twins guests A (callbacks'.nested others depth) := by
  induction depth with
  | zero =>
      exact entering_twins twins fun p invited call =>
        .step (own.enter p invited call) fun _ => .pure rfl
  | succ depth ih =>
      -- `asks` is about the operations asked for in this world, so it is named before they run
      refine entering_twins twins fun p invited call w w' here => ?_
      obtain ⟨same, there⟩ := own.enter p invited call w w' here
      rw [bind_apply, bind_apply, same]
      exact runOperations_twin link ih own invited call (asks p call w.outside) _ _ there

end Callbacks

end DatasetCache
