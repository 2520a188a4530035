import DatasetCache.Proofs.Context.Settlement
import DatasetCache.Proofs.Participants
import Mathlib.Data.List.DropRight

/-!
# Deferred releases

Participants are queued for release by any operations in between, and queued again; a close
empties the queue.  In the run here every cleanup runs its releases, whatever these do to the
services' own state.  The queue is told from the operations alone, by induction on them, and
what a cleanup does from there on is told as an equation.
-/

namespace DatasetCache

open Act Context

variable {ε : Type}

namespace Context

/-! ## What is queued -/

def Operation.queued? : Operation → Option Participant
  | .defer _ p => some p
  | _ => none

def Operation.closes : Operation → Bool
  | .cleanup _ | .discard _ => true
  | _ => false

/-- Whoever has been queued since the last close, as often as it has been queued. -/
def queuedSince (operations : List Operation) : List Participant :=
  (operations.rtakeWhile (!·.closes)).filterMap Operation.queued?

/-- The instances of a list, each where it comes first. -/
def firsts (ps : List Participant) : List Participant := ps.eraseDupsBy fun p q => p.id == q.id

def Operation.enqueue (waiting : List Participant) : Operation → List Participant
  | .defer _ p => Participant.addTo waiting p
  | .cleanup _ | .discard _ => []
  | _ => waiting

theorem queuedSince_concat (operations : List Operation) (operation : Operation) :
    queuedSince (operations ++ [operation]) =
      if operation.closes then [] else queuedSince operations ++ operation.queued?.toList := by
  rw [queuedSince, List.rtakeWhile_concat]
  cases operation.closes with
  | true => rfl
  | false => cases queued : operation.queued? <;> simp [queuedSince, queued]

theorem foldl_enqueue (operations : List Operation) :
    operations.foldl Operation.enqueue [] = (queuedSince operations).foldl Participant.addTo [] := by
  induction operations using List.reverseRecOn with
  | nil => rfl
  | append_singleton operations operation ih =>
      rw [List.foldl_concat, ih, queuedSince_concat]
      cases operation <;> simp [Operation.enqueue, Operation.closes, Operation.queued?]

theorem foldl_enqueue_eq_firsts (operations : List Operation) :
    operations.foldl Operation.enqueue [] = firsts (queuedSince operations) := by
  rw [foldl_enqueue, Participant.foldl_addTo_eq_eraseDups, List.nil_append, List.filter_eq_self.2]
  · rfl
  · intro p _
    rfl

theorem foldl_enqueue_eq_nil {before between : List Operation} {last : Operation}
    (closes : last.closes = true) (idle : ∀ operation ∈ between, operation.queued? = none) :
    (before ++ last :: between).foldl Operation.enqueue [] = [] := by
  have emptied : ∀ waiting, last.enqueue waiting = [] := by
    intro waiting
    cases last <;> first | rfl | cases closes
  rw [List.foldl_append, List.foldl_cons, emptied]
  induction between with
  | nil => rfl
  | cons operation rest ih =>
      have still : operation.enqueue [] = [] := by
        have none := idle operation List.mem_cons_self
        cases operation <;> first | rfl | cases none
      rw [List.foldl_cons, still]
      exact ih fun other member => idle other (List.mem_cons_of_mem operation member)

/-! ## Runs with releases -/

def Operation.carryOut (services : Services (Act ε)) (release : Participant → Act ε Unit) :
    Operation → Act ε Unit
  | .cleanup c => Context.cleanup services c release
  | operation => do let _ ← operation.run services

end Context

def Minutes.handing (hand : Participant → StateM ε Unit) (p : Participant) : Act (Minutes ε) Unit :=
  Act.outside (Minutes.taken (fun _ => []) (hand p))

/-- A new context after some operations, and all releases in the course of them. -/
def releasesAfter (base : Services (StateM ε)) (hand : Participant → StateM ε Unit)
    (k : CoordinatorId) (outside : ε) (operations : List Operation) : World (Minutes ε) :=
  ((operations.map (Operation.retarget 0)).forM
    (Operation.carryOut base.minuted (Minutes.handing hand))
    (Context.create k { outside := { inner := outside } }).2).2

structure Awaits (waiting : List Participant) (w : World (Minutes ε)) : Prop where
  inside : 0 < w.contexts.length
  consistent : (w.context 0).Consistent
  deferred : (w.context 0).deferred = waiting

theorem Awaits.of_contexts {waiting : List Participant} {w w' : World (Minutes ε)}
    (awaits : Awaits waiting w) (same : w'.contexts = w.contexts) : Awaits waiting w' := by
  have context : w'.context 0 = w.context 0 := by rw [World.context, same, World.context]
  exact ⟨same ▸ awaits.inside, context ▸ awaits.consistent, context ▸ awaits.deferred⟩

section Runs

variable (base : Services (StateM ε)) (hand : Participant → StateM ε Unit)
  {waiting : List Participant} {w : World (Minutes ε)}

def SameQueue (w w' : World (Minutes ε)) : Prop :=
  (w'.context 0).deferred = (w.context 0).deferred

theorem SameQueue.frame : Frame (SameQueue (ε := ε)) :=
  ⟨⟨fun _ => rfl, fun first second => second.trans first⟩, fun _ _ => rfl⟩

theorem SameQueue.update (f : Context → Context)
    (same : ∀ context, (f context).deferred = context.deferred) (w : World (Minutes ε)) :
    SameQueue w (w.update 0 f) := by
  rw [SameQueue, World.context, World.context, World.update]
  cases inside : w.contexts[0]? <;> simp [inside, same]

theorem run_sameQueue {operation : Operation} (idle : operation.queued? = none)
    (living : operation.closes = false) :
    Keeps SameQueue ((operation.retarget 0).run base.minuted) := by
  have order := (SameQueue.frame (ε := ε)).toOrder
  have keep : base.minuted.Keep SameQueue := Services.detached_keep SameQueue.frame _
  have leaves : ∀ (w : World (Minutes ε)) status, status ≠ .closed →
      SameQueue w (w.update 0 (leave status)) :=
    fun w status _ => .update (leave status) (fun _ => rfl) w
  cases operation with
  | enrol c p =>
      have accepts := SameQueue.update (ε := ε) (accept p) fun _ => rfl
      exact .bind order (enrol_keeps order keep 0 p fun w _ => accepts w) fun _ => .pure order _
  | withdraw c p =>
      have expels := SameQueue.update (ε := ε) (expel p) fun _ => rfl
      exact .bind order (withdraw_keeps order 0 p expels) fun _ => .pure order _
  | start c =>
      have enters := fun tx => SameQueue.update (ε := ε) (enter tx) fun _ => rfl
      exact .bind order (start_keeps order keep 0 fun w tx => enters tx w) fun _ => .pure order _
  | finish c => exact .bind order (finish_keeps order keep 0 leaves) fun _ => .pure order _
  | abort c => exact .bind order (abort_keeps order keep 0 leaves _) fun _ => .pure order _
  | abortWith c reason =>
      exact .bind order (abort_keeps order keep 0 leaves reason) fun _ => .pure order _
  | contains c p => exact .bind order (read_keeps order 0) fun _ => .pure order _
  | inspect c => exact .bind order (read_keeps order 0) fun _ => .pure order _
  | defer c p => cases idle
  | cleanup c => cases living
  | discard c => cases living

theorem close_awaits (awaits : Awaits waiting w) :
    Awaits [] (Context.close base.minuted 0 w).2 := by
  obtain ⟨calls, -, minuted⟩ := (minuted_tells base).dissolves awaits.consistent
  have context : (Context.close base.minuted 0 w).2.context 0 = shut (w.context 0) := by
    simp [World.context, minuted.contexts, awaits.inside]
  refine ⟨by simpa [minuted.contexts] using awaits.inside, ?_, ?_⟩
  · rw [context]
    rfl
  · rw [context]
    rfl

theorem handing_contexts (ps : List Participant) (w : World (Minutes ε)) :
    (ps.forM (Minutes.handing hand) w).2.contexts = w.contexts := by
  induction ps generalizing w with
  | nil => rfl
  | cons p rest ih => exact ih (Minutes.handing hand p w).2

theorem carryOut_awaits (operation : Operation) (awaits : Awaits waiting w) :
    Awaits (operation.enqueue waiting)
      ((operation.retarget 0).carryOut base.minuted (Minutes.handing hand) w).2 := by
  obtain ⟨f, more, treatment, -, context, inside⟩ :=
    minuted_treats_of base operation awaits.inside awaits.consistent
  have consistent : (((operation.retarget 0).run base.minuted w).2.context 0).Consistent := by
    rw [context]
    exact treatment.consistent
  have quiet : operation.queued? = none → operation.closes = false →
      Awaits waiting ((operation.retarget 0).run base.minuted w).2 := fun idle living =>
    ⟨inside, consistent, (run_sameQueue base idle living w).trans awaits.deferred⟩
  cases operation with
  | defer c p =>
      refine ⟨inside, consistent, ?_⟩
      change ((w.update 0 (queue p)).context 0).deferred = Participant.addTo waiting p
      rw [World.context_update_self awaits.inside, ← awaits.deferred]
      rfl
  | cleanup c => exact (close_awaits base awaits).of_contexts (handing_contexts hand _ _)
  | discard c => exact close_awaits base awaits
  | _ => exact quiet rfl rfl

theorem carryAll_awaits (operations : List Operation) (awaits : Awaits waiting w) :
    Awaits (operations.foldl Operation.enqueue waiting)
      ((operations.map (Operation.retarget 0)).forM
        (Operation.carryOut base.minuted (Minutes.handing hand)) w).2 := by
  induction operations generalizing waiting w with
  | nil => exact awaits
  | cons operation rest ih => exact ih (carryOut_awaits base hand operation awaits)

theorem releasesAfter_awaits (k : CoordinatorId) (outside : ε) (operations : List Operation) :
    Awaits (firsts (queuedSince operations)) (releasesAfter base hand k outside operations) := by
  rw [← foldl_enqueue_eq_firsts]
  exact carryAll_awaits base hand operations ⟨by simp [Context.create], rfl, rfl⟩

end Runs

/-! ## The cleanup -/

/-- How a context is drained.  By some calls, in which a transaction in progress is rolled back
and settled, it is closed; only then the releases follow, one after the other.  A discard stops
before them. -/
structure Drains (base : Services (StateM ε)) (w : World (Minutes ε)) (released : List Participant)
    (calls : List Occurrence) (closed : World (Minutes ε)) : Prop where
  progress : (w.context 0).isActive = (w.context 0).current.isSome
  dissolution : Dissolution (w.context 0) calls
  minutes : closed.outside.occurrences = w.outside.occurrences ++ calls
  context : closed.context 0 = { w.context 0 with
    status := .closed, current := none, participants := [], deferred := [] }
  cleanup : ∀ release : Participant → Act (Minutes ε) Unit,
    Context.cleanup base.minuted 0 release w = released.forM release closed
  discard : Context.discard base.minuted 0 w = ((), closed)

theorem Awaits.drains {base : Services (StateM ε)} {waiting : List Participant}
    {w : World (Minutes ε)} (awaits : Awaits waiting w) :
    ∃ calls closed, Drains base w waiting calls closed := by
  have handed := (minuted_tells base).hands_back awaits.consistent
  obtain ⟨calls, dissolution, minuted⟩ := (minuted_tells base).dissolves awaits.consistent
  refine ⟨calls, (Context.close base.minuted 0 w).2, awaits.consistent, dissolution,
    minuted.occurrences, ?_, ?_, rfl⟩
  · simp [World.context, minuted.contexts, awaits.inside, shut]
  · intro release
    rw [← awaits.deferred, ← handed]
    rfl

/-- **A cleanup drains the queue.** Whatever has been asked of a context before, with any answers
of the services: what waits for release is what has been queued since the last cleanup or
discard, each instance once, in the order in which they were queued first.  A cleanup rolls back
and settles a transaction in progress, closes the context whether or not that succeeds, and then
releases just these, in this order.  A discard does the same and releases nothing.  If nobody has
been queued since, nothing is released again. -/
theorem cleanup_drains_queue (base : Services (StateM ε)) (hand : Participant → StateM ε Unit)
    (k : CoordinatorId) (outside : ε) (operations : List Operation) :
    let w := releasesAfter base hand k outside operations
    let released := firsts (queuedSince operations)
    (w.context 0).deferred = released ∧
      (released.map (·.id)).Nodup ∧
      (∀ i, Participant.isIn i released = Participant.isIn i (queuedSince operations)) ∧
      (∃ calls closed, Drains base w released calls closed) ∧
      ∀ before last between, operations = before ++ last :: between → last.closes = true →
        (∀ operation ∈ between, operation.queued? = none) → released = [] := by
  intro w released
  have awaits : Awaits released w := releasesAfter_awaits base hand k outside operations
  have added : released = (queuedSince operations).foldl Participant.addTo [] := by
    rw [← foldl_enqueue, foldl_enqueue_eq_firsts]
  refine ⟨awaits.deferred, ?_, ?_, awaits.drains, ?_⟩
  · rw [added]
    exact Participant.nodup_foldl_addTo (by simp) _
  · intro i
    rw [added, Participant.isIn_foldl_addTo]
    rfl
  · rintro before last between split closes idle
    have none : (before ++ last :: between).foldl Operation.enqueue [] = [] :=
      foldl_enqueue_eq_nil closes idle
    rw [← split, foldl_enqueue_eq_firsts] at none
    exact none

example :
    let sales : Participant := { id := 7, name := "sales" }
    let stock : Participant := { id := 8, name := "stock" }
    firsts (queuedSince [.defer 0 sales, .cleanup 0, .defer 0 stock, .start 0, .defer 0 sales,
      .defer 0 stock]) = [stock, sales] := by
  decide

end DatasetCache
