import DatasetCache.Proofs.Shared.Operations

/-!
# Contexts and the transactions in flight

The transactions that the shared coordinator has in flight are those that the contexts are
in, one for each.  Every operation on a context keeps it so.
-/

namespace DatasetCache

open Act Context Coordinator

variable {ε : Type}

/-! ## The transactions of the contexts -/

theorem World.inside_of_current {w : World ε} {c : ContextId} {tx : Transaction}
    (current : (w.context c).current = some tx) : c < w.contexts.length := by
  by_contra outside
  rw [World.context, List.getElem?_eq_none (Nat.le_of_not_lt outside)] at current
  cases current

def currents (contexts : List Context) : List Nat :=
  contexts.filterMap fun context => context.current.map (·.id)

theorem currents_modify {contexts : List Context} {c : ContextId} {context : Context}
    (found : contexts[c]? = some context) : ∃ rest, ∀ f,
      (currents (contexts.modify c f)).Perm ((f context).current.toList.map (·.id) ++ rest) := by
  obtain ⟨inside, same⟩ := List.getElem?_eq_some_iff.1 found
  refine ⟨currents (contexts.take c) ++ currents (contexts.drop (c + 1)), fun f => ?_⟩
  rw [List.modify_eq_take_cons_drop inside, same, currents, List.filterMap_append]
  have one : (f context :: contexts.drop (c + 1)).filterMap (fun context =>
      context.current.map (·.id)) =
        (f context).current.toList.map (·.id) ++ currents (contexts.drop (c + 1)) := by
    cases current : (f context).current <;> simp [currents, current]
  rw [one, ← List.append_assoc, ← List.append_assoc]
  exact List.perm_append_comm.append_right _

/-! ## The end of a transaction -/

theorem settlement_landed {coordinator : Coordinator} {tx : Transaction} {entry : InFlight}
    (found : coordinator.inFlight.get? tx.id = some entry) (undone : Bool) :
    Landed tx.id coordinator (coordinator.follow (settlement tx undone)) := by
  cases undone with
  | true => exact abort_landed found
  | false => exact invalidate_landed found

theorem Conclusion.landed {ps : List Participant} {tx : Transaction} {more : List Occurrence}
    {answer : Except Fault Unit} {status : Status} {coordinator last : Coordinator}
    {entry : InFlight} (concludes : Conclusion ps tx more answer status)
    (found : coordinator.inFlight.get? tx.id = some entry)
    (course : Course coordinator (events more) last) : Landed tx.id coordinator last := by
  have checks := canCommit_alike coordinator tx (collected more)
  have still : ∃ entry, (coordinator.canCommit tx (collected more)).2.inFlight.get? tx.id =
      some entry :=
    Table.mem_keys_iff.1 (checks.keys.symm.subset (Table.mem_keys_iff.2 ⟨entry, found⟩))
  obtain ⟨entry', found'⟩ := still
  have last := course.last_eq
  cases concludes with
  | kept events =>
      rw [events] at course last
      subst last
      exact checks.landed (commit_of_canCommit found course.checked).2
  | lost heard events =>
      rw [events] at last
      subst last
      exact checks.landed (settlement_landed found' _)
  | refused reason events =>
      rw [events] at last
      subst last
      exact checks.landed (settlement_landed found' _)

/-! ## The invariant -/

/-- The coordinator has in flight what the contexts are in. -/
structure Flying (w : World (Shared ε)) : Prop where
  ruled : Ruled (events w.outside.transcript) w.outside.coordinator
  proper : ∀ context ∈ w.contexts, context.Proper
  keys : (currents w.contexts).Perm w.outside.coordinator.inFlight.keys
  accounted : w.outside.coordinator.Accounted

namespace Flying

variable {w w' : World (Shared ε)}

theorem proper_at (flying : Flying w) (c : ContextId) : (w.context c).Proper := by
  rw [World.context]
  cases found : w.contexts[c]? with
  | none => exact ⟨rfl, List.nodup_nil⟩
  | some context => exact flying.proper context (List.mem_of_getElem? found)

theorem found (flying : Flying w) {c : ContextId} {tx : Transaction}
    (current : (w.context c).current = some tx) :
    ∃ entry, w.outside.coordinator.inFlight.get? tx.id = some entry := by
  rw [World.context] at current
  cases present : w.contexts[c]? with
  | none =>
      rw [present] at current
      cases current
  | some context =>
      rw [present] at current
      have member : tx.id ∈ currents w.contexts :=
        List.mem_filterMap.2 ⟨context, List.mem_of_getElem? present, by
          rw [Option.getD_some] at current
          rw [current]
          rfl⟩
      exact Table.mem_keys_iff.1 (flying.keys.subset member)

theorem quiet {more : List Occurrence} (flying : Flying w) (passage : Passage id more w w')
    (silent : events more = []) : Flying w' where
  ruled := by
    rw [passage.transcript, events_append, silent, List.append_nil, passage.silent silent]
    exact flying.ruled
  proper := by
    rw [passage.contexts]
    exact flying.proper
  keys := by
    rw [passage.contexts, passage.silent silent]
    exact flying.keys
  accounted := by
    rw [passage.silent silent]
    exact flying.accounted

/-! ### Operations -/

theorem modify (flying : Flying w) {c : ContextId} {context : Context} {f : Context → Context}
    {more : List Occurrence} (found : w.contexts[c]? = some context)
    (passage : Passage (·.modify c f) more w w') (tame : Tame context f)
    (keys : ∀ rest, w.outside.coordinator.inFlight.keys.Perm
        (context.current.toList.map (·.id) ++ rest) →
      ((f context).current.toList.map (·.id) ++ rest).Perm w'.outside.coordinator.inFlight.keys)
    (accounted : w'.outside.coordinator.Accounted) : Flying w' where
  ruled := by
    rw [passage.transcript, events_append]
    exact flying.ruled.course passage.course
  proper := by
    intro other member
    rw [passage.contexts] at member
    obtain ⟨i, inside, rfl⟩ := List.mem_iff_getElem.1 member
    rw [List.length_modify] at inside
    rw [List.getElem_modify]
    split
    next same =>
        subst same
        rw [List.getElem?_eq_getElem inside, Option.some.injEq] at found
        rw [found]
        exact tame.proper (flying.proper context (List.mem_of_getElem found))
    next => exact flying.proper _ (List.getElem_mem inside)
  keys := by
    obtain ⟨rest, here⟩ := currents_modify found
    have before := here id
    rw [List.modify_id] at before
    rw [passage.contexts]
    exact (here f).trans (keys rest (flying.keys.symm.trans before))
  accounted := accounted

theorem land (flying : Flying w) {c : ContextId} {context : Context} {f : Context → Context}
    {more : List Occurrence} {tx : Transaction} (found : w.contexts[c]? = some context)
    (passage : Passage (·.modify c f) more w w') (tame : Tame context f)
    (current : context.current = some tx) (left : (f context).current = none)
    (landed : Landed tx.id w.outside.coordinator w'.outside.coordinator) : Flying w' := by
  refine flying.modify found passage tame (fun rest keys => ?_) (landed.accounted flying.accounted)
  rw [current] at keys
  rw [left]
  exact (keys.symm.trans landed.keys).cons_inv

theorem deals (flying : Flying w) {operation : Operation} {answered : Outcome × World (Shared ε)}
    (inside : operation.target < w.contexts.length) (deals : Deals operation w answered) :
    Flying answered.2 := by
  obtain ⟨outcome, next⟩ := answered
  obtain ⟨f, more, dealing, tame, passage⟩ := deals
  have found : w.contexts[operation.target]? = some (w.context operation.target) := by
    simp [World.context, inside]
  cases dealing with
  | aside silent current =>
      have same := passage.silent silent
      refine flying.modify found passage tame (fun rest keys => ?_) (same ▸ flying.accounted)
      rw [current, same]
      exact keys.symm
  | begun idle events =>
      have course := passage.course
      rw [events] at course
      have last := course.last_eq
      obtain ⟨accounted, begun⟩ := began_accounted flying.accounted flying.ruled.fresh
      refine flying.modify found passage tame (fun rest keys => ?_) (last ▸ accounted)
      rw [idle] at keys
      rw [last]
      exact (keys.symm.cons _).trans begun.symm
  | finished current concludes asks =>
      obtain ⟨entry, present⟩ := flying.found current
      exact flying.land found passage tame current rfl (concludes.landed present passage.course)
  | settled current events left =>
      obtain ⟨entry, present⟩ := flying.found current
      have course := passage.course
      rw [events] at course
      refine flying.land found passage tame current left ?_
      rw [course.last_eq]
      exact settlement_landed present _

end Flying

/-! ## New contexts -/

/-- New contexts on a coordinator that nobody has used yet. -/
def fresh (n : Nat) (k : CoordinatorId) (outside : ε) : World (Shared ε) :=
  { contexts := List.replicate n { coordinator := k }, outside := { inner := outside } }

theorem flying_fresh (n : Nat) (k : CoordinatorId) (outside : ε) : Flying (fresh n k outside) := by
  have idle : ∀ context ∈ List.replicate n ({ coordinator := k } : Context),
      context = { coordinator := k } := fun _ => List.eq_of_mem_replicate
  refine ⟨ruled_new, fun context member => ?_, ?_, rfl⟩
  · rw [idle context member]
    exact ⟨rfl, List.nodup_nil⟩
  · have none : currents (List.replicate n ({ coordinator := k } : Context)) = [] :=
      List.filterMap_eq_nil_iff.2 fun context member => by rw [idle context member]; rfl
    exact none ▸ List.Perm.nil

end DatasetCache
