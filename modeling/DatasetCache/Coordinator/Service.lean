import DatasetCache.Coordinator
import DatasetCache.Services

/-!
# Coordinators as a service

The calls on in-process coordinators that are part of some state, with the log
entries that they make.
-/

namespace DatasetCache

structure CoordinatorAccess (σ : Type) where
  get : CoordinatorId → σ → Coordinator
  set : CoordinatorId → Coordinator → σ → σ

namespace CoordinatorAccess

variable {σ α : Type} (access : CoordinatorAccess σ)

def update (k : CoordinatorId) (f : Coordinator → α × Coordinator) : StateM σ α := fun s =>
  let (a, c) := f (access.get k s)
  (a, access.set k c s)

def service (report : Diagnostic → StateM σ Unit) : Coordination (StateM σ) where
  begin k := do
    let tx ← access.update k Coordinator.begin
    report ⟨.debug, .transactions, "Transaction started"⟩
    return .ok tx
  canCommit k tx changes := do
    let answer ← access.update k fun c => c.canCommit tx changes
    match answer with
    | .ok false => report ⟨.debug, .transactions, "Change set conflicts with a later commit"⟩
    | _ => pure ()
    return answer
  commit k tx := do
    let answer ← access.update k fun c => c.commit tx
    match answer with
    | .ok true => report ⟨.debug, .transactions, "Transaction committed"⟩
    | _ => pure ()
    return answer
  abort k tx := do
    access.update k fun c => ((), c.abort tx)
    report ⟨.debug, .transactions, "Transaction aborted"⟩
  invalidate k tx := do
    access.update k fun c => ((), c.invalidate tx)
    report ⟨.warn, .transactions, "Transaction invalidated"⟩

end CoordinatorAccess

end DatasetCache
