import DatasetCache.Proofs.Act

/-!
# The parts of the operations on a context

An abort rolls back, settles with the coordinator and leaves the transaction; a close
abandons a transaction in progress and drains the context.  The equations here put the
operations together from these parts.
-/

namespace DatasetCache.Context

open Act

variable {ε : Type}

/-! ## Changes of a context -/

def enter (tx : Transaction) (context : Context) : Context :=
  { context with current := some tx, status := .active }

def leave (status : Status) (context : Context) : Context :=
  { context with current := none, status := status }

def accept (p : Participant) (context : Context) : Context :=
  { context with participants := context.participants ++ [p] }

def expel (p : Participant) (context : Context) : Context :=
  { context with participants := Participant.removeFrom context.participants p.id }

def queue (p : Participant) (context : Context) : Context :=
  { context with deferred := Participant.addTo context.deferred p }

def shut (context : Context) : Context :=
  { context with status := .closed, current := none, participants := [], deferred := [] }

def Consistent (context : Context) : Prop := context.isActive = context.current.isSome

namespace Consistent

variable {context : Context} (consistent : context.Consistent)

include consistent

theorem unused_iff : context.current = none ↔ context.isActive = false := by
  rw [Consistent] at consistent
  rw [consistent, Option.isSome_eq_false_iff, Option.isNone_iff_eq_none]

theorem active {tx : Transaction} (current : context.current = some tx) :
    context.isActive = true := by
  rw [Consistent, current] at consistent
  exact consistent

theorem status {tx : Transaction} (current : context.current = some tx) :
    context.status = .active := by
  simpa [isActive] using consistent.active current

end Consistent

/-! ## Operations -/

variable (services : Services (Act ε)) (c : ContextId)

def launch (k : CoordinatorId) : Act ε (Except Fault Transaction) := do
  match ← services.begin k with
  | .error fault => return .error fault
  | .ok tx =>
    modify c (enter tx)
    services.startAll tx (← read c).participants
    services.debug .transactions "Context transaction started"
    return .ok tx

def settle (k : CoordinatorId) (tx : Transaction) (failed : List String) : Act ε Unit :=
  if failed.isEmpty then services.abort k tx else services.invalidate k tx

def verdict (tx : Transaction) (failed : List String) : Except Fault Unit :=
  if failed.isEmpty then .ok ()
  else .error (.transactionFailure tx.id ("unable to roll back: " ++ ", ".intercalate failed))

theorem abort_eq (reason : String) :
    abort services c reason = (do
      let context ← read c
      match context.current with
      | none => return .ok ()
      | some tx =>
        let failed ← services.rollbackAll context.participants
        settle services context.coordinator tx failed
        modify c (leave (.aborted reason))
        services.debug .transactions "Context transaction aborted"
        return verdict tx failed) := by
  unfold abort
  congr 1
  funext context
  cases context.current with
  | none => rfl
  | some tx =>
      dsimp only
      congr 1
      funext failed
      cases hfailed : failed.isEmpty <;> simp [settle, verdict, hfailed] <;> rfl

def abandon : Act ε Unit := do
  services.warn .transactions "Cleaning up context with a transaction still in progress"
  match ← abort services c "context cleaned up with transaction in progress" with
  | .ok () => pure ()
  | .error _ => services.warn .transactions "Abort during context cleanup did not complete"

def drain : Act ε (List Participant) := fun w =>
  ((w.context c).deferred, w.update c shut)

theorem close_eq :
    close services c = (do
      let context ← read c
      if context.isActive then abandon services c
      drain c) := by
  unfold close
  congr 1
  funext context
  cases context.isActive with
  | false => rfl
  | true =>
      funext w
      simp only [abandon, if_true, bind_apply]
      cases (abort services c "context cleaned up with transaction in progress"
        (services.warn .transactions
          "Cleaning up context with a transaction still in progress" w).2).1 with
      | ok done => rfl
      | error fault => rfl

def conclude (k : CoordinatorId) (tx : Transaction) (ps : List Participant) :
    Act ε (Except Fault Unit) := do
  let changes ← services.collectChanges ps
  match ← services.canCommit k tx changes with
  | .ok false => abortFor services c "conflict detected" (.conflict tx.id)
  | .error fault => abortFor services c ("conflict check failed: " ++ fault.message) fault
  | .ok true =>
    match ← services.persistAll ps with
    | some reason => abortFor services c reason (.transactionFailure tx.id reason)
    | none =>
      match ← services.commit k tx with
      | .ok false => abortFor services c "conflict detected at commit" (.conflict tx.id)
      | .error fault => abortFor services c ("commit failed: " ++ fault.message) fault
      | .ok true =>
        services.confirmAll ps
        modify c (leave .committed)
        return .ok ()

theorem finish_eq :
    finish services c = (do
      let context ← read c
      match context.current with
      | none => return .error (.invalidState "no transaction in progress")
      | some tx => conclude services c context.coordinator tx context.participants) := rfl

theorem enrol_eq (p : Participant) :
    enrol services c p = (do
      let context ← read c
      if context.isClosed then
        services.debug .transactions "Ignoring participant for closed context"
        return false
      else if context.has p then
        return false
      else
        modify c (accept p)
        match context.current with
        | some tx => services.start p tx
        | none => pure ()
        return true) := rfl

variable {c} {w : World ε}

theorem start_cases (c : ContextId) (w : World ε) :
    (∃ fault, start services c w = (.error fault, w)) ∨
      (w.context c).isActive = false ∧
        start services c w = launch services c (w.context c).coordinator w := by
  unfold start
  rw [bind_apply, read]
  cases status : (w.context c).status with
  | active => exact .inl ⟨_, rfl⟩
  | closed => exact .inl ⟨_, rfl⟩
  | idle => exact .inr ⟨by simp [isActive, status], rfl⟩
  | committed => exact .inr ⟨by simp [isActive, status], rfl⟩
  | aborted reason => exact .inr ⟨by simp [isActive, status], rfl⟩

theorem start_closed (closed : (w.context c).isClosed = true) :
    start services c w = (.error (.invalidState "transaction context is closed"), w) := by
  have status : (w.context c).status = .closed := by simpa [isClosed] using closed
  unfold start
  rw [bind_apply, read, status]
  rfl

theorem withdraw_active (active : (w.context c).isActive = true) (p : Participant) :
    withdraw c p w = (.error (.invalidState ("cannot remove participant '" ++ p.name ++
      "' while a transaction is in progress")), w) := by
  unfold withdraw
  rw [bind_apply, read, if_pos active]
  rfl

theorem withdraw_inactive (inactive : (w.context c).isActive = false) (p : Participant) :
    withdraw c p w = (.ok ((w.context c).has p), w.update c (expel p)) := by
  unfold withdraw
  rw [bind_apply, read, if_neg (by simp [inactive])]
  rfl

end DatasetCache.Context
