import DatasetCache.Proofs.Cache.Moves
import DatasetCache.Proofs.Cache.Ledger

/-!
# A register of what is asked for

The ledger says what is loaded, and a load that fails leaves no trace there.  So below the
ledger stands a register of the keys that an instantiator is asked for.  A request of the
cache asks for its key at most once, and only if the key is neither static nor stored.
-/

namespace DatasetCache

open Act

variable {ε α : Type}

structure Register (ε : Type) where
  requests : List Key := []
  inner : ε

def Register.within (x : StateM ε α) : StateM (Register ε) α := fun register =>
  ((x register.inner).1, { register with inner := (x register.inner).2 })

def World.requests (w : World (Journal (Ledger (Register ε)))) : List Key :=
  w.outside.inner.inner.requests

def Act.request (key : Key) : Act (Journal (Ledger (Register ε))) Unit := fun w =>
  let ledger := w.outside.inner
  let register := ledger.inner
  ((), { w with outside := { w.outside with inner := { ledger with
    inner := { register with requests := register.requests ++ [key] } } } })

def Services.registered (services : Services (Act (Journal (Ledger (Register ε))))) :
    Services (Act (Journal (Ledger (Register ε)))) :=
  { services with
    load := fun i realm key => do
      Act.request key
      services.load i realm key }

def Callbacks.unregistered (callbacks : Callbacks ε) : Callbacks (Register ε) where
  enter p callback := Register.within (callbacks.enter p callback)
  observe p callback operation outcome :=
    Register.within (callbacks.observe p callback operation outcome)

/-- Services that call back, to a given depth, with a journal, a ledger and a register. -/
def Callbacks.surveyed (callbacks : Callbacks ε) (base : Services (StateM ε)) (depth : Nat) :
    Services (Act (Journal (Ledger (Register ε)))) :=
  (callbacks.unregistered.audited (base.map Register.within) depth).registered

def Unasked (w w' : World (Journal (Ledger (Register ε)))) : Prop := w'.requests = w.requests

structure Services.Registers (services : Services (Act (Journal (Ledger (Register ε))))) :
    Prop where
  load : ∀ w i realm key, (services.load i realm key w).2.requests = w.requests ++ [key]
  meter : ∀ sink tag value d, Keeps Unasked (services.meter sink tag value d)
  report : ∀ d, Keeps Unasked (services.report d)
  run : ∀ operation : Context.Operation, Keeps Unasked (operation.run services)

theorem unasked_order : Order (Unasked (ε := ε)) where
  refl _ := rfl
  trans first second := second.trans first

theorem Services.Accountable.registered
    {services : Services (Act (Journal (Ledger (Register ε))))} (accounts : services.Accountable) :
    services.registered.Accountable where
  report := accounts.report
  meter := accounts.meter
  closeInstantiator := accounts.closeInstantiator
  load w i realm key := by
    have call := accounts.load (Act.request key w).2 i realm key
    exact ⟨call.contexts, call.journal, call.ledger⟩
  closeDataset := accounts.closeDataset
  closeParticipant := accounts.closeParticipant
  run operation := by
    have same : operation.run services.registered = operation.run services :=
      operation.run_provided services services.registered.toProvision
    rw [same]
    exact accounts.run operation

namespace Callbacks

variable (callbacks : Callbacks ε) (base : Services (StateM ε)) (depth : Nat)

theorem surveyed_accountable : (callbacks.surveyed base depth).Accountable :=
  (callbacks.unregistered.audited_accountable (base.map Register.within) depth).registered

theorem journaled_unasked :
    (callbacks.unregistered.within.journaled
      ((base.map Register.within).map Ledger.within) depth).Keep Unasked := by
  refine journaled_keep (fun ledger : Ledger (Register ε) => ledger.inner.requests) ?_
    ⟨fun _ _ _ => rfl, fun _ _ _ _ _ => rfl⟩ depth
  constructor <;> intros <;> intro w <;> rfl

theorem surveyed_registers : (callbacks.surveyed base depth).Registers where
  load w i realm key := by cases depth <;> rfl
  meter sink tag value d w := by cases depth <;> rfl
  report d w := by cases depth <;> rfl
  run operation := by
    have same : operation.run (callbacks.surveyed base depth) =
        operation.run (callbacks.unregistered.within.journaled
          ((base.map Register.within).map Ledger.within) depth) :=
      operation.run_provided (callbacks.unregistered.within.journaled
        ((base.map Register.within).map Ledger.within) depth)
        (callbacks.surveyed base depth).toProvision
    rw [same]
    exact Context.run_keeps unasked_order (journaled_unasked callbacks base depth)
      (fun _ _ _ => rfl) operation

end Callbacks

/-! ## What a request of the cache asks for -/

section Requests

variable {services : Services (Act (Journal (Ledger (Register ε))))}
  (registers : services.Registers)

include registers

theorem Loader.load_requests (loader : Loader) (key : Key)
    (w : World (Journal (Ledger (Register ε)))) :
    (loader.load services key w).2.requests = w.requests ++ [key] := by
  have call := registers.load w loader.instantiator loader.realm key
  unfold Loader.load
  simp only [bind_apply]
  generalize services.load loader.instantiator loader.realm key w = answered at call ⊢
  obtain ⟨answer, next⟩ := answered
  match answer with
  | .error fault => exact call
  | .ok none => exact call
  | .ok (some dataset) =>
      dsimp only
      cases loader.metrics with
      | none => exact call
      | some metrics =>
          cases dataset.metered with
          | false => exact call
          | true => exact (registers.meter _ _ _ _ next).trans call

namespace Cache

theorem register_unasked (cache : Cache) (key : Key) (dataset : Dataset) :
    Keeps Unasked (cache.register services key dataset) := by
  have order := unasked_order (ε := ε)
  have enrols : ∀ c p, Keeps Unasked (Context.enrol services c p) :=
    fun c p w => registers.run (.enrol c p) w
  unfold register
  split
  · exact .pure order _
  · exact .pure order _
  · refine .bind order ?_ fun tracked => ?_
    · unfold Tracker.track
      split
      · exact .pure order _
      · split
        · exact .pure order _
        · exact .bind order (registers.report _) fun _ => .pure order _
    · match tracked with
      | (.error fault, tracker) => exact .pure order _
      | (.ok false, tracker) => exact .pure order _
      | (.ok true, tracker) =>
          dsimp only
          cases cache.context with
          | none => exact .bind order (.pure order _) fun _ => .pure order _
          | some c =>
              refine .bind order (enrols c _) fun enrolled => ?_
              split
              · exact .bind order (registers.report _) fun _ => .pure order _
              · exact .pure order _

theorem fetch_requests {cache : Cache} (living : cache.closed = false) (key : Key)
    (w : World (Journal (Ledger (Register ε)))) :
    (cache.fetch services key false w).2.requests = w.requests ++
      if cache.statics.get? key = none ∧ cache.store.peek? key = none then [key] else [] := by
  unfold fetch
  rw [if_neg (by simp [living]), if_neg (by simp)]
  cases static : cache.statics.get? key with
  | some dataset => simp
  | none =>
      simp only [Store.get, Bool.false_eq_true, if_false, bind_apply]
      cases present : cache.store.peek? key with
      | some dataset => simp
      | none =>
          have call := Loader.load_requests registers cache.store.loader key w
          simp only [bind_apply, and_self, if_true]
          generalize cache.store.loader.load services key w = loaded at call ⊢
          obtain ⟨answer, next⟩ := loaded
          cases answer with
          | error fault => exact call
          | ok dataset => exact (registers.report _ next).trans call

theorem acquire_requests {cache : Cache} (living : cache.closed = false) (key : Key)
    (check : Dataset → Except Fault Unit) (w : World (Journal (Ledger (Register ε)))) :
    (cache.acquire services key false check w).2.requests = w.requests ++
      if cache.statics.get? key = none ∧ cache.store.peek? key = none then [key] else [] := by
  rw [← fetch_requests registers living key w]
  unfold acquire
  simp only [bind_apply]
  generalize cache.fetch services key false w = fetched
  obtain ⟨⟨answer, next⟩, w⟩ := fetched
  cases answer with
  | error fault => rfl
  | ok dataset =>
      dsimp only
      cases check dataset with
      | error fault => rfl
      | ok passed =>
          have registered := register_unasked registers next key dataset w
          simp only [Bool.false_eq_true, if_false, bind_apply]
          generalize next.register services key dataset w = done at registered ⊢
          obtain ⟨⟨answer, last⟩, w⟩ := done
          cases answer <;> exact registered

/-- **What a request asks for.**  A request that is no bypass asks the instantiator for its
key, once, exactly if the key is neither static nor stored. -/
theorem get_requests {s : Session} (living : s.cache.closed = false) (typeName : Option String)
    (key : Key) (w : World (Journal (Ledger (Register ε)))) :
    (s.run services (.get typeName key false) w).2.requests = w.requests ++
      if s.cache.statics.get? key = none ∧ s.cache.store.peek? key = none then [key] else [] := by
  obtain ⟨check, -, -, same⟩ := s.getDataset_eq services key false typeName
  simp only [Session.run, bind_apply, pure_apply, same]
  exact acquire_requests registers living key check w

end Cache

end Requests

end DatasetCache
