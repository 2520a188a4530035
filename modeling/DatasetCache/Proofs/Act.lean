import DatasetCache.Context.Operation

/-!
# What acts leave alone

An act is a function on worlds.  It keeps a relation between worlds if it leads from
every world to a related one.  Operations keep whatever relations their services and
their own updates keep, and so do services whose participants call operations from inside
their callbacks, at any depth.  An `Order` is a reflexive and transitive relation; a
`Frame` is one that does not look at what the services keep for themselves.
-/

namespace DatasetCache

variable {ε α β : Type}

namespace Act

@[simp] theorem pure_apply (a : α) (w : World ε) : (pure a : Act ε α) w = (a, w) := rfl

@[simp] theorem bind_apply (x : Act ε α) (f : α → Act ε β) (w : World ε) :
    (x >>= f) w = f (x w).1 (x w).2 := rfl

structure Order (R : World ε → World ε → Prop) : Prop where
  refl : ∀ w, R w w
  trans : ∀ {w₁ w₂ w₃}, R w₁ w₂ → R w₂ w₃ → R w₁ w₃

theorem Order.lasting (P : World ε → Prop) : Order fun w w' => P w → P w' :=
  ⟨fun _ => id, fun first second here => second (first here)⟩

structure Frame (R : World ε → World ε → Prop) : Prop extends Order R where
  outside : ∀ w o, R w { w with outside := o }

def Keeps (R : World ε → World ε → Prop) (x : Act ε α) : Prop := ∀ w, R w (x w).2

namespace Keeps

variable {R : World ε → World ε → Prop}

theorem pure (order : Order R) (a : α) : Keeps R (Pure.pure a : Act ε α) := fun w => order.refl w

theorem bind (order : Order R) {x : Act ε α} {f : α → Act ε β} (first : Keeps R x)
    (rest : ∀ a, Keeps R (f a)) : Keeps R (x >>= f) :=
  fun w => order.trans (first w) (rest (x w).1 (x w).2)

theorem outside (frame : Frame R) (x : StateM ε α) : Keeps R (Act.outside x) :=
  fun w => frame.outside w (x w.outside).2

end Keeps

/-- An act leads from worlds of one kind to answers and worlds of another. -/
def Leads (P : World ε → Prop) (x : Act ε α) (Q : α → World ε → Prop) : Prop :=
  ∀ w, P w → Q (x w).1 (x w).2

namespace Leads

variable {P : World ε → Prop} {x : Act ε α} {Q Q' : α → World ε → Prop}

theorem pure {a : α} (here : ∀ w, P w → Q a w) : Leads P (Pure.pure a) Q := here

theorem bind {f : α → Act ε β} {S : β → World ε → Prop} (first : Leads P x Q)
    (rest : ∀ a, Leads (Q a) (f a) S) : Leads P (x >>= f) S :=
  fun w here => rest (x w).1 (x w).2 (first w here)

theorem imp (first : Leads P x Q) (rest : ∀ a w, Q a w → Q' a w) : Leads P x Q' :=
  fun w here => rest _ _ (first w here)

end Leads

end Act

namespace World

variable {w : World ε} {c other : ContextId} {f : Context → Context}

@[simp] theorem length_update : (w.update c f).contexts.length = w.contexts.length := by
  simp [update]

theorem context_outside (outside : w.contexts.length ≤ c) : w.context c = default := by
  simp [context, outside]

theorem context_update_self (inside : c < w.contexts.length) :
    (w.update c f).context c = f (w.context c) := by
  simp [update, context, inside]

theorem context_update_of_ne (different : other ≠ c) :
    (w.update c f).context other = w.context other := by
  simp [update, context, Ne.symm different]

variable {k : CoordinatorId}

@[simp] theorem length_create :
    (Context.create k w).2.contexts.length = w.contexts.length + 1 := by
  simp [Context.create]

theorem context_create_self :
    (Context.create k w).2.context w.contexts.length = { coordinator := k } := by
  simp [Context.create, context]

theorem context_create_of_ne (different : other ≠ w.contexts.length) :
    (Context.create k w).2.context other = w.context other := by
  rcases Nat.lt_or_gt_of_ne different with older | younger
  · simp [Context.create, context, List.getElem?_append_left older]
  · have absent : w.contexts[other]? = none := List.getElem?_eq_none (Nat.le_of_lt younger)
    have absent' : (Context.create k w).2.contexts[other]? = none := by
      refine List.getElem?_eq_none ?_
      simpa using Nat.succ_le_of_lt younger
    rw [context, context, absent, absent']

end World

open Act

/-! ## Services -/

structure Services.Keep (R : World ε → World ε → Prop) (services : Services (Act ε)) : Prop where
  start : ∀ p tx, Keeps R (services.start p tx)
  changes : ∀ p, Keeps R (services.changes p)
  persist : ∀ p, Keeps R (services.persist p)
  confirm : ∀ p, Keeps R (services.confirm p)
  rollback : ∀ p, Keeps R (services.rollback p)
  begin : ∀ k, Keeps R (services.begin k)
  canCommit : ∀ k tx changes, Keeps R (services.canCommit k tx changes)
  commit : ∀ k tx, Keeps R (services.commit k tx)
  abort : ∀ k tx, Keeps R (services.abort k tx)
  invalidate : ∀ k tx, Keeps R (services.invalidate k tx)
  load : ∀ i realm key, Keeps R (services.load i realm key)
  closeInstantiator : ∀ i, Keeps R (services.closeInstantiator i)
  closeDataset : ∀ d, Keeps R (services.closeDataset d)
  closeParticipant : ∀ p, Keeps R (services.closeParticipant p)
  meter : ∀ i tag value d, Keeps R (services.meter i tag value d)
  report : ∀ d, Keeps R (services.report d)

/-- The calls by which a dataset is loaded keep a relation, and so does the log. -/
structure Services.Lends (R : World ε → World ε → Prop) (services : Services (Act ε)) : Prop where
  load : ∀ i realm key, Keeps R (services.load i realm key)
  meter : ∀ i tag value d, Keeps R (services.meter i tag value d)
  report : ∀ d, Keeps R (services.report d)

structure Services.Supply (R : World ε → World ε → Prop) (services : Services (Act ε)) : Prop
    extends Services.Lends R services where
  closeInstantiator : ∀ i, Keeps R (services.closeInstantiator i)
  closeDataset : ∀ d, Keeps R (services.closeDataset d)
  closeParticipant : ∀ p, Keeps R (services.closeParticipant p)

variable {R : World ε → World ε → Prop}

theorem Services.Keep.supply {services : Services (Act ε)} (keep : services.Keep R) :
    services.Supply R :=
  { keep with }

theorem Services.detached_keep (frame : Frame R) (services : Services (StateM ε)) :
    services.detached.Keep R := by
  constructor <;> intros <;> exact Keeps.outside frame _

/-! ## Calls on all participants -/

section Calls

variable {services : Services (Act ε)} (order : Order R) (ps : List Participant)

include order

theorem startAll_keeps {tx : Transaction} (start : ∀ p, Keeps R (services.start p tx)) :
    Keeps R (services.startAll tx ps) := by
  induction ps with
  | nil => exact .pure order _
  | cons p rest ih => exact .bind order (start p) fun _ => ih

theorem collectChanges_keeps (changes : ∀ p, Keeps R (services.changes p)) :
    Keeps R (services.collectChanges ps) := by
  induction ps with
  | nil => exact .pure order _
  | cons p rest ih =>
      exact .bind order (changes p) fun _ => .bind order ih fun _ => .pure order _

theorem persistAll_keeps (persist : ∀ p, Keeps R (services.persist p)) :
    Keeps R (services.persistAll ps) := by
  induction ps with
  | nil => exact .pure order _
  | cons p rest ih =>
      refine .bind order (persist p) fun answer => ?_
      match answer with
      | .ok true => exact ih
      | .ok false => exact .pure order _
      | .error _ => exact .pure order _

theorem confirmAll_keeps (confirm : ∀ p, Keeps R (services.confirm p)) :
    Keeps R (services.confirmAll ps) := by
  induction ps with
  | nil => exact .pure order _
  | cons p rest ih => exact .bind order (confirm p) fun _ => ih

theorem rollbackAll_keeps (rollback : ∀ p, Keeps R (services.rollback p))
    (report : ∀ d, Keeps R (services.report d)) : Keeps R (services.rollbackAll ps) := by
  induction ps with
  | nil => exact .pure order _
  | cons p rest ih =>
      refine .bind order (rollback p) fun answer => ?_
      match answer with
      | .ok true => exact ih
      | .ok false => exact .bind order ih fun _ => .pure order _
      | .error _ => exact .bind order (report _) fun _ => .bind order ih fun _ => .pure order _

end Calls

/-! ## Services that refuse nothing -/

/-- Transactions are numbered from one on, and `found` says what there is to load. -/
def Services.willing (found : Key → Option Dataset) : Services (StateM Nat) where
  start _ _ := pure ()
  changes _ := pure []
  persist _ := pure (.ok true)
  confirm _ := pure ()
  rollback _ := pure (.ok true)
  begin _ := fun n => (.ok ⟨n + 1, 0⟩, n + 1)
  canCommit _ _ _ := pure (.ok true)
  commit _ _ := pure (.ok true)
  abort _ _ := pure ()
  invalidate _ _ := pure ()
  load _ _ key := pure (.ok (found key))
  closeInstantiator _ := pure (.ok ())
  closeDataset _ := pure (.ok ())
  closeParticipant _ := pure (.ok ())
  meter _ _ _ _ := pure ()
  report _ := pure ()

def table (i : InstanceId) (name : String) : Dataset :=
  { id := i, typeName := "table", participant := some { id := i, name } }

def Services.minting : Services (StateM Nat) :=
  { Services.willing fun _ => none with
    load := fun _ _ key n => (.ok (some (table (n + 1) key.name)), n + 1) }

end DatasetCache
