import DatasetCache.Proofs.Context.Frame
import DatasetCache.Proofs.Participants

/-!
# Contexts that only gain participants

A context that is driven from transaction to transaction loses no participant, and
it stays open.  Only a withdrawal takes a participant out, and only the end of the
context closes it.
-/

namespace DatasetCache

open Act

variable {ε : Type}

namespace Context

/-- Operations that drive a transaction, and leave the participants as they are. -/
def Operation.drives : Operation → Bool
  | .start _ | .finish _ | .abort _ | .abortWith _ _ => true
  | _ => false

/-! ## Membership -/

theorem has_congr {p q : Participant} (same : p.id = q.id) (context : Context) :
    context.has p = context.has q := by
  rw [has, has, same]

theorem has_accept (context : Context) (p q : Participant) :
    (context.accept p).has q = (context.has q || p.id == q.id) := by
  simp [has, accept, Participant.isIn]

theorem has_expel (context : Context) (p q : Participant) :
    (context.expel p).has q = (context.has q && q.id != p.id) := by
  rw [has, has, expel, Participant.isIn_removeFrom]

/-! ## Growth -/

structure Grows (w w' : World ε) : Prop where
  length : w.contexts.length ≤ w'.contexts.length
  has : ∀ {c p}, c < w.contexts.length → (w.context c).has p = true → (w'.context c).has p = true
  living : ∀ {c}, c < w.contexts.length → (w.context c).isClosed = false →
    (w'.context c).isClosed = false

theorem grows_frame : Frame (Grows (ε := ε)) where
  refl _ := ⟨Nat.le_refl _, fun _ h => h, fun _ h => h⟩
  trans first second :=
    ⟨Nat.le_trans first.length second.length,
      fun inside h => second.has (Nat.lt_of_lt_of_le inside first.length) (first.has inside h),
      fun inside h =>
        second.living (Nat.lt_of_lt_of_le inside first.length) (first.living inside h)⟩
  outside _ _ := ⟨Nat.le_refl _, fun _ h => h, fun _ h => h⟩

theorem grows_order : Order (Grows (ε := ε)) := grows_frame.toOrder

theorem grows_update {w : World ε} {c : ContextId} {f : Context → Context}
    (has : ∀ context p, Context.has context p = true → (f context).has p = true)
    (living : ∀ context, Context.isClosed context = false → (f context).isClosed = false) :
    Grows w (w.update c f) := by
  refine ⟨by simp, fun {other p} inside h => ?_, fun {other} inside h => ?_⟩
  · by_cases same : other = c
    · subst same
      rw [World.context_update_self inside]
      exact has _ p h
    · rwa [World.context_update_of_ne same]
  · by_cases same : other = c
    · subst same
      rw [World.context_update_self inside]
      exact living _ h
    · rwa [World.context_update_of_ne same]

theorem grows_enter (w : World ε) (c : ContextId) (tx : Transaction) :
    Grows w (w.update c (enter tx)) :=
  grows_update (fun _ _ h => h) fun _ _ => rfl

theorem grows_leave (w : World ε) (c : ContextId) (status : Status) (open' : status ≠ .closed) :
    Grows w (w.update c (leave status)) :=
  grows_update (fun _ _ h => h) fun _ _ => by simpa [isClosed, leave] using open'

theorem grows_accept (w : World ε) (c : ContextId) (p : Participant) :
    Grows w (w.update c (accept p)) :=
  grows_update (fun context q h => by simp [has_accept, h]) fun _ h => h

theorem grows_queue (w : World ε) (c : ContextId) (p : Participant) :
    Grows w (w.update c (queue p)) :=
  grows_update (fun _ _ h => h) fun _ h => h

/-! ## Operations -/

variable {services : Services (Act ε)}

theorem drives_keeps (keep : services.Keep Grows) {operation : Operation}
    (drives : operation.drives = true) : Keeps Grows (operation.run services) := by
  have order := grows_order (ε := ε)
  have leaves := grows_leave (ε := ε)
  cases operation with
  | start c =>
      exact .bind order (start_keeps order keep c fun w => grows_enter w c) fun _ =>
        .pure order _
  | finish c =>
      exact .bind order (finish_keeps order keep c fun w => grows_leave w c) fun _ =>
        .pure order _
  | abort c =>
      exact .bind order (abort_keeps order keep c (fun w => grows_leave w c) _) fun _ =>
        .pure order _
  | abortWith c reason =>
      exact .bind order (abort_keeps order keep c (fun w => grows_leave w c) reason) fun _ =>
        .pure order _
  | _ => simp [Operation.drives] at drives

theorem enrol_grows (keep : services.Keep Grows) (c : ContextId) (p : Participant) :
    Keeps Grows (enrol services c p) :=
  enrol_keeps grows_order keep c p fun w _ => grows_accept w c p

structure Live (c : ContextId) (w : World ε) : Prop where
  inside : c < w.contexts.length
  living : (w.context c).isClosed = false

theorem Live.grow {w w' : World ε} {c : ContextId} (grows : Grows w w') (live : Live c w) :
    Live c w' :=
  ⟨Nat.lt_of_lt_of_le live.inside grows.length, grows.living live.inside live.living⟩

theorem enrol_has (keep : services.Keep Grows) {c : ContextId} {w : World ε} (live : Live c w)
    (p : Participant) : ((enrol services c p w).2.context c).has p = true := by
  have order := grows_order (ε := ε)
  rw [enrol_eq, bind_apply, read, live.living, if_neg (by simp)]
  by_cases present : (w.context c).has p = true
  · rw [if_pos present]
    exact present
  · have accepted : ((w.update c (accept p)).context c).has p = true := by
      rw [World.context_update_self live.inside, has_accept]
      simp
    have inside : c < (w.update c (accept p)).contexts.length := by simpa using live.inside
    rw [if_neg present, bind_apply]
    cases (w.context c).current with
    | none => exact accepted
    | some tx => exact (keep.start p tx _).has inside accepted

end Context

end DatasetCache
