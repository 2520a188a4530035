import DatasetCache.Proofs.Cache.Ledger
import DatasetCache.Proofs.Context.Twins

/-!
# Audits side by side

Services with a journal and a ledger are twins of themselves, if the calls below these two
are and if the link bears whatever is entered on both sides at once.
-/

namespace DatasetCache

open Act Context

variable {ε : Type}

namespace World

def noting (w : World (Journal ε)) (entries : List Entry) : World (Journal ε) :=
  { w with outside := { w.outside with entries := w.outside.entries ++ entries } }

theorem noting_nil (w : World (Journal ε)) : w.noting [] = w := by
  simp [noting]

def booking (w : World (Journal (Ledger ε))) (events : List Event) : World (Journal (Ledger ε)) :=
  let ledger := w.outside.inner
  { w with outside := { w.outside with inner := { ledger with events := ledger.events ++ events } } }

end World

def Entry.Mute : Entry → Prop
  | .received _ _ => False
  | _ => True

theorem Entry.ofBegin_mute (answer : Except Fault Transaction) :
    ∀ entry ∈ ofBegin answer, entry.Mute := by
  cases answer <;> simp [ofBegin, Mute]

theorem Entry.ofCommit_mute (tx : Transaction) (answer : Except Fault Bool) :
    ∀ entry ∈ ofCommit tx answer, entry.Mute := by
  match answer with
  | .ok true => simp [ofCommit, Mute]
  | .ok false => simp [ofCommit]
  | .error fault => simp [ofCommit]

/-- A link under which both sides can be entered in journal and ledger: callbacks of guests, what
becomes of transactions, and closings. -/
structure Audit (guests : Participant → Prop)
    (A : World (Journal (Ledger ε)) → World (Journal (Ledger ε)) → Prop) : Prop
    extends Link guests A where
  time : ∀ {w w'}, A w w' → w'.time = w.time
  receive : ∀ {w w' p}, guests p → ∀ call, A w w' →
    A (w.noting [.received p.id call]) (w'.noting [.received p.id call])
  note : ∀ {w w' entries}, (∀ entry ∈ entries, Entry.Mute entry) → A w w' →
    A (w.noting entries) (w'.noting entries)
  book : ∀ {w w'} {event : Event}, event.dataset? = none → A w w' →
    A (w.booking [event]) (w'.booking [event])

/-- The services' own calls under a journal and a ledger that they do not see. -/
def Services.covered (base : Services (StateM ε)) : Services (Act (Journal (Ledger ε))) :=
  ((base.map Ledger.within).map Journal.within).detached

def Callbacks.covered (callbacks : Callbacks ε) : Callbacks (Journal (Ledger ε)) where
  enter p call := Journal.within (Ledger.within (callbacks.enter p call))
  observe p call operation outcome :=
    Journal.within (Ledger.within (callbacks.observe p call operation outcome))

section Journal

variable (base : Services (StateM ε)) (w : World (Journal (Ledger ε))) (k : CoordinatorId)
  (tx : Transaction)

theorem recorded_begin :
    (base.map Ledger.within).recorded.detached.begin k w =
      ((base.covered.begin k w).1,
        (base.covered.begin k w).2.noting (Entry.ofBegin (base.covered.begin k w).1)) := by
  simp only [Services.covered, Services.detached, Services.map, Act.outside, Services.recorded,
    bind, StateT.bind, Journal.within, Ledger.within]
  cases (base.begin k w.outside.inner.inner).1 with
  | ok tx => rfl
  | error fault => exact congrArg _ (World.noting_nil _).symm

theorem recorded_commit :
    (base.map Ledger.within).recorded.detached.commit k tx w =
      ((base.covered.commit k tx w).1,
        (base.covered.commit k tx w).2.noting
          (Entry.ofCommit tx (base.covered.commit k tx w).1)) := by
  simp only [Services.covered, Services.detached, Services.map, Act.outside, Services.recorded,
    bind, StateT.bind, Journal.within, Ledger.within]
  cases (base.commit k tx w.outside.inner.inner).1 with
  | error fault => exact congrArg _ (World.noting_nil _).symm
  | ok agreed =>
      cases agreed with
      | false => exact congrArg _ (World.noting_nil _).symm
      | true => rfl

end Journal

section Twins

variable {guests : Participant → Prop}
  {A : World (Journal (Ledger ε)) → World (Journal (Ledger ε)) → Prop} (audit : Audit guests A)
  {base : Services (StateM ε)} (calls : base.covered.Twins guests A base.covered)

include audit calls

theorem recorded_twins : (base.map Ledger.within).recorded.detached.Twins guests A
    (base.map Ledger.within).recorded.detached :=
  { calls with
    begin := fun k w w' here => by
      obtain ⟨same, there⟩ := calls.begin k w w' here
      rw [recorded_begin, recorded_begin, same]
      exact ⟨rfl, audit.note (Entry.ofBegin_mute _) there⟩
    commit := fun k tx w w' here => by
      obtain ⟨same, there⟩ := calls.commit k tx w w' here
      rw [recorded_commit, recorded_commit, same]
      exact ⟨rfl, audit.note (Entry.ofCommit_mute tx _) there⟩
    abort := fun k tx w w' here =>
      ⟨rfl, audit.note (by simp [Entry.Mute]) (calls.abort k tx w w' here).2⟩
    invalidate := fun k tx w w' here =>
      ⟨rfl, audit.note (by simp [Entry.Mute]) (calls.invalidate k tx w w' here).2⟩ }

variable {callbacks : Callbacks ε} (own : callbacks.covered.Twins guests A callbacks.covered)
  (asks : callbacks.Ask fun _ operation => operation.Invites guests) (depth : Nat)

include own asks

theorem journaled_twins :
    (callbacks.within.journaled (base.map Ledger.within) depth).Twins guests A
      (callbacks.within.journaled (base.map Ledger.within) depth) := by
  refine Callbacks.nested_twins audit.toLink (recorded_twins audit calls) ?_
    (fun p call outside => asks p call outside.inner.inner) depth
  exact ⟨fun p invited call w w' here =>
      own.enter p invited call _ _ (audit.receive invited call here), own.observe⟩

theorem audited_twins
    (loads : ∀ i realm key, Twin A id ((callbacks.audited base depth).load i realm key)
      ((callbacks.audited base depth).load i realm key)) :
    (callbacks.audited base depth).Twins guests A (callbacks.audited base depth) :=
  have journaled := journaled_twins audit calls own asks depth
  { journaled with
    load := loads
    closeDataset := fun d w w' here => by
      have entered : A (w.booking [.closed d.id w.time]) (w'.booking [.closed d.id w'.time]) := by
        rw [audit.time here]
        exact audit.book rfl here
      exact journaled.closeDataset d _ _ entered
    closeParticipant := fun p w w' here => by
      have entered : A (w.booking [.closedExtra p.id w.time])
          (w'.booking [.closedExtra p.id w'.time]) := by
        rw [audit.time here]
        exact audit.book rfl here
      exact journaled.closeParticipant p _ _ entered }

end Twins

/-! ## A run beside itself -/

def Beside (I : World (Journal (Ledger ε)) → Prop) (w w' : World (Journal (Ledger ε))) : Prop :=
  w' = w ∧ I w

theorem Beside.diagonal (I : World (Journal (Ledger ε)) → Prop) (w : World (Journal (Ledger ε))) :
    Beside I w w ↔ I w :=
  ⟨And.right, fun here => ⟨rfl, here⟩⟩

end DatasetCache
