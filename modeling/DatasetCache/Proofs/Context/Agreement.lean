import DatasetCache.Proofs.Context.Frame
import DatasetCache.Proofs.Context.Journal

/-!
# Agreement on the outcome of transactions

A callback does not say which transaction it is for: an instance takes it for the one that
it was last told to start.  Participants agree with the coordinator if nobody undoes a
transaction that is committed and nobody keeps what was persisted for one that is undone.
-/

namespace DatasetCache

open Act Context

variable {ε : Type}

/-! ## What an instance holds -/

structure Standing where
  joined : Option Transaction := none
  /-- The transactions that the instance has persisted and not rolled back since. -/
  held : List Transaction := []
  deriving DecidableEq

namespace Standing

def receive (standing : Standing) : Callback → Standing
  | .start tx => { standing with joined := some tx }
  | .persist => { standing with held := standing.joined.toList ++ standing.held }
  | .rollback => { standing with held := standing.held.filter fun tx => standing.joined != some tx }
  | .changes => standing
  | .confirm => standing

end Standing

def standing (i : InstanceId) (entries : List Entry) : Standing :=
  (callbacksOf i entries).foldl Standing.receive {}

def issued (entries : List Entry) : List Transaction :=
  entries.filterMap fun
    | .began tx => some tx
    | _ => none

/-- No instance rolls back a transaction that is committed. -/
def Irrevocable (entries : List Entry) : Prop :=
  ∀ n i tx, entries[n]? = some (.received i .rollback) →
    (standing i (entries.take n)).joined = some tx → .committed tx ∉ entries.take n

/-- The coordinator has been told to undo the transaction, or the context has left it. -/
def Settled (context : Context) (entries : List Entry) (tx : Transaction) : Prop :=
  .undone tx ∈ entries ∨ .began tx ∈ entries ∧ context.current ≠ some tx

/-- What is settled without the agreement of the coordinator is held by nobody, and what it
has agreed to is not undone. -/
structure Agreement (context : Context) (entries : List Entry) : Prop where
  unheld : ∀ tx, Settled context entries tx → .committed tx ∉ entries →
    ∀ i, tx ∉ (standing i entries).held
  irrevocable : Irrevocable entries

/-! ## One more entry -/

section Step

variable (i j : InstanceId) (entries : List Entry) (tx : Transaction)

theorem standing_append_received (callback : Callback) :
    standing i (entries ++ [.received j callback]) =
      if j = i then (standing i entries).receive callback else standing i entries := by
  by_cases same : j = i <;> simp [standing, callbacksOf, Entry.callbackOf?, same]

theorem standing_received {P : InstanceId → Standing → Prop} {callback : Callback}
    (here : P j ((standing j entries).receive callback))
    (others : ∀ i, i ≠ j → P i (standing i entries)) (i : InstanceId) :
    P i (standing i (entries ++ [.received j callback])) := by
  rw [standing_append_received]
  by_cases same : j = i
  · subst same
    rw [if_pos rfl]
    exact here
  · rw [if_neg same]
    exact others i (Ne.symm same)

@[simp] theorem standing_append_began :
    standing i (entries ++ [.began tx]) = standing i entries := by
  simp [standing]

@[simp] theorem standing_append_committed :
    standing i (entries ++ [.committed tx]) = standing i entries := by
  simp [standing]

@[simp] theorem standing_append_undone :
    standing i (entries ++ [.undone tx]) = standing i entries := by
  simp [standing]

end Step

theorem issued_append (entries more : List Entry) :
    issued (entries ++ more) = issued entries ++ issued more := by
  simp [issued]

theorem mem_issued {entries : List Entry} {tx : Transaction} :
    tx ∈ issued entries ↔ .began tx ∈ entries := by
  simp only [issued, List.mem_filterMap]
  constructor
  · rintro ⟨entry, member, same⟩
    cases entry with
    | began other =>
        obtain rfl : other = tx := by simpa using same
        exact member
    | _ => simp at same
  · intro member
    exact ⟨_, member, rfl⟩

theorem Irrevocable.append {entries : List Entry} (irrevocable : Irrevocable entries)
    {entry : Entry} (next : ∀ i tx, entry = .received i .rollback →
      (standing i entries).joined = some tx → .committed tx ∉ entries) :
    Irrevocable (entries ++ [entry]) := by
  intro n i tx found joined
  by_cases inside : n < entries.length
  · have same : (entries ++ [entry]).take n = entries.take n :=
      List.take_append_of_le_length (Nat.le_of_lt inside)
    rw [same] at joined ⊢
    rw [List.getElem?_append_left inside] at found
    exact irrevocable n i tx found joined
  · have last : n = entries.length := by
      have := (List.getElem?_eq_some_iff.1 found).1
      simp only [List.length_append, List.length_singleton] at this
      omega
    subst last
    simp only [List.getElem?_append_right (Nat.le_refl _), Nat.sub_self,
      List.getElem?_cons_zero, Option.some.injEq] at found
    rw [List.take_left] at joined ⊢
    exact next i tx found joined

/-! ## The rules that callbacks obey -/

inductive Stage where
  | start | changes | persist | confirm | rollback
  deriving DecidableEq, Repr

inductive Move where
  | enrol | withdraw | contains | defer | start | finish | abort | cleanup | discard | inspect
  deriving DecidableEq, Repr

def Move.settles : Move → Bool
  | .finish | .abort | .cleanup | .discard => true
  | _ => false

def Context.Callback.stage : Callback → Stage
  | .start _ => .start
  | .changes => .changes
  | .persist => .persist
  | .confirm => .confirm
  | .rollback => .rollback

def Context.Operation.move : Operation → Move
  | .enrol _ _ => .enrol
  | .withdraw _ _ => .withdraw
  | .contains _ _ => .contains
  | .defer _ _ => .defer
  | .start _ => .start
  | .finish _ => .finish
  | .abort _ => .abort
  | .abortWith _ _ => .abort
  | .cleanup _ => .cleanup
  | .discard _ => .discard
  | .inspect _ => .inspect

abbrev Rule := Stage → Move → Prop

/-- Only rollbacks settle transactions, and they commit none. -/
def Rule.Safe (rule : Rule) : Prop :=
  ∀ stage move, rule stage move → move.settles = true → stage = .rollback ∧ move ≠ .finish

namespace Callbacks

def Obeys (callbacks : Callbacks ε) (rule : Rule) : Prop :=
  callbacks.Ask fun callback operation => rule callback.stage operation.move

/-- The same callbacks, with all of their operations on one context. -/
def retarget (callbacks : Callbacks ε) (c : ContextId) : Callbacks ε where
  enter p callback := List.map (Operation.retarget c) <$> callbacks.enter p callback
  observe := callbacks.observe

end Callbacks

end DatasetCache
