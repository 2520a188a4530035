import DatasetCache.Fault
import DatasetCache.Transaction

/-!
# Services

What a cache and its contexts call and do not own: participants, coordinators,
datasets and their loaders, and the log.  A record of services fixes a monad in
which the calls run, so the same operations can be run over services that keep
to a state of their own and over services that call the contexts back.
-/

namespace DatasetCache

abbrev CoordinatorId := Nat
abbrev InstantiatorId := Nat
abbrev MetricsId := Nat

/-! ## The log -/

namespace Diagnostic

inductive Level where
  | debug | info | warn | error
  deriving DecidableEq, Repr

inductive Topic where
  | cache | transactions
  deriving DecidableEq, Repr

end Diagnostic

open Diagnostic in
structure Diagnostic where
  level : Level
  topic : Topic
  text : String
  deriving DecidableEq, Repr

/-! ## The calls -/

structure Participation (m : Type → Type) where
  start : Participant → Transaction → m Unit
  changes : Participant → m (List Change)
  /-- Persists the buffered writes; `false` refuses. -/
  persist : Participant → m (Except Fault Bool)
  confirm : Participant → m Unit
  /-- Undoes what was persisted; `false` says that something is left. -/
  rollback : Participant → m (Except Fault Bool)

structure Coordination (m : Type → Type) where
  begin : CoordinatorId → m (Except Fault Transaction)
  canCommit : CoordinatorId → Transaction → List Change → m (Except Fault Bool)
  commit : CoordinatorId → Transaction → m (Except Fault Bool)
  abort : CoordinatorId → Transaction → m Unit
  invalidate : CoordinatorId → Transaction → m Unit

structure Provision (m : Type → Type) where
  /-- Loads a dataset of a namespace; `none` if there is none of that name. -/
  load : InstantiatorId → String → Key → m (Except Fault (Option Dataset))
  closeInstantiator : InstantiatorId → m (Except Fault Unit)
  closeDataset : Dataset → m (Except Fault Unit)
  closeParticipant : Participant → m (Except Fault Unit)
  /-- Has a dataset report to the child of a metrics sink with one more tag. -/
  meter : MetricsId → (tag value : String) → Dataset → m Unit

structure Services (m : Type → Type)
    extends Participation m, Coordination m, Provision m where
  report : Diagnostic → m Unit

namespace Services

variable {m : Type → Type}

def debug (services : Services m) (topic : Diagnostic.Topic) (text : String) : m Unit :=
  services.report ⟨.debug, topic, text⟩

def info (services : Services m) (topic : Diagnostic.Topic) (text : String) : m Unit :=
  services.report ⟨.info, topic, text⟩

def warn (services : Services m) (topic : Diagnostic.Topic) (text : String) : m Unit :=
  services.report ⟨.warn, topic, text⟩

def map {n : Type → Type} (services : Services m) (f : {α : Type} → m α → n α) :
    Services n where
  start p tx := f (services.start p tx)
  changes p := f (services.changes p)
  persist p := f (services.persist p)
  confirm p := f (services.confirm p)
  rollback p := f (services.rollback p)
  begin k := f (services.begin k)
  canCommit k tx changes := f (services.canCommit k tx changes)
  commit k tx := f (services.commit k tx)
  abort k tx := f (services.abort k tx)
  invalidate k tx := f (services.invalidate k tx)
  load i ns key := f (services.load i ns key)
  closeInstantiator i := f (services.closeInstantiator i)
  closeDataset d := f (services.closeDataset d)
  closeParticipant p := f (services.closeParticipant p)
  meter i tag value d := f (services.meter i tag value d)
  report d := f (services.report d)

end Services

end DatasetCache
