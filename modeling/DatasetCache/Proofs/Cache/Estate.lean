import DatasetCache.Proofs.Cache.Audit
import DatasetCache.Proofs.Cache.Frame

/-!
# An instantiator without a memory

What is loaded depends on the realm and the key only, and each load makes a new instance,
under the next of the names that the services keep for that purpose.  The log and the
metrics go to a record that nothing reads.  Two worlds are alike if they differ in that
record and in what has been loaded; services over such an instantiator do not see the
difference.
-/

namespace DatasetCache

open Act Context

variable {τ σ α : Type}

/-- What services keep: names for the instances that are loaded next, a record that nobody
reads, and the rest. -/
structure Estate (τ σ : Type) where
  names : List InstanceId
  record : τ
  inner : σ

/-- What there is to load for an instantiator, a realm and a key. -/
abbrev Catalogue := InstantiatorId → String → Key → Except Fault (Option Dataset)

structure Recorder (τ : Type) where
  meter : MetricsId → (tag value : String) → Dataset → τ → τ
  report : Diagnostic → τ → τ

/-- An instance of a dataset, which takes part in transactions as itself. -/
def Dataset.named (d : Dataset) (i : InstanceId) : Dataset :=
  { d with id := i, participant := d.participant.map fun p => { p with id := i } }

namespace Estate

def within (x : StateM σ α) : StateM (Estate τ σ) α := fun estate =>
  ((x estate.inner).1, { estate with inner := (x estate.inner).2 })

def load (answer : Except Fault (Option Dataset)) :
    StateM (Estate τ σ) (Except Fault (Option Dataset)) := fun estate =>
  match answer, estate.names with
  | .ok (some d), i :: names => (.ok (some (d.named i)), { estate with names })
  | .ok (some _), [] => (.ok none, estate)
  | answer, _ => (answer, estate)

theorem load_inner (answer : Except Fault (Option Dataset)) (estate : Estate τ σ) :
    (load answer estate).2.inner = estate.inner := by
  unfold load
  split <;> rfl

def recording (f : τ → τ) : StateM (Estate τ σ) Unit := fun estate =>
  ((), { estate with record := f estate.record })

end Estate

def Services.stocked (base : Services (StateM σ)) (catalogue : Catalogue) (recorder : Recorder τ) :
    Services (StateM (Estate τ σ)) :=
  { base.map Estate.within with
    load := fun i realm key => Estate.load (catalogue i realm key)
    meter := fun i tag value d => Estate.recording (recorder.meter i tag value d)
    report := fun d => Estate.recording (recorder.report d) }

def Callbacks.stocked (callbacks : Callbacks σ) : Callbacks (Estate τ σ) where
  enter p call := Estate.within (callbacks.enter p call)
  observe p call operation outcome := Estate.within (callbacks.observe p call operation outcome)

/-- Services over such an instantiator, which call back, with a journal and a ledger. -/
def Callbacks.provided (callbacks : Callbacks σ) (base : Services (StateM σ))
    (catalogue : Catalogue) (recorder : Recorder τ) (depth : Nat) :
    Services (Act (Journal (Ledger (Estate τ σ)))) :=
  callbacks.stocked.audited (base.stocked catalogue recorder) depth

section Provided

variable (callbacks : Callbacks σ) (base : Services (StateM σ)) (catalogue : Catalogue)
  (recorder : Recorder τ) (depth : Nat)

theorem provided_load (i : InstantiatorId) (realm : String) (key : Key)
    (w : World (Journal (Ledger (Estate τ σ)))) :
    (callbacks.provided base catalogue recorder depth).load i realm key w =
      let answered := Act.outside (Journal.within (Ledger.within
        (Estate.load (catalogue i realm key)))) w
      (answered.1, answered.2.booking (Event.ofLoad answered.1)) := by
  cases depth <;> rfl

end Provided

def closes (events : List Event) : List Event := events.filter (·.dataset?.isNone)

@[simp] theorem closes_append (events more : List Event) :
    closes (events ++ more) = closes events ++ closes more :=
  List.filter_append ..

theorem closes_ofLoad (answer : Except Fault (Option Dataset)) :
    closes (Event.ofLoad answer) = [] := by
  unfold Event.ofLoad
  split <;> rfl

theorem closings_closes (i : InstanceId) (events : List Event) :
    closings i (closes events) = closings i events := by
  induction events with
  | nil => rfl
  | cons event rest ih => cases event <;> simp_all [closes, Event.dataset?]

namespace World

abbrev Stocked (τ σ : Type) := World (Journal (Ledger (Estate τ σ)))

variable (w : Stocked τ σ)

def names : List InstanceId := w.outside.inner.inner.names

def innermost : σ := w.outside.inner.inner.inner

def supplied (names : List InstanceId) : Stocked τ σ :=
  let ledger := w.outside.inner
  { w with outside := { w.outside with
    inner := { ledger with inner := { ledger.inner with names } } } }

end World

def Act.supply (names : List InstanceId) : Act (Journal (Ledger (Estate τ σ))) Unit := fun w =>
  ((), w.supplied names)

open World

/-- A dataset is none of the strays, and it takes part in transactions as itself. -/
structure Dataset.Regular (strays : List InstanceId) (d : Dataset) : Prop where
  kept : d.id ∉ strays
  own : ∀ p, d.participant = some p → p.id = d.id

theorem Dataset.named_regular {strays : List InstanceId} {d : Dataset} {i : InstanceId}
    (kept : i ∉ strays) : (d.named i).Regular strays := by
  refine ⟨kept, fun p capable => ?_⟩
  obtain ⟨q, -, rfl⟩ := Option.map_eq_some_iff.1 capable
  rfl

theorem Estate.load_regular {strays : List InstanceId} {estate : Estate τ σ}
    (answer : Except Fault (Option Dataset)) (fresh : ∀ i ∈ estate.names, i ∉ strays) :
    ∀ d ∈ loads (Event.ofLoad (Estate.load answer estate).1), d.Regular strays := by
  obtain ⟨names, record, inner⟩ := estate
  match answer, names with
  | .error fault, _ => simp [Estate.load, Event.ofLoad]
  | .ok none, _ => simp [Estate.load, Event.ofLoad]
  | .ok (some d), [] => simp [Estate.load, Event.ofLoad]
  | .ok (some d), i :: names =>
      have kept : i ∉ strays := fresh i List.mem_cons_self
      simpa [Estate.load, Event.ofLoad] using Dataset.named_regular kept

/-- The worlds differ only in what stands in their records and in what has been loaded and is to
be loaded. -/
structure Same (w w' : Stocked τ σ) : Prop where
  contexts : w'.contexts = w.contexts
  journal : w'.journal = w.journal
  closes : closes w'.ledger = closes w.ledger
  innermost : w'.innermost = w.innermost

theorem Same.symm {w w' : Stocked τ σ} (same : Same w w') : Same w' w :=
  ⟨same.contexts.symm, same.journal.symm, same.closes.symm, same.innermost.symm⟩

theorem same_order : Order (Same (τ := τ) (σ := σ)) where
  refl _ := ⟨rfl, rfl, rfl, rfl⟩
  trans first rest := ⟨rest.contexts.trans first.contexts, rest.journal.trans first.journal,
    rest.closes.trans first.closes, rest.innermost.trans first.innermost⟩

theorem provided_lends (callbacks : Callbacks σ) (base : Services (StateM σ))
    (catalogue : Catalogue) (recorder : Recorder τ) (depth : Nat) :
    (callbacks.provided base catalogue recorder depth).Lends Same where
  load i realm key w := by
    rw [provided_load]
    refine ⟨rfl, rfl, ?_, Estate.load_inner _ _⟩
    show closes (w.ledger ++ Event.ofLoad _) = closes w.ledger
    rw [closes_append, closes_ofLoad, List.append_nil]
  meter i tag value d w := by cases depth <;> exact ⟨rfl, rfl, rfl, rfl⟩
  report d w := by cases depth <;> exact ⟨rfl, rfl, rfl, rfl⟩

/-- Two worlds with the same names for what is to be loaded.  In the second one nothing stray has
been loaded, and nothing will be. -/
inductive Alike (strays : List InstanceId) : Stocked τ σ → Stocked τ σ → Prop where
  | intro {contexts : List Context} {entries : List Entry} {events events' : List Event}
      {names : List InstanceId} {record record' : τ} {inner : σ}
      (same : closes events' = closes events) (regular : ∀ d ∈ loads events', d.Regular strays)
      (fresh : ∀ i ∈ names, i ∉ strays) :
      Alike strays ⟨contexts, entries, events, names, record, inner⟩
        ⟨contexts, entries, events', names, record', inner⟩

namespace Alike

variable {strays : List InstanceId} {w w' : Stocked τ σ}

theorem same (alike : Alike strays w w') : Same w w' := by
  obtain ⟨same, -, -⟩ := alike
  exact ⟨rfl, rfl, same, rfl⟩

theorem regular (alike : Alike strays w w') : ∀ d ∈ loads w'.ledger, d.Regular strays := by
  obtain ⟨-, regular, -⟩ := alike
  exact regular

theorem fresh (alike : Alike strays w w') : ∀ i ∈ w.names, i ∉ strays := by
  obtain ⟨-, -, fresh⟩ := alike
  exact fresh

theorem supplied (same : Same w w') (regular : ∀ d ∈ loads w'.ledger, d.Regular strays)
    {names : List InstanceId} (fresh : ∀ i ∈ names, i ∉ strays) :
    Alike strays (w.supplied names) (w'.supplied names) := by
  obtain ⟨contexts, entries, events, past, record, inner⟩ := w
  obtain ⟨contexts', entries', events', past', record', inner'⟩ := w'
  obtain ⟨rfl, rfl, alike, rfl⟩ : contexts' = contexts ∧ entries' = entries ∧
      closes events' = closes events ∧ inner' = inner :=
    ⟨same.contexts, same.journal, same.closes, same.innermost⟩
  exact .intro alike regular fresh

theorem booking (alike : Alike strays w w') {events : List Event}
    (regular : ∀ d ∈ loads events, d.Regular strays) :
    Alike strays (w.booking events) (w'.booking events) := by
  obtain ⟨same, before, fresh⟩ := alike
  refine .intro (by simp [same]) (fun d member => ?_) fresh
  rw [loads_append, List.mem_append] at member
  exact member.elim (before d) (regular d)

theorem audit : Audit (ε := Estate τ σ) (fun _ => True) (Alike strays) where
  contexts := by
    rintro _ _ ⟨same, regular, fresh⟩
    rfl
  seats _ _ _ _ := trivial
  change := by
    rintro _ _ c f - ⟨same, regular, fresh⟩
    exact .intro same regular fresh
  accept := by
    rintro _ _ c p - ⟨same, regular, fresh⟩
    exact .intro same regular fresh
  create := by
    rintro _ _ k ⟨same, regular, fresh⟩
    exact .intro same regular fresh
  time := by
    rintro _ _ ⟨same, regular, fresh⟩
    rfl
  receive := by
    rintro _ _ p - call ⟨same, regular, fresh⟩
    exact .intro same regular fresh
  note := by
    rintro _ _ entries - ⟨same, regular, fresh⟩
    exact .intro same regular fresh
  book plain alike := alike.booking (by simp [loads, plain])

variable (base : Services (StateM σ)) (catalogue : Catalogue) (recorder : Recorder τ)

theorem within_twin (x : StateM σ α) :
    Twin (Alike (τ := τ) strays) id
      (Act.outside (Journal.within (Ledger.within (Estate.within x))))
      (Act.outside (Journal.within (Ledger.within (Estate.within x)))) := by
  rintro _ _ ⟨same, regular, fresh⟩
  exact ⟨rfl, .intro same regular fresh⟩

theorem recording_twin (f : τ → τ) :
    Twin (Alike (σ := σ) strays) id
      (Act.outside (Journal.within (Ledger.within (Estate.recording f))))
      (Act.outside (Journal.within (Ledger.within (Estate.recording f)))) := by
  rintro _ _ ⟨same, regular, fresh⟩
  exact ⟨rfl, .intro same regular fresh⟩

theorem load_twin (answer : Except Fault (Option Dataset)) :
    Twin (Alike (τ := τ) (σ := σ) strays) id
      (Act.outside (Journal.within (Ledger.within (Estate.load answer))))
      (Act.outside (Journal.within (Ledger.within (Estate.load answer)))) := by
  rintro _ _ @⟨_, _, _, _, names, _, _, _, same, regular, fresh⟩
  match answer with
  | .error fault => exact ⟨rfl, .intro same regular fresh⟩
  | .ok none => exact ⟨rfl, .intro same regular fresh⟩
  | .ok (some d) =>
      cases names with
      | nil => exact ⟨rfl, .intro same regular fresh⟩
      | cons i names =>
          exact ⟨rfl, .intro same regular fun j member => fresh j (List.mem_cons_of_mem i member)⟩

theorem covered_twins : (base.stocked catalogue recorder).covered.Twins (fun _ => True)
    (Alike strays) (base.stocked catalogue recorder).covered where
  start _ _ _ := within_twin _
  changes _ _ := within_twin _
  persist _ _ := within_twin _
  confirm _ _ := within_twin _
  rollback _ _ := within_twin _
  begin _ := within_twin _
  canCommit _ _ _ := within_twin _
  commit _ _ := within_twin _
  abort _ _ := within_twin _
  invalidate _ _ := within_twin _
  load _ _ _ := load_twin _
  closeInstantiator _ := within_twin _
  closeDataset _ := within_twin _
  closeParticipant _ := within_twin _
  meter _ _ _ _ := recording_twin _
  report _ := recording_twin _

variable (callbacks : Callbacks σ) (depth : Nat)

theorem loading_twin (i : InstantiatorId) (realm : String) (key : Key) :
    Twin (Alike strays) id ((callbacks.provided base catalogue recorder depth).load i realm key)
      ((callbacks.provided base catalogue recorder depth).load i realm key) := by
  intro w w' here
  obtain ⟨same, there⟩ := load_twin (catalogue i realm key) w w' here
  rw [provided_load, provided_load]
  dsimp only
  rw [same]
  exact ⟨rfl, there.booking (Estate.load_regular (catalogue i realm key) here.fresh)⟩

theorem provided_twins : (callbacks.provided base catalogue recorder depth).Twins (fun _ => True)
    (Alike strays) (callbacks.provided base catalogue recorder depth) :=
  audited_twins audit (covered_twins base catalogue recorder)
    ⟨fun _ _ _ => within_twin _, fun _ _ _ _ _ => within_twin _⟩
    (fun _ _ _ operation _ => by cases operation <;> trivial) depth
    (loading_twin base catalogue recorder callbacks depth)

end Alike

end DatasetCache
