import DatasetCache.Proofs.Cache.Construction

/-!
# Static datasets under any keys

The keys are loaded in turn, and of the datasets that are loaded under one key the table keeps
the last.  A dataset that is replaced there is not closed: no later close reaches it, and it goes
on taking part in transactions.  So nothing that was loaded is lost exactly if no key comes twice.
-/

namespace DatasetCache

open Act Logbook

variable {ε : Type}

/-! ## Loads of any kind -/

/-- Whatever loads, a load is entered in the logbook with the answer to it. -/
def Logbook.entered (load : Key → StateM ε (Except Fault Dataset)) (key : Key) :
    Act (Logbook ε) (Except Fault Dataset) :=
  Act.outside (noted (fun answer => [.loaded 0 "" key (answer.map some)]) (load key))

theorem Logbook.entered_visits (load : Key → StateM ε (Except Fault Dataset)) :
    ({ instantiator := 0, realm := "" } : Loader).Visits Logbook.errands
      (fun _ answer fault => answer = .error fault) (entered load) := by
  intro key w
  refine ⟨(load key w.outside.inner).1.map some, ⟨rfl, ?_⟩, ?_⟩
  · cases gives : (load key w.outside.inner).1 <;>
      simp [entered, Act.outside, noted, Loader.visit, gives, Except.map]
  · cases gives : (load key w.outside.inner).1 <;>
      simp [entered, Act.outside, noted, gives, Except.map]

def ClosedOnce (errands closes : List Errand) : Prop :=
  ∀ d ∈ obtained errands, (closedDatasets closes).count d.id = 1

def answered (loaded : List (Key × Dataset)) : List (Key × Except Fault (Option Dataset)) :=
  loaded.map fun entry => (entry.1, .ok (some entry.2))

/-! ## What the table keeps -/

section Kept

variable {loaded : List (Key × Dataset)} (fresh : (ids (loaded.map Prod.snd)).Nodup)

include fresh

theorem entry_eq_of_id_eq {entry other : Key × Dataset} (member : entry ∈ loaded)
    (member' : other ∈ loaded) (same : entry.2.id = other.2.id) : entry = other := by
  rw [ids, List.map_map] at fresh
  exact List.inj_on_of_nodup_map fresh member member' same

theorem get?_of_kept {entry : Key × Dataset} (member : entry ∈ loaded)
    (kept : entry.2.id ∈ ids (Table.ofList loaded).values) :
    (Table.ofList loaded).get? entry.1 = some entry.2 := by
  simp only [ids, Table.values, List.map_map, List.mem_map, Function.comp_apply] at kept
  obtain ⟨other, placed, same⟩ := kept
  rw [entry_eq_of_id_eq fresh member (Table.mem_of_mem_ofList placed) same.symm]
  exact Table.get?_of_mem placed

theorem kept_iff : (∀ entry ∈ loaded, (Table.ofList loaded).get? entry.1 = some entry.2) ↔
    (loaded.map Prod.fst).Nodup := by
  constructor
  · intro kept
    apply List.Nodup.map_on
    · intro entry member other member' same
      have both := kept entry member
      rw [same, kept other member'] at both
      exact Prod.ext same (Option.some.inj both).symm
    · rw [ids, List.map_map] at fresh
      exact fresh.of_map
  · intro distinct entry member
    exact Table.get?_of_mem ((Table.entries_ofList_perm distinct).mem_iff.2 member)

theorem given_iff : (∀ d ∈ loaded.map Prod.snd, ∃ key, (Table.ofList loaded).get? key = some d) ↔
    (loaded.map Prod.fst).Nodup := by
  rw [← kept_iff fresh]
  constructor
  · intro given entry member
    apply get?_of_kept fresh member
    exact List.mem_map_of_mem (Table.mem_values_iff.2 (given _ (List.mem_map_of_mem member)))
  · intro kept d member
    obtain ⟨entry, listed, rfl⟩ := List.mem_map.1 member
    exact ⟨entry.1, kept entry listed⟩

theorem kept_once_iff :
    (∀ d ∈ loaded.map Prod.snd, (ids (Table.ofList loaded).values).count d.id = 1) ↔
      (loaded.map Prod.fst).Nodup := by
  constructor
  · intro once
    apply (kept_iff fresh).1
    intro entry member
    apply get?_of_kept fresh member
    apply List.count_pos_iff.1
    rw [once entry.2 (List.mem_map_of_mem member)]
    exact Nat.one_pos
  · intro distinct d member
    have kept : (ids (Table.ofList loaded).values).Perm (ids (loaded.map Prod.snd)) :=
      ids_perm ((Table.entries_ofList_perm distinct).map Prod.snd)
    rw [kept.count_eq]
    exact List.nodup_iff_count_eq_one.1 fresh _ (List.mem_map_of_mem member)

end Kept

theorem filterMap_eq_filterMap_filter_iff {α β : Type} {f : α → Option β} {p : α → Bool}
    {items : List α} : items.filterMap f = (items.filter p).filterMap f ↔
      ∀ a ∈ items, (f a).isSome = true → p a = true := by
  induction items with
  | nil => simp
  | cons a rest ih =>
      have fewer : ((rest.filter p).filterMap f).length ≤ (rest.filterMap f).length :=
        (List.filter_sublist.filterMap f).length_le
      rw [List.forall_mem_cons, ← ih]
      cases kept : p a with
      | true => cases value : f a <;> simp [kept, value]
      | false =>
          cases value : f a with
          | none => simp [kept, value]
          | some b =>
              refine iff_of_false (fun same => ?_) (by simp)
              have lengths := congrArg List.length same
              simp [kept, value] at lengths
              omega

/-! ## How the loads come out -/

namespace Statics

def Gives (statics : Statics) (d : Dataset) : Prop := ∃ key, statics.get? key = some d

instance (statics : Statics) (d : Dataset) : Decidable (statics.Gives d) :=
  decidable_of_iff (d ∈ statics.datasets.values) Table.mem_values_iff

/-- The load that fails is the last one, and the table is closed. -/
structure Abandoned (keys : List Key) (fault : Fault) (errands : List Errand)
    (loaded : List (Key × Dataset)) (key : Key) (after : List Key) : Prop where
  split : keys = loaded.map Prod.fst ++ key :: after
  loads : queries errands = answered loaded ++ [(key, .error fault)]
  closed : closedDatasets errands = ids (Table.ofList loaded).values
  lossless_iff : ClosedOnce errands errands ↔ (loaded.map Prod.fst).Nodup

structure Established (keys : List Key) (statics : Statics) (errands : List Errand)
    (loaded : List (Key × Dataset)) : Prop where
  named : loaded.map Prod.fst = keys
  loads : queries errands = answered loaded
  unclosed : closedDatasets errands = []
  table : statics.datasets = Table.ofList loaded
  gives_iff : (∀ d ∈ obtained errands, statics.Gives d) ↔ keys.Nodup
  participants : statics.participants = (obtained errands).filterMap (·.participant)
  exposes_iff :
    statics.participants = ((obtained errands).filter (statics.Gives ·)).filterMap (·.participant) ↔
      ∀ d ∈ obtained errands, d.participant.isSome = true → statics.Gives d

structure Dissolved (keys : List Key) (statics : Statics) (errands : List Errand)
    (closing : List String × Statics) (closes : List Errand) : Prop where
  left : closing.2 = {}
  unloaded : queries closes = []
  closed : closedDatasets closes = ids statics.datasets.values
  messages : closing.1.length = failedCloses closes
  lossless_iff : ClosedOnce errands closes ↔ keys.Nodup

/-- How the loads of some keys come out, and a close after them, whenever it comes. -/
def Upshot (services : Services (Act (Logbook ε))) (keys : List Key) (errands : List Errand) :
    Except Fault Statics → Prop
  | .error fault => ∃ loaded key after, Abandoned keys fault errands loaded key after
  | .ok statics =>
    (∃ loaded, Established keys statics errands loaded) ∧
    ∀ later : World (Logbook ε),
      let closing := statics.closeAll services later
      ∃ closes, closing.2.outside.errands = later.outside.errands ++ closes ∧
        closing.2.contexts = later.contexts ∧
        Dissolved keys statics errands closing.1 closes

theorem closeAll_sent {services : Services (Act ε)} {log : ε → List Errand}
    (logs : services.Logs log) (statics : Statics) (w : World ε) :
    let closing := statics.closeAll services w
    ∃ answers, answers.map Prod.fst = statics.datasets.entries ∧
      closing.1 = (complaints words answers, {}) ∧ Sent log id (closesOf answers) w closing.2 := by
  obtain ⟨answers, all, messages, sent⟩ := closeEach_sent logs statics.datasets.entries w
  exact ⟨answers, all, congrArg (fun failures => (failures, ({} : Statics))) messages, sent⟩

section Outcome

variable {keys : List Key} {loader : Loader} {loaded : List (Key × Dataset)}

theorem Abandoned.of_failed {key : Key} {after : List Key} {fault : Fault}
    {closes : List ((Key × Dataset) × Except Fault Unit)}
    (split : keys = loaded.map Prod.fst ++ key :: after)
    (closed : closes.map Prod.fst = (({} : Statics).insertAll loaded).datasets.entries)
    (fresh : (ids (obtained (visits loader loaded ++ loader.visit key (.error fault) ++
      closesOf closes))).Nodup) :
    Abandoned keys fault
      (visits loader loaded ++ loader.visit key (.error fault) ++ closesOf closes)
      loaded key after := by
  have gained : obtained (visits loader loaded ++ loader.visit key (.error fault) ++
      closesOf closes) = loaded.map Prod.snd := by
    simp [Loader.outcome, Except.toOption]
  have lost : closedDatasets (visits loader loaded ++ loader.visit key (.error fault) ++
      closesOf closes) = ids (Table.ofList loaded).values := by
    rw [datasets_insertAll] at closed
    simp only [closedDatasets_append, closedDatasets_visits, closedDatasets_visit,
      closedDatasets_closesOf, closed, List.nil_append]
    rfl
  rw [gained] at fresh
  refine ⟨split, ?_, lost, ?_⟩
  · simp [answered]
  · rw [ClosedOnce, gained, lost]
    exact kept_once_iff fresh

theorem Established.of_complete (named : loaded.map Prod.fst = keys)
    (fresh : (ids (obtained (visits loader loaded))).Nodup) :
    Established keys (({} : Statics).insertAll loaded) (visits loader loaded) loaded := by
  have table := datasets_insertAll {} loaded
  have participants : (({} : Statics).insertAll loaded).participants =
      (obtained (visits loader loaded)).filterMap (·.participant) := by
    rw [participants_insertAll, obtained_visits, List.filterMap_map]
    rfl
  refine ⟨named, queries_visits loader loaded, closedDatasets_visits loader loaded, table, ?_,
    participants, ?_⟩
  · rw [obtained_visits] at fresh ⊢
    unfold Gives get?
    rw [← named, table]
    exact given_iff fresh
  · rw [participants, filterMap_eq_filterMap_filter_iff]
    simp only [decide_eq_true_eq]

theorem Established.dissolved {statics : Statics} {errands : List Errand}
    (established : Established keys statics errands loaded)
    (gained : obtained errands = loaded.map Prod.snd) (fresh : (ids (obtained errands)).Nodup)
    {answers : List ((Key × Dataset) × Except Fault Unit)}
    (all : answers.map Prod.fst = statics.datasets.entries) :
    Dissolved keys statics errands (complaints words answers, {}) (closesOf answers) := by
  have lost : closedDatasets (closesOf answers) = ids statics.datasets.values := by
    rw [closedDatasets_closesOf, all]
    rfl
  refine ⟨rfl, queries_closesOf answers, lost, length_complaints answers words, ?_⟩
  rw [gained] at fresh
  rw [ClosedOnce, gained, lost, established.table, ← established.named]
  exact kept_once_iff fresh

end Outcome

/-- **When static datasets are lost.** The keys are loaded in turn up to the first fault, which is
the answer.  On a fault the table is closed, once; otherwise nothing is closed before a close of
all, which leaves nothing and gives one message for each close that fails.  If every load gives a
new instance, then everything that was loaded can be looked up, and is closed exactly once,
exactly if no key was loaded twice.  The participants are those of the datasets that can be
looked up exactly if none of the others takes part in transactions. -/
theorem nothing_lost_iff (base : Services (StateM ε))
    (load : Key → StateM ε (Except Fault Dataset)) (keys : List Key) (contexts : List Context)
    (inner : ε)
    (fresh : (ids (obtained (loadAll base.logging.detached (entered load) keys
      { contexts, outside := { inner } }).2.outside.errands)).Nodup) :
    let loading := loadAll base.logging.detached (entered load) keys
      { contexts, outside := { inner } }
    loading.2.contexts = contexts ∧
      Upshot base.logging.detached keys loading.2.outside.errands loading.1 := by
  intro loading
  obtain ⟨errands, outcome, sent⟩ := extend_sent base.logging_logs (entered_visits load) {} keys
    { contexts, outside := { inner } }
  have book : loading.2.outside.errands = errands := sent.log.trans (List.nil_append errands)
  rw [show (loadAll base.logging.detached (entered load) keys
    { contexts, outside := { inner } }).2.outside.errands = errands from book] at fresh
  refine ⟨sent.contexts, ?_⟩
  rw [book]
  change Loading _ _ {} keys loading.1 errands at outcome
  generalize loading.1 = result at outcome ⊢
  cases outcome with
  | @failed before after key loaded answer fault closes split named fails closed =>
      subst named fails
      exact ⟨loaded, key, after, .of_failed split closed fresh⟩
  | @complete loaded named =>
      have established : Established keys _
          (visits { instantiator := 0, realm := "" } loaded) loaded := .of_complete named fresh
      refine ⟨⟨loaded, established⟩, fun later => ?_⟩
      obtain ⟨answers, all, result, sent⟩ := closeAll_sent base.logging_logs _ later
      refine ⟨closesOf answers, sent.log, sent.contexts, ?_⟩
      rw [result]
      exact established.dissolved (obtained_visits _ loaded) fresh all

def minted (key : Key) : StateM Nat (Except Fault Dataset) := fun n =>
  if key.name = "gone" then (.error (.notFound key.name), n)
  else (.ok (table (n + 1) key.name), n + 1)

/-- A dataset that has been replaced still takes part in transactions. -/
example :
    let loading := loadAll Services.minting.logging.detached (entered minted)
      [.named "a", .named "a"] { outside := { inner := 0 } }
    loading.1.map (fun statics => (ids statics.datasets.values, statics.participants.map (·.id))) =
      .ok ([2], [1, 2]) := by
  decide

theorem nothing_lost_iff_minted :
    let loading := loadAll Services.minting.logging.detached (entered minted)
      [.named "a", .named "b", .named "gone"] { outside := { inner := 0 } }
    (ids (obtained loading.2.outside.errands)).Nodup ∧ loading.2.contexts = [] ∧
      Upshot Services.minting.logging.detached [.named "a", .named "b", .named "gone"]
        loading.2.outside.errands loading.1 := by
  intro loading
  have fresh : (ids (obtained loading.2.outside.errands)).Nodup := by decide
  exact ⟨fresh, nothing_lost_iff Services.minting minted _ [] 0 fresh⟩

/-- Of two datasets under one key only the second is closed when the next load fails. -/
theorem replaced_dataset_left_open :
    let loading := loadAll Services.minting.logging.detached (entered minted)
      [.named "a", .named "a", .named "gone"] { outside := { inner := 0 } }
    loading.1 = .error (.notFound "gone") ∧
      ids (obtained loading.2.outside.errands) = [1, 2] ∧
      closedDatasets loading.2.outside.errands = [2] := by
  decide

end Statics

end DatasetCache
