import DatasetCache.Proofs.Cache.Construction

/-!
# The counters of a store

A store counts what it is asked for and what leaves it.  Whatever comes of the loads and the
closes, each miss is an entry that is still there or has been released, each release is a
close, and each load that gives a dataset is a miss or a bypass.
-/

namespace DatasetCache

open Act

variable {ε : Type}

namespace Store

/-! ## Requests -/

inductive Request where
  | get (key : Key) (bypass : Bool)
  | evict (key : Key)
  | evictInstance (instanceId : InstanceId)
  | evictAll
  deriving DecidableEq, Repr

inductive Reply where
  | got (result : Except Fault Dataset)
  | evicted (found : Bool)
  | cleared (failures : List String)
  deriving Repr

def Request.evicts : Request → Bool
  | .get _ _ => false
  | _ => true

/-- Whether a get, with or without a bypass, has been met with a dataset. -/
def met (bypass : Bool) : Request × Reply → Bool
  | (.get _ asked, .got result) => asked == bypass && result.isOk
  | _ => false

@[simp] theorem met_ok (bypass asked : Bool) (key : Key) (dataset : Dataset) :
    met bypass (.get key asked, .got (.ok dataset)) = (asked == bypass) :=
  Bool.and_true _

@[simp] theorem met_error (bypass asked : Bool) (key : Key) (fault : Fault) :
    met bypass (.get key asked, .got (.error fault)) = false :=
  Bool.and_false _

theorem met_of_evicts {request : Request} (evicts : request.evicts = true) (bypass : Bool)
    (reply : Reply) : met bypass (request, reply) = false := by
  cases request with
  | get key asked => cases evicts
  | _ => rfl

section

variable (services : Services (Act ε))

def Request.run (store : Store) : Request → Act ε (Reply × Store)
  | .get key bypass => do
    let (result, store) ← store.get services key bypass
    return (.got result, store)
  | .evict key => do
    let (found, store) ← store.evict services key
    return (.evicted found, store)
  | .evictInstance instanceId => do
    let (found, store) ← store.evictInstance services instanceId
    return (.evicted found, store)
  | .evictAll => do
    let (failures, store) ← store.evictAll services
    return (.cleared failures, store)

/-- Meets some requests in turn, and gives each of them with the reply to it. -/
def serve (store : Store) : List Request → Act ε (List (Request × Reply) × Store)
  | [] => return ([], store)
  | request :: rest => do
    let (reply, store) ← request.run services store
    let (deals, store) ← serve store rest
    return ((request, reply) :: deals, store)

end

/-! ## What is added to the counters -/

/-- What the counters have gained between two stores, in view of the requests with their
replies and of the calls in between. -/
structure Posted (store : Store) (deals : List (Request × Reply)) (errands : List Errand)
    (next : Store) : Prop where
  stock : next.stats.misses + (store.entries.size + store.stats.releases) =
    store.stats.misses + (next.entries.size + next.stats.releases)
  releases : next.stats.releases = store.stats.releases + (closeAnswers errands).length
  failures : next.stats.releaseFailures = store.stats.releaseFailures + failedCloses errands
  gets : next.stats.hits + next.stats.misses =
    store.stats.hits + store.stats.misses + deals.countP (met false)
  bypasses : next.stats.bypassLoads = store.stats.bypassLoads + deals.countP (met true)
  loads : next.stats.misses + next.stats.bypassLoads =
    store.stats.misses + store.stats.bypassLoads + (obtained errands).length

namespace Posted

variable {store next last : Store} {deals others : List (Request × Reply)}
  {errands more : List Errand}

theorem refl (store : Store) : Posted store [] [] store := by
  constructor <;> rfl

theorem trans (first : Posted store deals errands next) (rest : Posted next others more last) :
    Posted store (deals ++ others) (errands ++ more) last := by
  have stock := first.stock
  have releases := first.releases
  have failures := first.failures
  have gets := first.gets
  have bypasses := first.bypasses
  have loads := first.loads
  constructor
  · have stock' := rest.stock
    omega
  · rw [rest.releases, releases, closeAnswers_append, List.length_append, Nat.add_assoc]
  · rw [rest.failures, failures, failedCloses_append, Nat.add_assoc]
  · rw [rest.gets, gets, List.countP_append, Nat.add_assoc]
  · rw [rest.bypasses, bypasses, List.countP_append, Nat.add_assoc]
  · rw [rest.loads, loads, obtained_append, List.length_append, Nat.add_assoc]

end Posted

/-- A load that gives a dataset is counted once, as a miss or as a bypass. -/
inductive Counted (before after : Stats) : List Dataset → Prop where
  | unloaded (misses : after.misses = before.misses)
      (bypasses : after.bypassLoads = before.bypassLoads) : Counted before after []
  | missed (dataset : Dataset) (misses : after.misses = before.misses + 1)
      (bypasses : after.bypassLoads = before.bypassLoads) : Counted before after [dataset]
  | bypassed (dataset : Dataset) (misses : after.misses = before.misses)
      (bypasses : after.bypassLoads = before.bypassLoads + 1) : Counted before after [dataset]

theorem Posted.idle (store : Store) {request : Request} (evicts : request.evicts = true)
    (reply : Reply) : Posted store [(request, reply)] [] store := by
  constructor <;> simp [met_of_evicts evicts]

/-! ## Releases -/

section Releases

variable {services : Services (Act ε)}

theorem releaseEach_store (store : Store) (entries : List (Key × Dataset)) (w : World ε) :
    let released := store.releaseEach services entries w
    released.1.2 = { store with
      stats.releases := store.stats.releases + entries.length
      stats.releaseFailures := store.stats.releaseFailures + released.1.1.length } := by
  induction entries generalizing store w with
  | nil => rfl
  | cons entry rest ih =>
      simp only [releaseEach, release, bind_apply, pure_apply]
      generalize services.closeDataset entry.2 w = answered
      obtain ⟨answer, next⟩ := answered
      cases answer with
      | ok done =>
          simp only [bind_apply, pure_apply]
          rw [ih]
          simp [Nat.add_assoc, Nat.add_comm 1]
      | error fault =>
          simp only [bind_apply, pure_apply]
          rw [ih]
          simp [Nat.add_assoc, Nat.add_comm 1]

theorem evict_eq {store : Store} {key : Key} {dataset : Dataset}
    (stored : store.peek? key = some dataset) (w : World ε) :
    let released := releaseEach services { store with entries := store.entries.erase key }
      [(key, dataset)] w
    store.evict services key w = ((true, released.1.2), released.2) := by
  unfold evict
  rw [stored]
  rfl

variable {log : ε → List Errand} (logs : services.Logs log)

include logs

theorem releaseEach_posts {store : Store} {rest : Table Key Dataset}
    {entries : List (Key × Dataset)} (taken : store.entries.size = rest.size + entries.length)
    {request : Request} (evicts : request.evicts = true) (reply : Reply) (w : World ε) :
    let released := releaseEach services { store with entries := rest } entries w
    ∃ errands, Sent log id errands w released.2 ∧
      Counted store.stats released.1.2.stats (obtained errands) ∧
      Posted store [(request, reply)] errands released.1.2 := by
  intro released
  obtain ⟨answers, everything, messages, sent⟩ :=
    releaseEach_sent logs { store with entries := rest } entries w
  have left : released.1.2 = _ := releaseEach_store { store with entries := rest } entries w
  have count : answers.length = entries.length := by rw [← everything, List.length_map]
  refine ⟨closesOf answers, sent, ?_, ?_⟩
  · rw [left, obtained_closesOf]
    exact .unloaded rfl rfl
  · rw [left]
    constructor
    · dsimp only
      omega
    · simp [count]
    · dsimp only
      rw [messages, length_complaints]
    · simp [met_of_evicts evicts]
    · simp [met_of_evicts evicts]
    · simp

end Releases

/-! ## Gets -/

/-- The ways in which a get comes out: the answer, the store after it and the calls. -/
inductive Get (store : Store) (key : Key) :
    Bool → Except Fault Dataset → Store → List Errand → Prop where
  | hit {dataset : Dataset} (stored : store.peek? key = some dataset) :
      Get store key false (.ok dataset) { store with stats.hits := store.stats.hits + 1 } []
  | failed {answer : Except Fault (Option Dataset)} {fault : Fault} (bypass : Bool)
      (fails : Loader.outcome key answer = .error fault) :
      Get store key bypass (.error fault) store (store.loader.visit key answer)
  | bypassed (dataset : Dataset) :
      Get store key true (.ok dataset)
        { store with stats.bypassLoads := store.stats.bypassLoads + 1 }
        (store.loader.visit key (.ok (some dataset)))
  | missed (dataset : Dataset) (absent : store.peek? key = none) :
      Get store key false (.ok dataset)
        { store with
          entries := store.entries.insert key dataset
          stats.misses := store.stats.misses + 1 }
        (store.loader.visit key (.ok (some dataset)))

theorem get_sent {services : Services (Act ε)} {log : ε → List Errand}
    (logs : services.Logs log) (store : Store) (key : Key) (bypass : Bool) (w : World ε) :
    let got := store.get services key bypass w
    ∃ errands, Get store key bypass got.1.1 got.1.2 errands ∧ Sent log id errands w got.2 := by
  obtain ⟨gives, sent⟩ := Loader.load_sent logs store.loader key w
  unfold get
  cases bypass with
  | true =>
      simp only [if_true, bind_apply]
      generalize store.loader.load services key w = loaded at gives sent ⊢
      obtain ⟨answer, next⟩ := loaded
      cases answer with
      | error fault => exact ⟨_, .failed true gives.symm, sent⟩
      | ok dataset =>
          rw [Loader.eq_of_outcome gives.symm] at sent
          exact ⟨_, .bypassed dataset, sent.quiet (logs.report _ next)⟩
  | false =>
      simp only [Bool.false_eq_true, if_false]
      cases stored : store.peek? key with
      | some dataset => exact ⟨[], .hit stored, .none w⟩
      | none =>
          simp only [bind_apply]
          generalize store.loader.load services key w = loaded at gives sent ⊢
          obtain ⟨answer, next⟩ := loaded
          cases answer with
          | error fault => exact ⟨_, .failed false gives.symm, sent⟩
          | ok dataset =>
              rw [Loader.eq_of_outcome gives.symm] at sent
              exact ⟨_, .missed dataset stored, sent.quiet (logs.report _ next)⟩

namespace Get

variable {store next : Store} {key : Key} {bypass : Bool} {result : Except Fault Dataset}
  {errands : List Errand} (get : Get store key bypass result next errands)

include get

theorem closeAnswers : closeAnswers errands = [] := by
  cases get with
  | hit stored => rfl
  | _ => exact closeAnswers_visit ..

theorem counted : Counted store.stats next.stats (obtained errands) := by
  cases get with
  | hit stored => exact .unloaded rfl rfl
  | failed bypass fails =>
      rw [obtained_visit, fails]
      exact .unloaded rfl rfl
  | bypassed dataset =>
      rw [obtained_visit]
      exact .bypassed dataset rfl rfl
  | missed dataset absent =>
      rw [obtained_visit]
      exact .missed dataset rfl rfl

theorem posts : Posted store [(.get key bypass, .got result)] errands next := by
  have unclosed := get.closeAnswers
  have unfailed : failedCloses errands = 0 := by simp [failedCloses, unclosed]
  cases get with
  | hit stored =>
      constructor <;> simp
      omega
  | failed bypass fails => constructor <;> simp [unfailed, fails, Except.toOption]
  | bypassed dataset =>
      constructor <;> simp [unfailed, Loader.outcome, Except.toOption]
      omega
  | missed dataset absent =>
      have size : (store.entries.insert key dataset).size = store.entries.size + 1 :=
        (Table.entries_insert_perm absent dataset).length_eq
      constructor <;> simp [unfailed, Loader.outcome, Except.toOption] <;> omega

end Get

/-! ## All requests -/

section Requests

variable {services : Services (Act ε)} {log : ε → List Errand} (logs : services.Logs log)

include logs

theorem evict_posts (store : Store) (key : Key) {request : Request}
    (evicts : request.evicts = true) (w : World ε) :
    let evicted := store.evict services key w
    ∃ errands, Sent log id errands w evicted.2 ∧
      Counted store.stats evicted.1.2.stats (obtained errands) ∧
      Posted store [(request, .evicted evicted.1.1)] errands evicted.1.2 := by
  cases stored : store.peek? key with
  | none =>
      have idle : store.evict services key w = ((false, store), w) := by
        unfold evict
        rw [stored]
        rfl
      rw [idle]
      exact ⟨[], .none w, .unloaded rfl rfl, .idle store evicts _⟩
  | some dataset =>
      have taken : store.entries.size = (store.entries.erase key).size + 1 :=
        (Table.entries_erase_perm stored).length_eq
      rw [evict_eq stored]
      exact releaseEach_posts logs taken evicts _ w

theorem run_posts (store : Store) (request : Request) (w : World ε) :
    let answered := request.run services store w
    ∃ errands, Sent log id errands w answered.2 ∧
      Counted store.stats answered.1.2.stats (obtained errands) ∧
      Posted store [(request, answered.1.1)] errands answered.1.2 := by
  cases request with
  | get key bypass =>
      obtain ⟨errands, get, sent⟩ := get_sent logs store key bypass w
      exact ⟨errands, sent, get.counted, get.posts⟩
  | evict key => exact evict_posts logs store key rfl w
  | evictInstance instanceId =>
      simp only [Request.run, bind_apply, evictInstance]
      cases store.keyOf? instanceId with
      | none => exact ⟨[], .none w, .unloaded rfl rfl, .idle store rfl _⟩
      | some key => exact evict_posts logs store key rfl w
  | evictAll =>
      have taken : store.entries.size =
          (Table.empty : Table Key Dataset).size + store.entries.entries.length :=
        (Nat.zero_add _).symm
      exact releaseEach_posts logs taken rfl _ w

theorem serve_posts (store : Store) (requests : List Request) (w : World ε) :
    let served := store.serve services requests w
    served.1.1.map Prod.fst = requests ∧
      ∃ errands, Sent log id errands w served.2 ∧
        Posted store served.1.1 errands served.1.2 := by
  induction requests generalizing store w with
  | nil => exact ⟨rfl, [], .none w, .refl store⟩
  | cons request rest ih =>
      obtain ⟨errands, sent, -, posted⟩ := run_posts logs store request w
      obtain ⟨named, more, others, posted'⟩ :=
        ih (request.run services store w).1.2 (request.run services store w).2
      exact ⟨congrArg (request :: ·) named, errands ++ more, sent.append others,
        posted.trans posted'⟩

end Requests

/-! ## The books of a new store -/

/-- The counters agree with the entries, with the replies to the requests and with the calls. -/
structure Balanced (store : Store) (deals : List (Request × Reply)) (errands : List Errand) :
    Prop where
  stock : store.stats.misses = store.entries.size + store.stats.releases
  releases : store.stats.releases = (closeAnswers errands).length
  failures : store.stats.releaseFailures = failedCloses errands
  gets : store.stats.hits + store.stats.misses = deals.countP (met false)
  bypasses : store.stats.bypassLoads = deals.countP (met true)
  loads : store.stats.misses + store.stats.bypassLoads = (obtained errands).length

structure Stats.AtMost (stats : Stats) (bound : Nat) : Prop where
  hits : stats.hits ≤ bound
  misses : stats.misses ≤ bound
  bypasses : stats.bypassLoads ≤ bound
  releases : stats.releases ≤ bound
  failures : stats.releaseFailures ≤ bound

section New

variable {store : Store} {deals : List (Request × Reply)} {errands : List Errand}

theorem Posted.balanced {loader : Loader} (posted : Posted { loader } deals errands store) :
    Balanced store deals errands := by
  obtain ⟨stock, releases, failures, gets, bypasses, loads⟩ := posted
  constructor
  · simpa [Table.size, Table.empty] using stock
  · simpa using releases
  · simpa using failures
  · simpa using gets
  · simpa using bypasses
  · simpa using loads

theorem Balanced.atMost (balanced : Balanced store deals errands) :
    store.stats.AtMost deals.length := by
  have served : deals.countP (met false) ≤ deals.length := List.countP_le_length
  have bypassed : deals.countP (met true) ≤ deals.length := List.countP_le_length
  have failed : failedCloses errands ≤ (closeAnswers errands).length := List.countP_le_length
  obtain ⟨stock, releases, failures, gets, bypasses, loads⟩ := balanced
  constructor <;> omega

end New

/-- **The books balance.**  Whatever is asked of a store, and whatever the loads and the closes
answer, each miss is an entry or a release, each release a close, and each get without a bypass
that is met a hit or a miss.  A request leads to one load at the most, and if that gives a
dataset it is counted as a miss or as a bypass, and not as both.  No counter exceeds the number
of requests. -/
theorem counters_conserved (base : Services (StateM ε)) (loader : Loader)
    (requests : List Request) (w : World (Logbook ε)) :
    let services := base.logging.detached
    let served := serve services { loader } requests w
    let store := served.1.2
    served.1.1.map Prod.fst = requests ∧ store.stats.AtMost requests.length ∧
      (∃ errands, served.2.outside.errands = w.outside.errands ++ errands ∧
        Balanced store served.1.1 errands) ∧
      ∀ request, let answered := Request.run services store request served.2
        ∃ more, answered.2.outside.errands = served.2.outside.errands ++ more ∧
          Counted store.stats answered.1.2.stats (obtained more) := by
  intro services served store
  have logs := base.logging_logs
  obtain ⟨named, errands, sent, posted⟩ := serve_posts logs { loader } requests w
  have balanced : Balanced store served.1.1 errands := posted.balanced
  have count : served.1.1.length = requests.length := by rw [← named, List.length_map]
  refine ⟨named, count ▸ balanced.atMost, ⟨errands, sent.log, balanced⟩, fun request => ?_⟩
  obtain ⟨more, sent', counted, -⟩ := run_posts logs store request served.2
  exact ⟨more, sent'.log, counted⟩

/-- An instance that is kept under two keys is two entries, and is closed for each of them. -/
example :
    let services := (Services.willing fun _ => some (table 7 "sales")).logging.detached
    let served := serve services { loader := { instantiator := 0, realm := "default" } }
      [.get { name := "a" } false, .get { name := "b" } false, .get { name := "a" } false,
        .evictInstance 7, .get { name := "c" } true, .evictInstance 7, .evictInstance 7]
      { outside := { inner := 0 } }
    served.1.2.stats = { hits := 1, misses := 2, bypassLoads := 1, releases := 2 } ∧
      closedDatasets served.2.outside.errands = [7, 7] := by
  decide +kernel

end Store

end DatasetCache
