import DatasetCache.Proofs.Cache.Ledger
import DatasetCache.Proofs.Cache.Moves
import Mathlib.Data.List.Nodup

/-!
# No dataset is lost and none is closed twice

What a cache loads for itself it holds, in its store or as a static dataset, until it
closes it.  Instances are counted: every move of the cache balances those it holds, those
it has closed and those it has loaded.  A cache that is closed holds nothing.
-/

namespace DatasetCache

open Act Context Relation

variable {ε : Type}

def ids (datasets : List Dataset) : List InstanceId := datasets.map (·.id)

@[simp] theorem ids_nil : ids [] = [] := rfl

@[simp] theorem ids_append (datasets more : List Dataset) :
    ids (datasets ++ more) = ids datasets ++ ids more := by
  simp [ids]

theorem ids_perm {datasets more : List Dataset} (same : datasets.Perm more) :
    (ids datasets).Perm (ids more) := same.map _

@[simp] theorem releases_closingsOf (datasets : List Dataset) (time : Nat) :
    releases (closingsOf datasets time) = ids datasets := by
  rw [releases, closingsOf, List.filterMap_map]
  exact congrFun List.filterMap_eq_map datasets

@[simp] theorem loads_closingsOf (datasets : List Dataset) (time : Nat) :
    loads (closingsOf datasets time) = [] := by
  simp [loads, closingsOf, Event.dataset?]

namespace Cache

def datasets (cache : Cache) : List Dataset :=
  cache.store.entries.values ++ cache.statics.datasets.values

theorem mem_datasets_of_stored {cache : Cache} {key : Key} {d : Dataset}
    (stored : cache.store.peek? key = some d) : d ∈ cache.datasets :=
  List.mem_append_left _ (Table.mem_values_iff.2 ⟨key, stored⟩)

/-- Whether the caller keeps what an action loads. -/
def Action.bypasses : Action → Bool
  | .get _ _ bypass => bypass
  | _ => false

def Action.requests : Action → Bool
  | .get _ _ _ => true
  | _ => false

abbrev State (ε : Type) := Cache × World (Journal (Ledger ε))

/-! ## The balance of a move -/

/-- Each instance is held or closed as often as it was held before or is loaded now. -/
structure Conserves (action : Action) (events : List Event) (before after : State ε) : Prop where
  ledger : after.2.ledger = before.2.ledger ++ events
  balance : ∀ i, (ids after.1.datasets).count i + (releases events).count i =
    (ids before.1.datasets).count i +
      if action.bypasses then 0 else (ids (loads events)).count i
  known : ∀ d ∈ after.1.datasets, d ∈ before.1.datasets ∨ d ∈ loads events
  requested : action.requests = true ∨ loads events = []
  extras : ∀ p ∈ after.1.extras.members, p ∈ before.1.extras.members ∨ action = .addExtra p
  apart : ∀ i time, .closedExtra i time ∈ events →
    action = .close ∧ ∃ p ∈ before.1.extras.members, p.id = i

namespace Conserves

variable {action : Action} {events more : List Event} {before after last : State ε}

theorem trans (first : Conserves action events before after)
    (rest : Conserves action more after last) : Conserves action (events ++ more) before last where
  ledger := by rw [rest.ledger, first.ledger, List.append_assoc]
  balance i := by
    have first := first.balance i
    have rest := rest.balance i
    simp only [releases_append, loads_append, ids_append, List.count_append]
    split at first <;> simp_all <;> omega
  known d member := by
    rw [loads_append, List.mem_append]
    rcases rest.known d member with member | member
    · exact (first.known d member).imp_right .inl
    · exact .inr (.inr member)
  requested := by
    rcases first.requested with asked | none
    · exact .inl asked
    · exact rest.requested.imp_right fun also => by rw [loads_append, none, also, List.append_nil]
  extras p member := by
    rcases rest.extras p member with member | adds
    · exact first.extras p member
    · exact .inr adds
  apart i time member := by
    rcases List.mem_append.1 member with member | member
    · exact first.apart i time member
    · obtain ⟨closes, p, member, same⟩ := rest.apart i time member
      rcases first.extras p member with member | adds
      · exact ⟨closes, p, member, same⟩
      · rw [closes] at adds
        contradiction

theorem same (datasets : after.1.datasets = before.1.datasets)
    (extras : after.1.extras = before.1.extras)
    (ledger : after.2.ledger = before.2.ledger ++ events)
    (plain : ∀ event ∈ events, event.dataset?.isSome) (bypasses : action.bypasses = true) :
    Conserves action events before after where
  ledger := ledger
  balance i := by
    have unreleased : releases events = [] := by
      refine List.filterMap_eq_nil_iff.2 fun event member => ?_
      have loaded := plain event member
      cases event <;> simp_all [Event.dataset?, Event.releases?]
    simp [datasets, unreleased, bypasses]
  known d member := .inl (datasets ▸ member)
  requested := .inl (by cases action <;> simp_all [Action.bypasses, Action.requests])
  extras p member := .inl (extras ▸ member)
  apart i time member := by simpa [Event.dataset?] using plain _ member

theorem calm (datasets : after.1.datasets = before.1.datasets)
    (extras : ∀ p ∈ after.1.extras.members, p ∈ before.1.extras.members ∨ action = .addExtra p)
    (calm : Calm before.2 after.2) : Conserves action [] before after where
  ledger := by rw [calm, List.append_nil]
  balance i := by simp [datasets]
  known d member := .inl (datasets ▸ member)
  requested := .inr rfl
  extras := extras
  apart i time member := by simp at member

theorem closes (gone : List Dataset) {time : Nat}
    (split : before.1.datasets.Perm (gone ++ after.1.datasets))
    (extras : after.1.extras = before.1.extras)
    (ledger : after.2.ledger = before.2.ledger ++ closingsOf gone time) :
    Conserves action (closingsOf gone time) before after where
  ledger := ledger
  balance i := by
    have counts := (ids_perm split).count_eq i
    simp only [ids_append, List.count_append] at counts
    simp only [releases_closingsOf, loads_closingsOf, ids_nil, List.count_nil, ite_self]
    omega
  known d member := .inl (split.mem_iff.2 (List.mem_append_right gone member))
  requested := .inr (loads_closingsOf gone time)
  extras p member := .inl (extras ▸ member)
  apart i time member := by simp [closingsOf] at member

theorem gains {dataset : Dataset} (asked : action.requests = true)
    (kept : action.bypasses = false)
    (join : after.1.datasets.Perm (dataset :: before.1.datasets))
    (extras : after.1.extras = before.1.extras)
    (ledger : after.2.ledger = before.2.ledger ++ [.loaded dataset]) :
    Conserves action [.loaded dataset] before after where
  ledger := ledger
  balance i := by
    have counts := (join.map (·.id)).count_eq i
    simp only [List.map_cons, List.count_cons] at counts
    simp only [kept, loads_loaded, loads_nil, releases_loaded, releases_nil, ids, List.map_cons,
      List.map_nil, List.count_cons, List.count_nil, Bool.false_eq_true, if_false]
    omega
  known d member := by
    rcases List.mem_cons.1 (join.mem_iff.1 member) with rfl | member
    · exact .inr List.mem_cons_self
    · exact .inl member
  requested := .inl asked
  extras p member := .inl (extras ▸ member)
  apart i time member := by simp at member

end Conserves

section Moves

variable {services : Services (Act (Journal (Ledger ε)))} {running : List ContextId}
  {action : Action} (accounts : services.Accountable)

include accounts

theorem letGo_cases (cache : Cache) (i : InstanceId) (w : World (Journal (Ledger ε))) :
    (cache.store.holds i = false ∧ cache.letGo services i w = (cache.untracking i, w)) ∨
      ∃ key d, cache.store.peek? key = some d ∧ d.id = i ∧
        Books [.closed i w.time] w (cache.letGo services i w).2 ∧
        (cache.letGo services i w).1.store.entries = cache.store.entries.erase key := by
  unfold letGo Store.evictInstance
  cases first : cache.store.keyOf? i with
  | none =>
      have absent : cache.store.holds i = false := by
        simpa [Store.holds] using Table.keyWhere?_eq_none_iff.1 first
      exact .inl ⟨absent, rfl⟩
  | some key =>
      obtain ⟨d, present, same⟩ := Table.exists_of_keyWhere? first
      have same : d.id = i := by simpa using same
      have present : cache.store.peek? key = some d := present
      have closes := Store.release_books accounts (w := w)
        { cache.store with entries := cache.store.entries.erase key } key d
      refine .inr ⟨key, d, present, same, ?_⟩
      simp only [Store.evict, present, bind_apply, pure_apply]
      rw [same] at closes
      refine ⟨closes, ?_⟩
      unfold Store.release
      simp only [bind_apply]
      cases (services.closeDataset d w).1 <;> rfl

theorem letGo_conserves (action : Action) (cache : Cache) (i : InstanceId)
    (w : World (Journal (Ledger ε))) :
    ∃ events, Conserves action events (cache, w) (cache.letGo services i w) := by
  rcases letGo_cases accounts cache i w with ⟨-, same⟩ | ⟨key, d, present, same, books, erased⟩
  · rw [same]
    exact ⟨[], .calm rfl (fun _ => .inl) rfl⟩
  · subst same
    have entries := (Table.entries_erase_perm present).map Prod.snd
    rw [← erased] at entries
    exact ⟨_, .closes [d] (entries.append_right _) rfl books.ledger⟩

theorem endContext_conserves (cache : Cache) (c : ContextId) (w : World (Journal (Ledger ε))) :
    ∃ events, Conserves action events (cache, w) (cache.endContext services c w) := by
  have closes : Conserves action [] (cache, w)
      ({ cache with context := none }, (Context.close services c w).2) :=
    .calm rfl (fun _ => .inl) (close_calm accounts c w)
  refine releaseDeferred_induct services
    (P := fun next w' => ∃ events, Conserves action events (cache, w) (next, w')) ?_ ?_ _ _ _
    ⟨[], closes⟩
  · rintro next w' i ⟨events, sofar⟩
    obtain ⟨more, released⟩ := letGo_conserves accounts action next i w'
    exact ⟨_, sofar.trans released⟩
  · rintro next w' d ⟨events, sofar⟩
    exact ⟨_, sofar.trans (.calm rfl (fun _ => .inl) (accounts.report w' d).calm)⟩

theorem enrolAll_calm (c : ContextId) (ps : List Participant) :
    Keeps Calm (enrolAll services c ps) := by
  induction ps with
  | nil => exact .pure calm_order _
  | cons p rest ih => exact .bind calm_order (enrol_calm accounts c p) fun _ => ih

theorem openWith_calm (cache : Cache) (w : World (Journal (Ledger ε))) :
    Calm w (cache.openWith services w).2 :=
  enrolAll_calm accounts w.contexts.length cache.members (Context.create cache.coordinator w).2

theorem welcome_calm (cache : Cache) (p : Participant) : Keeps Calm (cache.welcome services p) := by
  unfold welcome
  split
  · exact .pure calm_order _
  · refine .bind calm_order (enrol_calm accounts _ p) fun enrolled => ?_
    split
    · exact fun w => (accounts.report w _).calm
    · exact .pure calm_order _

theorem addExtra_conserves (cache : Cache) (p : Participant) (w : World (Journal (Ledger ε))) :
    Conserves (.addExtra p) [] (cache, w) (cache.addExtra services p w) := by
  have inserts : ∀ q ∈ (cache.extras.insert p).members,
      q ∈ cache.extras.members ∨ Action.addExtra p = .addExtra q := by
    intro q member
    rcases Participant.mem_addTo member with member | rfl
    · exact .inl member
    · exact .inr rfl
  unfold addExtra
  split
  · exact .calm rfl (fun _ => .inl) rfl
  · cases cache.context with
    | none => exact .calm rfl inserts rfl
    | some c => exact .calm rfl inserts (enrol_calm accounts c p w)

omit accounts in
theorem removeExtra_conserves (cache : Cache) (p : Participant)
    (w : World (Journal (Ledger ε))) :
    Conserves action [] (cache, w) ((cache.removeExtra p w).1.2, (cache.removeExtra p w).2) := by
  have fewer : ∀ q ∈ (cache.extras.erase p).members,
      q ∈ cache.extras.members ∨ action = .addExtra q :=
    fun q member => .inl ((List.mem_filter.1 member).1)
  unfold removeExtra
  split
  · cases cache.context with
    | none => exact .calm rfl fewer rfl
    | some c =>
        have withdraws := withdraw_calm c p w
        simp only [bind_apply]
        generalize withdraw c p w = answered at withdraws ⊢
        obtain ⟨answer, next⟩ := answered
        cases answer <;> exact .calm rfl fewer withdraws
  · exact .calm rfl (fun _ => .inl) rfl

theorem reset_conserves (cache : Cache) (w : World (Journal (Ledger ε))) :
    ∃ events, Conserves action events (cache, w)
      ((cache.reset services w).1.2, (cache.reset services w).2) := by
  have evicts : ∀ w, Conserves action (closingsOf cache.store.entries.values w.time) (cache, w)
      ({ cache with
        store := (cache.store.evictAll services w).1.2, tracker := {}, context := none },
        (cache.store.evictAll services w).2) := by
    intro w
    refine .closes _ ?_ rfl (Store.evictAll_books accounts cache.store).ledger
    simp only [datasets, Store.evictAll_entries]
    exact .rfl
  unfold reset
  cases cache.context with
  | none => exact ⟨_, evicts w⟩
  | some c =>
      have discards : Conserves action [] (cache, w) (cache, (discard services c w).2) :=
        .calm rfl (fun _ => .inl) (discard_calm accounts c w)
      exact ⟨_, discards.trans (evicts _)⟩

theorem closeExtras_conserves (asked : action = .close) (cache : Cache)
    (w : World (Journal (Ledger ε))) :
    ∃ events, Conserves action events (cache, w) (cache, (cache.extras.closeAll services w).2) := by
  obtain ⟨events, books, closed⟩ := Extras.closeAll_books accounts (w := w) cache.extras
  have none : ∀ {α : Type} (f : Event → Option α), (∀ i time, f (.closedExtra i time) = none) →
      events.filterMap f = [] := by
    intro α f blind
    refine List.filterMap_eq_nil_iff.2 fun event member => ?_
    obtain ⟨p, -, time, rfl⟩ := closed event member
    exact blind p.id time
  have unloaded : loads events = [] := none _ fun _ _ => rfl
  have unreleased : releases events = [] := none _ fun _ _ => rfl
  refine ⟨events, books.ledger, ?_, fun d => .inl, .inr unloaded, fun p => .inl, ?_⟩
  · simp [unloaded, unreleased]
  · intro i time member
    obtain ⟨p, extra, time, same⟩ := closed _ member
    injection same with same
    exact ⟨asked, p, extra, same.symm⟩

theorem Move.conserves {before after : State ε} (move : Move services running action before after) :
    ∃ events, Conserves action events before after := by
  have stay : ∀ {cache : Cache} (p : Participant), p ∈ cache.extras.members →
      p ∈ cache.extras.members ∨ action = .addExtra p := fun _ => .inl
  cases move with
  | log d => exact ⟨_, .calm rfl stay (accounts.report _ d).calm⟩
  | operate asked => exact ⟨_, .calm rfl stay (accounts.run _ _)⟩
  | count stats => exact ⟨_, .calm rfl stay rfl⟩
  | @miss cache w key fault failed =>
      have books := Loader.load_books accounts (w := w) cache.store.loader key
      simp only [failed] at books
      exact ⟨_, .calm rfl stay books.calm⟩
  | @bypass cache w typeName key asked =>
      have books := Loader.load_books accounts (w := w) cache.store.loader key
      refine ⟨_, .same rfl rfl books.ledger ?_ (by rw [asked]; rfl)⟩
      cases (cache.store.loader.load services key w).1 <;> simp [Event.ofAnswer, Event.dataset?]
  | @load cache w typeName key dataset asked living dynamic absent loaded =>
      have books := Loader.load_books accounts (w := w) cache.store.loader key
      simp only [loaded] at books
      have entries := (Table.entries_insert_perm absent dataset).map Prod.snd
      have held := entries.append_right cache.statics.datasets.values
      exact ⟨_, .gains (by rw [asked]; rfl) (by rw [asked]; rfl) held rfl books.ledger⟩
  | track => exact ⟨_, .calm rfl stay (welcome_calm accounts _ _ _)⟩
  | defer => exact ⟨_, .calm rfl stay rfl⟩
  | release => exact letGo_conserves accounts _ _ _ _
  | endContext ends opened => exact endContext_conserves accounts _ _ _
  | openContext => exact ⟨_, .calm rfl stay (openWith_calm accounts _ _)⟩
  | addExtra asked =>
      subst asked
      exact ⟨_, addExtra_conserves accounts _ _ _⟩
  | removeExtra asked => exact ⟨_, removeExtra_conserves _ _ _⟩
  | reset => exact reset_conserves accounts _ _
  | @closeExtras cache w asked => exact closeExtras_conserves accounts asked cache w
  | @retire cache w asked unopened unstored =>
      have books := Statics.closeAll_books accounts (w := w) cache.statics
      refine ⟨_, .closes _ ?_ rfl books.ledger⟩
      simp only [datasets, retired, unstored]
      exact List.perm_append_comm
  | closeLoader asked => exact ⟨_, .calm rfl stay (accounts.closeInstantiator _ _).calm⟩

theorem run_conserves (s : Session) (action : Action) (w : World (Journal (Ledger ε))) :
    let after := s.run services action w
    ∃ events, Conserves action events (s.cache, w) (after.1.2.cache, after.2) := by
  refine run_induct services s action w
    (P := fun next => ∃ events, Conserves action events (s.cache, w) next)
    ⟨[], .calm rfl (fun _ => .inl) rfl⟩ ?_
  rintro before after move ⟨events, sofar⟩
  obtain ⟨more, last⟩ := move.conserves accounts
  exact ⟨_, sofar.trans last⟩

end Moves

/-! ## A closed cache is empty -/

structure Sealed (cache : Cache) : Prop where
  unopened : cache.context = none
  unstored : cache.store.entries = Table.empty
  static : cache.statics = {}

theorem Sealed.datasets {cache : Cache} (empty : Sealed cache) : cache.datasets = [] := by
  rw [Cache.datasets, empty.unstored, empty.static]
  rfl

theorem Sealed.alike {cache next : Cache} (empty : Sealed cache)
    (context : next.context = cache.context) (entries : next.store.entries = cache.store.entries)
    (statics : next.statics = cache.statics) : Sealed next :=
  ⟨context.trans empty.unopened, entries.trans empty.unstored, statics.trans empty.static⟩

theorem living_of_opened {cache : Cache} (empty : cache.closed = true → cache.Sealed)
    {c : ContextId} (opened : cache.context = some c) : cache.closed = false := by
  refine Bool.eq_false_iff.mpr fun closed => ?_
  rw [(empty closed).unopened] at opened
  contradiction

section Closing

variable (services : Services (Act ε)) {running : List ContextId}

theorem letGo_unstored {cache : Cache} (unstored : cache.store.entries = Table.empty)
    (i : InstanceId) (w : World ε) : cache.letGo services i w = (cache.untracking i, w) := by
  have absent : cache.store.keyOf? i = none := by
    rw [Store.keyOf?, unstored]
    rfl
  simp [letGo, Store.evictInstance, absent, untracking]

variable {services} in
theorem Move.sealed {action : Action} {before after : Cache × World ε}
    (move : Move services running action before after)
    (empty : before.1.closed = true → before.1.Sealed) :
    (after.1.closed = true → after.1.Sealed) ∧
      (before.1.closed = true → after.1.closed = true) := by
  have alike : ∀ {next : Cache}, next.closed = before.1.closed →
      next.context = before.1.context → next.store.entries = before.1.store.entries →
      next.statics = before.1.statics →
      (next.closed = true → next.Sealed) ∧ (before.1.closed = true → next.closed = true) := by
    intro next closed context entries statics
    exact ⟨fun now => (empty (closed ▸ now)).alike context entries statics, fun now => closed ▸ now⟩
  cases move with
  | load asked living | openContext ends unopened living =>
      have open' : ∀ {next : Cache}, next.closed = false →
          (next.closed = true → next.Sealed) := fun living now => by simp [living] at now
      exact ⟨open' living, fun now => by simp [living] at now⟩
  | @release cache w dataset asked dynamic idle =>
      by_cases now : cache.closed = true
      · -- A cache that is sealed has nothing to let go of.
        rw [letGo_unstored services (empty now).unstored]
        exact alike rfl rfl rfl rfl
      · have living : (cache.letGo services dataset.id w).1.closed = false :=
          (Bool.eq_false_iff.mpr now : cache.closed = false)
        simp [living, now]
  | @endContext cache w c ends opened =>
      have living : cache.closed = false := living_of_opened empty opened
      have still := endContext_closed services cache c w
      simp [still, living]
  | @addExtra cache w p asked =>
      obtain ⟨extras, same⟩ := addExtra_rest cache p w services
      rw [same]
      exact alike rfl rfl rfl rfl
  | @removeExtra cache w p asked =>
      obtain ⟨extras, same⟩ := removeExtra_rest cache p w
      rw [same]
      exact alike rfl rfl rfl rfl
  | @reset cache w ends =>
      obtain ⟨statics, unopened⟩ := reset_rest services cache w
      have unstored := reset_entries services cache w
      have still : (cache.reset services w).1.2.closed = cache.closed := by
        unfold Cache.reset
        cases cache.context <;> rfl
      refine ⟨fun now => ⟨unopened, unstored, ?_⟩, fun now => still ▸ now⟩
      rw [statics, (empty (still ▸ now)).static]
  | retire asked unopened unstored => exact ⟨fun _ => ⟨unopened, unstored, rfl⟩, fun _ => rfl⟩
  | _ => exact alike rfl rfl rfl rfl

theorem run_sealed {s : Session} (action : Action) (w : World ε)
    (empty : s.cache.closed = true → s.cache.Sealed) :
    let next := (s.run services action w).1.2.cache
    (next.closed = true → next.Sealed) ∧ (s.cache.closed = true → next.closed = true) := by
  refine run_induct services s action w (P := fun next => (next.1.closed = true →
    next.1.Sealed) ∧ (s.cache.closed = true → next.1.closed = true)) ⟨empty, id⟩ ?_
  rintro before after move ⟨empty, still⟩
  obtain ⟨sealed', stays⟩ := move.sealed empty
  exact ⟨sealed', stays ∘ still⟩

theorem close_closed (cache : Cache) (w : World ε) :
    (cache.close services w).1.2.closed = true := by
  unfold close
  split
  next now => exact now
  simp only [bind_apply, reset_closed, Statics.closeAll, pure_apply]
  generalize cache.reset services (cache.extras.closeAll services w).2 = reset
  have ending : ∀ (failures : List String) (next : Cache) (w : World ε), next.closed = true →
      ((if failures.isEmpty then do
          services.info .cache "Dataset cache closed"
          return (.ok (), next)
        else
          return (.error (.cleanup failures), next) :
        Act ε (Except Fault Unit × Cache)) w).1.2.closed = true := by
    intro failures next w closed
    cases failures <;> exact closed
  cases (reset.1.2.store.loader.close services
      (Statics.closeEach services reset.1.2.statics.datasets.entries reset.2).2).1 with
  | ok done => exact ending _ _ _ rfl
  | error fault => exact ending _ _ _ rfl

theorem runAll_sealed {s : Session} (actions : List Action) (w : World ε)
    (empty : s.cache.closed = true → s.cache.Sealed) :
    let next := (s.runAll services actions w).1.cache
    (next.closed = true → next.Sealed) ∧
      (s.cache.closed = true ∨ .close ∈ actions → next.closed = true) := by
  induction actions generalizing s w with
  | nil => exact ⟨empty, by simp [Session.runAll]⟩
  | cons action rest ih =>
      obtain ⟨sealed', stays⟩ := run_sealed services action w empty
      obtain ⟨final, closed⟩ := ih (s.run services action w).2 sealed'
      refine ⟨final, fun now => closed ?_⟩
      rcases now with now | member
      · exact .inl (stays now)
      · rcases List.mem_cons.1 member with rfl | member
        · exact .inl (close_closed services s.cache w)
        · exact .inr member

end Closing

end Cache

/-! ## The beginning -/

section Creation

variable {services : Services (Act (Journal (Ledger ε)))} (accounts : services.Accountable)

include accounts

theorem Statics.extend_books (loader : Loader) {statics : Statics} {keys : List Key}
    (distinct : keys.Nodup) (absent : ∀ key ∈ keys, statics.get? key = none)
    (w : World (Journal (Ledger ε))) :
    let extended := Statics.extend services (loader.load services) statics keys w
    ∃ events, Books events w extended.2 ∧ (∀ i time, .closedExtra i time ∉ events) ∧
      match extended.1 with
      | .ok loaded => releases events = [] ∧
          loaded.datasets.values.Perm (statics.datasets.values ++ loads events) ∧
          ∀ p ∈ loaded.participants,
            p ∈ statics.participants ∨ ∃ d ∈ loads events, d.participant = some p
      | .error _ => (releases events).Perm (ids (statics.datasets.values ++ loads events)) := by
  induction keys generalizing statics w with
  | nil => exact ⟨[], .none w, by simp, rfl, by simp, fun _ => .inl⟩
  | cons key rest ih =>
      obtain ⟨other, distinct⟩ := List.nodup_cons.1 distinct
      have books := Loader.load_books accounts (w := w) loader key
      unfold extend
      simp only [bind_apply]
      generalize loader.load services key w = answered at books ⊢
      obtain ⟨answer, next⟩ := answered
      cases answer with
      | error fault =>
          have closes := Statics.closeAll_books accounts (w := next) statics
          refine ⟨_, books.append closes, by simp [closingsOf, Event.ofAnswer], ?_⟩
          simp [Event.ofAnswer]
      | ok dataset =>
          have logged :=
            books.quiet (accounts.report next ⟨.debug, .cache, "Loaded static dataset"⟩)
          have fresh : statics.get? key = none := absent key List.mem_cons_self
          have absent' : ∀ later ∈ rest, (statics.insert key dataset).get? later = none := by
            intro later member
            have ne : later ≠ key := fun same => other (same ▸ member)
            simpa [Statics.insert, get?, ne] using absent later (List.mem_cons_of_mem key member)
          obtain ⟨events, others, plain, result⟩ := ih distinct absent'
            (services.report ⟨.debug, .cache, "Loaded static dataset"⟩ next).2
          have entries := (Table.entries_insert_perm fresh dataset).map Prod.snd
          have moved : ((statics.insert key dataset).datasets.values ++ loads events).Perm
              (statics.datasets.values ++ loads (Event.ofAnswer (.ok dataset) ++ events)) :=
            (entries.append_right _).trans List.perm_middle.symm
          refine ⟨_, logged.append others, by simp [Event.ofAnswer, plain], ?_⟩
          simp only [bind_apply, Services.debug] at result ⊢
          generalize Statics.extend services (loader.load services) (statics.insert key dataset)
            rest (services.report ⟨.debug, .cache, "Loaded static dataset"⟩ next).2 = extended
              at result ⊢
          obtain ⟨answer, last⟩ := extended
          cases answer with
          | ok loaded =>
              refine ⟨result.1, result.2.1.trans moved, fun p member => ?_⟩
              rcases result.2.2 p member with present | ⟨d, later, capable⟩
              · simp only [Statics.insert, List.mem_append, Option.mem_toList] at present
                exact present.imp_right fun capable => ⟨dataset, List.mem_cons_self, capable⟩
              · exact .inr ⟨d, List.mem_cons_of_mem dataset later, capable⟩
          | error fault =>
              exact List.Perm.trans result (ids_perm moved)

omit accounts in
theorem Config.staticKeys_nodup (config : Config) : config.staticKeys.Nodup := by
  have names : config.staticKeys.map (·.name) = config.statics.keys := by
    simp [staticKeys, Table.keys, Function.comp_def]
  have distinct : (config.staticKeys.map (·.name)).Nodup := names ▸ config.statics.nodup_keys
  exact (List.pairwise_map.1 distinct).imp fun other same => other (congrArg Key.name same)

namespace Cache

theorem create_books (instantiator : InstantiatorId) (coordinator : CoordinatorId)
    (config : Config) (metrics : Option MetricsId) (w : World (Journal (Ledger ε))) :
    let created := create services instantiator coordinator config metrics w
    ∃ events, Books events w created.2 ∧ (∀ i time, .closedExtra i time ∉ events) ∧
      match created.1 with
      | .ok cache => releases events = [] ∧ cache.datasets.Perm (loads events) ∧
          cache.store.entries = Table.empty ∧ cache.tracker = {} ∧ cache.extras = {} ∧
          cache.context = none ∧ cache.closed = false ∧
          ∀ p ∈ cache.statics.participants,
            ∃ d ∈ cache.statics.datasets.values, d.participant = some p
      | .error _ => (releases events).Perm (ids (loads events)) := by
  unfold create
  cases config.validate with
  | error fault => exact ⟨[], .none w, by simp, .refl _⟩
  | ok valid =>
      have absent : ∀ key ∈ config.staticKeys, ({} : Statics).get? key = none := fun _ _ => rfl
      have loads := Statics.extend_books accounts ⟨instantiator, config.realm, metrics⟩
        config.staticKeys_nodup absent w
      obtain ⟨events, books, plain, result⟩ := loads
      simp only [Statics.loadAll, bind_apply]
      generalize Statics.extend services
        ((⟨instantiator, config.realm, metrics⟩ : Loader).load services) {} config.staticKeys w =
          extended at books result ⊢
      obtain ⟨answer, next⟩ := extended
      cases answer with
      | ok statics =>
          have logged := books.quiet (accounts.report next ⟨.info, .cache, "Dataset cache created"⟩)
          refine ⟨events, logged, plain, result.1, result.2.1, rfl, rfl, rfl, rfl, rfl, ?_⟩
          intro p member
          rcases result.2.2 p member with none | ⟨d, loaded, capable⟩
          · cases none
          · exact ⟨d, result.2.1.mem_iff.2 loaded, capable⟩
      | error fault =>
          have closed := books.quiet (accounts.closeInstantiator next instantiator)
          simp only [Loader.close, bind_apply]
          generalize services.closeInstantiator instantiator next = answered at closed ⊢
          obtain ⟨answer, last⟩ := answered
          cases answer with
          | ok done => exact ⟨events, closed, plain, result⟩
          | error fault => exact ⟨events, closed.quiet (accounts.report last _), plain, result⟩

end Cache

end Creation

/-! ## Whole runs -/

theorem closings_length {i : InstanceId} {events : List Event}
    (plain : ∀ time, .closedExtra i time ∉ events) :
    (closings i events).length = (releases events).count i := by
  induction events with
  | nil => rfl
  | cons event rest ih =>
      have others := ih fun time member => plain time (List.mem_cons_of_mem event member)
      cases event with
      | loaded dataset => exact others
      | closed j time => by_cases same : j = i <;> simp [same, others]
      | closedExtra j time =>
          have other : j ≠ i := by
            rintro rfl
            exact plain time List.mem_cons_self
          simpa [other] using others

namespace Cache

def gained (w w' : World (Journal (Ledger ε))) : List Dataset :=
  (loads w'.ledger).drop (loads w.ledger).length

/-- What the actions of a run load, either to bypass the cache or for it. -/
def loadedBy (services : Services (Act (Journal (Ledger ε)))) (bypass : Bool) (s : Session)
    (w : World (Journal (Ledger ε))) : List Action → List Dataset
  | [] => []
  | action :: rest =>
    let after := s.run services action w
    (if action.bypasses = bypass then gained w after.2 else []) ++
      loadedBy services bypass after.1.2 after.2 rest

structure Apart (i : InstanceId) (state : State ε) : Prop where
  extras : ∀ p ∈ state.1.extras.members, p.id ≠ i
  closings : ∀ time, .closedExtra i time ∉ state.2.ledger

theorem Apart.closings_length {i : InstanceId} {state : State ε} (apart : Apart i state) :
    (DatasetCache.closings i state.2.ledger).length = (releases state.2.ledger).count i :=
  DatasetCache.closings_length apart.closings

theorem Conserves.stays_apart {action : Action} {events : List Event} {before after : State ε}
    (conserves : Conserves action events before after) {i : InstanceId} (apart : Apart i before)
    (strange : ∀ p, action = .addExtra p → p.id ≠ i) : Apart i after where
  extras p member := (conserves.extras p member).elim (apart.extras p) (strange p)
  closings time member := by
    rw [conserves.ledger, List.mem_append] at member
    rcases member with member | member
    · exact apart.closings time member
    · obtain ⟨-, p, extra, same⟩ := conserves.apart i time member
      exact apart.extras p extra same

section Runs

variable {services : Services (Act (Journal (Ledger ε)))} (accounts : services.Accountable)

include accounts

theorem runAll_conserves (s : Session) (actions : List Action)
    (w : World (Journal (Ledger ε))) :
    let ended := s.runAll services actions w
    ∃ events, ended.2.ledger = w.ledger ++ events ∧ ∀ i,
      (ids ended.1.cache.datasets).count i + (releases events).count i =
        (ids s.cache.datasets).count i + (ids (loadedBy services false s w actions)).count i ∧
      (ids (loads events)).count i = (ids (loadedBy services false s w actions)).count i +
        (ids (loadedBy services true s w actions)).count i := by
  induction actions generalizing s w with
  | nil => exact ⟨[], by simp [Session.runAll], by simp [Session.runAll, loadedBy]⟩
  | cons action rest ih =>
      obtain ⟨events, first⟩ := run_conserves accounts s action w
      obtain ⟨more, grown, others⟩ := ih (s.run services action w).1.2 (s.run services action w).2
      have gains : gained w (s.run services action w).2 = loads events := by
        simp [gained, first.ledger]
      refine ⟨events ++ more, ?_, fun i => ?_⟩
      · rw [← List.append_assoc, ← first.ledger]
        exact grown
      · have step := first.balance i
        obtain ⟨balance, told⟩ := others i
        simp only [Session.runAll, bind_apply, loadedBy, gains, releases_append, loads_append,
          ids_append, List.count_append]
        cases bypasses : action.bypasses with
        | true =>
            simp only [bypasses, if_true] at step
            simp
            omega
        | false =>
            simp only [bypasses, Bool.false_eq_true, if_false] at step
            simp
            omega

theorem runAll_apart {s : Session} {actions : List Action} {w : World (Journal (Ledger ε))}
    {i : InstanceId} (apart : Apart i (s.cache, w))
    (strange : ∀ p, .addExtra p ∈ actions → p.id ≠ i) :
    let ended := s.runAll services actions w
    Apart i (ended.1.cache, ended.2) := by
  induction actions generalizing s w with
  | nil => exact apart
  | cons action rest ih =>
      obtain ⟨events, first⟩ := run_conserves accounts s action w
      have after := first.stays_apart apart fun p adds =>
        strange p (adds ▸ List.mem_cons_self)
      exact ih after fun p member => strange p (List.mem_cons_of_mem action member)

theorem drop_ledger (cache : Cache) (w : World (Journal (Ledger ε))) :
    (cache.drop services w).2.ledger = (cache.close services w).2.ledger := by
  unfold drop
  simp only [bind_apply]
  generalize cache.close services w = closed
  obtain ⟨⟨answer, next⟩, last⟩ := closed
  cases answer with
  | ok done => rfl
  | error fault => exact (accounts.report last _).calm

end Runs

theorem drop_conserves {services : Services (Act (Journal (Ledger ε)))}
    (accounts : services.Accountable) {cache : Cache} {w : World (Journal (Ledger ε))}
    (empty : cache.closed = true → cache.Sealed) {i : InstanceId} (apart : Apart i (cache, w)) :
    (closings i (cache.drop services w).2.ledger).length =
      (ids cache.datasets).count i + (releases w.ledger).count i := by
  obtain ⟨last, closing⟩ := run_conserves accounts { cache } .close w
  have balance := closing.balance i
  have unloaded : loads last = [] := closing.requested.resolve_left nofun
  have closed := (run_sealed services (s := { cache }) .close w empty).1
  have none := (closed (close_closed services cache w)).datasets
  have after := (closing.stays_apart apart nofun).closings_length
  rw [none, unloaded] at balance
  simp only [ids_nil, List.count_nil, ite_self] at balance
  calc (closings i (cache.drop services w).2.ledger).length
      = (closings i (cache.close services w).2.ledger).length := by rw [drop_ledger accounts]
    _ = (releases (cache.close services w).2.ledger).count i := after
    _ = (releases (w.ledger ++ last)).count i :=
        congrArg (fun events => (releases events).count i) closing.ledger
    _ = (ids cache.datasets).count i + (releases w.ledger).count i := by
        rw [releases_append, List.count_append]
        omega

/-- **Exactly-once release.**  Whatever is done with a new cache and with contexts, and
whatever services and callbacks answer, if every load gives a fresh instance, then those
that were loaded as static datasets or for the cache are closed at most once, exactly once
if the cache has been closed, and exactly once when it is dropped; those that bypassed the
cache are never closed. -/
theorem released_exactly_once {callbacks : Callbacks ε} {base : Services (StateM ε)} {depth : Nat}
    {instantiator : InstantiatorId} {coordinator : CoordinatorId} {config : Config}
    {metrics : Option MetricsId} {contexts : List Context} {outside : ε} {cache : Cache}
    {w : World (Journal (Ledger ε))}
    (created : create (callbacks.audited base depth) instantiator coordinator config metrics
      (.unwritten contexts outside) = (.ok cache, w))
    {actions : List Action}
    (fresh : (ids (loads
      (Session.runAll (callbacks.audited base depth) { cache } actions w).2.ledger)).Nodup)
    {i : InstanceId} (apart : ∀ p, .addExtra p ∈ actions → p.id ≠ i) :
    let services := callbacks.audited base depth
    let ended := Session.runAll services { cache } actions w
    let dropped := ended.1.cache.drop services ended.2
    (i ∈ ids (loads w.ledger ++ loadedBy services false { cache } w actions) →
      (closings i ended.2.ledger).length ≤ 1 ∧
      (.close ∈ actions → (closings i ended.2.ledger).length = 1) ∧
      (closings i dropped.2.ledger).length = 1) ∧
    (i ∈ ids (loadedBy services true { cache } w actions) →
      closings i ended.2.ledger = [] ∧ closings i dropped.2.ledger = []) := by
  have accounts := callbacks.audited_accountable base depth
  have creation := create_books accounts instantiator coordinator config metrics
    (.unwritten contexts outside)
  rw [created] at creation
  obtain ⟨first, books, plain, unreleased, held, -, -, unaided, unopened, living, -⟩ := creation
  have start : w.ledger = first := books.ledger
  obtain ⟨events, grown, balance⟩ := runAll_conserves accounts { cache } actions w
  obtain ⟨balance, told⟩ := balance i
  have unextra : Apart i (({ cache } : Session).cache, w) :=
    ⟨by simp [unaided], fun time => start ▸ plain i time⟩
  have strange := runAll_apart accounts unextra apart
  obtain ⟨empty, closed⟩ := runAll_sealed (callbacks.audited base depth)
    (s := { cache }) actions w (by simp [living])
  have dropped := drop_conserves accounts empty strange
  have ended := strange.closings_length
  have once := List.nodup_iff_count_le_one.1 fresh i
  have began := (ids_perm held).count_eq i
  have tally : (releases
      (Session.runAll (callbacks.audited base depth) { cache } actions w).2.ledger).count i =
        (releases events).count i := by
    rw [grown, start, releases_append, unreleased, List.nil_append]
  dsimp only at ended ⊢
  rw [tally] at ended dropped
  rw [grown, start, loads_append, ids_append, List.count_append, told] at once
  rw [began] at balance
  refine ⟨fun kept => ?_, fun away => ?_⟩
  · have one := List.count_pos_iff.2 kept
    rw [start, ids_append, List.count_append] at one
    refine ⟨by omega, fun closes => ?_, by omega⟩
    have none := (empty (closed (.inr closes))).datasets
    rw [none] at balance
    simp at balance
    omega
  · have one := List.count_pos_iff.2 away
    exact ⟨List.length_eq_zero_iff.1 (by omega), List.length_eq_zero_iff.1 (by omega)⟩

/-! ## A session where every load gives a new instance -/

def arrival : List Action :=
  [.openContext, .get none (Key.named "users") false, .get none (Key.named "users") true]

def departure : List Action :=
  [.use (.start 0), .get none (Key.named "users") false, .close]

def visit : List Action := arrival ++ .dismiss (table 1 "users") :: departure

def minted : Cache := { store := { loader := ⟨0, "default", none⟩ }, coordinator := 0 }

theorem create_minted : create (Callbacks.silent.audited Services.minting 0) 0 0 {} none
    (.unwritten [] 0) = (.ok minted, .unwritten [] 0) := rfl

theorem visit_loads :
    loads (Session.runAll (Callbacks.silent.audited Services.minting 0) { cache := minted } visit
      (.unwritten [] 0)).2.ledger = [table 1 "users", table 2 "users"] := by
  decide +kernel

theorem visit_extras (i : InstanceId) : ∀ p, .addExtra p ∈ visit → p.id ≠ i := by
  simp [visit, arrival, departure]

theorem released_exactly_once_visit :
    let services := Callbacks.silent.audited Services.minting 0
    ∃ cache w, create services 0 0 {} none (.unwritten [] 0) = (.ok cache, w) ∧
      let ended := Session.runAll services { cache } visit w
      (ids (loads ended.2.ledger)).Nodup ∧ (∀ i p, .addExtra p ∈ visit → p.id ≠ i) ∧
      (closings 1 ended.2.ledger).length = 1 ∧ closings 2 ended.2.ledger = [] := by
  have fresh : (ids (loads (Session.runAll (Callbacks.silent.audited Services.minting 0)
      { cache := minted } visit (.unwritten [] 0)).2.ledger)).Nodup := by
    rw [visit_loads]
    decide
  have kept := (released_exactly_once create_minted fresh (visit_extras 1)).1 (by decide +kernel)
  have away := (released_exactly_once create_minted fresh (visit_extras 2)).2 (by decide +kernel)
  exact ⟨minted, _, create_minted, fresh, visit_extras, kept.2.1 (by simp [visit, departure]),
    away.1⟩

end Cache

end DatasetCache
