import DatasetCache.Proofs.Cache.Register
import DatasetCache.Proofs.Cache.Synchrony

/-!
# One live instance per key

What is loaded for a key stays in the store under that key until it is closed, whatever
becomes of the request that it was loaded for.  So a key has at most one live instance at
a time, and only requests that find none ask for another one.
-/

namespace DatasetCache

open Act Context Relation

variable {ε : Type}

def Event.closed? : Event → Option InstanceId
  | closed i _ => some i
  | closedExtra i _ => some i
  | loaded _ => none

def closedIn (events : List Event) : List InstanceId := events.filterMap Event.closed?

@[simp] theorem closedIn_append (events more : List Event) :
    closedIn (events ++ more) = closedIn events ++ closedIn more := by
  simp [closedIn]

theorem mem_closedIn_of_releases {events : List Event} {i : InstanceId}
    (released : i ∈ releases events) : i ∈ closedIn events := by
  obtain ⟨event, member, same⟩ := List.mem_filterMap.1 released
  refine List.mem_filterMap.2 ⟨event, member, ?_⟩
  cases event with
  | closed j time => exact same
  | _ => cases same

theorem releases_of_mem_closedIn {events : List Event}
    (plain : ∀ i time, .closedExtra i time ∉ events) {i : InstanceId} (closed : i ∈ closedIn events) :
    i ∈ releases events := by
  obtain ⟨event, member, same⟩ := List.mem_filterMap.1 closed
  refine List.mem_filterMap.2 ⟨event, member, ?_⟩
  cases event with
  | closed j time => exact same
  | closedExtra j time => exact absurd member (plain j time)
  | loaded d => cases same

namespace Cache

/-! ## What becomes of the store -/

/-- What leaves the store is closed, and only what a request loads comes into it. -/
structure Restocks (action : Action) (events : List Event) (before after : State ε) : Prop where
  ledger : after.2.ledger = before.2.ledger ++ events
  kept : ∀ {key d}, before.1.store.peek? key = some d →
    after.1.store.peek? key = some d ∨ d.id ∈ closedIn events
  came : ∀ {key d}, after.1.store.peek? key = some d →
    before.1.store.peek? key = some d ∨
      d ∈ loads events ∧ ∃ typeName, action = .get typeName key false
  shelved : ∀ {typeName key}, action = .get typeName key false → ∀ d ∈ loads events,
    after.1.store.peek? key = some d ∨ d.id ∈ closedIn events
  gentle : action.requests = true → closedIn events = []
  statics : action ≠ .close → after.1.statics = before.1.statics
  living : action ≠ .close → after.1.closed = before.1.closed

namespace Restocks

variable {action : Action} {events more : List Event} {before after last : State ε}

theorem trans (first : Restocks action events before after)
    (rest : Restocks action more after last) : Restocks action (events ++ more) before last where
  ledger := by rw [rest.ledger, first.ledger, List.append_assoc]
  kept found := by
    rw [closedIn_append, List.mem_append]
    rcases first.kept found with still | closed
    · exact (rest.kept still).imp_right .inr
    · exact .inr (.inl closed)
  came found := by
    rw [loads_append, List.mem_append]
    rcases rest.came found with before | ⟨loaded, asked⟩
    · exact (first.came before).imp_right fun ⟨loaded, asked⟩ => ⟨.inl loaded, asked⟩
    · exact .inr ⟨.inr loaded, asked⟩
  shelved asked d member := by
    rw [loads_append, List.mem_append] at member
    rw [closedIn_append, List.mem_append]
    rcases member with early | late
    · rcases first.shelved asked d early with stored | closed
      · exact (rest.kept stored).imp_right .inr
      · exact .inr (.inl closed)
    · exact (rest.shelved asked d late).imp_right .inr
  gentle asked := by rw [closedIn_append, first.gentle asked, rest.gentle asked, List.append_nil]
  statics living := (rest.statics living).trans (first.statics living)
  living living := (rest.living living).trans (first.living living)

theorem stay (entries : after.1.store.entries = before.1.store.entries)
    (ledger : after.2.ledger = before.2.ledger ++ events)
    (unshelved : (∃ typeName key, action = .get typeName key false) → loads events = [])
    (gentle : action.requests = true → closedIn events = [])
    (statics : action ≠ .close → after.1.statics = before.1.statics)
    (living : action ≠ .close → after.1.closed = before.1.closed) :
    Restocks action events before after where
  ledger := ledger
  kept found := by
    rw [Store.peek?, entries]
    exact .inl found
  came found := by
    rw [Store.peek?, entries] at found
    exact .inl found
  shelved asked d member := by
    rw [unshelved ⟨_, _, asked⟩] at member
    cases member
  gentle := gentle
  statics := statics
  living := living

theorem calm (entries : after.1.store.entries = before.1.store.entries)
    (statics : after.1.statics = before.1.statics) (living : after.1.closed = before.1.closed)
    (calm : Calm before.2 after.2) : Restocks action [] before after :=
  .stay entries (by rw [calm, List.append_nil]) (fun _ => rfl) (fun _ => rfl) (fun _ => statics)
    fun _ => living

theorem ending (asked : action = .close)
    (entries : after.1.store.entries = before.1.store.entries)
    (ledger : after.2.ledger = before.2.ledger ++ events) :
    Restocks action events before after := by
  subst asked
  refine .stay entries ledger ?_ ?_ (absurd rfl) (absurd rfl)
  · rintro ⟨_, _, other⟩
    cases other
  · intro other
    cases other

theorem gains {typeName : Option String} {key : Key} {dataset : Dataset}
    (asked : action = .get typeName key false) (absent : before.1.store.peek? key = none)
    (keeping : after.1 = before.1.keeping key dataset)
    (ledger : after.2.ledger = before.2.ledger ++ [.loaded dataset]) :
    Restocks action [.loaded dataset] before after where
  ledger := ledger
  kept {other d} found := by
    have different : other ≠ key := by
      rintro rfl
      rw [absent] at found
      cases found
    exact .inl (by simpa [keeping, Cache.keeping, Store.peek?, different] using found)
  came {other d} found := by
    by_cases same : other = key
    · obtain rfl : dataset = d := by
        simpa [keeping, Cache.keeping, Store.peek?, same] using found
      exact .inr ⟨List.mem_cons_self, typeName, same ▸ asked⟩
    · exact .inl (by simpa [keeping, Cache.keeping, Store.peek?, same] using found)
  shelved {_ other} again d member := by
    rw [asked] at again
    obtain rfl : key = other := by
      injection again
    obtain rfl : d = dataset := List.mem_singleton.1 member
    exact .inl (by simp [keeping, Cache.keeping, Store.peek?])
  gentle _ := rfl
  statics _ := by rw [keeping]; rfl
  living _ := by rw [keeping]; rfl

theorem closes (other : action.requests = false)
    (ledger : after.2.ledger = before.2.ledger ++ events)
    (kept : ∀ {key d}, before.1.store.peek? key = some d →
      after.1.store.peek? key = some d ∨ d.id ∈ closedIn events)
    (fewer : ∀ {key d}, after.1.store.peek? key = some d → before.1.store.peek? key = some d)
    (statics : after.1.statics = before.1.statics) (living : after.1.closed = before.1.closed) :
    Restocks action events before after where
  ledger := ledger
  kept := kept
  came found := .inl (fewer found)
  shelved asked := by
    rw [asked] at other
    cases other
  gentle asked := by
    rw [asked] at other
    cases other
  statics _ := statics
  living _ := living

end Restocks

section Moves

variable {services : Services (Act (Journal (Ledger ε)))} (accounts : services.Accountable)
  {running : List ContextId} {action : Action}

include accounts

theorem letGo_restocks (other : action.requests = false) (cache : Cache) (i : InstanceId)
    (w : World (Journal (Ledger ε))) :
    ∃ events, Restocks action events (cache, w) (cache.letGo services i w) := by
  rcases letGo_cases accounts cache i w with ⟨-, same⟩ | ⟨key, d, present, same, books, erased⟩
  · rw [same]
    exact ⟨[], .calm rfl rfl rfl rfl⟩
  · refine ⟨_, .closes other books.ledger ?_ ?_ rfl rfl⟩
    · intro later e found
      rw [Store.peek?, erased, Table.get?_erase]
      split
      next here =>
          obtain rfl : d = e := Option.some.inj (present.symm.trans (here ▸ found))
          exact .inr (by simp [closedIn, Event.closed?, same])
      next => exact .inl found
    · intro later e found
      rw [Store.peek?, erased, Table.get?_erase] at found
      split at found
      · cases found
      · exact found

theorem endContext_restocks (other : action.requests = false) (cache : Cache) (c : ContextId)
    (w : World (Journal (Ledger ε))) :
    ∃ events, Restocks action events (cache, w) (cache.endContext services c w) := by
  have closes : Restocks action [] (cache, w)
      ({ cache with context := none }, (Context.close services c w).2) :=
    .calm rfl rfl rfl (close_calm accounts c w)
  refine releaseDeferred_induct services
    (P := fun next w' => ∃ events, Restocks action events (cache, w) (next, w')) ?_ ?_ _ _ _
    ⟨[], closes⟩
  · rintro next w' i ⟨events, sofar⟩
    obtain ⟨more, released⟩ := letGo_restocks accounts other next i w'
    exact ⟨_, sofar.trans released⟩
  · rintro next w' d ⟨events, sofar⟩
    exact ⟨_, sofar.trans (.calm rfl rfl rfl (accounts.report w' d).calm)⟩

theorem reset_restocks (other : action.requests = false) (cache : Cache)
    (w : World (Journal (Ledger ε))) :
    ∃ events, Restocks action events (cache, w)
      ((cache.reset services w).1.2, (cache.reset services w).2) := by
  have evicts : ∀ w, Restocks action (closingsOf cache.store.entries.values w.time) (cache, w)
      ({ cache with
        store := (cache.store.evictAll services w).1.2, tracker := {}, context := none },
        (cache.store.evictAll services w).2) := by
    intro w
    refine .closes other (Store.evictAll_books accounts cache.store).ledger ?_ ?_ rfl rfl
    · intro key d found
      have held : d ∈ cache.store.entries.values := Table.mem_values_iff.2 ⟨key, found⟩
      refine .inr (mem_closedIn_of_releases ?_)
      rw [releases_closingsOf]
      exact List.mem_map_of_mem held
    · intro key d found
      rw [Store.peek?, Store.evictAll_entries] at found
      cases found
  unfold Cache.reset
  cases cache.context with
  | none => exact ⟨_, evicts w⟩
  | some c =>
      have discards : Restocks action [] (cache, w) (cache, (Context.discard services c w).2) :=
        .calm rfl rfl rfl (discard_calm accounts c w)
      exact ⟨_, discards.trans (evicts _)⟩

theorem Move.restocks {before after : State ε}
    (move : Move services running action before after) :
    ∃ events, Restocks action events before after := by
  have dropping : action.ends running = true → action.requests = false := by
    cases action <;> simp [Action.ends, Action.requests]
  cases move with
  | log d => exact ⟨_, .calm rfl rfl rfl (accounts.report _ d).calm⟩
  | operate asked => exact ⟨_, .calm rfl rfl rfl (accounts.run _ _)⟩
  | count stats => exact ⟨_, .calm rfl rfl rfl rfl⟩
  | @miss cache w key fault failed =>
      have books := Loader.load_books accounts (w := w) cache.store.loader key
      simp only [failed] at books
      exact ⟨_, .calm rfl rfl rfl books.calm⟩
  | @bypass cache w typeName key asked =>
      have books := Loader.load_books accounts (w := w) cache.store.loader key
      refine ⟨_, .stay rfl books.ledger ?_ ?_ (fun _ => rfl) fun _ => rfl⟩
      · rintro ⟨_, _, kept⟩
        rw [asked] at kept
        cases kept
      · intro _
        cases (cache.store.loader.load services key w).1 <;> rfl
  | @load cache w typeName key dataset asked living dynamic absent loaded =>
      have books := Loader.load_books accounts (w := w) cache.store.loader key
      simp only [loaded] at books
      exact ⟨_, .gains asked absent rfl books.ledger⟩
  | track => exact ⟨_, .calm rfl rfl rfl (welcome_calm accounts _ _ _)⟩
  | defer => exact ⟨_, .calm rfl rfl rfl rfl⟩
  | release asked => exact letGo_restocks accounts (by rw [asked]; rfl) _ _ _
  | endContext ends opened => exact endContext_restocks accounts (dropping ends) _ _ _
  | openContext => exact ⟨_, .calm rfl rfl rfl (openWith_calm accounts _ _)⟩
  | @addExtra cache w p asked =>
      obtain ⟨extras, same⟩ := addExtra_rest cache p w services
      have calm := (addExtra_conserves accounts cache p w).ledger
      rw [List.append_nil] at calm
      refine ⟨_, .calm ?_ ?_ ?_ calm⟩ <;> rw [same]
  | @removeExtra cache w p asked =>
      obtain ⟨extras, same⟩ := removeExtra_rest cache p w
      have withdraws : Conserves action [] _ _ := removeExtra_conserves cache p w
      have calm := withdraws.ledger
      rw [List.append_nil] at calm
      refine ⟨_, .calm ?_ ?_ ?_ calm⟩ <;> rw [same]
  | reset ends => exact reset_restocks accounts (dropping ends) _ _
  | @closeExtras cache w asked =>
      obtain ⟨more, books, -⟩ := Extras.closeAll_books accounts (w := w) cache.extras
      exact ⟨_, .ending asked rfl books.ledger⟩
  | @retire cache w asked unopened unstored =>
      have books := Statics.closeAll_books accounts (w := w) cache.statics
      exact ⟨_, .ending asked rfl books.ledger⟩
  | closeLoader asked =>
      exact ⟨_, .calm rfl rfl rfl (accounts.closeInstantiator _ _).calm⟩

theorem run_restocks (s : Session) (action : Action) (w : World (Journal (Ledger ε))) :
    let after := s.run services action w
    ∃ events, Conserves action events (s.cache, w) (after.1.2.cache, after.2) ∧
      Restocks action events (s.cache, w) (after.1.2.cache, after.2) := by
  refine run_induct services s action w
    (P := fun next => ∃ events, Conserves action events (s.cache, w) next ∧
      Restocks action events (s.cache, w) next)
    ⟨[], .calm rfl (fun _ => .inl) rfl, .calm rfl rfl rfl rfl⟩ ?_
  rintro before after move ⟨events, conserves, restocks⟩
  obtain ⟨more, last⟩ := move.conserves accounts
  obtain ⟨more', last'⟩ := move.restocks accounts
  obtain rfl : more = more' := List.append_cancel_left (last.ledger.symm.trans last'.ledger)
  exact ⟨_, conserves.trans last, restocks.trans last'⟩

end Moves

/-! ## Calls -/

/-- An action of a run and all that comes of it. -/
structure Call where
  action : Action
  answer : Answer
  requested : List Key
  loaded : List Dataset
  closed : List InstanceId

def Call.of (action : Action) (answer : Answer) (w w' : World (Journal (Ledger (Register ε)))) :
    Call where
  action := action
  answer := answer
  requested := w'.requests.drop w.requests.length
  loaded := gained w w'
  closed := closedIn (w'.ledger.drop w.ledger.length)

namespace Call

/-- A dataset is requested, of whatever type, and not as a bypass. -/
def Requests (call : Call) (key : Key) : Prop :=
  ∃ typeName, call.action = .get typeName key false

def Returns (call : Call) (key : Key) (dataset : Dataset) : Prop :=
  call.Requests key ∧ call.answer = .dataset dataset

end Call

def Session.calls (services : Services (Act (Journal (Ledger (Register ε))))) (s : Session)
    (w : World (Journal (Ledger (Register ε)))) : List Action → List Call
  | [] => []
  | action :: rest =>
    let after := s.run services action w
    .of action after.1.1 w after.2 :: calls services after.1.2 after.2 rest

/-- After some calls, a call that requests a dataset returns what an earlier one has
returned, unless that was closed in between; it asks for the dataset exactly if all that
has been loaded for the key is closed; and what it returns has not been closed. -/
structure OneLive (statics : Statics) (past : List Call) (call : Call) : Prop where
  same : ∀ {before first between key a b}, past = before ++ first :: between →
    first.Returns key a → call.Returns key b → b = a ∨ ∃ other ∈ between, a.id ∈ other.closed
  asks : ∀ {key}, call.Requests key → (call.requested = [] ∨ call.requested = [key]) ∧
    (call.requested = [key] ↔ statics.get? key = none ∧ ∀ earlier ∈ past, earlier.Requests key →
      ∀ d ∈ earlier.loaded, ∃ other ∈ past, d.id ∈ other.closed)
  live : ∀ {key d}, call.Returns key d → ∀ other ∈ past ++ [call], d.id ∉ other.closed

structure Recalls (statics : Statics) (past : List Call) (state : State (Register ε)) : Prop where
  balanced : Balanced state
  living : state.1.closed = false
  statics : state.1.statics = statics
  plain : ∀ i time, .closedExtra i time ∉ state.2.ledger
  closed : ∀ {i}, i ∈ closedIn state.2.ledger ↔ ∃ call ∈ past, i ∈ call.closed
  stored : ∀ {key d}, state.1.store.peek? key = some d →
    ∃ call ∈ past, call.Requests key ∧ d ∈ call.loaded
  shelved : ∀ {call key d}, call ∈ past → call.Requests key → d ∈ call.loaded →
    state.1.store.peek? key = some d ∨ d.id ∈ closedIn state.2.ledger
  given : ∀ {before call between key d}, past = before ++ call :: between →
    call.Returns key d → state.1.Offers key d ∨ ∃ other ∈ between, d.id ∈ other.closed

theorem Offers.unique {cache : Cache} {key : Key} {a b : Dataset} (first : cache.Offers key a)
    (second : cache.Offers key b) : b = a := by
  rcases first with static | ⟨dynamic, stored⟩ <;> rcases second with static' | ⟨dynamic', stored'⟩
  · exact Option.some.inj (static'.symm.trans static)
  · rw [dynamic'] at static
    cases static
  · rw [dynamic] at static'
    cases static'
  · exact Option.some.inj (stored'.symm.trans stored)

theorem Offers.held {cache : Cache} {key : Key} {d : Dataset} (offers : cache.Offers key d) :
    d ∈ cache.datasets := by
  rcases offers with static | ⟨-, stored⟩
  · exact List.mem_append_right _ (Table.mem_values_iff.2 ⟨key, static⟩)
  · exact mem_datasets_of_stored stored

theorem Restocks.offers {action : Action} {events : List Event} {before after : State ε}
    (restocks : Restocks action events before after) (living : action ≠ .close) {key : Key}
    {d : Dataset} (offers : before.1.Offers key d) :
    after.1.Offers key d ∨ d.id ∈ closedIn events := by
  rcases offers with static | ⟨dynamic, stored⟩
  · rw [← restocks.statics living] at static
    exact .inl (.inl static)
  · rw [← restocks.statics living] at dynamic
    exact (restocks.kept stored).imp_left fun stored => .inr ⟨dynamic, stored⟩

namespace Recalls

variable {statics : Statics} {past : List Call} {before after : State (Register ε)}
  {call : Call} {events : List Event}

theorem open_of_offers (recalls : Recalls statics past before)
    (fresh : (ids (loads before.2.ledger)).Nodup) {key : Key} {d : Dataset}
    (offers : before.1.Offers key d) : d.id ∉ closedIn before.2.ledger := by
  intro closed
  have released := releases_of_mem_closedIn recalls.plain closed
  exact recalls.balanced.not_held fresh released (List.mem_map_of_mem offers.held)

theorem absent_iff (recalls : Recalls statics past before)
    (fresh : (ids (loads before.2.ledger)).Nodup) {key : Key} (dynamic : statics.get? key = none) :
    before.1.store.peek? key = none ↔ ∀ earlier ∈ past, earlier.Requests key →
      ∀ d ∈ earlier.loaded, ∃ other ∈ past, d.id ∈ other.closed := by
  constructor
  · intro absent earlier member requests d loaded
    rcases recalls.shelved member requests loaded with stored | closed
    · rw [absent] at stored
      cases stored
    · exact recalls.closed.1 closed
  · intro gone
    cases present : before.1.store.peek? key with
    | none => rfl
    | some d =>
        obtain ⟨earlier, member, requests, loaded⟩ := recalls.stored present
        have offers : before.1.Offers key d := .inr ⟨recalls.statics ▸ dynamic, present⟩
        exact absurd (recalls.closed.2 (gone earlier member requests d loaded))
          (recalls.open_of_offers fresh offers)

theorem next (recalls : Recalls statics past before) {action : Action}
    (living : action ≠ .close) (conserves : Conserves action events before after)
    (restocks : Restocks action events before after) (acts : call.action = action)
    (loaded : call.loaded = loads events) (closed : call.closed = closedIn events)
    (returns : ∀ {key d}, call.Returns key d → after.1.Offers key d) :
    Recalls statics (past ++ [call]) after where
  balanced := conserves.balanced recalls.balanced
  living := (restocks.living living).trans recalls.living
  statics := (restocks.statics living).trans recalls.statics
  plain i time member := by
    rw [conserves.ledger, List.mem_append] at member
    rcases member with old | new
    · exact recalls.plain i time old
    · exact living (conserves.apart i time new).1
  closed {i} := by
    rw [restocks.ledger, closedIn_append, List.mem_append, recalls.closed, ← closed]
    simp
  stored found := by
    rcases restocks.came found with old | ⟨new, asked⟩
    · obtain ⟨earlier, member, rest⟩ := recalls.stored old
      exact ⟨earlier, List.mem_append_left _ member, rest⟩
    · exact ⟨call, by simp, by rw [Call.Requests, acts]; exact asked, loaded ▸ new⟩
  shelved {other key d} member requests gained := by
    rw [restocks.ledger, closedIn_append, List.mem_append]
    rcases List.mem_append.1 member with old | new
    · rcases recalls.shelved old requests gained with stored | gone
      · exact (restocks.kept stored).imp_right .inr
      · exact .inr (.inl gone)
    · obtain rfl := List.mem_singleton.1 new
      obtain ⟨typeName, asked⟩ := requests
      exact (restocks.shelved (acts ▸ asked) d (loaded ▸ gained)).imp_right .inr
  given {first other between key d} split returned := by
    -- the call that returned it is this one, or one of the past
    rcases List.eq_nil_or_concat between with rfl | ⟨between, last, rfl⟩
    · obtain ⟨-, same⟩ := List.append_inj' split rfl
      obtain rfl : call = other := by simpa using same
      exact .inl (returns returned)
    · rw [List.concat_eq_append, ← List.cons_append, ← List.append_assoc] at split
      obtain ⟨rfl, same⟩ := List.append_inj' split rfl
      obtain rfl : call = last := by simpa using same
      rcases recalls.given rfl returned with offers | ⟨other, member, gone⟩
      · refine (restocks.offers living offers).imp_right fun gone => ⟨call, by simp, ?_⟩
        rwa [closed]
      · exact .inr ⟨other, by simp [member], gone⟩

end Recalls

section Runs

variable {services : Services (Act (Journal (Ledger (Register ε))))}
  (accounts : services.Accountable) (registers : services.Registers)

include accounts

theorem run_fresh {s : Session} {action : Action} {w : World (Journal (Ledger (Register ε)))}
    (fresh : (ids (loads (s.run services action w).2.ledger)).Nodup) :
    (ids (loads w.ledger)).Nodup := by
  obtain ⟨events, conserves⟩ := run_conserves accounts s action w
  rw [conserves.ledger, loads_append, ids_append] at fresh
  exact (List.nodup_append.1 fresh).1

omit accounts in
theorem Call.offers {s : Session} {w : World (Journal (Ledger (Register ε)))} {action : Action}
    {key : Key} {d : Dataset}
    (returns : (Call.of action (s.run services action w).1.1 w
      (s.run services action w).2).Returns key d) :
    (s.run services action w).1.2.cache.Offers key d := by
  obtain ⟨⟨typeName, asked⟩, answered⟩ := returns
  obtain rfl : action = .get typeName key false := asked
  exact ((run_explains services s typeName key false w).1 d answered rfl).1

theorem Recalls.run {statics : Statics} {past : List Call} {s : Session}
    {w : World (Journal (Ledger (Register ε)))} {action : Action}
    (recalls : Recalls statics past (s.cache, w)) (living : action ≠ .close) :
    let after := s.run services action w
    Recalls statics (past ++ [.of action after.1.1 w after.2]) (after.1.2.cache, after.2) := by
  obtain ⟨events, conserves, restocks⟩ := run_restocks accounts s action w
  have ledger := restocks.ledger
  refine recalls.next living conserves restocks rfl ?_ ?_ Call.offers
  · simp [Call.of, gained, ledger]
  · simp [Call.of, ledger]

omit accounts in
include registers in
theorem Recalls.asks {statics : Statics} {past : List Call} {s : Session}
    {w : World (Journal (Ledger (Register ε)))} (recalls : Recalls statics past (s.cache, w))
    (fresh : (ids (loads w.ledger)).Nodup) (typeName : Option String) (key : Key) :
    let after := s.run services (.get typeName key false) w
    let call := Call.of (.get typeName key false) after.1.1 w after.2
    (call.requested = [] ∨ call.requested = [key]) ∧
      (call.requested = [key] ↔ statics.get? key = none ∧
        ∀ earlier ∈ past, earlier.Requests key →
          ∀ d ∈ earlier.loaded, ∃ other ∈ past, d.id ∈ other.closed) := by
  intro after call
  have requested : call.requested =
      if s.cache.statics.get? key = none ∧ s.cache.store.peek? key = none then [key] else [] := by
    rw [show call.requested = after.2.requests.drop w.requests.length from rfl,
      get_requests registers recalls.living, List.drop_left]
  rw [requested]
  have same : s.cache.statics = statics := recalls.statics
  rw [same]
  by_cases dynamic : statics.get? key = none
  · rw [← recalls.absent_iff fresh dynamic]
    by_cases absent : s.cache.store.peek? key = none <;> simp [dynamic, absent]
  · simp [dynamic]

include registers

theorem Recalls.oneLive {statics : Statics} {past : List Call} {s : Session}
    {w : World (Journal (Ledger (Register ε)))} {action : Action}
    (recalls : Recalls statics past (s.cache, w)) (living : action ≠ .close)
    (fresh : (ids (loads (s.run services action w).2.ledger)).Nodup) :
    OneLive statics past (.of action (s.run services action w).1.1 w
      (s.run services action w).2) := by
  have after := recalls.run accounts living
  obtain ⟨events, conserves, restocks⟩ := run_restocks accounts s action w
  constructor
  case same =>
    intro before first between key a b split early late
    rcases recalls.given split early with offers | closed
    · rcases restocks.offers living offers with offers | closed
      · exact .inl (offers.unique (Call.offers late))
      · obtain ⟨typeName, asked⟩ := late.1
        obtain rfl : action = .get typeName key false := asked
        rw [restocks.gentle rfl] at closed
        cases closed
    · exact .inr closed
  case asks =>
    rintro key ⟨typeName, asked⟩
    obtain rfl : action = .get typeName key false := asked
    exact recalls.asks registers (run_fresh accounts fresh) typeName key
  case live =>
    intro key d returns other member closed
    exact after.open_of_offers fresh (Call.offers returns) (after.closed.2 ⟨other, member, closed⟩)

/-! ## Whole runs -/

theorem Recalls.calls {statics : Statics} {past : List Call} {s : Session}
    {w : World (Journal (Ledger (Register ε)))} {actions : List Action}
    (recalls : Recalls statics past (s.cache, w)) (living : .close ∉ actions)
    (fresh : (ids (loads (s.runAll services actions w).2.ledger)).Nodup) {before later : List Call}
    {call : Call} (split : s.calls services w actions = before ++ call :: later) :
    OneLive statics (past ++ before) call := by
  induction actions generalizing s w past before with
  | nil => simp [Session.calls] at split
  | cons action rest ih =>
      have now : action ≠ .close := fun same => living (same ▸ List.mem_cons_self)
      have others : .close ∉ rest := fun member => living (List.mem_cons_of_mem action member)
      cases before with
      | nil =>
          obtain ⟨rfl, -⟩ := List.cons.inj split
          rw [List.append_nil]
          exact recalls.oneLive accounts registers now (runAll_backward
            (fun w => (ids (loads w.ledger)).Nodup) (fun _ _ _ => run_fresh accounts) fresh)
      | cons first before =>
          obtain ⟨rfl, tail⟩ := List.cons.inj split
          have later := ih (recalls.run accounts now) others fresh tail
          rwa [List.append_assoc] at later

omit registers in
theorem create_recalls {instantiator : InstantiatorId} {coordinator : CoordinatorId}
    {config : Config} {metrics : Option MetricsId} {contexts : List Context}
    {outside : Register ε} {cache : Cache} {w : World (Journal (Ledger (Register ε)))}
    (created : create services instantiator coordinator config metrics
      (.unwritten contexts outside) = (.ok cache, w)) : Recalls cache.statics [] (cache, w) := by
  have balanced := (create_sound accounts created).balanced
  have creation := create_books accounts instantiator coordinator config metrics
    (.unwritten contexts outside)
  rw [created] at creation
  obtain ⟨first, books, plain, unreleased, -, unstored, -, -, -, living, -⟩ := creation
  have start : w.ledger = first := books.ledger
  have plain : ∀ i time, .closedExtra i time ∉ w.ledger := start ▸ plain
  refine ⟨balanced, living, rfl, plain, fun {i} => ⟨fun closed => ?_, by simp⟩, ?_, by simp, ?_⟩
  · have released := releases_of_mem_closedIn plain closed
    rw [start, unreleased] at released
    cases released
  · intro key d found
    rw [Store.peek?, unstored] at found
    cases found
  · intro before call between key d split
    simp at split

end Runs

/-- **One live instance per key.**  Whatever is done with a new cache before it closes and
with contexts, and whatever services and callbacks answer, if every load gives a fresh
instance, then every call obeys the law of one live instance. -/
theorem one_live_instance {callbacks : Callbacks ε} {base : Services (StateM ε)} {depth : Nat}
    {instantiator : InstantiatorId} {coordinator : CoordinatorId} {config : Config}
    {metrics : Option MetricsId} {contexts : List Context} {outside : Register ε} {cache : Cache}
    {w : World (Journal (Ledger (Register ε)))}
    (created : create (callbacks.surveyed base depth) instantiator coordinator config metrics
      (.unwritten contexts outside) = (.ok cache, w))
    {actions : List Action} (living : .close ∉ actions)
    (fresh : (ids (loads
      (Session.runAll (callbacks.surveyed base depth) { cache } actions w).2.ledger)).Nodup)
    {past later : List Call} {call : Call}
    (split : Session.calls (callbacks.surveyed base depth) { cache } w actions =
      past ++ call :: later) : OneLive cache.statics past call := by
  have accounts := callbacks.surveyed_accountable base depth
  exact (create_recalls accounts created).calls accounts (callbacks.surveyed_registers base depth)
    living fresh split

def revisit : List Action :=
  [.openContext, .get none (Key.named "users") false, .get (some "graph") (Key.named "users") false,
    .dismiss (table 1 "users"), .get (some "table") (Key.named "users") false, .dismissContext,
    .get none (Key.named "users") false]

example : (Session.calls (Callbacks.silent.surveyed Services.minting 0) { cache := minted }
    (.unwritten [] { inner := 0 }) revisit).map (·.requested) =
      [[], [Key.named "users"], [], [], [], [], [Key.named "users"]] := by
  decide +kernel

theorem one_live_instance_revisit :
    let services := Callbacks.silent.surveyed Services.minting 0
    let calls := Session.calls services { cache := minted } (.unwritten [] { inner := 0 }) revisit
    .close ∉ revisit ∧
      (ids (loads (Session.runAll services { cache := minted } revisit
        (.unwritten [] { inner := 0 })).2.ledger)).Nodup ∧
      ∃ call, calls = calls.take 6 ++ call :: calls.drop 7 ∧
        call.requested = [Key.named "users"] ∧ OneLive minted.statics (calls.take 6) call := by
  intro services calls
  have created : create services 0 0 {} none (.unwritten [] { inner := 0 }) =
      (.ok minted, .unwritten [] { inner := 0 }) := rfl
  have living : Action.close ∉ revisit := by simp [revisit]
  have fresh : (ids (loads (Session.runAll services { cache := minted } revisit
      (.unwritten [] { inner := 0 })).2.ledger)).Nodup := by decide +kernel
  have long : 6 < calls.length := by decide +kernel
  have split : calls = calls.take 6 ++ calls.get ⟨6, long⟩ :: calls.drop 7 := by simp
  have asked : ∀ long : 6 < calls.length,
      (calls.get ⟨6, long⟩).requested = [Key.named "users"] := by decide +kernel
  exact ⟨living, fresh, _, split, asked long, one_live_instance created living fresh split⟩

end Cache

end DatasetCache
