import DatasetCache.Proofs.Cache.Seats
import Mathlib.Logic.Relation

/-!
# The moves of a cache

An action on a cache is a sequence of moves.  A move changes one thing: it loads a
dataset or lets one go, opens or ends a context, tracks a participant or queues it for
release, or it asks a context for an operation.  `Move` says what each of them finds and
what it leaves, so that what every move keeps holds in every run.
-/

namespace DatasetCache

open Act Context Relation

variable {ε : Type}

theorem Loader.load_blameless (services : Services (Act ε)) (loader : Loader) (key : Key)
    (w : World ε) (text : String) :
    (loader.load services key w).1 ≠ .error (.inconsistent text) := by
  unfold Loader.load
  simp only [bind_apply]
  generalize services.load loader.instantiator loader.realm key w = answered
  obtain ⟨answer, next⟩ := answered
  match answer with
  | .error fault => simp
  | .ok none => simp
  | .ok (some dataset) =>
      dsimp only
      cases loader.metrics with
      | none => simp
      | some metrics => cases dataset.metered <;> exact nofun

theorem Store.evictAll_entries (services : Services (Act ε)) (store : Store) (w : World ε) :
    (store.evictAll services w).1.2.entries = Table.empty := by
  have each : ∀ (entries : List (Key × Dataset)) (store : Store) (w : World ε),
      (store.releaseEach services entries w).1.2.entries = store.entries := by
    intro entries
    induction entries with
    | nil => exact fun _ _ => rfl
    | cons entry rest ih =>
        intro store w
        simp only [releaseEach, bind_apply, pure_apply, ih]
        unfold release
        simp only [bind_apply]
        cases (services.closeDataset entry.2 w).1 <;> rfl
  exact each _ _ _

namespace Cache

/-! ## Changes of a cache -/

def keeping (cache : Cache) (key : Key) (dataset : Dataset) : Cache :=
  { cache with store := { cache.store with entries := cache.store.entries.insert key dataset } }

def counting (cache : Cache) (stats : Store.Stats) : Cache :=
  { cache with store := { cache.store with stats } }

def untracking (cache : Cache) (i : InstanceId) : Cache :=
  { cache with tracker := (cache.tracker.untrack i).2 }

def retired (cache : Cache) : Cache := { cache with statics := {}, closed := true }

section

variable (services : Services (Act ε)) (cache : Cache)

def letGo (i : InstanceId) : Act ε Cache := do
  let (_, store) ← cache.store.evictInstance services i
  return { cache.untracking i with store }

def openWith : Act ε Cache := do
  let c ← Context.create cache.coordinator
  enrolAll services c cache.members
  return { cache with context := some c }

end

/-! ## Moves -/

/-- What an action asks of contexts, apart from opening and ending the one of the cache. -/
def Action.Asks (running : List ContextId) (cache : Cache) : Action → Operation → Prop
  | .use operation, asked => asked = operation
  | .enter, asked => ∃ c, cache.context = some c ∧ asked = .start c
  | .leave none, asked => ∃ c ∈ running, asked = .finish c
  | .leave (some fault), asked => ∃ c ∈ running, asked = .abortWith c fault.message
  | _, _ => False

/-- Whether an action ends the open context.  A body can end only if one is running. -/
def Action.ends (running : List ContextId) : Action → Bool
  | .openContext | .dismissContext | .enter | .invalidate | .close => true
  | .leave _ => !running.isEmpty
  | _ => false

/-- What an action can do next. -/
inductive Move (services : Services (Act ε)) (running : List ContextId) (action : Action) :
    Cache × World ε → Cache × World ε → Prop where
  | log {cache w} (d : Diagnostic) :
      Move services running action (cache, w) (cache, (services.report d w).2)
  | operate {cache w operation} (asked : action.Asks running cache operation) :
      Move services running action (cache, w) (cache, (operation.run services w).2)
  | count {cache w} (stats : Store.Stats) :
      Move services running action (cache, w) (cache.counting stats, w)
  | miss {cache w key fault} (failed : (cache.store.loader.load services key w).1 = .error fault) :
      Move services running action (cache, w) (cache, (cache.store.loader.load services key w).2)
  | bypass {cache w typeName key} (asked : action = .get typeName key true) :
      Move services running action (cache, w) (cache, (cache.store.loader.load services key w).2)
  | load {cache w typeName key dataset} (asked : action = .get typeName key false)
      (living : cache.closed = false) (dynamic : cache.statics.get? key = none)
      (absent : cache.store.peek? key = none)
      (loaded : (cache.store.loader.load services key w).1 = .ok dataset) :
      Move services running action (cache, w)
        (cache.keeping key dataset, (cache.store.loader.load services key w).2)
  | track {cache w typeName key dataset p} (asked : action = .get typeName key false)
      (dynamic : cache.statics.get? key = none) (stored : cache.store.peek? key = some dataset)
      (capable : dataset.participant = some p) (untracked : cache.tracker.get? key = none) :
      Move services running action (cache, w)
        (cache.tracking key p, (cache.welcome services p w).2)
  | defer {cache w dataset c p} (asked : action = .dismiss dataset)
      (dynamic : cache.statics.holds dataset.id = false) (opened : cache.context = some c)
      (capable : dataset.participant = some p) (stored : cache.store.holds dataset.id = true) :
      Move services running action (cache, w)
        (cache.untracking dataset.id, (Context.defer c p w).2)
  | release {cache w dataset} (asked : action = .dismiss dataset)
      (dynamic : cache.statics.holds dataset.id = false)
      (idle : cache.context = none ∨ dataset.participant = none ∨
        cache.store.holds dataset.id = false) :
      Move services running action (cache, w) (cache.letGo services dataset.id w)
  | endContext {cache w c} (ends : action.ends running = true) (opened : cache.context = some c) :
      Move services running action (cache, w) (cache.endContext services c w)
  | openContext {cache w} (ends : action.ends running = true) (unopened : cache.context = none)
      (living : cache.closed = false) :
      Move services running action (cache, w) (cache.openWith services w)
  | addExtra {cache w p} (asked : action = .addExtra p) :
      Move services running action (cache, w) (cache.addExtra services p w)
  | removeExtra {cache w p} (asked : action = .removeExtra p) :
      Move services running action (cache, w)
        ((cache.removeExtra p w).1.2, (cache.removeExtra p w).2)
  | reset {cache w} (ends : action.ends running = true) :
      Move services running action (cache, w)
        ((cache.reset services w).1.2, (cache.reset services w).2)
  | closeExtras {cache w} (asked : action = .close) :
      Move services running action (cache, w) (cache, (cache.extras.closeAll services w).2)
  | retire {cache w} (asked : action = .close) (unopened : cache.context = none)
      (unstored : cache.store.entries = Table.empty) :
      Move services running action (cache, w)
        (cache.retired, (cache.statics.closeAll services w).2)
  | closeLoader {cache w} (asked : action = .close) :
      Move services running action (cache, w) (cache, (cache.store.loader.close services w).2)

abbrev Moves (services : Services (Act ε)) (running : List ContextId) (action : Action) :
    Cache × World ε → Cache × World ε → Prop :=
  ReflTransGen (Move services running action)

/-! ## What a request tells -/

/-- The cache has a dataset under a key, as a static one or in its store. -/
def Offers (cache : Cache) (key : Key) (dataset : Dataset) : Prop :=
  cache.statics.get? key = some dataset ∨
    cache.statics.get? key = none ∧ cache.store.peek? key = some dataset

def Follows (cache : Cache) (key : Key) (dataset : Dataset) : Prop :=
  ∀ p, dataset.participant = some p → cache.statics.get? key = none →
    ∃ q, cache.tracker.get? key = some q ∧ q.id = p.id

/-- The store and the tracker have different instances under a key. -/
def Diverges (cache : Cache) (key : Key) : Prop :=
  ∃ dataset p q, cache.store.peek? key = some dataset ∧ dataset.participant = some p ∧
    cache.tracker.get? key = some q ∧ q.id ≠ p.id

/-- An answer to a request agrees with the cache that gave it. -/
structure Explains (key : Key) (bypass : Bool) (answer : Except Fault Dataset) (cache : Cache) :
    Prop where
  found : ∀ dataset, answer = .ok dataset → bypass = false →
    cache.Offers key dataset ∧ cache.Follows key dataset
  diverged : ∀ text, answer = .error (.inconsistent text) → cache.Diverges key

section Operations

variable (services : Services (Act ε)) (running : List ContextId) {action : Action}

variable {services running} in
theorem Moves.keeps {before after : Cache × World ε}
    (moves : Moves services running action before after) {P : Cache × World ε → Prop}
    (here : P before)
    (step : ∀ {before after}, Move services running action before after → P before → P after) :
    P after := by
  induction moves with
  | refl => exact here
  | tail _ move ih => exact step move ih

variable {services running} in
theorem moves_log (cache : Cache) (w : World ε) (d : Diagnostic) :
    Moves services running action (cache, w) (cache, (services.report d w).2) :=
  .single (.log d)

/-! ## Getting datasets -/

section Get

variable {typeName : Option String} {key : Key} {bypass : Bool}
  (asked : action = .get typeName key bypass)

include asked

theorem fetch_moves (cache : Cache) (w : World ε) :
    let fetched := cache.fetch services key bypass w
    Moves services running action (cache, w) (fetched.1.2, fetched.2) ∧
      (∀ dataset, fetched.1.1 = .ok dataset → bypass = false → fetched.1.2.Offers key dataset) ∧
      ∀ text, fetched.1.1 ≠ .error (.inconsistent text) := by
  unfold fetch
  split
  · exact ⟨.refl, by simp [closedFault]⟩
  next living =>
  cases bypass with
  | true =>
      simp only [if_true, Store.get, bind_apply]
      have loads : Moves services running action (cache, w)
          (cache, (cache.store.loader.load services key w).2) := .single (.bypass asked)
      have fault := cache.store.loader.load_blameless services key w
      generalize cache.store.loader.load services key w = got at loads fault ⊢
      obtain ⟨answer, next⟩ := got
      cases answer with
      | error fault' => exact ⟨loads, by simp, fault⟩
      | ok dataset =>
          exact ⟨(loads.trans (moves_log cache next _)).tail (.count _), by simp, by simp⟩
  | false =>
      simp only [Bool.false_eq_true, if_false]
      cases static : cache.statics.get? key with
      | some dataset =>
          refine ⟨.refl, ?_, by simp⟩
          rintro _ ⟨⟩ -
          exact .inl static
      | none =>
          simp only [Store.get, Bool.false_eq_true, if_false, bind_apply]
          cases present : cache.store.peek? key with
          | some dataset =>
              refine ⟨.single (.count _), ?_, by simp⟩
              rintro _ ⟨⟩ -
              exact .inr ⟨static, present⟩
          | none =>
              simp only [bind_apply]
              cases loaded : (cache.store.loader.load services key w).1 with
              | error fault =>
                  refine ⟨.single (.miss loaded), by simp, ?_⟩
                  rintro text ⟨⟩
                  exact Loader.load_blameless services _ key w text loaded
              | ok dataset =>
                  have loads : Moves services running action (cache, w)
                      (cache.keeping key dataset, (cache.store.loader.load services key w).2) :=
                    .single (.load asked (by simpa using living) static present loaded)
                  refine ⟨(loads.trans (moves_log _ _ _)).tail (.count _), ?_, by simp⟩
                  rintro _ ⟨⟩ -
                  exact .inr ⟨static, by simp [Store.peek?]⟩

theorem register_moves (keeps : bypass = false) {cache : Cache} {dataset : Dataset}
    (offers : cache.Offers key dataset) (w : World ε) :
    let registered := cache.register services key dataset w
    Moves services running action (cache, w) (registered.1.2, registered.2) ∧
      (registered.1.1 = .ok () → registered.1.2.Offers key dataset ∧
        registered.1.2.Follows key dataset) ∧
      ∀ fault, registered.1.1 = .error fault → registered.1.2.Diverges key := by
  subst keeps
  rcases offers with static | ⟨dynamic, stored⟩
  · simp only [register, static, pure_apply]
    refine ⟨.refl, fun _ => ⟨.inl static, fun p _ dynamic => ?_⟩, by simp⟩
    rw [static] at dynamic
    contradiction
  cases capable : dataset.participant with
  | none =>
      simp only [register, dynamic, capable, pure_apply]
      refine ⟨.refl, fun _ => ⟨.inr ⟨dynamic, stored⟩, fun p other => ?_⟩, by simp⟩
      rw [capable] at other
      contradiction
  | some p =>
      cases present : cache.tracker.get? key with
      | none =>
          rw [register_new services cache dynamic capable present]
          refine ⟨.single (.track asked dynamic stored capable present), fun _ => ?_, by simp⟩
          refine ⟨.inr ⟨dynamic, stored⟩, fun q other _ => ⟨p, ?_, ?_⟩⟩
          · simp [tracking, Tracker.get?]
          · rw [capable] at other
            rw [Option.some.inj other]
      | some q =>
          simp only [register, dynamic, capable]
          by_cases same : q.id = p.id
          · rw [bind_apply, Tracker.track_same services present same]
            refine ⟨.refl, fun _ => ⟨.inr ⟨dynamic, stored⟩, fun r other _ => ⟨q, present, ?_⟩⟩,
              by simp⟩
            rw [capable] at other
            rw [same, Option.some.inj other]
          · rw [bind_apply, Tracker.track_other services present same]
            refine ⟨moves_log _ _ _, by simp, ?_⟩
            rintro _ ⟨⟩
            exact ⟨dataset, p, q, stored, capable, present, same⟩

theorem acquire_moves {check : Dataset → Except Fault Unit}
    (checks : ∀ dataset text, check dataset ≠ .error (.inconsistent text)) (cache : Cache)
    (w : World ε) :
    let acquired := cache.acquire services key bypass check w
    Moves services running action (cache, w) (acquired.1.2, acquired.2) ∧
      Explains key bypass acquired.1.1 acquired.1.2 := by
  obtain ⟨fetches, offers, sound⟩ := fetch_moves services running asked cache w
  unfold acquire
  simp only [bind_apply]
  generalize cache.fetch services key bypass w = got at fetches offers sound ⊢
  obtain ⟨⟨answer, cache⟩, w⟩ := got
  cases answer with
  | error fault =>
      refine ⟨fetches, by simp, ?_⟩
      rintro text ⟨⟩
      exact absurd rfl (sound text)
  | ok dataset =>
      dsimp only at fetches offers ⊢
      cases checked : check dataset with
      | error fault =>
          refine ⟨fetches, by simp, ?_⟩
          rintro text ⟨⟩
          exact absurd checked (checks dataset text)
      | ok passed =>
          cases bypass with
          | true => exact ⟨fetches, by simp, by simp⟩
          | false =>
              obtain ⟨registers, found, diverged⟩ := register_moves services running asked rfl
                (offers dataset rfl rfl) w
              simp only [Bool.false_eq_true, if_false, bind_apply]
              generalize cache.register services key dataset w = done at registers found diverged ⊢
              obtain ⟨⟨answer, cache⟩, w⟩ := done
              cases answer with
              | error fault => exact ⟨fetches.trans registers, by simp, fun _ _ => diverged _ rfl⟩
              | ok done =>
                  refine ⟨fetches.trans registers, ?_, by simp⟩
                  rintro _ ⟨⟩ -
                  exact found rfl

theorem getDataset_moves (s : Session) (w : World ε) :
    let got := s.getDataset services key bypass typeName w
    Moves services running action (s.cache, w) (got.1.2, got.2) ∧
      Explains key bypass got.1.1 got.1.2 := by
  obtain ⟨check, checks, -, same⟩ := s.getDataset_eq services key bypass typeName
  rw [same]
  exact acquire_moves services running asked checks s.cache w

end Get

/-! ## Dismissal -/

theorem dismiss_moves {dataset : Dataset} (asked : action = .dismiss dataset) (cache : Cache)
    (w : World ε) :
    Moves services running action (cache, w) (cache.dismiss services dataset w) := by
  unfold dismiss
  split
  · exact moves_log cache w _
  next dynamic =>
  rw [Bool.not_eq_true] at dynamic
  have releases : (cache.context = none ∨ dataset.participant = none ∨
      cache.store.holds dataset.id = false) → Moves services running action (cache, w)
        (dismiss.release services dataset (cache.untracking dataset.id) w) := by
    intro idle
    have released : Moves services running action (cache, w) (cache.letGo services dataset.id w) :=
      .single (.release asked dynamic idle)
    simp only [letGo, bind_apply] at released
    unfold dismiss.release
    simp only [bind_apply, untracking]
    generalize cache.store.evictInstance services dataset.id w = evicted at released ⊢
    obtain ⟨⟨found, store⟩, next⟩ := evicted
    cases found with
    | true => exact released
    | false => exact released.trans (moves_log _ next _)
  cases opened : cache.context with
  | none => simpa [opened, untracking] using releases (.inl opened)
  | some c =>
      cases capable : dataset.participant with
      | none => simpa [opened, untracking] using releases (.inr (.inl capable))
      | some p =>
          cases stored : cache.store.holds dataset.id with
          | false => simpa [opened, stored, untracking] using releases (.inr (.inr stored))
          | true =>
              let told := (services.debug .cache "Deferring release until context cleanup" w).2
              have defers : Moves services running action (cache, w)
                  (cache.untracking dataset.id, (Context.defer c p told).2) :=
                .tail (moves_log cache w _) (.defer asked dynamic opened capable stored)
              simp only [stored, if_true, bind_apply, pure_apply]
              simpa only [untracking, opened] using defers

/-! ## Contexts -/

theorem dismissContext_moves (ends : action.ends running = true) (cache : Cache) (w : World ε) :
    Moves services running action (cache, w) (cache.dismissContext services w) := by
  unfold dismissContext
  cases opened : cache.context with
  | none => exact .refl
  | some c => exact .trans (.single (.endContext ends opened)) (moves_log _ _ _)

theorem releaseDeferred_cons (cache : Cache) (p : Participant) (rest : List Participant)
    (w : World ε) :
    let released := cache.letGo services p.id w
    ∃ w', (w' = released.2 ∨ ∃ d, w' = (services.report d released.2).2) ∧
      cache.releaseDeferred services (p :: rest) w =
        released.1.releaseDeferred services rest w' := by
  simp only [letGo, untracking, releaseDeferred, bind_apply]
  generalize cache.store.evictInstance services p.id w = evicted
  obtain ⟨⟨found, store⟩, next⟩ := evicted
  cases found with
  | true => exact ⟨next, .inl rfl, rfl⟩
  | false => exact ⟨_, .inr ⟨_, rfl⟩, rfl⟩

theorem releaseDeferred_induct {P : Cache → World ε → Prop}
    (release : ∀ cache w i, P cache w → P (cache.letGo services i w).1 (cache.letGo services i w).2)
    (log : ∀ cache w d, P cache w → P cache (services.report d w).2) (deferred : List Participant)
    (cache : Cache) : Leads (P cache) (cache.releaseDeferred services deferred) P := by
  induction deferred generalizing cache with
  | nil => exact fun w here => here
  | cons p rest ih =>
      intro w here
      have released := release cache w p.id here
      obtain ⟨w', told, same⟩ := releaseDeferred_cons services cache p rest w
      rw [same]
      rcases told with rfl | ⟨d, rfl⟩
      · exact ih _ _ released
      · exact ih _ _ (log _ _ d released)

theorem endContext_closed (cache : Cache) (c : ContextId) (w : World ε) :
    (cache.endContext services c w).1.closed = cache.closed := by
  refine releaseDeferred_induct services
    (P := fun next _ => next.closed = cache.closed) ?_ ?_ _ { cache with context := none } _ rfl
  · exact fun _ _ _ same => same
  · exact fun _ _ _ same => same

theorem openFresh_moves (ends : action.ends running = true) {cache : Cache}
    (unopened : cache.context = none) (living : cache.closed = false) (w : World ε) :
    let opened := cache.openFresh services w
    Moves services running action (cache, w) (opened.1.2, opened.2) :=
  .trans (.single (.openContext ends unopened living)) (moves_log _ _ _)

theorem openContext_moves (ends : action.ends running = true) (cache : Cache) (w : World ε) :
    let opened := cache.openContext services w
    Moves services running action (cache, w) (opened.1.2, opened.2) ∧
      ∀ c, opened.1.1 = .ok c → opened.1.2.context = some c := by
  rw [openContext_eq]
  split
  · exact ⟨.refl, by simp⟩
  next living =>
  rw [Bool.not_eq_true] at living
  have opens : ∀ (cache : Cache) (w : World ε) c, (cache.openFresh services w).1.1 = .ok c →
      (cache.openFresh services w).1.2.context = some c := by
    rintro cache w c ⟨⟩
    rfl
  cases opened : cache.context with
  | none => exact ⟨openFresh_moves services running ends opened living w, opens cache w⟩
  | some previous =>
      obtain ⟨-, unopened⟩ := endContext_rest services cache previous w
      have closed := endContext_closed services cache previous w
      exact ⟨.trans (.single (.endContext ends opened))
        (openFresh_moves services running ends unopened (closed.trans living) _), opens _ _⟩

/-! ## Reset and end -/

theorem invalidate_moves (ends : action.ends running = true) (cache : Cache) (w : World ε) :
    Moves services running action (cache, w) (cache.invalidate services w) := by
  have resets : Moves services running action (cache, w)
      ((cache.reset services w).1.2, (cache.reset services w).2) := .single (.reset ends)
  unfold invalidate
  rw [bind_apply]
  generalize cache.reset services w = reset at resets ⊢
  obtain ⟨⟨failures, next⟩, w⟩ := reset
  cases failures with
  | nil => exact resets
  | cons failure rest => exact resets.trans (moves_log _ _ _)

theorem reset_entries (cache : Cache) (w : World ε) :
    (cache.reset services w).1.2.store.entries = Table.empty := by
  unfold reset
  cases cache.context <;> exact Store.evictAll_entries services _ _

theorem reset_tracker (cache : Cache) (w : World ε) :
    (cache.reset services w).1.2.tracker = {} := by
  unfold reset
  cases cache.context <;> rfl

theorem reset_closed (cache : Cache) (w : World ε) :
    ({ cache with closed := true } : Cache).reset services w =
      (((cache.reset services w).1.1, { (cache.reset services w).1.2 with closed := true }),
        (cache.reset services w).2) := by
  unfold reset
  cases cache.context <;> rfl

theorem close_moves (asked : action = .close) (cache : Cache) (w : World ε) :
    let closed := cache.close services w
    Moves services running action (cache, w) (closed.1.2, closed.2) := by
  let start := w
  unfold close
  split
  · exact .refl
  have extras : Moves services running action (cache, w)
      (cache, (cache.extras.closeAll services w).2) := .single (.closeExtras asked)
  simp only [bind_apply]
  generalize (cache.extras.closeAll services w) = closed at extras ⊢
  obtain ⟨extraFailures, w⟩ := closed
  -- The cache is marked as closed before the reset, but the reset does not look at the mark,
  -- so the mark can wait for the move that retires the cache.
  rw [reset_closed]
  have resets : Moves services running action (cache, w)
      ((cache.reset services w).1.2, (cache.reset services w).2) :=
    .single (.reset (by rw [asked]; rfl))
  obtain ⟨-, unopened⟩ := reset_rest services cache w
  have unstored := reset_entries services cache w
  generalize cache.reset services w = reset at resets unopened unstored ⊢
  obtain ⟨⟨storeFailures, next⟩, w⟩ := reset
  have retires := (extras.trans resets).tail (.retire asked unopened unstored)
  simp only [Statics.closeAll, bind_apply, pure_apply] at retires ⊢
  have ends := retires.tail (.closeLoader asked)
  have ending : ∀ (failures : List String) (w' : World ε),
      Moves services running action (cache, start) (next.retired, w') →
      let last := (if failures.isEmpty then do
          services.info .cache "Dataset cache closed"
          return (.ok (), next.retired)
        else
          return (.error (.cleanup failures), next.retired) :
          Act ε (Except Fault Unit × Cache)) w'
      Moves services running action (cache, start) (last.1.2, last.2) := by
    intro failures w' moves
    cases failures with
    | nil => exact moves.trans (moves_log _ _ _)
    | cons failure rest => exact moves
  cases (next.store.loader.close services
      (Statics.closeEach services next.statics.datasets.entries w).2).1 with
  | ok done => exact ending _ _ ends
  | error fault => exact ending _ _ (ends.trans (moves_log _ _ _))

/-! ## Running in a transaction -/

theorem enter_moves (asked : action = .enter) (cache : Cache) (w : World ε) :
    let entered := cache.enter services w
    Moves services running action (cache, w) (entered.1.2, entered.2) ∧
      ∀ c, entered.1.1 = .ok c → entered.1.2.context = some c := by
  have ends : action.ends running = true := by rw [asked]; rfl
  obtain ⟨opens, opened⟩ := openContext_moves services running ends cache w
  unfold enter
  rw [bind_apply]
  generalize cache.openContext services w = context at opens opened ⊢
  obtain ⟨⟨answer, next⟩, w⟩ := context
  cases answer with
  | error fault => exact ⟨opens, by simp⟩
  | ok c =>
      have asks : action.Asks running next (.start c) := by
        subst asked
        exact ⟨c, opened c rfl, rfl⟩
      have starts := opens.tail (.operate asks)
      simp only [Operation.run, bind_apply, pure_apply] at starts ⊢
      generalize Context.start services c w = started at starts ⊢
      obtain ⟨answer, w⟩ := started
      cases answer with
      | error fault =>
          exact ⟨starts.trans (dismissContext_moves services running ends next w), by simp⟩
      | ok tx => exact ⟨starts, by simpa using opened⟩

theorem leave_moves {failure : Option Fault} (asked : action = .leave failure) {c : ContextId}
    (inside : c ∈ running) (cache : Cache) (w : World ε) :
    let left := cache.leave services c failure w
    Moves services running action (cache, w) (left.1.2, left.2) := by
  have ends : action.ends running = true := by
    rw [asked]
    cases running with
    | nil => cases inside
    | cons _ _ => rfl
  subst asked
  unfold leave
  cases failure with
  | none =>
      have finishes : Moves services running (.leave none) (cache, w)
          (cache, ((Operation.finish c).run services w).2) :=
        .single (.operate ⟨c, inside, rfl⟩)
      simp only [Operation.run, bind_apply, pure_apply] at finishes ⊢
      generalize Context.finish services c w = finished at finishes ⊢
      obtain ⟨answer, w⟩ := finished
      cases answer <;> exact finishes.trans (dismissContext_moves services running ends cache w)
  | some fault =>
      have aborts : Moves services running (.leave (some fault)) (cache, w)
          (cache, ((Operation.abortWith c fault.message).run services w).2) :=
        .single (.operate ⟨c, inside, rfl⟩)
      simp only [Operation.run, bind_apply, pure_apply] at aborts ⊢
      generalize Context.abort services c fault.message w = aborted at aborts ⊢
      obtain ⟨answer, w⟩ := aborted
      cases answer with
      | ok done => exact aborts.trans (dismissContext_moves services running ends cache w)
      | error failure =>
          exact (aborts.trans (moves_log _ _ _)).trans
            (dismissContext_moves services running ends cache _)

end Operations

/-! ## Actions -/

theorem run_moves (services : Services (Act ε)) (s : Session) (action : Action) (w : World ε) :
    let after := s.run services action w
    Moves services s.running action (s.cache, w) (after.1.2.cache, after.2) := by
  cases action with
  | get typeName key bypass => exact (getDataset_moves services s.running rfl s w).1
  | dismiss dataset => exact dismiss_moves services s.running rfl s.cache w
  | openContext => exact (openContext_moves services s.running rfl s.cache w).1
  | dismissContext => exact dismissContext_moves services s.running rfl s.cache w
  | addExtra p => exact .single (.addExtra rfl)
  | removeExtra p => exact .single (.removeExtra rfl)
  | invalidate => exact invalidate_moves services s.running rfl s.cache w
  | close => exact close_moves services s.running rfl s.cache w
  | use operation => exact .single (.operate rfl)
  | enter =>
      have enters := (enter_moves services s.running rfl s.cache w).1
      simp only [Session.run, bind_apply]
      generalize s.cache.enter services w = entered at enters ⊢
      obtain ⟨⟨answer, next⟩, w⟩ := entered
      cases answer <;> exact enters
  | leave failure =>
      obtain ⟨cache, running⟩ := s
      cases running with
      | nil => exact .refl
      | cons c running => exact leave_moves services _ rfl List.mem_cons_self cache w

theorem run_explains (services : Services (Act ε)) (s : Session) (typeName : Option String)
    (key : Key) (bypass : Bool) (w : World ε) :
    let after := s.run services (.get typeName key bypass) w
    (∀ dataset, after.1.1 = .dataset dataset → bypass = false →
      after.1.2.cache.Offers key dataset ∧ after.1.2.cache.Follows key dataset) ∧
    ∀ text, after.1.1 = .failed (.inconsistent text) → after.1.2.cache.Diverges key := by
  obtain ⟨found, diverged⟩ := (getDataset_moves services s.running
    (rfl : Action.get typeName key bypass = _) s w).2
  simp only [Session.run, bind_apply]
  generalize s.getDataset services key bypass typeName w = got at found diverged ⊢
  obtain ⟨⟨answer, next⟩, w⟩ := got
  cases answer with
  | error fault =>
      refine ⟨by simp [Answer.ofExcept], ?_⟩
      rintro text ⟨⟩
      exact diverged text rfl
  | ok dataset =>
      refine ⟨?_, by simp [Answer.ofExcept]⟩
      rintro _ ⟨⟩ kept
      exact found dataset rfl kept

theorem run_induct (services : Services (Act ε)) (s : Session) (action : Action) (w : World ε)
    {P : Cache × World ε → Prop} (here : P (s.cache, w))
    (step : ∀ {before after}, Move services s.running action before after → P before → P after) :
    P ((s.run services action w).1.2.cache, (s.run services action w).2) :=
  Moves.keeps (run_moves services s action w) here step

theorem Move.statics {services : Services (Act ε)} {running : List ContextId} {action : Action}
    {before after : Cache × World ε} (move : Move services running action before after) :
    after.1.statics = before.1.statics ∨ after.1.statics = {} ∧ after.1.closed = true := by
  cases move with
  | @endContext cache w c ends opened => exact .inl (endContext_rest services cache c w).1
  | @addExtra cache w p asked =>
      obtain ⟨extras, same⟩ := addExtra_rest cache p w services
      rw [same]
      exact .inl rfl
  | @removeExtra cache w p asked =>
      obtain ⟨extras, same⟩ := removeExtra_rest cache p w
      rw [same]
      exact .inl rfl
  | @reset cache w ends => exact .inl (reset_rest services cache w).1
  | retire => exact .inr ⟨rfl, rfl⟩
  | _ => exact .inl rfl

theorem run_running (services : Services (Act ε)) (s : Session) (action : Action) (w : World ε) :
    let after := (s.run services action w).1.2
    ∀ c ∈ after.running, c ∈ s.running ∨ after.cache.context = some c := by
  cases action with
  | enter =>
      have opened := (enter_moves services s.running rfl s.cache w).2
      simp only [Session.run, bind_apply]
      generalize s.cache.enter services w = entered at opened ⊢
      obtain ⟨⟨answer, next⟩, w⟩ := entered
      cases answer with
      | error fault => exact fun c member => .inl member
      | ok c =>
          intro other member
          rcases List.mem_cons.1 member with rfl | member
          · exact .inr (opened _ rfl)
          · exact .inl member
  | leave failure =>
      obtain ⟨cache, running⟩ := s
      cases running with
      | nil => exact fun c member => .inl member
      | cons c running => exact fun other member => .inl (List.mem_cons_of_mem c member)
  | _ => exact fun c member => .inl member

end Cache

end DatasetCache
