import DatasetCache.Proofs.Cache.Custody
import DatasetCache.Proofs.Cache.Logbook
import DatasetCache.Proofs.Cache.Tracking

/-!
# What a failed request leaves behind

A request goes through four stages that can fail: the cache has to be open, the dataset has to
be there or to be loaded, its type has to be right, and the tracker has to agree.  What a
failure leaves behind is told by the stage that it comes from, whatever the state of the cache.
-/

namespace DatasetCache

open Act Context

variable {ε : Type}

namespace Cache

/-! ## Fetching -/

/-- The ways in which a dataset is fetched or not: the answer, the cache after it and the calls. -/
inductive Fetch (cache : Cache) (key : Key) (bypass : Bool) :
    Except Fault Dataset → Cache → List Errand → Prop where
  | closed (gone : cache.closed = true) : Fetch cache key bypass (.error closedFault) cache []
  | static {d : Dataset} (living : cache.closed = false) (keeps : bypass = false)
      (static : cache.statics.get? key = some d) : Fetch cache key bypass (.ok d) cache []
  | hit {d : Dataset} (stats : Store.Stats) (living : cache.closed = false) (keeps : bypass = false)
      (dynamic : cache.statics.get? key = none) (stored : cache.store.peek? key = some d) :
      Fetch cache key bypass (.ok d) (cache.counting stats) []
  | missed {answer : Except Fault (Option Dataset)} {fault : Fault} (living : cache.closed = false)
      (fails : Loader.outcome key answer = .error fault) :
      Fetch cache key bypass (.error fault) cache (cache.store.loader.visit key answer)
  | bypassed {d : Dataset} (stats : Store.Stats) (living : cache.closed = false)
      (passes : bypass = true) :
      Fetch cache key bypass (.ok d) (cache.counting stats)
        (cache.store.loader.visit key (.ok (some d)))
  | loaded {d : Dataset} (stats : Store.Stats) (living : cache.closed = false)
      (keeps : bypass = false) (dynamic : cache.statics.get? key = none)
      (absent : cache.store.peek? key = none) :
      Fetch cache key bypass (.ok d) ((cache.keeping key d).counting stats)
        (cache.store.loader.visit key (.ok (some d)))

section Fetching

variable {services : Services (Act ε)} {log : ε → List Errand} (logs : services.Logs log)

include logs

theorem fetch_sent (cache : Cache) (key : Key) (bypass : Bool) (w : World ε) :
    let fetched := cache.fetch services key bypass w
    ∃ errands, Fetch cache key bypass fetched.1.1 fetched.1.2 errands ∧
      Sent log id errands w fetched.2 := by
  unfold fetch
  split
  next gone => exact ⟨[], .closed gone, .none w⟩
  next living =>
  rw [Bool.not_eq_true] at living
  obtain ⟨gives, sent⟩ := Loader.load_sent logs cache.store.loader key w
  cases bypass with
  | true =>
      simp only [if_true, Store.get, bind_apply]
      generalize cache.store.loader.load services key w = got at gives sent ⊢
      obtain ⟨answer, next⟩ := got
      cases answer with
      | error fault => exact ⟨_, .missed living gives.symm, sent⟩
      | ok d =>
          rw [Loader.eq_of_outcome gives.symm] at sent
          exact ⟨_, .bypassed _ living rfl, sent.quiet (logs.report _ next)⟩
  | false =>
      simp only [Bool.false_eq_true, if_false]
      cases static : cache.statics.get? key with
      | some d => exact ⟨[], .static living rfl static, .none w⟩
      | none =>
          simp only [Store.get, Bool.false_eq_true, if_false, bind_apply]
          cases stored : cache.store.peek? key with
          | some d => exact ⟨[], .hit _ living rfl static stored, .none w⟩
          | none =>
              simp only [bind_apply]
              generalize cache.store.loader.load services key w = got at gives sent ⊢
              obtain ⟨answer, next⟩ := got
              cases answer with
              | error fault => exact ⟨_, .missed living gives.symm, sent⟩
              | ok d =>
                  rw [Loader.eq_of_outcome gives.symm] at sent
                  exact ⟨_, .loaded _ living rfl static stored, sent.quiet (logs.report _ next)⟩

omit logs in
theorem fetch_finds {cache : Cache} {key : Key} {d : Dataset} {w : World ε}
    (living : cache.closed = false) (dynamic : cache.statics.get? key = none)
    (finds : cache.store.peek? key = some d ∨
      cache.store.peek? key = none ∧ (cache.store.loader.load services key w).1 = .ok d) :
    (cache.fetch services key false w).1.1 = .ok d := by
  rcases finds with stored | ⟨absent, loaded⟩
  · obtain ⟨stats, same⟩ := fetch_stored services stored dynamic living w
    rw [same]
  · unfold fetch
    rw [living, if_neg (by simp)]
    simp only [Bool.false_eq_true, if_false, dynamic, Store.get, absent, bind_apply]
    rw [loaded]
    rfl

end Fetching

/-! ## Registering -/

section Registering

variable (services : Services (Act ε)) {cache : Cache} {key : Key} {d : Dataset}

/-- The tracker has another instance under the key than the dataset takes part as. -/
def Contradicts (tracker : Tracker) (key : Key) (d : Dataset) : Prop :=
  ∃ p q, d.participant = some p ∧ tracker.get? key = some q ∧ q.id ≠ p.id

theorem register_contradicted {p q : Participant} (dynamic : cache.statics.get? key = none)
    (capable : d.participant = some p) (present : cache.tracker.get? key = some q)
    (other : q.id ≠ p.id) (w : World ε) :
    cache.register services key d w =
      ((.error (.inconsistent (Tracker.divergence key q p)), cache),
        (services.report ⟨.error, .cache, Tracker.divergence key q p⟩ w).2) := by
  unfold register
  rw [dynamic, capable]
  dsimp only
  rw [bind_apply, Tracker.track_other services present other]
  rfl

theorem register_agreed (agrees : ¬ Contradicts cache.tracker key d) (w : World ε) :
    (cache.register services key d w).1.1 = .ok () := by
  cases static : cache.statics.get? key with
  | some other => simp [register, static]
  | none =>
      cases capable : d.participant with
      | none => simp [register, static, capable]
      | some p =>
          cases present : cache.tracker.get? key with
          | none =>
              rw [register_new services cache static capable present]
              rfl
          | some q =>
              have same : q.id = p.id := by
                by_contra other
                exact agrees ⟨p, q, capable, present, other⟩
              simp only [register, static, capable]
              rw [bind_apply, Tracker.track_same services present same]
              rfl

theorem register_refused {fault : Fault} {w : World ε}
    (refused : (cache.register services key d w).1.1 = .error fault) :
    ∃ p q, d.participant = some p ∧ cache.tracker.get? key = some q ∧ q.id ≠ p.id ∧
      cache.register services key d w =
        ((.error (.inconsistent (Tracker.divergence key q p)), cache),
          (services.report ⟨.error, .cache, Tracker.divergence key q p⟩ w).2) := by
  by_cases contradicts : Contradicts cache.tracker key d
  · obtain ⟨p, q, capable, present, other⟩ := contradicts
    cases dynamic : cache.statics.get? key with
    | some static => simp [register, dynamic] at refused
    | none =>
        exact ⟨p, q, capable, present, other,
          register_contradicted services dynamic capable present other w⟩
  · rw [register_agreed services contradicts w] at refused
    cases refused

end Registering

/-! ## Requests -/

theorem getDataset_checks (services : Services (Act ε)) (s : Session) (key : Key) (bypass : Bool)
    (typeName : Option String) :
    ∃ check : Dataset → Except Fault Unit,
      (∀ d, check d = .ok () ∨ check d = .error (.typeMismatch key.name key.display d.typeName)) ∧
      (∀ d, Fits typeName d → check d = .ok ()) ∧
      s.getDataset services key bypass typeName = s.cache.acquire services key bypass check := by
  cases typeName with
  | none => exact ⟨fun _ => .ok (), fun _ => .inl rfl, fun _ _ => rfl, rfl⟩
  | some name =>
      refine ⟨fun d => if d.typeName = name then .ok ()
        else .error (.typeMismatch key.name key.display d.typeName), fun d => ?_,
        fun d fits => if_pos (fits name rfl), rfl⟩
      dsimp only
      split
      · exact .inl rfl
      · exact .inr rfl

/-- A dataset has been loaded into the store, where the next request finds it. -/
structure Gains (services : Services (Act ε)) (cache : Cache) (key : Key) (d : Dataset)
    (next : Cache) (errands : List Errand) : Prop where
  dynamic : cache.statics.get? key = none
  absent : cache.store.peek? key = none
  loaded : errands = cache.store.loader.visit key (.ok (some d))
  entries : next.store.entries = cache.store.entries.insert key d
  found : ∀ w, ∃ stats, next.fetch services key false w = ((.ok d, next.counting stats), w)

/-- What a failed request has called is at most the load of the dataset, and what it has
changed are at most the counters and an entry of the store. -/
structure Unharmed (services : Services (Act ε)) (cache : Cache) (key : Key) (bypass : Bool)
    (fault : Fault) (next : Cache) (errands : List Errand) : Prop where
  cause : fault.isInstantiation = true ∨ fault = closedFault ∨
    (∃ d : Dataset, fault = .typeMismatch key.name key.display d.typeName) ∨
    ∃ text, fault = .inconsistent text
  calls : errands = [] ∨ ∃ answer, errands = cache.store.loader.visit key answer
  rest : ∃ entries stats, next = { cache with store := { cache.store with entries, stats } }
  idle : fault.isInstantiation = true ∨ fault = closedFault → next = cache
  bypassed : bypass = true → next.store.entries = cache.store.entries
  gains : next.store.entries = cache.store.entries ∨ ∃ d, Gains services cache key d next errands

section Requests

variable {services : Services (Act ε)} {cache next : Cache} {key : Key} {bypass : Bool}
  {fault : Fault} {errands : List Errand}

theorem Fetch.unharmed (fetch : Fetch cache key bypass (.error fault) next errands) :
    Unharmed services cache key bypass fault next errands := by
  have same : ∃ entries stats,
      cache = { cache with store := { cache.store with entries, stats } } :=
    ⟨cache.store.entries, cache.store.stats, rfl⟩
  cases fetch with
  | closed gone => exact ⟨.inr (.inl rfl), .inl rfl, same, fun _ => rfl, fun _ => rfl, .inl rfl⟩
  | missed living fails =>
      exact ⟨.inl (Loader.isInstantiation_of_outcome fails), .inr ⟨_, rfl⟩, same, fun _ => rfl, fun _ => rfl,
        .inl rfl⟩

theorem Fetch.unharmed_late {d : Dataset} (fetch : Fetch cache key bypass (.ok d) next errands)
    (late : (∃ d : Dataset, fault = .typeMismatch key.name key.display d.typeName) ∨
      ∃ text, fault = .inconsistent text) :
    Unharmed services cache key bypass fault next errands := by
  have never : ¬ (fault.isInstantiation = true ∨ fault = closedFault) := by
    rcases late with ⟨d, rfl⟩ | ⟨text, rfl⟩ <;> simp [Fault.isInstantiation, closedFault]
  have spent : ∀ (stats : Store.Stats) {errands : List Errand},
      (errands = [] ∨ ∃ answer, errands = cache.store.loader.visit key answer) →
      Unharmed services cache key bypass fault (cache.counting stats) errands := by
    intro stats errands calls
    exact ⟨.inr (.inr late), calls, ⟨_, _, rfl⟩, fun early => absurd early never, fun _ => rfl,
      .inl rfl⟩
  cases fetch with
  | static living keeps static => exact spent cache.store.stats (.inl rfl)
  | hit stats living keeps dynamic stored => exact spent stats (.inl rfl)
  | bypassed stats living passes => exact spent stats (.inr ⟨_, rfl⟩)
  | loaded stats living keeps dynamic absent =>
      refine ⟨.inr (.inr late), .inr ⟨_, rfl⟩, ⟨_, _, rfl⟩, fun early => absurd early never, ?_,
        .inr ⟨d, dynamic, absent, rfl, rfl, fun w => ?_⟩⟩
      · intro passes
        rw [keeps] at passes
        cases passes
      · have stored : ((cache.keeping key d).counting stats).store.peek? key = some d := by
          simp [counting, keeping, Store.peek?]
        exact fetch_stored services stored dynamic living w

theorem acquire_sent {log : ε → List Errand} (logs : services.Logs log)
    {check : Dataset → Except Fault Unit}
    (checks : ∀ d, check d = .ok () ∨
      check d = .error (.typeMismatch key.name key.display d.typeName))
    {w : World ε} (refused : (cache.acquire services key bypass check w).1.1 = .error fault) :
    ∃ errands, Unharmed services cache key bypass fault
        (cache.acquire services key bypass check w).1.2 errands ∧
      Sent log id errands w (cache.acquire services key bypass check w).2 := by
  obtain ⟨errands, fetch, sent⟩ := fetch_sent logs cache key bypass w
  unfold acquire at refused ⊢
  rw [bind_apply] at refused ⊢
  generalize cache.fetch services key bypass w = got at fetch sent refused ⊢
  obtain ⟨⟨answer, next⟩, w'⟩ := got
  cases answer with
  | error cause =>
      cases refused
      exact ⟨errands, fetch.unharmed, sent⟩
  | ok d =>
      dsimp only at refused ⊢
      rcases checks d with right | wrong
      · rw [right] at refused ⊢
        cases bypass with
        | true => cases refused
        | false =>
            simp only [Bool.false_eq_true, if_false, bind_apply] at refused ⊢
            cases registered : (next.register services key d w').1.1 with
            | ok done =>
                generalize next.register services key d w' = done at registered refused
                obtain ⟨⟨answer, last⟩, _⟩ := done
                cases registered
                cases refused
            | error cause =>
                -- The tracker has been asked before anything was changed or anybody enrolled.
                obtain ⟨p, q, capable, present, other, same⟩ := register_refused services registered
                rw [same] at refused ⊢
                cases refused
                exact ⟨errands, fetch.unharmed_late (.inr ⟨_, rfl⟩),
                  sent.quiet (logs.report _ w')⟩
      · rw [wrong] at refused ⊢
        cases refused
        exact ⟨errands, fetch.unharmed_late (.inl ⟨d, rfl⟩), sent⟩

theorem acquire_inconsistent_iff {check : Dataset → Except Fault Unit} {d : Dataset} {w : World ε}
    (living : cache.closed = false) (dynamic : cache.statics.get? key = none)
    (finds : cache.store.peek? key = some d ∨
      cache.store.peek? key = none ∧ (cache.store.loader.load services key w).1 = .ok d)
    (right : check d = .ok ()) :
    (∃ text, (cache.acquire services key false check w).1.1 = .error (.inconsistent text)) ↔
      Contradicts cache.tracker key d := by
  have fetched := fetch_finds living dynamic finds
  obtain ⟨tracker, statics⟩ := fetch_rest services cache key false w
  unfold acquire
  rw [bind_apply]
  generalize cache.fetch services key false w = got at fetched tracker statics ⊢
  obtain ⟨⟨answer, next⟩, w'⟩ := got
  dsimp only at fetched tracker statics
  subst fetched
  rw [← tracker]
  simp only [right, Bool.false_eq_true, if_false, bind_apply]
  constructor
  · rintro ⟨text, refused⟩
    by_contra agrees
    have registered := register_agreed services agrees w'
    generalize next.register services key d w' = done at registered refused
    obtain ⟨⟨answer, last⟩, _⟩ := done
    cases registered
    cases refused
  · rintro ⟨p, q, capable, present, other⟩
    rw [register_contradicted services (statics ▸ dynamic) capable present other w']
    exact ⟨_, rfl⟩

end Requests

/-- **A failed request changes nothing but, at most, one entry of the store.**  In any state of
the cache a failed request leaves all contexts and the whole cache but the store as they are,
calls nothing but the load of its dataset, and fails for one of four reasons.  If the cache is
closed or the load fails, the store stays as it is too, and no bypass changes its entries.
Otherwise at most the dataset just loaded is added, which the next request finds there.  A
request for a dynamic dataset that is found or loaded, and of the right type, is refused as
inconsistent exactly if the tracker has another instance under the key. -/
theorem failed_get_unharmed (base : Services (StateM ε)) (cache : Cache) (w : World (Logbook ε))
    (key : Key) (bypass : Bool) (typeName : Option String) :
    let services := base.logging.detached
    let got := Session.getDataset services { cache } key bypass typeName w
    (∀ fault, got.1.1 = .error fault → got.2.contexts = w.contexts ∧
      ∃ errands, got.2.outside.errands = w.outside.errands ++ errands ∧
        Unharmed services cache key bypass fault got.1.2 errands) ∧
    ∀ d, bypass = false → cache.closed = false → cache.statics.get? key = none →
      (cache.store.peek? key = some d ∨
        cache.store.peek? key = none ∧ (cache.store.loader.load services key w).1 = .ok d) →
      Fits typeName d →
      ((∃ text, got.1.1 = .error (.inconsistent text)) ↔ Contradicts cache.tracker key d) := by
  intro services got
  obtain ⟨check, checks, fits, same⟩ :=
    getDataset_checks services { cache } key bypass typeName
  have got_eq : got = cache.acquire services key bypass check w := congrFun same w
  rw [got_eq]
  constructor
  · intro fault refused
    obtain ⟨errands, unharmed, sent⟩ := acquire_sent base.logging_logs checks refused
    exact ⟨sent.contexts, errands, sent.log, unharmed⟩
  · rintro d rfl living dynamic finds right
    exact acquire_inconsistent_iff living dynamic finds (fits d right)

def diverged : Cache where
  store := { loader := ⟨0, "default", none⟩ }
  tracker := ⟨Table.empty.insert (Key.named "users") { id := 7, name := "users" }⟩
  coordinator := 0

theorem failed_get_unharmed_diverged :
    let services := Services.minting.logging.detached
    let key := Key.named "users"
    let got := Session.getDataset services { cache := diverged } key false none
      { outside := { inner := 0 } }
    ∃ text errands, got.1.1 = .error (.inconsistent text) ∧ got.2.outside.errands = errands ∧
      Unharmed services diverged key false (.inconsistent text) got.1.2 errands ∧
      got.1.2.store.peek? key = some (table 1 "users") := by
  intro services key got
  have law := failed_get_unharmed Services.minting diverged { outside := { inner := 0 } } key false
    none
  have other : Contradicts diverged.tracker key (table 1 "users") :=
    ⟨{ id := 1, name := "users" }, { id := 7, name := "users" }, rfl, by decide +kernel,
      by decide⟩
  obtain ⟨text, refused⟩ := (law.2 (table 1 "users") rfl rfl rfl (.inr ⟨rfl, rfl⟩) nofun).2 other
  obtain ⟨-, errands, gained, unharmed⟩ := law.1 _ refused
  exact ⟨text, errands, refused, gained, unharmed, by decide +kernel⟩

end Cache

end DatasetCache
