import DatasetCache.Proofs.Cache.Deferral
import DatasetCache.Proofs.Cache.Residence

/-!
# Who answers for what is loaded

A dataset that has been loaded has somebody to answer for it as soon as the action that
loaded it is over: the cache holds it, the caller has been given it, or it is closed.  There
is one way out.  A bypass that asks for a type checks it after the load, and a dataset of
another type is then neither kept nor handed out nor closed.
-/

namespace DatasetCache

open Act

variable {ε : Type}

namespace Cache

/-! ## What a bypass does -/

section Bypass

variable {services : Services (Act (Journal (Ledger ε)))} (accounts : services.Accountable)

include accounts

theorem acquire_bypassing (cache : Cache) (key : Key) (check : Dataset → Except Fault Unit)
    (w : World (Journal (Ledger ε))) :
    let acquired := cache.acquire services key true check w
    acquired.1.2.datasets = cache.datasets ∧
      (acquired.2.ledger = w.ledger ∨ ∃ d, acquired.2.ledger = w.ledger ++ [.loaded d] ∧
        acquired.1.1 = (check d).map fun _ => d) := by
  have books := Loader.load_books accounts (w := w) cache.store.loader key
  unfold acquire fetch
  cases closed : cache.closed with
  | true => exact ⟨rfl, .inl rfl⟩
  | false =>
      simp only [Store.get, Bool.false_eq_true, if_true, if_false, bind_apply]
      generalize cache.store.loader.load services key w = loaded at books ⊢
      obtain ⟨answer, next⟩ := loaded
      cases answer with
      | error fault => exact ⟨rfl, .inl books.calm⟩
      | ok dataset =>
          have logged := books.quiet (accounts.report next
            ⟨.debug, .cache, "Loaded dataset bypassing cache"⟩)
          simp only [bind_apply, pure_apply]
          cases checked : check dataset <;>
            exact ⟨rfl, .inr ⟨dataset, logged.ledger, by rw [checked]; rfl⟩⟩

/-- A dataset is of the type that is asked for, if one is named. -/
def Fits (typeName : Option String) (d : Dataset) : Prop :=
  ∀ name, typeName = some name → d.typeName = name

theorem get_bypassing (s : Session) (typeName : Option String) (key : Key)
    (w : World (Journal (Ledger ε))) :
    let after := s.run services (.get typeName key true) w
    after.1.2.cache.datasets = s.cache.datasets ∧
      (after.2.ledger = w.ledger ∨ ∃ d, after.2.ledger = w.ledger ++ [.loaded d] ∧
        (Fits typeName d ∧ after.1.1 = .dataset d ∨
          ¬ Fits typeName d ∧ ∃ fault, after.1.1 = .failed fault)) := by
  cases typeName with
  | none =>
      obtain ⟨held, told⟩ := acquire_bypassing accounts s.cache key (fun _ => .ok ()) w
      refine ⟨held, told.imp_right fun ⟨d, ledger, answer⟩ => ⟨d, ledger, .inl ⟨nofun, ?_⟩⟩⟩
      exact congrArg (Answer.ofExcept .dataset) answer
  | some name =>
      obtain ⟨held, told⟩ := acquire_bypassing accounts s.cache key
        (fun dataset => if dataset.typeName = name then .ok ()
          else .error (.typeMismatch key.name key.display dataset.typeName)) w
      refine ⟨held, told.imp_right fun ⟨d, ledger, answer⟩ => ⟨d, ledger, ?_⟩⟩
      have answered := congrArg (Answer.ofExcept .dataset) answer
      by_cases fits : d.typeName = name
      · rw [if_pos fits] at answered
        exact .inl ⟨fun other same => Option.some.inj same ▸ fits, answered⟩
      · rw [if_neg fits] at answered
        exact .inr ⟨fun all => fits (all name rfl), _, answered⟩

end Bypass

/-! ## Custody -/

/-- The cache holds a dataset, or an answer hands it out, or it has been closed. -/
def InCustody (answer : Answer) (d : Dataset) (state : State ε) : Prop :=
  d.id ∈ ids state.1.datasets ∨ answer = .dataset d ∨ closings d.id state.2.ledger ≠ []

/-- A bypass asks for another type than a dataset is of. -/
def Action.Strays (d : Dataset) (action : Action) : Prop :=
  ∃ typeName key, action = .get typeName key true ∧ ¬ Fits typeName d

/-- What the step loads is in custody after it, unless it strays and was not in custody
already. -/
def Custody : Condition (Journal (Ledger ε)) := fun s w action answer s' w' =>
  ∀ d ∈ gained w w', InCustody answer d (s'.cache, w') ↔
    (action.Strays d → InCustody .done d (s.cache, w))

section Step

variable {services : Services (Act (Journal (Ledger ε)))} (accounts : services.Accountable)

include accounts

theorem get_kept (s : Session) (typeName : Option String) (key : Key)
    (w : World (Journal (Ledger ε))) {d : Dataset}
    (loaded : d ∈ gained w (s.run services (.get typeName key false) w).2) :
    d ∈ (s.run services (.get typeName key false) w).1.2.cache.datasets := by
  obtain ⟨events, -, restocks⟩ := run_restocks accounts s (.get typeName key false) w
  rw [gained, restocks.ledger, loads_append, List.drop_left] at loaded
  rcases restocks.shelved rfl d loaded with stored | closed
  · exact mem_datasets_of_stored stored
  · rw [restocks.gentle rfl] at closed
    cases closed

theorem bypass_custody (s : Session) (typeName : Option String) (key : Key)
    (w : World (Journal (Ledger ε))) :
    let after := s.run services (.get typeName key true) w
    Custody s w (.get typeName key true) after.1.1 after.1.2 after.2 := by
  intro after d loaded
  obtain ⟨held, unloaded | ⟨e, ledger, answered⟩⟩ := get_bypassing accounts s typeName key w
  · rw [gained, unloaded, List.drop_length] at loaded
    cases loaded
  rw [gained, ledger, loads_append, List.drop_left] at loaded
  obtain rfl : d = e := List.mem_singleton.1 loaded
  rcases answered with ⟨fits, given⟩ | ⟨differs, fault, failed⟩
  · refine iff_of_true (.inr (.inl given)) ?_
    rintro ⟨_, _, ⟨⟩, other⟩
    exact absurd fits other
  · -- Nothing has become of it, so only what was true before the step can help.
    have strays : Action.Strays d (.get typeName key true) := ⟨typeName, key, rfl, differs⟩
    have unclosed : closings d.id after.2.ledger = closings d.id w.ledger := by
      rw [ledger, closings_append, closings_loaded, closings_nil, List.append_nil]
    simp only [InCustody, forall_prop_of_true strays]
    rw [held, unclosed, failed]
    simp

theorem run_custody (s : Session) (action : Action) (w : World (Journal (Ledger ε))) :
    let after := s.run services action w
    Custody s w action after.1.1 after.1.2 after.2 := by
  have unloading : action.requests = false →
      Custody s w action (s.run services action w).1.1 (s.run services action w).1.2
        (s.run services action w).2 := by
    intro other d loaded
    obtain ⟨events, conserves⟩ := run_conserves accounts s action w
    rw [gained, conserves.ledger, loads_append, List.drop_left,
      conserves.requested.resolve_left (by simp [other])] at loaded
    cases loaded
  cases action with
  | get typeName key bypass =>
      cases bypass with
      | true => exact bypass_custody accounts s typeName key w
      | false =>
          intro after d loaded
          have held := get_kept accounts s typeName key w loaded
          refine iff_of_true (Or.inl (List.mem_map_of_mem held)) ?_
          rintro ⟨_, _, ⟨⟩, _⟩
  | _ => exact unloading rfl

theorem throughout_custody (s : Session) (actions : List Action)
    (w : World (Journal (Ledger ε))) : Throughout services Custody s w actions := by
  induction actions generalizing s w with
  | nil => trivial
  | cons action rest ih => exact ⟨run_custody accounts s action w, ih _ _⟩

end Step

/-- **Nothing that is loaded gets lost, but for strays.**  When no cache comes about, all
that was loaded for it has been closed; a new cache holds all that was loaded for it.
Whatever is done then with the cache and with contexts, and whatever services and callbacks
answer, what an action loads is in custody when the action is over, except exactly what a
bypass loads that asks for another type, if it was not in custody before. -/
theorem loaded_in_custody_iff (callbacks : Callbacks ε) (base : Services (StateM ε)) (depth : Nat)
    (instantiator : InstantiatorId) (coordinator : CoordinatorId) (config : Config)
    (metrics : Option MetricsId) (contexts : List Context) (outside : ε) :
    let services := callbacks.audited base depth
    let created := create services instantiator coordinator config metrics
      (.unwritten contexts outside)
    match created.1 with
    | .error _ => ∀ d ∈ loads created.2.ledger, closings d.id created.2.ledger ≠ []
    | .ok cache => (∀ d ∈ loads created.2.ledger, d ∈ cache.datasets) ∧
        ∀ actions, Throughout services Custody { cache } created.2 actions := by
  intro services created
  have accounts := callbacks.audited_accountable base depth
  have creation := create_books accounts instantiator coordinator config metrics
    (.unwritten contexts outside)
  obtain ⟨events, books, -, result⟩ := creation
  have ledger : created.2.ledger = events := books.ledger
  rw [show create services instantiator coordinator config metrics (.unwritten contexts outside) =
    created from rfl] at result
  revert result
  cases created.1 with
  | error fault =>
      intro closed d loaded
      rw [ledger] at loaded ⊢
      have released := closed.mem_iff.2 (List.mem_map_of_mem loaded)
      obtain ⟨time, member⟩ := exists_closing released
      exact List.ne_nil_of_mem member
  | ok cache =>
      rintro ⟨-, held, -⟩
      refine ⟨fun d loaded => ?_, fun actions => throughout_custody accounts _ actions _⟩
      rw [ledger] at loaded
      exact held.mem_iff.2 loaded

/-- A dataset is requested as a graph, bypassing the cache, and turns out to be a table. -/
theorem mistyped_bypass_strays :
    let services := Callbacks.silent.audited Services.minting 0
    let action := Action.get (some "graph") (Key.named "users") true
    let after := Session.run services { cache := minted } action (.unwritten [] 0)
    table 1 "users" ∈ gained (.unwritten [] 0) after.2 ∧
      ¬ InCustody after.1.1 (table 1 "users") (after.1.2.cache, after.2) := by
  refine ⟨by decide +kernel, ?_⟩
  rintro (held | given | closed)
  · revert held
    decide +kernel
  · cases given
  · exact closed (by decide +kernel)

end Cache

end DatasetCache
