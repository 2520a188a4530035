import DatasetCache.Proofs.Cache.Seats

/-!
# Participants of a cache are enrolled in its open context

In every run of a cache the participants that it reports are the participants of the
open context too, with one exception: a participant that is removed as an extra while no
transaction is in progress leaves the context also when it is a static or a tracked one.
-/

namespace DatasetCache

open Act Context

variable {ε : Type}

namespace Cache

/-! ## What is asked of a run -/

/-- Contexts are used to drive transactions and for nothing else. -/
def Action.Proper : Action → Prop
  | .use operation => operation.drives = true
  | _ => True

/-- After the step, whoever is reported as a participant is enrolled in the open context,
and so is the dataset that a request has just returned. -/
def Enrolled : Condition ε := fun _ _ action answer s w =>
  ∀ c, s.cache.context = some c →
    (∀ p ∈ s.cache.participants, (w.context c).has p = true) ∧
    ∀ typeName key dataset p, action = .get typeName key false → answer = .dataset dataset →
      dataset.participant = some p → (w.context c).has p = true

/-- The step takes no seat away that is needed still. -/
def Spared : Condition ε := fun s w action _ _ _ =>
  ∀ p, action = .removeExtra p → s.cache.spares p w

/-! ## One step -/

theorem enrolled_of_seated {s next : Session} {action : Action} {answer : Answer}
    {w w' : World ε} (seated : Seated next.cache w')
    (holds : ∀ typeName key dataset, action = .get typeName key false →
      answer = .dataset dataset → Holds next.cache dataset w') :
    Enrolled s w action answer next w' := by
  intro c opened
  constructor
  · intro p member
    simp only [participants, opened] at member
    rcases Participant.mem_foldl_addTo member with member | member
    · simp at member
    · refine seated.has opened p ?_
      simp only [members, List.mem_append] at member ⊢
      rcases member with (static | extra) | tracked
      · exact .inl (.inl static)
      · exact .inr extra
      · exact .inl (.inr tracked)
  · intro typeName key dataset p asked returned capable
    exact holds typeName key dataset asked returned opened capable

section

variable {services : Services (Act ε)} (keep : services.Keep Grows)

include keep

theorem run_leads (s : Session) (action : Action) (proper : action.Proper) {w : World ε}
    (seated : Seated s.cache w) (spared : ∀ p, action = .removeExtra p → s.cache.spares p w) :
    let after := s.run services action w
    Seated after.1.2.cache after.2 ∧ ∀ typeName key dataset, action = .get typeName key false →
      after.1.1 = .dataset dataset → Holds after.1.2.cache dataset after.2 := by
  cases action with
  | get typeName key bypass =>
      obtain ⟨check, same⟩ : ∃ check, s.getDataset services key bypass typeName =
          s.cache.acquire services key bypass check := by
        cases typeName with
        | none => exact ⟨fun _ => .ok (), rfl⟩
        | some typeName => exact ⟨_, rfl⟩
      have acquired := acquire_leads keep s.cache key bypass check w seated
      simp only [Session.run, same, bind_apply]
      generalize s.cache.acquire services key bypass check w = got at acquired ⊢
      obtain ⟨⟨answer, next⟩, w⟩ := got
      refine ⟨acquired.1, ?_⟩
      rintro _ _ dataset ⟨⟩ returned
      cases answer with
      | error fault => simp [Answer.ofExcept] at returned
      | ok found =>
          obtain rfl : found = dataset := by simpa [Answer.ofExcept] using returned
          exact acquired.2 found rfl rfl
  | dismiss dataset => exact ⟨dismiss_leads keep s.cache dataset w seated, by simp⟩
  | openContext => exact ⟨openContext_leads keep s.cache w seated, by simp⟩
  | dismissContext => exact ⟨dismissContext_leads services s.cache w seated, by simp⟩
  | addExtra p => exact ⟨addExtra_leads keep s.cache p w seated, by simp⟩
  | removeExtra p => exact ⟨removeExtra_leads s.cache p w ⟨seated, spared p rfl⟩, by simp⟩
  | invalidate => exact ⟨invalidate_leads services s.cache w seated, by simp⟩
  | close => exact ⟨close_leads services s.cache w seated, by simp⟩
  | use operation => exact ⟨seated.grow (drives_keeps keep proper w), by simp⟩
  | enter =>
      have entered := enter_leads keep s.cache w seated
      simp only [Session.run, bind_apply]
      generalize s.cache.enter services w = enters at entered ⊢
      obtain ⟨⟨answer, next⟩, w⟩ := enters
      cases answer <;> exact ⟨entered, by simp⟩
  | leave failure =>
      simp only [Session.run]
      cases s.running with
      | nil => exact ⟨seated, by simp⟩
      | cons c running =>
          exact ⟨leave_leads keep s.cache c failure w seated, by simp⟩

theorem step_enrolled_iff (s : Session) (action : Action) (proper : action.Proper) {w : World ε}
    (seated : Seated s.cache w) :
    Enrolled s w action (s.run services action w).1.1 (s.run services action w).1.2
        (s.run services action w).2 ↔
      Spared s w action (s.run services action w).1.1 (s.run services action w).1.2
        (s.run services action w).2 := by
  constructor
  · rintro enrolled p rfl c opened held inactive
    refine Bool.eq_false_iff.mpr fun needed => ?_
    obtain ⟨still, q, member, absent⟩ := removeExtra_unseats seated opened held inactive needed
    have present := (enrolled c still).1 q member
    exact absurd present (Bool.eq_false_iff.mp absent)
  · intro spared
    obtain ⟨after, holds⟩ := run_leads keep s action proper seated spared
    exact enrolled_of_seated after holds

/-! ## Whole runs -/

theorem throughout_enrolled_iff (s : Session) (actions : List Action)
    (proper : ∀ action ∈ actions, action.Proper) {w : World ε} (seated : Seated s.cache w) :
    Throughout services Enrolled s w actions ↔ Throughout services Spared s w actions := by
  induction actions generalizing s w with
  | nil => rfl
  | cons action rest ih =>
      have first := step_enrolled_iff keep s action (proper action List.mem_cons_self) seated
      have others := fun other member => proper other (List.mem_cons_of_mem action member)
      simp only [Throughout]
      rw [first]
      refine and_congr_right fun spared => ?_
      have after := (run_leads keep s action (proper action List.mem_cons_self) seated spared).1
      exact ih _ others after

end

end Cache

/-! ## The beginning -/

theorem Statics.coherent_empty : Statics.Coherent {} := by
  simp [Coherent, get?]

theorem Statics.Coherent.insert {statics : Statics} (coherent : statics.Coherent) (key : Key)
    (dataset : Dataset) : (statics.insert key dataset).Coherent := by
  intro other found p present capable
  simp only [Statics.insert, get?, Table.get?_insert, List.mem_append] at present ⊢
  split at present
  · obtain rfl : dataset = found := Option.some.inj present
    simp [capable]
  · exact .inl (coherent other found p present capable)

theorem Statics.extend_coherent {services : Services (Act ε)}
    {load : Key → Act ε (Except Fault Dataset)} {statics loaded : Statics} {keys : List Key}
    {w : World ε} (coherent : statics.Coherent)
    (success : (Statics.extend services load statics keys w).1 = .ok loaded) :
    loaded.Coherent := by
  induction keys generalizing statics w with
  | nil =>
      obtain rfl : statics = loaded := by simpa [extend] using success
      exact coherent
  | cons key rest ih =>
      simp only [extend, bind_apply] at success
      generalize load key w = answer at success
      obtain ⟨answer, w⟩ := answer
      cases answer with
      | ok dataset => exact ih (coherent.insert key dataset) success
      | error fault => simp at success

namespace Cache

theorem create_seated {services : Services (Act ε)} {instantiator : InstantiatorId}
    {coordinator : CoordinatorId} {config : Config} {metrics : Option MetricsId} {cache : Cache}
    {w : World ε} (created : (create services instantiator coordinator config metrics w).1 =
      .ok cache) (w' : World ε) : Seated cache w' := by
  obtain ⟨statics, loading, rfl⟩ := create_ok created
  exact .unopened (Statics.extend_coherent Statics.coherent_empty loading) rfl

/-- **Participants are enrolled.**  In every run of a new cache, however its contexts are
driven and whatever transactions the callbacks of participants drive in them, the members of
`participants` are enrolled in the open context at every step exactly if the run removes as
an extra, outside of transactions, no participant that is static or tracked. -/
theorem participants_enrolled_iff {base : Services (StateM ε)} {callbacks : Callbacks ε}
    (asks : callbacks.Ask fun _ operation => operation.drives = true) (depth : Nat)
    {instantiator : InstantiatorId} {coordinator : CoordinatorId} {config : Config}
    {metrics : Option MetricsId} {cache : Cache} {before w : World ε}
    (created : create (callbacks.nested base.detached depth) instantiator coordinator config
      metrics before = (.ok cache, w))
    {actions : List Action} (proper : ∀ action ∈ actions, action.Proper) :
    Throughout (callbacks.nested base.detached depth) Enrolled { cache } w actions ↔
      Throughout (callbacks.nested base.detached depth) Spared { cache } w actions := by
  have frame := grows_frame (ε := ε)
  have keep : (callbacks.nested base.detached depth).Keep Grows :=
    callbacks.nested_keep frame (Services.detached_keep frame base) asks
      (fun keep _ _ drives => drives_keeps keep drives) depth
  exact throughout_enrolled_iff keep { cache } actions proper
    (create_seated (congrArg Prod.fst created) w)

/-! ## A tracked participant without a seat -/

def users : Dataset :=
  { id := 1, typeName := "table", participant := some { id := 1, name := "users" } }

def usersOnly : Services (Act Nat) :=
  Callbacks.silent.nested (Services.willing fun _ => some users).detached 1

def addedAndRemoved : List Action :=
  let p := { id := 1, name := "users" }
  [.openContext, .get none (Key.named "users") false, .addExtra p, .removeExtra p]

theorem addedAndRemoved_proper : ∀ action ∈ addedAndRemoved, action.Proper := by
  simp [addedAndRemoved, Action.Proper]

theorem usersOnly_create :
    create usersOnly 0 0 {} none { outside := 0 } =
      (.ok { store := { loader := ⟨0, "default", none⟩ }, coordinator := 0 }, { outside := 0 }) :=
  rfl

theorem removed_participant_unseated :
    ∃ cache w, create usersOnly 0 0 {} none { outside := 0 } = (.ok cache, w) ∧
      (∀ action ∈ addedAndRemoved, action.Proper) ∧
      ¬ Throughout usersOnly Enrolled { cache } w addedAndRemoved := by
  refine ⟨_, _, usersOnly_create, addedAndRemoved_proper, ?_⟩
  rintro ⟨-, -, -, last, -⟩
  have present := (last 0 rfl).1 { id := 1, name := "users" } (by decide +kernel)
  revert present
  decide +kernel

theorem participants_enrolled_iff_users :
    ((Callbacks.silent : Callbacks Nat).Ask fun _ operation => operation.drives = true) ∧
      (∀ action ∈ addedAndRemoved, action.Proper) ∧
      ∃ cache w, create usersOnly 0 0 {} none { outside := 0 } = (.ok cache, w) ∧
        (Throughout usersOnly Enrolled { cache } w addedAndRemoved ↔
          Throughout usersOnly Spared { cache } w addedAndRemoved) :=
  ⟨Callbacks.silent_asks _, addedAndRemoved_proper, _, _, usersOnly_create,
    participants_enrolled_iff (Callbacks.silent_asks _) 1 usersOnly_create
      addedAndRemoved_proper⟩

end Cache

end DatasetCache
