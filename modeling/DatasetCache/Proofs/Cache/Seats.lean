import DatasetCache.Proofs.Cache.Frame
import DatasetCache.Proofs.Cache.Run
import DatasetCache.Proofs.Context.Growth
import DatasetCache.Proofs.Table

/-!
# Seats in the open context

Static, tracked and extra participants are kept apart from the participants of the open
context.  A cache is seated when all of them are enrolled there.  Every operation of the
cache keeps it seated, but for one: the removal of an extra can take away the seat of a
participant that is a static or a tracked one as well.
-/

namespace DatasetCache

open Act Context

variable {ε : Type}

/-! ## The tracker -/

namespace Tracker

theorem mem_participants_untrack {tracker : Tracker} {i : InstanceId} {p : Participant}
    (member : p ∈ (tracker.untrack i).2.participants) : p ∈ tracker.participants := by
  unfold untrack at member
  split at member
  next => exact member
  next key found =>
      obtain ⟨other, found⟩ := Table.mem_values_iff.1 member
      rw [Table.get?_erase] at found
      split at found
      · contradiction
      · exact Table.mem_values_iff.2 ⟨other, found⟩

theorem mem_participants_insert {tracker : Tracker} {key : Key} {p q : Participant}
    (member : q ∈ (Tracker.mk (tracker.active.insert key p)).participants) :
    q = p ∨ q ∈ tracker.participants := by
  obtain ⟨other, found⟩ := Table.mem_values_iff.1 member
  rw [Table.get?_insert] at found
  split at found
  · exact .inl (Option.some.inj found).symm
  · exact .inr (Table.mem_values_iff.2 ⟨other, found⟩)

theorem mem_participants_of_get? {tracker : Tracker} {key : Key} {p : Participant}
    (found : tracker.get? key = some p) : p ∈ tracker.participants :=
  Table.mem_values_iff.2 ⟨key, found⟩

variable (services : Services (Act ε)) {tracker : Tracker} {key : Key} {p q : Participant}

theorem track_new (absent : tracker.get? key = none) :
    tracker.track services key p = pure (.ok true, ⟨tracker.active.insert key p⟩) := by
  simp [track, absent]

theorem track_same (present : tracker.get? key = some q) (same : q.id = p.id) :
    tracker.track services key p = pure (.ok false, tracker) := by
  simp [track, present, same]

theorem track_other (present : tracker.get? key = some q) (other : q.id ≠ p.id) :
    tracker.track services key p = (do
      services.report ⟨.error, .cache, divergence key q p⟩
      return (.error (.inconsistent (divergence key q p)), tracker)) := by
  simp [track, present, other]

end Tracker

/-! ## The invariant -/

def Statics.Coherent (statics : Statics) : Prop :=
  ∀ key dataset p, statics.get? key = some dataset → dataset.participant = some p →
    p ∈ statics.participants

namespace Cache

def members (cache : Cache) : List Participant :=
  cache.statics.participants ++ cache.tracker.participants ++ cache.extras.members

/-- Every participant has its seat in the open context. -/
structure Seated (cache : Cache) (w : World ε) : Prop where
  coherent : cache.statics.Coherent
  live : ∀ {c}, cache.context = some c → Live c w
  has : ∀ {c}, cache.context = some c → ∀ p ∈ cache.members, (w.context c).has p = true

def Holds (cache : Cache) (dataset : Dataset) (w : World ε) : Prop :=
  ∀ {c p}, cache.context = some c → dataset.participant = some p → (w.context c).has p = true

/-- Removing a participant as an extra takes away no seat that is needed still: the
participant is in no context, or in a transaction, or neither static nor tracked. -/
def spares (cache : Cache) (p : Participant) (w : World ε) : Prop :=
  ∀ c, cache.context = some c → cache.extras.holds p = true →
    (w.context c).isActive = false →
    Participant.isIn p.id (cache.statics.participants ++ cache.tracker.participants) = false

namespace Seated

variable {cache : Cache} {w w' : World ε}

theorem grow (grows : Grows w w') (seated : Seated cache w) : Seated cache w' where
  coherent := seated.coherent
  live opened := (seated.live opened).grow grows
  has opened p member := grows.has (seated.live opened).inside (seated.has opened p member)

theorem fewer {next : Cache} (seated : Seated cache w) (statics : next.statics = cache.statics)
    (context : next.context = cache.context) (fewer : ∀ p ∈ next.members, p ∈ cache.members) :
    Seated next w where
  coherent := statics ▸ seated.coherent
  live opened := seated.live (context ▸ opened)
  has opened p member := seated.has (context ▸ opened) p (fewer p member)

theorem join {next : Cache} {p : Participant} (seated : Seated cache w) (grows : Grows w w')
    (statics : next.statics = cache.statics) (context : next.context = cache.context)
    (join : ∀ q ∈ next.members, q = p ∨ q ∈ cache.members)
    (seat : ∀ {c}, cache.context = some c → (w'.context c).has p = true) : Seated next w' where
  coherent := statics ▸ seated.coherent
  live opened := (seated.live (context ▸ opened)).grow grows
  has {c} opened q member := by
    have opened : cache.context = some c := context ▸ opened
    rcases join q member with rfl | member
    · exact seat opened
    · exact (seated.grow grows).has opened q member

theorem unopened (coherent : cache.statics.Coherent) (unopened : cache.context = none) :
    Seated cache w where
  coherent := coherent
  live opened := by simp [unopened] at opened
  has opened := by simp [unopened] at opened

end Seated

/-! ## Changes of the members -/

def tracking (cache : Cache) (key : Key) (p : Participant) : Cache :=
  { cache with tracker := ⟨cache.tracker.active.insert key p⟩ }

theorem mem_members_tracking {cache : Cache} {key : Key} {p q : Participant}
    (member : q ∈ (cache.tracking key p).members) : q = p ∨ q ∈ cache.members := by
  simp only [members, tracking, List.mem_append] at member ⊢
  rcases member with (member | member) | member
  · exact .inr (.inl (.inl member))
  · exact (Tracker.mem_participants_insert member).imp_right fun member => .inl (.inr member)
  · exact .inr (.inr member)

theorem mem_members_untrack {cache : Cache} {i : InstanceId} {p : Participant}
    (member : p ∈ { cache with tracker := (cache.tracker.untrack i).2 : Cache }.members) :
    p ∈ cache.members := by
  simp only [members, List.mem_append] at member ⊢
  exact member.imp_left fun member => member.imp_right Tracker.mem_participants_untrack

theorem members_erase {cache : Cache} {p q : Participant}
    (member : q ∈ ({ cache with extras := cache.extras.erase p } : Cache).members) :
    q ∈ cache.members ∧
      (q.id = p.id → q ∈ cache.statics.participants ++ cache.tracker.participants) := by
  simp only [members, Extras.erase, Participant.removeFrom, List.mem_append, List.mem_filter,
    bne_iff_ne] at member ⊢
  rcases member with member | ⟨member, other⟩
  · exact ⟨.inl member, fun _ => member⟩
  · exact ⟨.inr member, fun same => absurd same other⟩

/-! ## Parts of the operations -/

section Parts

variable (services : Services (Act ε)) (cache : Cache)

def openFresh : Act ε (Except Fault ContextId × Cache) := do
  let c ← Context.create cache.coordinator
  enrolAll services c cache.members
  services.debug .transactions "Opened transaction context"
  return (.ok c, { cache with context := some c })

theorem openContext_eq :
    cache.openContext services =
      if cache.closed then return (.error closedFault, cache)
      else
        match cache.context with
        | some previous => do (← cache.endContext services previous).openFresh services
        | none => cache.openFresh services := by
  unfold openContext
  split
  · rfl
  · cases cache.context <;> rfl

def welcome (p : Participant) : Act ε Unit :=
  match cache.context with
  | none => pure ()
  | some c => do
    if ← Context.enrol services c p then
      services.debug .transactions "Enrolled dataset in open context"

theorem register_new {key : Key} {dataset : Dataset} {p : Participant}
    (static : cache.statics.get? key = none) (capable : dataset.participant = some p)
    (absent : cache.tracker.get? key = none) :
    cache.register services key dataset = (do
      cache.welcome services p
      return (.ok (), cache.tracking key p)) := by
  funext w
  unfold register welcome
  rw [static, capable]
  dsimp only
  rw [bind_apply, Tracker.track_new services absent]
  cases opened : cache.context with
  | none => simp [tracking, opened]
  | some c =>
      simp only [tracking, opened, bind_apply, pure_apply]
      generalize enrol services c p w = enrolled
      obtain ⟨enrolled, w⟩ := enrolled
      cases enrolled <;> rfl

end Parts

/-! ## Operations that end the context -/

section Ends

variable (services : Services (Act ε)) (cache : Cache)

theorem releaseDeferred_rest (deferred : List Participant) (w : World ε) :
    let next := (cache.releaseDeferred services deferred w).1
    next.statics = cache.statics ∧ next.context = cache.context := by
  induction deferred generalizing cache w with
  | nil => exact ⟨rfl, rfl⟩
  | cons p rest ih =>
      unfold releaseDeferred
      simp only [bind_apply]
      generalize cache.store.evictInstance services p.id w = evicted
      obtain ⟨⟨found, store⟩, w⟩ := evicted
      have others := ih { cache with store, tracker := (cache.tracker.untrack p.id).2 }
      cases found with
      | true => exact others w
      | false => exact others (services.debug .cache "Deferred dataset was already released" w).2

theorem endContext_rest (c : ContextId) (w : World ε) :
    let next := (cache.endContext services c w).1
    next.statics = cache.statics ∧ next.context = none :=
  releaseDeferred_rest services { cache with context := none } _ _

theorem dismissContext_rest (w : World ε) :
    let next := (cache.dismissContext services w).1
    next.statics = cache.statics ∧ next.context = none := by
  unfold dismissContext
  cases opened : cache.context with
  | none => exact ⟨rfl, opened⟩
  | some c => exact endContext_rest services cache c w

theorem dismissContext_leads :
    Leads (Seated cache) (cache.dismissContext services) Seated := by
  intro w seated
  obtain ⟨statics, context⟩ := dismissContext_rest services cache w
  exact .unopened (statics ▸ seated.coherent) context

theorem reset_rest (w : World ε) :
    let next := (cache.reset services w).1.2
    next.statics = cache.statics ∧ next.context = none := by
  unfold reset
  cases cache.context <;> exact ⟨rfl, rfl⟩

theorem invalidate_leads :
    Leads (Seated cache) (cache.invalidate services) Seated := by
  intro w seated
  obtain ⟨statics, context⟩ := reset_rest services cache w
  unfold invalidate
  rw [bind_apply]
  generalize cache.reset services w = reset at statics context ⊢
  obtain ⟨⟨failures, next⟩, w⟩ := reset
  have seated : ∀ w : World ε, Seated next w := fun w =>
    .unopened (statics ▸ seated.coherent) context
  cases failures with
  | nil => exact seated _
  | cons failure rest => exact seated _

theorem close_leads :
    Leads (Seated cache) (cache.close services) fun answer => Seated answer.2 := by
  intro w seated
  unfold close
  split
  · exact seated
  have context := (reset_rest services { cache with closed := true }
    (cache.extras.closeAll services w).2).2
  simp only [bind_apply]
  generalize ({ cache with closed := true } : Cache).reset services
    (cache.extras.closeAll services w).2 = reset at context ⊢
  obtain ⟨⟨storeFailures, next⟩, w⟩ := reset
  have ending : ∀ failures : List String, Leads (fun _ => True)
      (if failures.isEmpty then do
        services.info .cache "Dataset cache closed"
        return (.ok (), { next with statics := {} })
      else
        return (.error (.cleanup failures), { next with statics := {} }) :
        Act ε (Except Fault Unit × Cache))
      fun answer => Seated answer.2 := by
    intro failures w _
    cases failures <;> exact .unopened (by simp [Statics.Coherent, Statics.get?]) context
  simp only [Statics.closeAll, bind_apply, pure_apply]
  cases (next.store.loader.close services
      (Statics.closeEach services next.statics.datasets.entries w).2).1 with
  | ok done => exact ending _ _ trivial
  | error fault => exact ending _ _ trivial

end Ends

/-! ## Extras -/

section Extra

variable (cache : Cache) (p : Participant) (w : World ε)

theorem addExtra_rest (services : Services (Act ε)) :
    ∃ extras, (cache.addExtra services p w).1 = { cache with extras } := by
  unfold addExtra
  split
  · exact ⟨cache.extras, rfl⟩
  · refine ⟨cache.extras.insert p, ?_⟩
    cases opened : cache.context <;> rfl

theorem removeExtra_rest : ∃ extras, (cache.removeExtra p w).1.2 = { cache with extras } := by
  unfold removeExtra
  split
  · refine ⟨cache.extras.erase p, ?_⟩
    cases opened : cache.context with
    | none => rfl
    | some c =>
        simp only [bind_apply]
        cases (withdraw c p w).1 <;> rfl
  · exact ⟨cache.extras, rfl⟩

end Extra

theorem removeExtra_leads (cache : Cache) (p : Participant) :
    Leads (fun w : World ε => Seated cache w ∧ cache.spares p w) (cache.removeExtra p)
      fun answer => Seated answer.2 := by
  rintro w ⟨seated, spared⟩
  unfold removeExtra
  split
  next held =>
      have fewer : Seated { cache with extras := cache.extras.erase p } w :=
        seated.fewer rfl rfl fun q member => (members_erase member).1
      cases opened : cache.context with
      | none =>
          rw [opened] at fewer
          exact fewer
      | some c =>
          rw [opened] at fewer
          have live := seated.live opened
          dsimp only
          rw [bind_apply]
          cases active : (w.context c).isActive with
          | true =>
              rw [withdraw_active active]
              exact fewer
          | false =>
              rw [withdraw_inactive active]
              dsimp only [pure_apply]
              refine ⟨seated.coherent, ?_, ?_⟩
              · rintro _ ⟨⟩
                constructor
                · simpa using live.inside
                · rw [World.context_update_self live.inside]
                  exact live.living
              · rintro _ ⟨⟩ q member
                rw [World.context_update_self live.inside, has_expel, fewer.has rfl q member]
                have stays := spared c opened held active
                have other : q.id ≠ p.id := by
                  intro same
                  have present := Participant.isIn_of_mem ((members_erase member).2 same)
                  rw [same, stays] at present
                  contradiction
                simpa using other
  next => exact seated

theorem removeExtra_unseats {cache : Cache} {p : Participant} {w : World ε} {c : ContextId}
    (seated : Seated cache w) (opened : cache.context = some c)
    (held : cache.extras.holds p = true) (inactive : (w.context c).isActive = false)
    (needed : Participant.isIn p.id
      (cache.statics.participants ++ cache.tracker.participants) = true) :
    let next := cache.removeExtra p w
    next.1.2.context = some c ∧
      ∃ q ∈ next.1.2.participants, (next.2.context c).has q = false := by
  unfold removeExtra
  rw [if_pos held, opened]
  dsimp only
  rw [bind_apply, withdraw_inactive inactive]
  dsimp only [pure_apply]
  refine ⟨rfl, ?_⟩
  have listed : Participant.isIn p.id
      ({ cache with extras := cache.extras.erase p, context := some c } : Cache).participants
        = true := by
    rw [Participant.isIn_append] at needed
    simp only [participants, Participant.isIn_foldl_addTo, Participant.isIn_append]
    rcases Bool.or_eq_true_iff.1 needed with static | tracked
    · simp [static]
    · simp [tracked]
  obtain ⟨q, member, same⟩ := List.any_eq_true.1 listed
  refine ⟨q, member, ?_⟩
  rw [World.context_update_self (seated.live opened).inside, has_expel]
  simp_all

/-! ## Operations that use the context -/

section Uses

variable {services : Services (Act ε)} (keep : services.Keep Grows)

include keep

theorem welcome_keeps (cache : Cache) (p : Participant) :
    Keeps Grows (cache.welcome services p) := by
  have order := grows_order (ε := ε)
  unfold welcome
  split
  · exact .pure order _
  · refine .bind order (enrol_grows keep _ p) fun enrolled => ?_
    split
    · exact keep.report _
    · exact .pure order _

theorem welcome_has {cache : Cache} {w : World ε} {c : ContextId} (live : Live c w)
    (opened : cache.context = some c) (p : Participant) :
    ((cache.welcome services p w).2.context c).has p = true := by
  have grows := enrol_grows keep c p w
  have seat := enrol_has keep live p
  simp only [welcome, opened, bind_apply]
  generalize enrol services c p w = enrolled at grows seat ⊢
  obtain ⟨enrolled, next⟩ := enrolled
  cases enrolled with
  | false => exact seat
  | true => exact (keep.report _ next).has (live.grow grows).inside seat

theorem fetch_leads (cache : Cache) (key : Key) (bypass : Bool) :
    Leads (Seated cache) (cache.fetch services key bypass) fun answer w =>
      Seated answer.2 w ∧ ∀ dataset, answer.1 = .ok dataset → bypass = false →
        ∀ known, answer.2.statics.get? key = some known → known = dataset := by
  intro w seated
  unfold fetch
  split
  · exact ⟨seated, by simp⟩
  cases found : (if bypass then none else cache.statics.get? key) with
  | some dataset =>
      refine ⟨seated, ?_⟩
      rintro answer same rfl known present
      simp_all
  | none =>
      have grows := Store.get_keeps grows_order keep.supply.toLends cache.store key bypass w
      simp only [bind_apply]
      generalize cache.store.get services key bypass w = got at grows ⊢
      obtain ⟨⟨answer, store⟩, next⟩ := got
      refine ⟨(seated.grow grows).fewer rfl rfl fun _ member => member, ?_⟩
      rintro dataset - rfl known present
      simp_all

theorem register_leads (cache : Cache) (key : Key) (dataset : Dataset)
    (fits : ∀ known, cache.statics.get? key = some known → known = dataset) :
    Leads (Seated cache) (cache.register services key dataset) fun answer w =>
      Seated answer.2 w ∧ (answer.1 = .ok () → Holds answer.2 dataset w) := by
  intro w seated
  cases static : cache.statics.get? key with
  | some known =>
      obtain rfl := fits known static
      simp only [register, static, pure_apply]
      refine ⟨seated, fun _ c p opened capable => seated.has opened p ?_⟩
      have member := seated.coherent _ _ _ static capable
      simp [members, member]
  | none =>
      cases capable : dataset.participant with
      | none =>
          simp only [register, static, capable, pure_apply]
          refine ⟨seated, fun _ c p _ other => ?_⟩
          rw [capable] at other
          contradiction
      | some p =>
          cases present : cache.tracker.get? key with
          | none =>
              rw [register_new services cache static capable present]
              have grows := welcome_keeps keep cache p w
              refine ⟨seated.join grows rfl rfl (fun q => mem_members_tracking) ?_, ?_⟩
              · exact fun opened => welcome_has keep (seated.live opened) opened p
              · intro _ c q opened other
                obtain rfl : p = q := Option.some.inj (capable.symm.trans other)
                exact welcome_has keep (seated.live opened) opened p
          | some q =>
              simp only [register, static, capable]
              by_cases same : q.id = p.id
              · rw [bind_apply, Tracker.track_same services present same]
                refine ⟨seated, fun _ c r opened other => ?_⟩
                obtain rfl : p = r := Option.some.inj (capable.symm.trans other)
                have member := Tracker.mem_participants_of_get? present
                rw [← has_congr same]
                exact seated.has opened q (by simp [members, member])
              · rw [bind_apply, Tracker.track_other services present same]
                have grows := keep.report ⟨.error, .cache, Tracker.divergence key q p⟩ w
                exact ⟨seated.grow grows, by simp⟩

theorem acquire_leads (cache : Cache) (key : Key) (bypass : Bool)
    (check : Dataset → Except Fault Unit) :
    Leads (Seated cache) (cache.acquire services key bypass check) fun answer w =>
      Seated answer.2 w ∧
        ∀ dataset, answer.1 = .ok dataset → bypass = false → Holds answer.2 dataset w := by
  intro w seated
  obtain ⟨fetched, fits⟩ := fetch_leads keep cache key bypass w seated
  unfold acquire
  rw [bind_apply]
  generalize cache.fetch services key bypass w = got at fetched fits ⊢
  obtain ⟨⟨answer, cache⟩, w⟩ := got
  cases answer with
  | error fault => exact ⟨fetched, by simp⟩
  | ok dataset =>
      dsimp only at fetched fits ⊢
      cases check dataset with
      | error fault => exact ⟨fetched, by simp⟩
      | ok passed =>
          cases bypass with
          | true => exact ⟨fetched, by simp⟩
          | false =>
              obtain ⟨registered, holds⟩ :=
                register_leads keep cache key dataset (fits dataset rfl rfl) w fetched
              simp only [Bool.false_eq_true, if_false, bind_apply]
              generalize cache.register services key dataset w = done at registered holds ⊢
              obtain ⟨⟨answer, cache⟩, w⟩ := done
              cases answer with
              | error fault => exact ⟨registered, by simp⟩
              | ok done =>
                  refine ⟨registered, ?_⟩
                  rintro _ ⟨⟩ -
                  exact holds rfl

theorem release_leads (cache : Cache) (dataset : Dataset) :
    Leads (Seated cache) (dismiss.release services dataset cache) Seated := by
  intro w seated
  have grows := Store.evictInstance_keeps grows_order keep.supply cache.store dataset.id w
  unfold dismiss.release
  rw [bind_apply]
  generalize cache.store.evictInstance services dataset.id w = evicted at grows ⊢
  obtain ⟨⟨found, store⟩, next⟩ := evicted
  have seated : Seated { cache with store } next :=
    (seated.grow grows).fewer rfl rfl fun _ member => member
  cases found with
  | true => exact seated
  | false => exact seated.grow (keep.report _ next)

theorem dismiss_leads (cache : Cache) (dataset : Dataset) :
    Leads (Seated cache) (cache.dismiss services dataset) Seated := by
  intro w seated
  unfold dismiss
  split
  · exact seated.grow (keep.report _ w)
  have seated : Seated { cache with tracker := (cache.tracker.untrack dataset.id).2 } w :=
    seated.fewer rfl rfl fun p => mem_members_untrack
  generalize { cache with tracker := (cache.tracker.untrack dataset.id).2 } = cache at seated ⊢
  have released := release_leads keep cache dataset w seated
  cases opened : cache.context with
  | none => simpa only [opened] using released
  | some c =>
      cases capable : dataset.participant with
      | none => simpa only [opened] using released
      | some p =>
          simp only [opened]
          split
          · exact (seated.grow (keep.report _ w)).grow (grows_queue _ c p)
          · exact released

theorem enrolAll_keeps (c : ContextId) (ps : List Participant) :
    Keeps Grows (enrolAll services c ps) := by
  have order := grows_order (ε := ε)
  induction ps with
  | nil => exact .pure order _
  | cons p rest ih => exact .bind order (enrol_grows keep c p) fun _ => ih

theorem enrolAll_has {c : ContextId} {w : World ε} (live : Live c w) {ps : List Participant}
    {p : Participant} (member : p ∈ ps) :
    ((enrolAll services c ps w).2.context c).has p = true := by
  induction ps generalizing w with
  | nil => simp at member
  | cons q rest ih =>
      have grows := enrol_grows keep c q w
      have live' := live.grow grows
      rcases List.mem_cons.1 member with rfl | member
      · have later := enrolAll_keeps keep c rest (enrol services c p w).2
        exact later.has live'.inside (enrol_has keep live p)
      · exact ih live' member

omit keep in
theorem create_live (k : CoordinatorId) (w : World ε) :
    Live w.contexts.length (Context.create k w).2 := by
  constructor
  · simp
  · rw [World.context_create_self]
    rfl

theorem openFresh_leads {cache : Cache} (coherent : cache.statics.Coherent) :
    Leads (fun _ => True) (cache.openFresh services) fun answer => Seated answer.2 := by
  intro w _
  have live := create_live cache.coordinator w
  have grows := enrolAll_keeps keep w.contexts.length cache.members
    (Context.create cache.coordinator w).2
  have seated : Seated { cache with context := some w.contexts.length }
      (enrolAll services w.contexts.length cache.members
        (Context.create cache.coordinator w).2).2 := by
    refine ⟨coherent, ?_, ?_⟩
    · rintro _ ⟨⟩
      exact live.grow grows
    · rintro _ ⟨⟩ p member
      exact enrolAll_has keep live member
  exact seated.grow (keep.report _ _)

theorem openContext_leads (cache : Cache) :
    Leads (Seated cache) (cache.openContext services) fun answer => Seated answer.2 := by
  intro w seated
  rw [openContext_eq]
  split
  · exact seated
  cases cache.context with
  | none => exact openFresh_leads keep seated.coherent _ trivial
  | some previous =>
      obtain ⟨statics, -⟩ := endContext_rest services cache previous w
      have coherent : (cache.endContext services previous w).1.statics.Coherent := by
        rw [statics]
        exact seated.coherent
      exact openFresh_leads keep coherent _ trivial

theorem addExtra_leads (cache : Cache) (p : Participant) :
    Leads (Seated cache) (cache.addExtra services p) Seated := by
  intro w seated
  unfold addExtra
  split
  · exact seated
  have joins : ∀ q ∈ ({ cache with extras := cache.extras.insert p } : Cache).members,
      q = p ∨ q ∈ cache.members := by
    intro q member
    simp only [members, Extras.insert, List.mem_append] at member ⊢
    rcases member with member | member
    · exact .inr (.inl member)
    · exact (Participant.mem_addTo member).symm.imp_right .inr
  cases opened : cache.context with
  | none =>
      refine seated.join (grows_order.refl w) rfl opened.symm joins ?_
      simp [opened]
  | some c =>
      have grows := enrol_grows keep c p w
      refine seated.join grows rfl opened.symm joins ?_
      intro other same
      obtain rfl : c = other := Option.some.inj (opened.symm.trans same)
      exact enrol_has keep (seated.live opened) p

theorem enter_leads (cache : Cache) :
    Leads (Seated cache) (cache.enter services) fun answer => Seated answer.2 := by
  intro w seated
  have opened := openContext_leads keep cache w seated
  unfold enter
  rw [bind_apply]
  generalize cache.openContext services w = context at opened ⊢
  obtain ⟨⟨answer, next⟩, w⟩ := context
  cases answer with
  | error fault => exact opened
  | ok c =>
      have starts := start_keeps grows_order keep c (fun w => grows_enter w c) w
      dsimp only
      rw [bind_apply]
      generalize Context.start services c w = started at starts ⊢
      obtain ⟨answer, w⟩ := started
      cases answer with
      | error fault => exact dismissContext_leads services next w (opened.grow starts)
      | ok tx => exact opened.grow starts

theorem leave_leads (cache : Cache) (c : ContextId) (failure : Option Fault) :
    Leads (Seated cache) (cache.leave services c failure) fun answer => Seated answer.2 := by
  have leaves := fun w : World ε => grows_leave w c
  have finishes := finish_keeps grows_order keep c leaves
  have aborts := abort_keeps grows_order keep c leaves
  intro w seated
  unfold leave
  cases failure with
  | none =>
      simp only [bind_apply]
      have grows := finishes w
      generalize Context.finish services c w = finished at grows ⊢
      obtain ⟨answer, w⟩ := finished
      cases answer <;> exact dismissContext_leads services cache w (seated.grow grows)
  | some fault =>
      simp only [bind_apply]
      have grows := aborts fault.message w
      generalize Context.abort services c fault.message w = aborted at grows ⊢
      obtain ⟨answer, w⟩ := aborted
      cases answer with
      | ok done => exact dismissContext_leads services cache w (seated.grow grows)
      | error failure =>
          exact dismissContext_leads services cache _ ((seated.grow grows).grow (keep.report _ w))

end Uses

end Cache

end DatasetCache
