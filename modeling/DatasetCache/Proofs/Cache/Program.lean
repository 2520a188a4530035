import DatasetCache.Proofs.Cache.Ledger
import DatasetCache.Proofs.Cache.Moves

/-!
# Programs that run in a transaction

What a cache runs in a transaction is a program of its owner: actions on the cache and on
contexts, changes of what the services keep, such as the contents of datasets, and other
programs that run in a transaction within.  It decides what to do next by all that it sees.
-/

namespace DatasetCache

open Act

variable {ε : Type}

namespace World

def bare (w : World (Journal (Ledger ε))) : World ε :=
  { contexts := w.contexts, outside := w.outside.inner.inner }

def working (w : World (Journal (Ledger ε))) (change : ε → ε) : World (Journal (Ledger ε)) :=
  let ledger := w.outside.inner
  { w with outside := { w.outside with inner := { ledger with inner := change ledger.inner } } }

end World

theorem books_working (w : World (Journal (Ledger ε))) (change : ε → ε) :
    Books [] w (w.working change) := ⟨rfl, rfl, (List.append_nil _).symm⟩

namespace Cache

/-! ## Runs of bodies -/

section Execute

variable {services : Services (Act ε)} {α : Type} {cache : Cache} {w w' : World ε}

theorem execute_refused {fault : Fault} {left : Cache}
    (refused : cache.enter services w = ((.error fault, left), w'))
    (body : Cache → Act ε (Except Fault α × Cache)) :
    cache.execute services body w = ((.error fault, left), w') := by
  rw [execute_eq, bind_apply, refused]
  rfl

theorem execute_begun {c : ContextId} {opened : Cache}
    (entered : cache.enter services w = ((.ok c, opened), w'))
    (body : Cache → Act ε (Except Fault α × Cache)) :
    cache.execute services body w =
      let ended := body opened w'
      let left := ended.1.2.leave services c (failure ended.1.1) ended.2
      ((result ended.1.1 left.1.1, left.1.2), left.2) := by
  rw [execute_eq, bind_apply, entered]
  rfl

end Execute

/-! ## Programs -/

def Action.whole : Action → Bool
  | .enter | .leave _ => false
  | _ => true

inductive Program (ε : Type) : Type → Type 1 where
  | done {α : Type} (answer : Except Fault α) : Program ε α
  | look {α : Type} (next : Cache → World ε → Program ε α) : Program ε α
  | work {α : Type} (change : ε → ε) (next : Program ε α) : Program ε α
  | act {α : Type} (action : Action) (whole : action.whole = true)
      (next : Answer → Program ε α) : Program ε α
  | execute {α β : Type} (body : Program ε β) (next : Except Fault β → Program ε α) : Program ε α

namespace Program

variable (services : Services (Act (Journal (Ledger ε))))

def run : {α : Type} → Program ε α → Cache → Act (Journal (Ledger ε)) (Except Fault α × Cache)
  | _, .done answer, cache => return (answer, cache)
  | _, .look next, cache => fun w => (next cache w.bare).run cache w
  | _, .work change next, cache => fun w => next.run cache (w.working change)
  | _, .act action _ next, cache => do
    let (answer, s) ← Session.run services { cache } action
    (next answer).run s.cache
  | _, .execute body next, cache => do
    let (answer, cache) ← cache.execute services body.run
    (next answer).run cache

def Obeys (allowed : World (Journal (Ledger ε)) → Action → Prop) :
    {α : Type} → Program ε α → Cache → World (Journal (Ledger ε)) → Prop
  | _, .done _, _, _ => True
  | _, .look next, cache, w => (next cache w.bare).Obeys allowed cache w
  | _, .work change next, cache, w => next.Obeys allowed cache (w.working change)
  | _, .act action _ next, cache, w =>
    let after := Session.run services { cache } action w
    allowed w action ∧ (next after.1.1).Obeys allowed after.1.2.cache after.2
  | _, .execute body next, cache, w =>
    let entered := cache.enter services w
    let ran := cache.execute services (body.run services) w
    allowed w .enter ∧ (∀ c, entered.1.1 = .ok c → body.Obeys allowed entered.1.2 entered.2) ∧
      (next ran.1.1).Obeys allowed ran.1.2 ran.2

/-- A run comes through a state, and this is the action that it does there, if it does one. -/
def Passes (state : Cache × World (Journal (Ledger ε))) (action : Option Action) :
    {α : Type} → Program ε α → Cache → World (Journal (Ledger ε)) → Prop
  | _, .done _, cache, w => state = (cache, w) ∧ action = none
  | _, .look next, cache, w => (next cache w.bare).Passes state action cache w
  | _, .work change next, cache, w =>
    state = (cache, w) ∧ action = none ∨ next.Passes state action cache (w.working change)
  | _, .act here _ next, cache, w =>
    let after := Session.run services { cache } here w
    state = (cache, w) ∧ action = some here ∨
      (next after.1.1).Passes state action after.1.2.cache after.2
  | _, .execute body next, cache, w =>
    let entered := cache.enter services w
    let ran := cache.execute services (body.run services) w
    state = (cache, w) ∧ action = some .enter ∨
      (∃ c, entered.1.1 = .ok c ∧ body.Passes state action entered.1.2 entered.2) ∨
      (next ran.1.1).Passes state action ran.1.2 ran.2

theorem passes_end {α : Type} (program : Program ε α) (cache : Cache)
    (w : World (Journal (Ledger ε))) :
    let ran := program.run services cache w
    program.Passes services (ran.1.2, ran.2) none cache w := by
  induction program generalizing cache w with
  | done answer => exact ⟨rfl, rfl⟩
  | look next ih => exact ih cache w.bare cache w
  | work change next ih => exact .inr (ih cache _)
  | act action whole next ih => exact .inr (ih _ _ _)
  | execute body next inner ih => exact .inr (.inr (ih _ _ _))

section Keeping

variable {services} {α : Type} {P : Cache × World (Journal (Ledger ε)) → Prop}
  (works : ∀ {cache w} change, P (cache, w) → P (cache, w.working change))

include works

/-- What the actions of a program keep, and the beginning and the end of each body in it, holds
of all states that the program comes through.  What is known of the context that a body begins
in is known when it ends. -/
theorem passes_keeps (own : ContextId → Prop)
    {allowed : World (Journal (Ledger ε)) → Action → Prop}
    (acts : ∀ {cache w action}, action.whole = true → allowed w action → P (cache, w) →
      let after := Session.run services { cache } action w
      P (after.1.2.cache, after.2))
    (enters : ∀ {cache w}, allowed w .enter → P (cache, w) →
      let entered := cache.enter services w
      P (entered.1.2, entered.2) ∧ ∀ c, entered.1.1 = .ok c → own c)
    (leaves : ∀ {cache w c} failure, own c → P (cache, w) →
      let left := cache.leave services c failure w
      P (left.1.2, left.2))
    (program : Program ε α) {cache : Cache} {w : World (Journal (Ledger ε))}
    (obeys : program.Obeys services allowed cache w) (here : P (cache, w))
    {state : Cache × World (Journal (Ledger ε))} {action : Option Action}
    (passed : program.Passes services state action cache w) : P state := by
  induction program generalizing cache w state action with
  | done answer =>
      obtain ⟨rfl, -⟩ := passed
      exact here
  | look next ih => exact ih cache w.bare obeys here passed
  | work change next ih =>
      rcases passed with ⟨rfl, -⟩ | passed
      · exact here
      · exact ih obeys (works change here) passed
  | act action whole next ih =>
      rcases passed with ⟨rfl, -⟩ | passed
      · exact here
      · exact ih _ obeys.2 (acts whole obeys.1 here) passed
  | execute body next inner ih =>
      obtain ⟨may, within, later⟩ := obeys
      obtain ⟨begun, owned⟩ := enters may here
      have ended : P ((cache.execute services (body.run services) w).1.2,
          (cache.execute services (body.run services) w).2) := by
        rcases entered : cache.enter services w with ⟨⟨fault | c, opened⟩, w'⟩
        all_goals rw [entered] at begun owned within
        · rw [execute_refused entered]
          exact begun
        · rw [execute_begun entered]
          exact leaves _ (owned c rfl) (inner (within c rfl) begun (passes_end services body _ _))
      rcases passed with ⟨rfl, -⟩ | ⟨c, entered, passed⟩ | passed
      · exact here
      · exact inner (within c entered) begun passed
      · exact ih _ later ended passed

variable
    (step : ∀ {running action before after}, Move services running action before after →
      P before → P after)

include step

variable (services) in
theorem run_induct (program : Program ε α) {cache : Cache} {w : World (Journal (Ledger ε))}
    (here : P (cache, w)) :
    let ran := program.run services cache w
    P (ran.1.2, ran.2) := by
  have obeys : program.Obeys services (fun _ _ => True) cache w := by
    clear here
    induction program generalizing cache w with
    | done answer => trivial
    | look next ih => exact ih _ _
    | work change next ih => exact ih
    | act action whole next ih => exact ⟨trivial, ih _⟩
    | execute body next inner ih => exact ⟨trivial, fun _ _ => inner, ih _⟩
  refine passes_keeps works (fun _ => True) ?_ ?_ ?_ program obeys here (passes_end _ _ _ _)
  · exact fun _ _ here => Cache.run_induct services _ _ _ here step
  · exact fun _ here => ⟨(enter_moves services [] rfl _ _).1.keeps here step, fun _ _ => trivial⟩
  · exact fun failure _ here =>
      (leave_moves services [_] rfl List.mem_cons_self _ _).keeps here step

variable (services) in
theorem passes_induct (program : Program ε α) {cache : Cache} {w : World (Journal (Ledger ε))}
    {state : Cache × World (Journal (Ledger ε))} {action : Option Action}
    (passed : program.Passes services state action cache w) (there : P state) :
    let ran := program.run services cache w
    P (ran.1.2, ran.2) := by
  induction program generalizing cache w state action with
  | done answer =>
      obtain ⟨rfl, -⟩ := passed
      exact there
  | look next ih => exact ih cache w.bare passed there
  | work change next ih =>
      rcases passed with ⟨rfl, -⟩ | passed
      · exact run_induct services works step (.work change next) there
      · exact ih passed there
  | act here whole next ih =>
      rcases passed with ⟨rfl, -⟩ | passed
      · exact run_induct services works step (.act here whole next) there
      · exact ih _ passed there
  | execute body next inner ih =>
      rcases passed with ⟨rfl, -⟩ | ⟨c, entered, passed⟩ | passed
      · exact run_induct services works step (.execute body next) there
      · have begun : cache.enter services w =
            ((.ok c, (cache.enter services w).1.2), (cache.enter services w).2) :=
          Prod.ext (Prod.ext entered rfl) rfl
        have ended : P ((cache.execute services (body.run services) w).1.2,
            (cache.execute services (body.run services) w).2) := by
          rw [execute_begun begun]
          exact (leave_moves services [c] rfl List.mem_cons_self _ _).keeps (inner passed there)
            step
        exact run_induct services works step (next _) ended
      · exact ih _ passed there

end Keeping

end Program

end Cache

end DatasetCache
