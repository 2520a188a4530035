import DatasetCache.Proofs.Cache.Moves
import DatasetCache.Proofs.Shared.Flight

/-!
# Caches that share a coordinator

Any number of caches share one coordinator, and whoever has a handle on a context uses it
at any time, also when the cache that has opened it has moved on.  A cache leaves open at
most the context that it calls its own, and the transactions in flight are those of the
contexts that are active.
-/

namespace DatasetCache

open Act Context Coordinator Cache

variable {ε : Type}

/-! ## Systems -/

structure System where
  sessions : List Session := []
  owners : List Nat := []

inductive Deed where
  | create (instantiator : InstantiatorId) (config : Config) (metrics : Option MetricsId)
  | act (i : Nat) (action : Action)

/-- Operations are for contexts that exist, since nobody has a handle on any other. -/
def Cache.Action.usable (contexts : List Context) : Action → Bool
  | .use operation => operation.target < contexts.length
  | _ => true

namespace System

variable (base : Services (StateM ε)) (k : CoordinatorId)

def step (system : System) (deed : Deed) : Act (Shared ε) System := fun w =>
  match deed with
  | .create instantiator config metrics =>
    match Cache.create base.sharing instantiator k config metrics w with
    | (.ok cache, next) => ({ system with sessions := system.sessions ++ [{ cache }] }, next)
    | (.error _, next) => (system, next)
  | .act i action =>
    match system.sessions[i]? with
    | none => (system, w)
    | some session =>
      if action.usable w.contexts then
        let ((_, session), next) := session.run base.sharing action w
        let opened := next.contexts.length - w.contexts.length
        ({ sessions := system.sessions.set i session
           owners := system.owners ++ List.replicate opened i },
          next)
      else (system, w)

def runAll (system : System) : List Deed → Act (Shared ε) System
  | [] => return system
  | deed :: rest => do (← system.step base k deed).runAll rest

end System

/-! ## What leaves the contexts as they are -/

theorem quiet_order : Order (Passage (ε := ε) id []) where
  refl := .none
  trans first rest := first.append rest

theorem sharing_supply (base : Services (StateM ε)) : base.sharing.Supply (Passage id []) := by
  refine ⟨⟨?_, ?_, ?_⟩, ?_, ?_, ?_⟩ <;> intros <;> exact fun w => passage_within w _

/-! ## What does not open a context again -/

/-- Contexts and coordinator stay in step, and a closed context stays closed. -/
structure Stays (w w' : World (Shared ε)) : Prop where
  flying : Flying w'
  length : w'.contexts.length = w.contexts.length
  closed : ∀ {c}, (w.context c).isClosed = true → (w'.context c).isClosed = true

namespace Stays

variable {w w' w'' : World (Shared ε)}

theorem refl (flying : Flying w) : Stays w w := ⟨flying, rfl, fun closed => closed⟩

theorem trans (first : Stays w w') (rest : Stays w' w'') : Stays w w'' :=
  ⟨rest.flying, rest.length.trans first.length, fun closed => rest.closed (first.closed closed)⟩

theorem quiet (flying : Flying w) (passage : Passage id [] w w') : Stays w w' :=
  ⟨flying.quiet passage rfl, congrArg List.length passage.contexts,
    fun closed => by rwa [passage.context]⟩

theorem operation (base : Services (StateM ε)) (flying : Flying w) (operation : Operation)
    (inside : operation.target < w.contexts.length) :
    Stays w (operation.run base.sharing w).2 := by
  have deals := run_deals base (flying.proper_at operation.target) fun _ => flying.found
  refine ⟨flying.deals inside deals, ?_, fun {c} closed => ?_⟩
  all_goals obtain ⟨f, more, -, tame, passage⟩ := deals
  · exact (congrArg List.length passage.contexts).trans (List.length_modify ..)
  · rcases passage.context_cases c with same | ⟨rfl, same⟩
    · rwa [same]
    · rw [same]
      exact tame.closed closed

end Stays

/-! ## One cache at work -/

structure Minds (own : ContextId → Prop) (start : World (Shared ε)) (cache : Cache)
    (w : World (Shared ε)) : Prop where
  flying : Flying w
  length : start.contexts.length ≤ w.contexts.length
  closed : ∀ {c}, c < start.contexts.length → (start.context c).isClosed = true →
    (w.context c).isClosed = true
  inside : ∀ {c}, cache.context = some c → c < w.contexts.length
  alone : ∀ {c}, own c ∨ start.contexts.length ≤ c → c < w.contexts.length →
    (w.context c).isClosed = false → cache.context = some c

namespace Minds

variable {own : ContextId → Prop} {start w w' : World (Shared ε)} {cache next : Cache}

theorem stays (minds : Minds own start cache w) (stays : Stays w w')
    (context : next.context = cache.context) : Minds own start next w' where
  flying := stays.flying
  length := stays.length ▸ minds.length
  closed inside closed := stays.closed (minds.closed inside closed)
  inside opened := stays.length ▸ minds.inside (context ▸ opened)
  alone own inside living := by
    rw [context]
    refine minds.alone own (stays.length ▸ inside) ?_
    rw [← Bool.not_eq_true] at living ⊢
    exact fun closed => living (stays.closed closed)

theorem quiet (minds : Minds own start cache w) (passage : Passage id [] w w')
    (context : next.context = cache.context) : Minds own start next w' :=
  minds.stays (.quiet minds.flying passage) context

theorem ended (minds : Minds own start cache w) (stays : Stays w w')
    (ended : ∀ {c}, cache.context = some c → (w'.context c).isClosed = true)
    (context : next.context = none) : Minds own start next w' where
  flying := stays.flying
  length := stays.length ▸ minds.length
  closed inside closed := stays.closed (minds.closed inside closed)
  inside opened := by simp [context] at opened
  alone {c} own inside living := by
    rw [← Bool.not_eq_true] at living
    have lived : (w.context c).isClosed = false := by
      rw [← Bool.not_eq_true]
      exact fun closed => living (stays.closed closed)
    exact absurd (ended (minds.alone own (stays.length ▸ inside) lived)) living

theorem opened (minds : Minds own start cache w) (unopened : cache.context = none)
    (k : CoordinatorId) (stays : Stays (Context.create k w).2 w')
    (context : next.context = some w.contexts.length) : Minds own start next w' := by
  have length : w'.contexts.length = w.contexts.length + 1 := by
    rw [stays.length, World.length_create]
  have minded := minds.length
  refine ⟨stays.flying, by omega, fun {c} inside closed => stays.closed ?_, fun {c} opened => ?_,
    fun {c} own inside living => ?_⟩
  · rw [World.context_create_of_ne (Nat.ne_of_lt (Nat.lt_of_lt_of_le inside minded))]
    exact minds.closed inside closed
  · obtain rfl := Option.some.inj (context.symm.trans opened)
    rw [length]
    exact Nat.lt_succ_self _
  · rw [context, Option.some.injEq]
    by_contra other
    rw [← Bool.not_eq_true] at living
    have lived : (w.context c).isClosed = false := by
      rw [← Bool.not_eq_true, ← World.context_create_of_ne (k := k) (Ne.symm other)]
      exact fun closed => living (stays.closed closed)
    rw [length] at inside
    have known := minds.alone own
      (Nat.lt_of_le_of_ne (Nat.le_of_lt_succ inside) (Ne.symm other)) lived
    rw [unopened] at known
    cases known

end Minds

/-! ## Every move -/

theorem flying_create {w : World (Shared ε)} (flying : Flying w) (k : CoordinatorId) :
    Flying (Context.create k w).2 where
  ruled := flying.ruled
  proper := by
    intro context member
    rcases List.mem_append.1 member with member | member
    · exact flying.proper context member
    · rw [List.mem_singleton.1 member]
      exact ⟨rfl, List.nodup_nil⟩
  keys := by
    have same : currents (Context.create k w).2.contexts = currents w.contexts := by
      simp [Context.create, currents]
    rw [same]
    exact flying.keys
  accounted := flying.accounted

section Parts

variable (base : Services (StateM ε)) {w : World (Shared ε)} (flying : Flying w)

include flying

theorem enrol_stays {c : ContextId} (inside : c < w.contexts.length) (p : Participant) :
    Stays w (Context.enrol base.sharing c p w).2 :=
  .operation base flying (.enrol c p) inside

theorem enrolAll_stays {c : ContextId} (inside : c < w.contexts.length) (ps : List Participant) :
    Stays w (enrolAll base.sharing c ps w).2 := by
  induction ps generalizing w with
  | nil => exact .refl flying
  | cons p rest ih =>
      have first := enrol_stays base flying inside p
      exact first.trans (ih first.flying (first.length.symm ▸ inside))

theorem welcome_stays {cache : Cache} (inside : ∀ {c}, cache.context = some c →
    c < w.contexts.length) (p : Participant) : Stays w (cache.welcome base.sharing p w).2 := by
  unfold welcome
  cases opened : cache.context with
  | none => exact .refl flying
  | some c =>
      have enrols := enrol_stays base flying (inside opened) p
      simp only [bind_apply]
      cases (Context.enrol base.sharing c p w).1 with
      | false => exact enrols
      | true => exact enrols.trans (.quiet enrols.flying (passage_report base _ _))

theorem addExtra_stays {cache : Cache} (inside : ∀ {c}, cache.context = some c →
    c < w.contexts.length) (p : Participant) : Stays w (cache.addExtra base.sharing p w).2 := by
  unfold addExtra
  split
  · exact .refl flying
  · cases opened : cache.context with
    | none => exact .refl flying
    | some c => exact enrol_stays base flying (inside opened) p

include base in
theorem removeExtra_stays {cache : Cache} (inside : ∀ {c}, cache.context = some c →
    c < w.contexts.length) (p : Participant) : Stays w (cache.removeExtra p w).2 := by
  unfold removeExtra
  split
  · cases opened : cache.context with
    | none => exact .refl flying
    | some c =>
        have withdraws : Stays w (Context.withdraw c p w).2 :=
          .operation base flying (.withdraw c p) (inside opened)
        simp only [bind_apply]
        cases (Context.withdraw c p w).1 <;> exact withdraws
  · exact .refl flying

theorem close_stays {c : ContextId} (inside : c < w.contexts.length) :
    Stays w (Context.close base.sharing c w).2 ∧
      ((Context.close base.sharing c w).2.context c).isClosed = true := by
  refine ⟨.operation base flying (.cleanup c) inside, ?_⟩
  obtain ⟨more, passage, -⟩ := (sharing_tells base).closing (flying.proper_at c).consistent
  rw [passage.context_self inside]
  rfl

end Parts

section Moves

variable {base : Services (StateM ε)} {running : List ContextId} {action : Action}
  {own : ContextId → Prop} {start : World (Shared ε)}

theorem minds_move (usable : action.usable start.contexts = true)
    (known : ∀ c ∈ running, c < start.contexts.length) {before after : Cache × World (Shared ε)}
    (move : Cache.Move base.sharing running action before after)
    (minds : Minds own start before.1 before.2) : Minds own start after.1 after.2 := by
  have supply := sharing_supply base
  have order := quiet_order (ε := ε)
  have flying := minds.flying
  cases move with
  | log d => exact minds.quiet (supply.report d _) rfl
  | @operate cache w operation asked =>
      have inside : operation.target < w.contexts.length := by
        have earlier : ∀ {c}, c < start.contexts.length → c < w.contexts.length :=
          fun inside => Nat.lt_of_lt_of_le inside minds.length
        cases action with
        | use other =>
            obtain rfl : operation = other := asked
            exact earlier (of_decide_eq_true usable)
        | enter =>
            obtain ⟨c, opened, rfl⟩ := asked
            exact minds.inside opened
        | leave failure =>
            cases failure with
            | none =>
                obtain ⟨c, member, rfl⟩ := asked
                exact earlier (known c member)
            | some fault =>
                obtain ⟨c, member, rfl⟩ := asked
                exact earlier (known c member)
        | _ => cases asked
      exact minds.stays (.operation base flying operation inside) rfl
  | count stats => exact minds.quiet (.none _) rfl
  | miss failed => exact minds.quiet (Loader.load_keeps order supply.toLends _ _ _) rfl
  | bypass asked => exact minds.quiet (Loader.load_keeps order supply.toLends _ _ _) rfl
  | load asked => exact minds.quiet (Loader.load_keeps order supply.toLends _ _ _) rfl
  | track asked => exact minds.stays (welcome_stays base flying minds.inside _) rfl
  | @defer cache w dataset c p asked dynamic opened =>
      exact minds.stays (.operation base flying (.defer c p) (minds.inside opened)) rfl
  | release asked =>
      exact minds.quiet (Store.evictInstance_keeps order supply _ _ _) rfl
  | @endContext cache w c ends opened =>
      obtain ⟨stays, closed⟩ := close_stays base flying (minds.inside opened)
      have releases := releaseDeferred_keeps order supply (Context.close base.sharing c w).1
        { cache with context := none } (Context.close base.sharing c w).2
      refine minds.ended (stays.trans (.quiet stays.flying releases)) ?_
        (endContext_rest _ cache c w).2
      intro other same
      obtain rfl := Option.some.inj (opened.symm.trans same)
      exact (congrArg Context.isClosed (releases.context c)).trans closed
  | @openContext cache w ends unopened living =>
      have created := flying_create flying cache.coordinator
      refine minds.opened unopened cache.coordinator (enrolAll_stays base created ?_ _) rfl
      rw [World.length_create]
      exact Nat.lt_succ_self _
  | addExtra asked =>
      obtain ⟨extras, same⟩ := addExtra_rest _ _ _ base.sharing
      exact minds.stays (addExtra_stays base flying minds.inside _) (by rw [same])
  | @removeExtra cache w p asked =>
      obtain ⟨extras, same⟩ := removeExtra_rest cache p w
      exact minds.stays (removeExtra_stays base flying minds.inside _) (by rw [same])
  | @reset cache w ends =>
      have evicts := fun w => Store.evictAll_keeps order supply cache.store w
      have unopened := (reset_rest base.sharing cache w).2
      unfold reset at unopened ⊢
      cases opened : cache.context with
      | none =>
          simp only [opened] at unopened ⊢
          exact minds.ended (.quiet flying (evicts w)) (by simp [opened]) unopened
      | some c =>
          obtain ⟨stays, closed⟩ := close_stays base flying (minds.inside opened)
          simp only [opened] at unopened ⊢
          refine minds.ended (stays.trans (.quiet stays.flying (evicts _))) ?_ unopened
          intro other same
          obtain rfl := Option.some.inj (opened.symm.trans same)
          exact (congrArg Context.isClosed ((evicts _).context c)).trans closed
  | closeExtras asked => exact minds.quiet (Extras.closeAll_keeps order supply _ _) rfl
  | retire asked => exact minds.quiet (Statics.closeAll_keeps order supply _ _) rfl
  | closeLoader asked => exact minds.quiet (supply.closeInstantiator _ _) rfl

end Moves

/-! ## Every deed -/

/-- Contexts and coordinator are in step, and each cache has at most its own context open. -/
structure Governed (system : System) (w : World (Shared ε)) : Prop where
  flying : Flying w
  length : system.owners.length = w.contexts.length
  opened : ∀ {i : Nat} {session : Session} {c}, system.sessions[i]? = some session →
    session.cache.context = some c → c < w.contexts.length
  running : ∀ {i : Nat} {session : Session} {c}, system.sessions[i]? = some session →
    c ∈ session.running → c < w.contexts.length
  owned : ∀ {i c}, system.owners[c]? = some i → (w.context c).isClosed = false →
    ∃ session, system.sessions[i]? = some session ∧ session.cache.context = some c

namespace Governed

variable {base : Services (StateM ε)} {system : System} {w : World (Shared ε)}

theorem minds (governed : Governed system w) {i : Nat} {session : Session}
    (found : system.sessions[i]? = some session) :
    Minds (fun c => system.owners[c]? = some i) w session.cache w where
  flying := governed.flying
  length := Nat.le_refl _
  closed _ closed := closed
  inside := governed.opened found
  alone own inside living := by
    rcases own with own | outside
    · obtain ⟨other, same, opened⟩ := governed.owned own living
      obtain rfl := Option.some.inj (found.symm.trans same)
      exact opened
    · exact absurd inside (Nat.not_lt_of_le outside)

theorem act (governed : Governed system w) {i : Nat} {session : Session} {action : Action}
    (found : system.sessions[i]? = some session) (usable : action.usable w.contexts = true) :
    let after := session.run base.sharing action w
    let opened := after.2.contexts.length - w.contexts.length
    Governed ⟨system.sessions.set i after.1.2, system.owners ++ List.replicate opened i⟩
      after.2 := by
  have minds : Minds (fun c => system.owners[c]? = some i) w
      (session.run base.sharing action w).1.2.cache (session.run base.sharing action w).2 :=
    run_induct base.sharing session action w
      (P := fun (at' : Cache × World (Shared ε)) =>
        Minds (fun c => system.owners[c]? = some i) w at'.1 at'.2)
      (governed.minds found) fun move minds =>
        minds_move usable (fun c member => governed.running found member) move minds
  have runs := run_running base.sharing session action w
  generalize session.run base.sharing action w = after at minds runs ⊢
  obtain ⟨⟨answer, next⟩, w'⟩ := after
  dsimp only at minds runs ⊢
  have grown := minds.length
  have present : i < system.sessions.length := (List.getElem?_eq_some_iff.1 found).1
  have length := governed.length
  -- a session is the one that has acted or one that has not
  have sessions : ∀ {j : Nat} {other : Session},
      (system.sessions.set i next)[j]? = some other →
        j = i ∧ other = next ∨ j ≠ i ∧ system.sessions[j]? = some other := by
    intro j other at'
    by_cases same : j = i
    · subst same
      rw [List.getElem?_set_self present] at at'
      exact .inl ⟨rfl, (Option.some.inj at').symm⟩
    · rw [List.getElem?_set_ne (Ne.symm same)] at at'
      exact .inr ⟨same, at'⟩
  refine ⟨minds.flying, ?_, ?_, ?_, ?_⟩
  · rw [List.length_append, List.length_replicate, length]
    omega
  · intro j other c at' opened
    rcases sessions at' with ⟨rfl, rfl⟩ | ⟨different, at'⟩
    · exact minds.inside opened
    · exact Nat.lt_of_lt_of_le (governed.opened at' opened) grown
  · intro j other c at' member
    rcases sessions at' with ⟨rfl, rfl⟩ | ⟨different, at'⟩
    · rcases runs c member with member | opened
      · exact Nat.lt_of_lt_of_le (governed.running found member) grown
      · exact minds.inside opened
    · exact Nat.lt_of_lt_of_le (governed.running at' member) grown
  · intro j c owner living
    have inside : c < w'.contexts.length := by
      have bound := (List.getElem?_eq_some_iff.1 owner).1
      rw [List.length_append, List.length_replicate, length] at bound
      exact Nat.lt_of_lt_of_eq bound (Nat.add_sub_cancel' grown)
    have mine : (system.owners[c]? = some i ∨ w.contexts.length ≤ c) → i = j →
        ∃ session, (system.sessions.set i next)[j]? = some session ∧
          session.cache.context = some c := by
      rintro own rfl
      exact ⟨next, List.getElem?_set_self present, minds.alone own inside living⟩
    -- a context of another cache was open before, since nobody opens one that is closed
    by_cases old : c < system.owners.length
    · rw [List.getElem?_append_left old] at owner
      by_cases same : i = j
      · exact mine (.inl (same ▸ owner)) same
      · have lived : (w.context c).isClosed = false := by
          rw [← Bool.not_eq_true] at living ⊢
          exact fun closed => living (minds.closed (length ▸ old) closed)
        obtain ⟨other, at', opened⟩ := governed.owned owner lived
        exact ⟨other, by rw [List.getElem?_set_ne same, at'], opened⟩
    · rw [List.getElem?_append_right (Nat.le_of_not_lt old)] at owner
      have same : i = j := by
        obtain ⟨bound, same⟩ := List.getElem?_eq_some_iff.1 owner
        rwa [List.getElem_replicate] at same
      exact mine (.inr (length ▸ Nat.le_of_not_lt old)) same

theorem quiet (governed : Governed system w) {w' : World (Shared ε)}
    (passage : Passage id [] w w') : Governed system w' := by
  have contexts : w'.contexts = w.contexts := passage.contexts
  refine ⟨governed.flying.quiet passage rfl, ?_, ?_, ?_, ?_⟩
  · rw [contexts]
    exact governed.length
  · rw [contexts]
    exact governed.opened
  · rw [contexts]
    exact governed.running
  · intro j c owner living
    rw [passage.context] at living
    exact governed.owned owner living

theorem join (governed : Governed system w) {cache : Cache} (unopened : cache.context = none) :
    Governed { system with sessions := system.sessions ++ [{ cache := cache }] } w := by
  have sessions : ∀ {j : Nat} {other : Session},
      (system.sessions ++ [{ cache := cache }])[j]? = some other →
        other = { cache := cache } ∨ system.sessions[j]? = some other := by
    intro j other at'
    rw [List.getElem?_append] at at'
    split at at'
    · exact .inr at'
    · exact .inl (List.mem_singleton.1 (List.mem_of_getElem? at'))
  refine ⟨governed.flying, governed.length, ?_, ?_, ?_⟩
  · intro j other c at' opened
    rcases sessions at' with rfl | at'
    · rw [unopened] at opened
      cases opened
    · exact governed.opened at' opened
  · intro j other c at' member
    rcases sessions at' with rfl | at'
    · cases member
    · exact governed.running at' member
  · intro j c owner living
    obtain ⟨other, at', opened⟩ := governed.owned owner living
    have bound := (List.getElem?_eq_some_iff.1 at').1
    exact ⟨other, (List.getElem?_append_left bound).trans at', opened⟩

theorem step (governed : Governed system w) (k : CoordinatorId) (deed : Deed) :
    Governed (system.step base k deed w).1 (system.step base k deed w).2 := by
  cases deed with
  | create instantiator config metrics =>
      have quiet := create_keeps quiet_order (sharing_supply base) instantiator k config metrics w
      simp only [System.step]
      cases created : Cache.create base.sharing instantiator k config metrics w with
      | mk answer next =>
          rw [created] at quiet
          cases answer with
          | ok cache =>
              obtain ⟨statics, -, rfl⟩ := create_ok (congrArg Prod.fst created)
              exact (governed.quiet quiet).join rfl
          | error fault => exact governed.quiet quiet
  | act i action =>
      simp only [System.step]
      cases found : system.sessions[i]? with
      | none => exact governed
      | some session =>
          by_cases usable : action.usable w.contexts = true
          · simp only [usable, if_true]
            exact governed.act found usable
          · simp only [usable]
            exact governed

theorem runAll (governed : Governed system w) (k : CoordinatorId) (deeds : List Deed) :
    Governed (system.runAll base k deeds w).1 (system.runAll base k deeds w).2 := by
  induction deeds generalizing system w with
  | nil => exact governed
  | cons deed rest ih => exact ih (governed.step k deed)

theorem open_of_living (governed : Governed system w) {c : ContextId}
    (inside : c < w.contexts.length) (living : (w.context c).isClosed = false) :
    ∃ i session, system.owners[c]? = some i ∧ system.sessions[i]? = some session ∧
      session.cache.context = some c := by
  have owner := List.getElem?_eq_getElem (governed.length ▸ inside)
  obtain ⟨session, found, opened⟩ := governed.owned owner living
  exact ⟨_, session, owner, found, opened⟩

theorem none_active (governed : Governed system w)
    (dismissed : ∀ session ∈ system.sessions, session.cache.context = none) :
    w.contexts.filter (·.isActive) = [] := by
  refine List.filter_eq_nil_iff.2 fun context member live => ?_
  obtain ⟨c, inside, rfl⟩ := List.mem_iff_getElem.1 member
  have here : w.context c = w.contexts[c] := by simp [World.context, inside]
  have living : (w.context c).isClosed = false := by
    rw [here]
    rw [isActive, beq_iff_eq] at live
    simp [isClosed, live]
  obtain ⟨i, session, -, found, opened⟩ := governed.open_of_living inside living
  rw [dismissed session (List.mem_of_getElem? found)] at opened
  cases opened

end Governed

theorem governed_fresh (k : CoordinatorId) (outside : ε) : Governed {} (fresh 0 k outside) where
  flying := flying_fresh 0 k outside
  length := rfl
  opened found := by cases found
  running found := by cases found
  owned owner := by cases owner

/-! ## The law -/

def activeIds (contexts : List Context) : List Nat :=
  (contexts.filter (·.isActive)).filterMap fun context => context.current.map (·.id)

theorem currents_consistent {contexts : List Context}
    (consistent : ∀ context ∈ contexts, context.Consistent) :
    currents contexts = activeIds contexts ∧
      (activeIds contexts).length = (contexts.filter (·.isActive)).length := by
  induction contexts with
  | nil => exact ⟨rfl, rfl⟩
  | cons context rest ih =>
      obtain ⟨same, length⟩ := ih fun other member =>
        consistent other (List.mem_cons_of_mem context member)
      have first := consistent context List.mem_cons_self
      rw [Consistent] at first
      simp only [currents, activeIds] at same length ⊢
      cases current : context.current <;> simp [current, first, same, length]

/-- **In flight are the transactions of live contexts.**  Any number of caches share one
coordinator, and contexts are used at any time by whoever has a handle on them.  A context
is closed unless it is the one that its cache has open.  The transactions in flight are
those of the active contexts, each once, and they are counted as active.  When no cache has
a context open, nothing is active and no change set is retained. -/
theorem in_flight_of_active_contexts (base : Services (StateM ε)) (k : CoordinatorId)
    (outside : ε) (deeds : List Deed) :
    let run := System.runAll base k {} deeds (fresh 0 k outside)
    let coordinator := run.2.outside.coordinator
    (∀ c, c < run.2.contexts.length → (run.2.context c).isClosed = false →
      ∃ i session, run.1.owners[c]? = some i ∧ run.1.sessions[i]? = some session ∧
        session.cache.context = some c) ∧
    coordinator.inFlight.keys.Perm (activeIds run.2.contexts) ∧
    (activeIds run.2.contexts).Nodup ∧
    coordinator.active = (run.2.contexts.filter (·.isActive)).length ∧
    ((∀ session ∈ run.1.sessions, session.cache.context = none) →
      coordinator.active = 0 ∧ coordinator.retained = []) := by
  intro run coordinator
  have governed : Governed run.1 run.2 := (governed_fresh k outside).runAll k deeds
  have flying := governed.flying
  obtain ⟨same, length⟩ := currents_consistent fun context member =>
    (flying.proper context member).consistent
  have keys := flying.keys.symm
  rw [same] at keys
  have active : coordinator.active = (run.2.contexts.filter (·.isActive)).length := by
    rw [flying.accounted.active, size_eq, keys.length_eq, length]
  refine ⟨fun c => governed.open_of_living, keys, keys.nodup (Table.nodup_keys _), active,
    fun dismissed => ?_⟩
  have none := governed.none_active dismissed
  refine ⟨by rw [active, none, List.length_nil], flying.ruled.retained_nil ?_⟩
  rw [activeIds, none] at keys
  exact keys.eq_nil

/-- Two caches begin a transaction each, and one of them opens another context. -/
example :
    let deeds : List Deed := [.create 0 {} none, .create 0 {} none, .act 0 .enter, .act 1 .enter,
      .act 0 .openContext, .act 1 (.use (.start 0))]
    let run := System.runAll (Services.willing fun _ => none) 0 {} deeds (fresh 0 0 0)
    run.1.owners = [0, 1, 0] ∧ activeIds run.2.contexts = [2] ∧
      run.2.outside.coordinator.inFlight.keys = [2] := by
  decide +kernel

end DatasetCache
