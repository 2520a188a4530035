import DatasetCache.Proofs.Context.Agreement

/-!
# Films of a context

A film shows a context in all states of a run.  The services expose a frame before each
call that they take, and callbacks look at the context on arrival and after each of their
operations, as whoever runs the context does.  Between two frames the context changes at
most once.  Neither services nor callbacks see the film.
-/

namespace DatasetCache

open Act Context

variable {ε α : Type}

structure Film (ε : Type) where
  frames : List Context := []
  looking : Bool := false
  inner : ε

namespace Film

def expose (context : Context) (film : Film ε) : Film ε :=
  { film with frames := film.frames ++ [context] }

def notice : Outcome → Film ε → Film ε
  | .state context, film => film.expose context
  | _, film => film

def within (x : StateM ε α) : StateM (Film ε) α := fun film =>
  ((x film.inner).1, { film with inner := (x film.inner).2 })

def shot (c : ContextId) : Act (Film ε) Unit := fun w =>
  ((), { w with outside := { w.outside.expose (w.context c) with looking := false } })

/-- Runs operations, with a shot before each of them and one at the end. -/
def play (services : Services (Act (Film ε))) (c : ContextId) :
    List Operation → Act (Film ε) Unit
  | [] => shot c
  | operation :: rest => do
    shot c
    let _ ← operation.run services
    play services c rest

end Film

def Services.filmed (base : Services (StateM ε)) (c : ContextId) : Services (Act (Film ε)) :=
  (base.map Film.within).detached.map fun x => do
    Film.shot c
    x

def Callbacks.filmed (callbacks : Callbacks ε) (c : ContextId) : Callbacks (Film ε) where
  enter p callback := fun film =>
    let (operations, inner) := callbacks.enter p callback film.inner
    (.inspect c :: operations.flatMap fun operation => [operation, .inspect c],
      { film with inner, looking := true })
  observe p callback operation outcome := fun film =>
    let film := film.notice outcome
    if film.looking then
      ((), { film with looking := false })
    else
      let (_, inner) := callbacks.observe p callback operation outcome film.inner
      ((), { film with inner, looking := true })

def Callbacks.screened (callbacks : Callbacks ε) (base : Services (StateM ε)) (c : ContextId)
    (depth : Nat) : Services (Act (Film ε)) :=
  (callbacks.filmed c).nested (base.filmed c) depth

/-- The film of a new context, the only one, that is asked for some operations. -/
def Callbacks.film (callbacks : Callbacks ε) (base : Services (StateM ε)) (depth : Nat)
    (k : CoordinatorId) (operations : List Operation) (outside : ε) : List Context :=
  (Film.play ((callbacks.retarget 0).screened base 0 depth) 0
    (operations.map (Operation.retarget 0))
    (Context.create k { outside := { inner := outside } }).2).2.outside.frames

/-! ## The end of a context -/

/-- The context is closed and empty, and it starts no transaction whatever the services. -/
structure Sealed (context : Context) : Prop where
  status : context.status = .closed
  deserted : context.participants = []
  unused : context.current = none
  refuses : ∀ {ε : Type} (services : Services (Act ε)) (c : ContextId) (w : World ε),
    w.context c = context →
      ∃ message, (Context.start services c w).1 = .error (.invalidState message)

/-- Once a context is closed it is sealed, and it stays so. -/
def Final (frames : List Context) : Prop :=
  ∀ (m n : Nat) (earlier later : Context), m ≤ n → frames[m]? = some earlier →
    earlier.isClosed = true → frames[n]? = some later → Sealed later

theorem Final.append {frames : List Context} {context : Context} (final : Final frames)
    (closed : context.isClosed = true → Sealed context)
    (stays : ∀ frame ∈ frames, frame.isClosed = true → context.isClosed = true) :
    Final (frames ++ [context]) := by
  intro m n earlier later order found shut reached
  by_cases inside : n < frames.length
  · rw [List.getElem?_append_left inside] at reached
    rw [List.getElem?_append_left (Nat.lt_of_le_of_lt order inside)] at found
    exact final m n earlier later order found shut reached
  · have last : context = later := by
      have bound := (List.getElem?_eq_some_iff.1 reached).1
      rw [List.length_append, List.length_singleton] at bound
      obtain rfl : n = frames.length := by omega
      simpa using reached
    subst last
    rcases List.mem_append.1 (List.mem_of_getElem? found) with old | new
    · exact closed (stays earlier old shut)
    · obtain rfl := List.mem_singleton.1 new
      exact closed shut

structure Rolling (c : ContextId) (w : World (Film ε)) : Prop where
  inside : c < w.contexts.length
  consistent : (w.context c).Consistent
  deserted : (w.context c).isClosed = true → (w.context c).participants = []
  final : Final w.outside.frames
  stays : ∀ frame ∈ w.outside.frames, frame.isClosed = true → (w.context c).isClosed = true

namespace Rolling

variable {c : ContextId} {w w' : World (Film ε)}

theorem seals (rolling : Rolling c w) (closed : (w.context c).isClosed = true) :
    Sealed (w.context c) := by
  have status : (w.context c).status = .closed := by simpa [isClosed] using closed
  refine ⟨status, rolling.deserted closed, ?_, ?_⟩
  · exact rolling.consistent.unused_iff.2 (by simp [isActive, status])
  · intro ε services c' w' same
    rw [← same] at closed
    exact ⟨_, congrArg Prod.fst (start_closed services closed)⟩

theorem expose (rolling : Rolling c w) (contexts : w'.contexts = w.contexts)
    (frames : w'.outside.frames = w.outside.frames ++ [w.context c]) : Rolling c w' := by
  have same : w'.context c = w.context c := by rw [World.context, World.context, contexts]
  refine ⟨by rw [contexts]; exact rolling.inside, ?_, ?_, ?_, ?_⟩
  · rw [same]
    exact rolling.consistent
  · rw [same]
    exact rolling.deserted
  · rw [frames]
    exact rolling.final.append rolling.seals rolling.stays
  · rw [frames, same]
    intro frame member closed
    rcases List.mem_append.1 member with old | new
    · exact rolling.stays frame old closed
    · rwa [List.mem_singleton.1 new] at closed

theorem unseen (rolling : Rolling c w) (contexts : w'.contexts = w.contexts)
    (frames : w'.outside.frames = w.outside.frames) : Rolling c w' := by
  have same : w'.context c = w.context c := by rw [World.context, World.context, contexts]
  obtain ⟨inside, consistent, deserted, final, stays⟩ := rolling
  rw [← contexts] at inside
  rw [← same] at consistent deserted
  rw [← frames] at final
  rw [← frames, ← same] at stays
  exact ⟨inside, consistent, deserted, final, stays⟩

theorem update (rolling : Rolling c w) {f : Context → Context}
    (consistent : (f (w.context c)).Consistent)
    (stays : (w.context c).isClosed = true → (f (w.context c)).isClosed = true)
    (deserted : (f (w.context c)).isClosed = true → (f (w.context c)).participants = []) :
    Rolling c (w.update c f) := by
  have same := World.context_update_self (f := f) rolling.inside
  refine ⟨by simpa using rolling.inside, ?_, ?_, rolling.final, ?_⟩
  · rwa [same]
  · rwa [same]
  · rw [same]
    exact fun frame member closed => stays (rolling.stays frame member closed)

end Rolling

end DatasetCache
