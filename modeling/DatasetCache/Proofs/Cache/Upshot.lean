import DatasetCache.Proofs.Cache.AfterClose
import DatasetCache.Proofs.Shared.Operations

/-!
# What a move does to contexts and journal

An operation turns its context in one of a few ways, and each way has its entries in the
journal.  A move of a cache does the same to the context that it works on, or it ends the
open context, or it opens one.
-/

namespace DatasetCache

open Act Context Relation

variable {ε : Type}

/-! ## One operation -/

namespace Context

/-- The ways in which an operation turns a context, with what the journal gains. -/
inductive Way (context : Context) : (Context → Context) → List Entry → Prop where
  | idle : Way context id []
  | begun (tx : Transaction) (living : context.isClosed = false)
      (unused : context.isActive = false) :
      Way context (enter tx) (.began tx :: calls context.participants (.start tx))
  | finished {tx : Transaction} {status : Status} {entries : List Entry}
      (current : context.current = some tx)
      (ending : Ending context.participants tx status entries) :
      Way context (leave status) entries
  | aborted {tx : Transaction} (reason : String) (current : context.current = some tx) :
      Way context (leave (.aborted reason)) (calls context.participants .rollback ++ [.undone tx])
  | closed : Way context shut (farewell context)
  | joined (p : Participant) (living : context.isClosed = false)
      (absent : context.has p = false) : Way context (accept p) (greeting context p)
  | withdrawn (p : Participant) (unused : context.isActive = false) : Way context (expel p) []
  | queued (p : Participant) : Way context (queue p) []

namespace Way

variable {context : Context} {f : Context → Context} {entries : List Entry}

theorem tame (way : Way context f entries) (proper : context.Proper) : Tame context f := by
  cases way with
  | idle => exact .id
  | begun tx living => exact .enter living tx
  | finished current ending => exact .leave (proper.living current) (by cases ending <;> simp)
  | aborted reason current => exact .leave (proper.living current) (by simp)
  | closed => exact .shut
  | joined p living absent => exact .accept absent
  | withdrawn p => exact .expel p
  | queued p => exact .queue p

end Way

section Operations

variable (base : Services (StateM ε)) (w : World (Journal (Ledger ε)))

theorem start_way (c : ContextId) : ∃ f entries, Way (w.context c) f entries ∧
    Turns c f entries w (Context.start base.audited c w).2 ∧
    ((w.context c).isActive = true → f = id) := by
  have same : Context.start base.audited c w =
      Context.start (base.map Ledger.within).journaled c w := rfl
  rw [same]
  cases closed : (w.context c).isClosed with
  | true =>
      rw [start_closed _ closed]
      exact ⟨id, [], .idle, .ofAdds (.none w) c, fun _ => rfl⟩
  | false =>
      rcases start_cases (base.map Ledger.within).journaled c w with
        ⟨fault, refused⟩ | ⟨unused, launched⟩
      · rw [refused]
        exact ⟨id, [], .idle, .ofAdds (.none w) c, fun _ => rfl⟩
      · rw [launched]
        rcases launch_turns (base.map Ledger.within) c w (w.context c).coordinator with
          adds | ⟨tx, turns⟩
        · exact ⟨id, [], .idle, .ofAdds adds c, fun _ => rfl⟩
        · refine ⟨_, _, .begun tx closed unused, turns, fun active => ?_⟩
          rw [unused] at active
          cases active

theorem finish_way (c : ContextId) : ∃ f entries, Way (w.context c) f entries ∧
    Turns c f entries w (Context.finish base.audited c w).2 ∧
    ((w.context c).current = none → f = id ∧ entries = []) := by
  have same : Context.finish base.audited c = Context.finish (base.map Ledger.within).journaled c :=
    finish_provided _ _ c
  rw [same]
  cases current : (w.context c).current with
  | none =>
      rw [finish_eq, bind_apply, Context.read, current]
      exact ⟨id, [], .idle, .ofAdds (.none w) c, fun _ => ⟨rfl, rfl⟩⟩
  | some tx =>
      obtain ⟨status, entries, ending, turns⟩ := finish_turns (base.map Ledger.within) current
      exact ⟨_, entries, .finished current ending, turns,
        fun absent => absurd absent (Option.some_ne_none tx)⟩

theorem abort_way (c : ContextId) (reason : String) : ∃ f entries, Way (w.context c) f entries ∧
    Turns c f entries w (Context.abort base.audited c reason w).2 ∧
    ((w.context c).current = none → f = id ∧ entries = []) := by
  have same : Context.abort base.audited c reason =
      Context.abort (base.map Ledger.within).journaled c reason := abort_provided _ _ c reason
  rw [same]
  cases current : (w.context c).current with
  | none =>
      rw [abort_eq, bind_apply, Context.read, current]
      exact ⟨id, [], .idle, .ofAdds (.none w) c, fun _ => ⟨rfl, rfl⟩⟩
  | some tx =>
      exact ⟨_, _, .aborted reason current, abort_turns (base.map Ledger.within) current reason,
        fun absent => absurd absent (Option.some_ne_none tx)⟩

theorem withdraw_way (c : ContextId) (p : Participant) : ∃ f entries,
    Way (w.context c) f entries ∧ Turns c f entries w (Context.withdraw c p w).2 ∧
    ((w.context c).isActive = true → f = id) := by
  cases active : (w.context c).isActive with
  | true =>
      rw [withdraw_active active]
      exact ⟨id, [], .idle, .ofAdds (.none w) c, fun _ => rfl⟩
  | false =>
      rw [withdraw_inactive active]
      exact ⟨_, _, .withdrawn p active, .update w c (expel p), nofun⟩

theorem enrol_way (c : ContextId) (p : Participant) : ∃ f entries,
    Way (w.context c) f entries ∧ Turns c f entries w (Context.enrol base.audited c p w).2 ∧
    ∀ context, (f context).current = context.current := by
  rcases Cache.enrol_audited base c p w with ⟨-, adds⟩ | ⟨living, absent, turns⟩
  · exact ⟨id, [], .idle, .ofAdds adds c, fun _ => rfl⟩
  · exact ⟨_, _, .joined p living absent, turns, fun _ => rfl⟩

theorem operation_way (operation : Operation) : ∃ f entries,
    Way (w.context operation.target) f entries ∧
      Turns operation.target f entries w (operation.run base.audited w).2 := by
  have still : ∃ f entries, Way (w.context operation.target) f entries ∧
      Turns operation.target f entries w w := ⟨id, [], .idle, .ofAdds (.none w) _⟩
  cases operation with
  | enrol c p =>
      obtain ⟨f, entries, way, turns, -⟩ := enrol_way base w c p
      exact ⟨f, entries, way, turns⟩
  | withdraw c p =>
      obtain ⟨f, entries, way, turns, -⟩ := withdraw_way w c p
      exact ⟨f, entries, way, turns⟩
  | start c =>
      obtain ⟨f, entries, way, turns, -⟩ := start_way base w c
      exact ⟨f, entries, way, turns⟩
  | finish c =>
      obtain ⟨f, entries, way, turns, -⟩ := finish_way base w c
      exact ⟨f, entries, way, turns⟩
  | abort c =>
      obtain ⟨f, entries, way, turns, -⟩ := abort_way base w c "aborted by caller"
      exact ⟨f, entries, way, turns⟩
  | abortWith c reason =>
      obtain ⟨f, entries, way, turns, -⟩ := abort_way base w c reason
      exact ⟨f, entries, way, turns⟩
  | cleanup c => exact ⟨shut, _, .closed, (Cache.close_audited base c w).2⟩
  | discard c => exact ⟨shut, _, .closed, (Cache.close_audited base c w).2⟩
  | defer c p => exact ⟨queue p, [], .queued p, .update w c (queue p)⟩
  | contains c p => exact still
  | inspect c => exact still

end Operations

end Context

/-! ## One move -/

namespace Cache

/-- One context is worked on, and the cache keeps the context that it has open. -/
structure Works (c : ContextId) (f : Context → Context) (entries : List Entry)
    (before after : State ε) : Prop where
  way : Way (before.2.context c) f entries
  turns : Turns c f entries before.2 after.2
  context : after.1.context = before.1.context

/-- What comes of a move. -/
inductive Upshot (base : Services (StateM ε)) (running : List ContextId) (action : Action)
    (before after : State ε) : Prop where
  | quiet (adds : Adds [] before.2 after.2) (context : after.1.context = before.1.context)
  | tends {c : ContextId} {f : Context → Context} {entries : List Entry}
      (opened : before.1.context = some c) (works : Works c f entries before after)
      (keeps : (before.2.context c).Consistent → (before.2.context c).isActive = true →
        (f (before.2.context c)).current = (before.2.context c).current)
  | settles {c : ContextId} {f : Context → Context} {entries : List Entry}
      (inside : c ∈ running) (works : Works c f entries before after)
      (needs : (before.2.context c).current = none → f = id ∧ entries = [])
  | uses {operation : Operation} {f : Context → Context} {entries : List Entry}
      (used : action = .use operation) (works : Works operation.target f entries before after)
  | ends {c : ContextId} (ends : action.ends running = true) (opened : before.1.context = some c)
      (turns : Turns c shut (farewell (before.2.context c)) before.2 after.2)
      (unopened : after.1.context = none)
  | opens (ends : action.ends running = true) (unopened : before.1.context = none)
      (opened : after = before.1.openWith base.audited before.2)

section Moves

variable {base : Services (StateM ε)} {running : List ContextId} {action : Action}

theorem Upshot.books {before after : State ε} {events : List Event}
    (books : Books events before.2 after.2) (context : after.1.context = before.1.context) :
    Upshot base running action before after :=
  .quiet books.adds context

theorem enrol_upshot {cache next : Cache} {c : ContextId} (opened : cache.context = some c)
    (context : next.context = cache.context) (p : Participant) (w : World (Journal (Ledger ε))) :
    Upshot base running action (cache, w) (next, (enrol base.audited c p w).2) := by
  obtain ⟨f, entries, way, turns, keeps⟩ := enrol_way base w c p
  exact .tends opened ⟨way, turns, context⟩ fun _ _ => keeps _

theorem welcome_upshot {cache next : Cache} (context : next.context = cache.context)
    (p : Participant) (w : World (Journal (Ledger ε))) :
    Upshot base running action (cache, w) (next, (cache.welcome base.audited p w).2) := by
  cases opened : cache.context with
  | none =>
      simp only [welcome, opened]
      exact .quiet (.none w) context
  | some c =>
      obtain ⟨f, entries, way, turns, keeps⟩ := enrol_way base w c p
      simp only [welcome, opened, bind_apply]
      generalize enrol base.audited c p w = enrolled at turns ⊢
      obtain ⟨enrolled, w'⟩ := enrolled
      have logs := (audited_accountable base).report w'
        ⟨.debug, .transactions, "Enrolled dataset in open context"⟩
      cases enrolled with
      | false => exact .tends opened ⟨way, turns, context⟩ fun _ _ => keeps _
      | true => exact .tends opened ⟨way, turns.quiet logs.adds, context⟩ fun _ _ => keeps _

theorem addExtra_upshot (cache : Cache) (p : Participant) (w : World (Journal (Ledger ε))) :
    Upshot base running action (cache, w) (cache.addExtra base.audited p w) := by
  unfold addExtra
  split
  · exact .quiet (.none w) rfl
  · cases opened : cache.context with
    | none => exact .quiet (.none w) opened.symm
    | some c => exact enrol_upshot opened opened.symm p w

theorem removeExtra_upshot (cache : Cache) (p : Participant) (w : World (Journal (Ledger ε))) :
    Upshot base running action (cache, w)
      ((cache.removeExtra p w).1.2, (cache.removeExtra p w).2) := by
  unfold removeExtra
  split
  · cases opened : cache.context with
    | none => exact .quiet (.none w) opened.symm
    | some c =>
        obtain ⟨f, entries, way, turns, keeps⟩ := withdraw_way w c p
        simp only [bind_apply]
        generalize Context.withdraw c p w = withdrawn at turns ⊢
        obtain ⟨answer, w'⟩ := withdrawn
        have tends : ∀ next : Cache, next.context = cache.context →
            Upshot base running action (cache, w) (next, w') := fun next context =>
          .tends opened ⟨way, turns, context⟩ fun _ active => by rw [keeps active, id]
        cases answer <;> exact tends _ opened.symm
  · exact .quiet (.none w) rfl

theorem operate_upshot {cache : Cache} {w : World (Journal (Ledger ε))} {operation : Operation}
    (asked : action.Asks running cache operation) :
    Upshot base running action (cache, w) (cache, (operation.run base.audited w).2) := by
  cases action with
  | use other =>
      obtain rfl : operation = other := asked
      obtain ⟨f, entries, way, turns⟩ := operation_way base w operation
      exact .uses rfl ⟨way, turns, rfl⟩
  | enter =>
      obtain ⟨c, opened, rfl⟩ := asked
      obtain ⟨f, entries, way, turns, keeps⟩ := start_way base w c
      exact .tends opened ⟨way, turns, rfl⟩ fun _ active => by rw [keeps active, id]
  | leave failure =>
      cases failure with
      | none =>
          obtain ⟨c, inside, rfl⟩ := asked
          obtain ⟨f, entries, way, turns, needs⟩ := finish_way base w c
          exact .settles inside ⟨way, turns, rfl⟩ needs
      | some fault =>
          obtain ⟨c, inside, rfl⟩ := asked
          obtain ⟨f, entries, way, turns, needs⟩ := abort_way base w c fault.message
          exact .settles inside ⟨way, turns, rfl⟩ needs
  | _ => exact asked.elim

theorem reset_upshot (ends : action.ends running = true) (cache : Cache)
    (w : World (Journal (Ledger ε))) :
    Upshot base running action (cache, w)
      ((cache.reset base.audited w).1.2, (cache.reset base.audited w).2) := by
  obtain ⟨-, unopened⟩ := reset_rest base.audited cache w
  obtain ⟨w', ending, -, books⟩ := reset_turns base cache w
  rcases ending with ⟨rfl, vacant⟩ | ⟨c, opened, turns⟩
  · exact .books books (unopened.trans vacant.symm)
  · exact .ends ends opened (turns.quiet books.adds) unopened

theorem Move.upshot {before after : State ε}
    (move : Move base.audited running action before after) :
    Upshot base running action before after := by
  have accounts := audited_accountable base
  cases move with
  | log d => exact .books (accounts.report _ d) rfl
  | operate asked => exact operate_upshot asked
  | count stats => exact .quiet (.none _) rfl
  | miss failed => exact .books (Loader.load_books accounts _ _) rfl
  | bypass asked => exact .books (Loader.load_books accounts _ _) rfl
  | load asked living dynamic absent loaded => exact .books (Loader.load_books accounts _ _) rfl
  | @track cache w typeName key dataset p asked dynamic stored capable untracked =>
      have still : (cache.tracking key p).context = cache.context := rfl
      exact welcome_upshot still p w
  | @defer cache w dataset c p asked dynamic opened capable stored =>
      exact .tends opened ⟨.queued p, .update w c (queue p), rfl⟩ fun _ _ => rfl
  | @release cache w dataset asked dynamic idle =>
      rcases letGo_cases accounts cache dataset.id w with ⟨-, same⟩ | ⟨-, -, -, -, books, -⟩
      · rw [same]
        exact .quiet (.none w) rfl
      · exact .books books rfl
  | @endContext cache w c ends opened =>
      obtain ⟨w', events, turns, -, books, -, unopened, -⟩ := endContext_turns base cache c w
      exact .ends ends opened (turns.quiet books.adds) unopened
  | openContext ends unopened living => exact .opens ends unopened rfl
  | addExtra asked => exact addExtra_upshot _ _ _
  | removeExtra asked => exact removeExtra_upshot _ _ _
  | reset ends => exact reset_upshot ends _ _
  | @closeExtras cache w asked =>
      obtain ⟨events, books, -⟩ := Extras.closeAll_books accounts (w := w) cache.extras
      exact .books books rfl
  | retire asked unopened unstored => exact .books (Statics.closeAll_books accounts _) rfl
  | closeLoader asked => exact .books (accounts.closeInstantiator _ _) rfl

theorem Upshot.grows {before after : State ε} (upshot : Upshot base running action before after) :
    before.2.journal <+: after.2.journal := by
  cases upshot with
  | quiet adds => exact ⟨[], adds.entries.symm⟩
  | @tends c f entries opened works => exact ⟨entries, works.turns.entries.symm⟩
  | @settles c f entries inside works => exact ⟨entries, works.turns.entries.symm⟩
  | @uses operation f entries used works => exact ⟨entries, works.turns.entries.symm⟩
  | @ends c ends opened turns => exact ⟨_, turns.entries.symm⟩
  | opens ends unopened opened =>
      obtain ⟨-, same, -⟩ := openWith_opens base before.1 before.2
      rw [opened]
      exact ⟨[], (List.append_nil _).trans same.symm⟩

end Moves

end Cache

end DatasetCache
