import DatasetCache.Proofs.Context.Growth
import DatasetCache.Proofs.Context.Journal

/-!
# What operations add to the journal

Participants that call no context back leave the contexts as they are, so the journal of
an operation can be read off its text: who is called, in which order, and how the context
changes meanwhile.
-/

namespace DatasetCache

open Act Context

variable {ε : Type}

/-! ## What a single call adds -/

def Services.journaled (base : Services (StateM ε)) : Services (Act (Journal ε)) :=
  Callbacks.silent.journaled base 0

section Calls

variable (base : Services (StateM ε)) (w : World (Journal ε))

theorem adds_start (p : Participant) (tx : Transaction) :
    Adds [.received p.id (.start tx)] w (base.journaled.start p tx w).2 := ⟨rfl, rfl⟩

theorem adds_changes (p : Participant) :
    Adds [.received p.id .changes] w (base.journaled.changes p w).2 := ⟨rfl, rfl⟩

theorem adds_persist (p : Participant) :
    Adds [.received p.id .persist] w (base.journaled.persist p w).2 := ⟨rfl, rfl⟩

theorem adds_confirm (p : Participant) :
    Adds [.received p.id .confirm] w (base.journaled.confirm p w).2 := ⟨rfl, rfl⟩

theorem adds_rollback (p : Participant) :
    Adds [.received p.id .rollback] w (base.journaled.rollback p w).2 := ⟨rfl, rfl⟩

/-! ## What the calls on all participants add -/

theorem adds_startAll (tx : Transaction) (ps : List Participant) :
    Adds (calls ps (.start tx)) w (base.journaled.startAll tx ps w).2 := by
  induction ps generalizing w with
  | nil => exact .none w
  | cons p rest ih =>
      have first := adds_start base w p tx
      exact first.append (ih _)

theorem adds_collectChanges (ps : List Participant) :
    Adds (calls ps .changes) w (base.journaled.collectChanges ps w).2 := by
  induction ps generalizing w with
  | nil => exact .none w
  | cons p rest ih =>
      have first := adds_changes base w p
      exact first.append (ih _)

theorem adds_confirmAll (ps : List Participant) :
    Adds (calls ps .confirm) w (base.journaled.confirmAll ps w).2 := by
  induction ps generalizing w with
  | nil => exact .none w
  | cons p rest ih =>
      have first := adds_confirm base w p
      exact first.append (ih _)

theorem adds_rollbackAll (ps : List Participant) :
    Adds (calls ps .rollback) w (base.journaled.rollbackAll ps w).2 := by
  induction ps generalizing w with
  | nil => exact .none w
  | cons p rest ih =>
      have first := adds_rollback base w p
      simp only [Services.rollbackAll, bind_apply]
      generalize base.journaled.rollback p w = answered at first ⊢
      obtain ⟨answer, next⟩ := answered
      match answer with
      | .ok true => exact first.append (ih next)
      | .ok false => exact first.append (ih next)
      | .error fault =>
          have logged := adds_report .silent base 0 next ⟨.warn, .transactions, "Rollback failed"⟩
          exact first.append (logged.append (ih _))

theorem adds_persistAll (ps : List Participant) :
    ∃ asked, asked <+: ps ∧ ((base.journaled.persistAll ps w).1 = none → asked = ps) ∧
      Adds (calls asked .persist) w (base.journaled.persistAll ps w).2 := by
  induction ps generalizing w with
  | nil => exact ⟨[], List.prefix_rfl, fun _ => rfl, .none w⟩
  | cons p rest ih =>
      have first := adds_persist base w p
      simp only [Participation.persistAll, bind_apply]
      generalize base.journaled.persist p w = answered at first ⊢
      obtain ⟨answer, next⟩ := answered
      have alone : [p] <+: p :: rest := by simp
      match answer with
      | .ok true =>
          obtain ⟨asked, before, all, others⟩ := ih next
          refine ⟨p :: asked, List.prefix_cons_inj p |>.2 before, ?_, first.append others⟩
          intro done
          rw [all done]
      | .ok false => exact ⟨[p], alone, by simp, first⟩
      | .error fault => exact ⟨[p], alone, by simp, first⟩

end Calls

/-! ## What an operation adds -/

structure Turns (c : ContextId) (f : Context → Context) (entries : List Entry)
    (w w' : World (Journal ε)) : Prop where
  contexts : w'.contexts = w.contexts.modify c f
  entries : w'.outside.entries = w.outside.entries ++ entries

namespace Turns

variable {c : ContextId} {f : Context → Context} {entries more : List Entry}
  {w w' w'' : World (Journal ε)}

theorem update (w : World (Journal ε)) (c : ContextId) (f : Context → Context) :
    Turns c f [] w (w.update c f) := ⟨rfl, (List.append_nil _).symm⟩

theorem before (adds : Adds entries w w') (turns : Turns c f more w' w'') :
    Turns c f (entries ++ more) w w'' where
  contexts := by rw [turns.contexts, adds.contexts]
  entries := by rw [turns.entries, adds.entries, List.append_assoc]

theorem after (turns : Turns c f entries w w') (adds : Adds more w' w'') :
    Turns c f (entries ++ more) w w'' where
  contexts := adds.contexts.trans turns.contexts
  entries := by rw [adds.entries, turns.entries, List.append_assoc]

theorem quiet (turns : Turns c f entries w w') (adds : Adds [] w' w'') :
    Turns c f entries w w'' := by
  have both := turns.after adds
  rwa [List.append_nil] at both

theorem context (turns : Turns c f entries w w') (inside : c < w.contexts.length) :
    w'.context c = f (w.context c) := by
  simp [World.context, turns.contexts, inside]

theorem length (turns : Turns c f entries w w') : w'.contexts.length = w.contexts.length := by
  rw [turns.contexts, List.length_modify]

theorem context_cases (turns : Turns c f entries w w') (other : ContextId) :
    w'.context other = w.context other ∨
      other = c ∧ c < w.contexts.length ∧ w'.context other = f (w.context other) := by
  by_cases same : other = c
  · subst same
    by_cases inside : other < w.contexts.length
    · exact .inr ⟨rfl, inside, turns.context inside⟩
    · exact .inl (by simp [World.context, turns.contexts, inside])
  · exact .inl (by simp [World.context, turns.contexts, Ne.symm same])

theorem ofAdds (adds : Adds entries w w') (c : ContextId) : Turns c id entries w w' :=
  ⟨by rw [adds.contexts, List.modify_id], adds.entries⟩

theorem comp {g : Context → Context} (first : Turns c f entries w w')
    (rest : Turns c g more w' w'') : Turns c (g ∘ f) (entries ++ more) w w'' where
  contexts := by rw [rest.contexts, first.contexts, List.modify_modify_eq]
  entries := by rw [rest.entries, first.entries, List.append_assoc]

end Turns

section Operations

variable (base : Services (StateM ε)) {c : ContextId} {w : World (Journal ε)}

theorem abort_turns {tx : Transaction} (current : (w.context c).current = some tx)
    (reason : String) :
    Turns c (leave (.aborted reason))
      (calls (w.context c).participants .rollback ++ [.undone tx]) w
      (Context.abort base.journaled c reason w).2 := by
  rw [abort_eq, bind_apply, Context.read, current]
  have rolled := adds_rollbackAll base w (w.context c).participants
  dsimp only
  rw [bind_apply]
  generalize base.journaled.rollbackAll (w.context c).participants w = answered at rolled ⊢
  obtain ⟨failed, next⟩ := answered
  have settled := adds_settle .silent base 0 next (w.context c).coordinator tx failed
  have all := Turns.before (rolled.append settled) (.update _ c (leave (.aborted reason)))
  rw [List.append_nil] at all
  exact all.quiet (adds_report .silent base 0 _
    ⟨.debug, .transactions, "Context transaction aborted"⟩)

theorem abortFor_turns {tx : Transaction} (current : (w.context c).current = some tx)
    (reason : String) (fault : Fault) :
    Turns c (leave (.aborted reason))
      (calls (w.context c).participants .rollback ++ [.undone tx]) w
      (Context.abortFor base.journaled c reason fault w).2 := by
  have aborted := abort_turns base current reason
  unfold abortFor
  rw [bind_apply]
  generalize Context.abort base.journaled c reason w = answered at aborted ⊢
  obtain ⟨answer, next⟩ := answered
  cases answer <;> exact aborted

inductive Ending (ps : List Participant) (tx : Transaction) :
    Context.Status → List Entry → Prop where
  | kept : Ending ps tx .committed
      (calls ps .changes ++ calls ps .persist ++ [.committed tx] ++ calls ps .confirm)
  | undone {asked : List Participant} (reason : String) (first : asked <+: ps) :
      Ending ps tx (.aborted reason)
        (calls ps .changes ++ calls asked .persist ++ (calls ps .rollback ++ [.undone tx]))

theorem abortFor_ends {tx : Transaction} {ps asked : List Participant} {next : World (Journal ε)}
    (current : (w.context c).current = some tx) (people : (w.context c).participants = ps)
    (first : asked <+: ps) (adds : Adds (calls ps .changes ++ calls asked .persist) w next)
    (reason : String) (fault : Fault) :
    ∃ status entries, Ending ps tx status entries ∧ Turns c (leave status) entries w
      (Context.abortFor base.journaled c reason fault next).2 := by
  have same := adds.context c
  have aborted := abortFor_turns base (by rw [same]; exact current) reason fault
  rw [same, people] at aborted
  exact ⟨_, _, .undone reason first, aborted.before adds⟩

theorem conclude_turns {tx : Transaction} {ps : List Participant} (k : CoordinatorId)
    (current : (w.context c).current = some tx) (people : (w.context c).participants = ps) :
    ∃ status entries, Ending ps tx status entries ∧
      Turns c (leave status) entries w (conclude base.journaled c k tx ps w).2 := by
  have fails := @abortFor_ends ε base c w tx ps
  have collected := adds_collectChanges base w ps
  unfold conclude
  simp only [bind_apply]
  generalize base.journaled.collectChanges ps w = answered at collected ⊢
  obtain ⟨changes, w₁⟩ := answered
  have asked : Adds [] w₁ (base.journaled.canCommit k tx changes w₁).2 :=
    adds_canCommit .silent base 0 w₁ k tx changes
  have checked := collected.append asked
  dsimp only at checked ⊢
  generalize base.journaled.canCommit k tx changes w₁ = answered at checked ⊢
  obtain ⟨answer, w₂⟩ := answered
  match answer with
  | .ok false => exact fails current people List.nil_prefix checked _ _
  | .error fault => exact fails current people List.nil_prefix checked _ _
  | .ok true =>
      obtain ⟨asked, first, all, persisted⟩ := adds_persistAll base w₂ ps
      simp only [bind_apply]
      generalize base.journaled.persistAll ps w₂ = answered at all persisted ⊢
      obtain ⟨refusal, w₃⟩ := answered
      have sofar := checked.append persisted
      rw [List.append_nil] at sofar
      cases refusal with
      | some reason => exact fails current people first sofar _ _
      | none =>
          obtain rfl := all rfl
          have settled : Adds (Entry.ofCommit tx (base.journaled.commit k tx w₃).1) w₃
              (base.journaled.commit k tx w₃).2 := adds_commit .silent base 0 w₃ k tx
          simp only [bind_apply]
          generalize base.journaled.commit k tx w₃ = answered at settled ⊢
          obtain ⟨answer, w₄⟩ := answered
          rcases answer with fault | _ | _
          · exact fails current people first (sofar.quiet settled) _ _
          · exact fails current people first (sofar.quiet settled) _ _
          · have confirmed := (sofar.append settled).append (adds_confirmAll base w₄ asked)
            have all := Turns.before confirmed (.update _ c (leave .committed))
            rw [List.append_nil] at all
            exact ⟨_, _, .kept, all⟩

theorem finish_turns {tx : Transaction} (current : (w.context c).current = some tx) :
    ∃ status entries, Ending (w.context c).participants tx status entries ∧
      Turns c (leave status) entries w (Context.finish base.journaled c w).2 := by
  rw [finish_eq, bind_apply, Context.read, current]
  exact conclude_turns base _ current rfl

theorem launch_turns (c : ContextId) (w : World (Journal ε)) (k : CoordinatorId) :
    Adds [] w (launch base.journaled c k w).2 ∨ ∃ tx, Turns c (enter tx)
      (.began tx :: calls (w.context c).participants (.start tx)) w
      (launch base.journaled c k w).2 := by
  have began : Adds (Entry.ofBegin (base.journaled.begin k w).1) w
      (base.journaled.begin k w).2 := adds_begin .silent base 0 w k
  unfold launch
  rw [bind_apply]
  generalize base.journaled.begin k w = answered at began ⊢
  obtain ⟨answer, next⟩ := answered
  cases answer with
  | error fault => exact .inl began
  | ok tx =>
      have entered := Turns.before began (.update next c (enter tx))
      have people : ((next.update c (enter tx)).context c).participants =
          (w.context c).participants := by
        rcases entered.context_cases c with same | ⟨-, -, same⟩
        · rw [same]
        · rw [same]
          rfl
      have started := adds_startAll base (next.update c (enter tx)) tx
        ((next.update c (enter tx)).context c).participants
      refine .inr ⟨tx, ?_⟩
      rw [← people]
      exact (entered.after started).quiet
        (adds_report .silent base 0 _ ⟨.debug, .transactions, "Context transaction started"⟩)

def farewell (context : Context) : List Entry :=
  match context.isActive, context.current with
  | true, some tx => calls context.participants .rollback ++ [.undone tx]
  | _, _ => []

theorem abandon_turns (c : ContextId) (w : World (Journal ε))
    (active : (w.context c).isActive = true) :
    ∃ f, shut ∘ f = shut ∧ (∀ context, (f context).deferred = context.deferred) ∧
      Turns c f (farewell (w.context c)) w (abandon base.journaled c w).2 := by
  let first := (base.journaled.warn .transactions
    "Cleaning up context with a transaction still in progress" w).2
  have warned : Adds [] w first := adds_report .silent base 0 w _
  have same := warned.context c
  have last : ∀ d w', Adds [] w' (base.journaled.report d w').2 :=
    fun d w' => adds_report .silent base 0 w' d
  unfold abandon
  rw [bind_apply, show (base.journaled.warn .transactions
    "Cleaning up context with a transaction still in progress" w).2 = first from rfl, bind_apply]
  cases current : (w.context c).current with
  | none =>
      have idle : Context.abort base.journaled c
          "context cleaned up with transaction in progress" first = (.ok (), first) := by
        rw [abort_eq, bind_apply, Context.read, same, current]
        rfl
      rw [idle]
      refine ⟨id, rfl, fun _ => rfl, ?_⟩
      rw [farewell, active, current]
      exact .ofAdds warned c
  | some tx =>
      have aborted := abort_turns base (by rw [same]; exact current)
        "context cleaned up with transaction in progress"
      rw [same] at aborted
      generalize Context.abort base.journaled c
        "context cleaned up with transaction in progress" first = answered at aborted ⊢
      obtain ⟨answer, next⟩ := answered
      have all := aborted.before warned
      refine ⟨leave (.aborted "context cleaned up with transaction in progress"), rfl,
        fun _ => rfl, ?_⟩
      rw [farewell, active, current]
      cases answer with
      | ok done => exact all
      | error fault => exact all.quiet (last _ next)

theorem close_turns (c : ContextId) (w : World (Journal ε)) :
    (Context.close base.journaled c w).1 = (w.context c).deferred ∧
      Turns c shut (farewell (w.context c)) w (Context.close base.journaled c w).2 := by
  rw [close_eq, bind_apply, Context.read]
  cases active : (w.context c).isActive with
  | false =>
      have silent : farewell (w.context c) = [] := by rw [farewell, active]
      rw [silent]
      exact ⟨rfl, .update w c shut⟩
  | true =>
      obtain ⟨f, shuts, defers, abandons⟩ := abandon_turns base c w active
      simp only [if_true, bind_apply]
      generalize abandon base.journaled c w = abandoned at abandons ⊢
      obtain ⟨done, next⟩ := abandoned
      refine ⟨?_, ?_⟩
      · rcases abandons.context_cases c with same | ⟨-, -, same⟩
        · exact congrArg Context.deferred same
        · exact (congrArg Context.deferred same).trans (defers _)
      · have all := abandons.comp (.update next c shut)
        rwa [shuts, List.append_nil] at all

def greeting (context : Context) (p : Participant) : List Entry :=
  match context.current with
  | none => []
  | some tx => [.received p.id (.start tx)]

theorem enrol_turns (c : ContextId) (p : Participant) (w : World (Journal ε)) :
    (((w.context c).isClosed = true ∨ (w.context c).has p = true) ∧
        Adds [] w (enrol base.journaled c p w).2) ∨
      (w.context c).isClosed = false ∧ (w.context c).has p = false ∧
        Turns c (accept p) (greeting (w.context c) p) w (enrol base.journaled c p w).2 := by
  rw [enrol_eq, bind_apply, Context.read]
  split
  next closed => exact .inl ⟨.inl closed, adds_report .silent base 0 w _⟩
  next living =>
  split
  next present => exact .inl ⟨.inr present, .none w⟩
  next absent =>
  refine .inr ⟨by simpa using living, by simpa using absent, ?_⟩
  rw [bind_apply]
  cases current : (w.context c).current with
  | none =>
      rw [greeting, current]
      exact .update w c (accept p)
  | some tx =>
      rw [greeting, current]
      exact .after (.update w c (accept p)) (adds_start base (w.update c (accept p)) p tx)

end Operations

/-! ## Who is called -/

def Heard (ps : List Participant) (entries : List Entry) : Prop :=
  ∀ i callback, .received i callback ∈ entries → Participant.isIn i ps = true

namespace Heard

variable {ps qs : List Participant} {entries more : List Entry}

theorem nil : Heard ps [] := by
  intro i callback member
  cases member

theorem append (first : Heard ps entries) (rest : Heard ps more) : Heard ps (entries ++ more) :=
  fun i callback member =>
    (List.mem_append.1 member).elim (first i callback) (rest i callback)

theorem cons {entry : Entry} (apart : ∀ i callback, entry ≠ .received i callback)
    (rest : Heard ps entries) : Heard ps (entry :: entries) := by
  intro i callback member
  rcases List.mem_cons.1 member with same | member
  · exact absurd same.symm (apart i callback)
  · exact rest i callback member

theorem calls (among : ∀ p ∈ qs, p ∈ ps) (callback : Callback) :
    Heard ps (DatasetCache.calls qs callback) := by
  intro i other member
  obtain ⟨p, present, same⟩ := List.mem_map.1 member
  injection same with same
  exact same ▸ Participant.isIn_of_mem (among p present)

theorem ending {tx : Transaction} {status : Status} (ending : Ending ps tx status entries) :
    Heard ps entries := by
  have all := fun callback => Heard.calls (fun p (member : p ∈ ps) => member) callback
  cases ending with
  | kept => exact (((all _).append (all _)).append (.cons (by simp) .nil)).append (all _)
  | undone reason first =>
      have some := Heard.calls (fun p member => first.subset member) .persist
      exact ((all _).append some).append ((all _).append (.cons (by simp) .nil))

theorem farewell (context : Context) : Heard context.participants (farewell context) := by
  unfold DatasetCache.farewell
  split
  · exact (Heard.calls (fun p member => member) _).append (.cons (by simp) .nil)
  · exact .nil

end Heard

/-! ## Every operation -/

namespace Context

def Operation.target : Operation → ContextId
  | .enrol c _ | .withdraw c _ | .contains c _ | .defer c _ => c
  | .start c | .finish c | .abort c | .abortWith c _ => c
  | .cleanup c | .discard c | .inspect c => c

def Operation.enrols : Operation → Bool
  | .enrol _ _ => true
  | _ => false

/-- A change that leaves alone who takes part, what is deferred, and an open context open. -/
structure Mild (f : Context → Context) : Prop where
  participants : ∀ context, (f context).participants = context.participants
  deferred : ∀ context, (f context).deferred = context.deferred
  living : ∀ context, context.isClosed = false → (f context).isClosed = false
  consistent : ∀ context, context.Consistent → (f context).Consistent

theorem mild_id : Mild id := ⟨fun _ => rfl, fun _ => rfl, fun _ => id, fun _ => id⟩

theorem mild_enter (tx : Transaction) : Mild (enter tx) :=
  ⟨fun _ => rfl, fun _ => rfl, fun _ _ => rfl, fun _ _ => rfl⟩

theorem mild_leave {status : Status} (living : status ≠ .closed) (settled : status ≠ .active) :
    Mild (leave status) :=
  ⟨fun _ => rfl, fun _ => rfl, fun _ _ => by simpa [isClosed, leave] using living,
    fun _ _ => by simpa [Consistent, isActive, leave] using settled⟩

section Run

variable (base : Services (StateM ε)) (w : World (Journal ε))

theorem start_turns (c : ContextId) : ∃ f entries, Mild f ∧
    Heard (w.context c).participants entries ∧
    Turns c f entries w (Context.start base.journaled c w).2 := by
  rcases start_cases base.journaled c w with ⟨fault, refused⟩ | ⟨-, launched⟩
  · rw [refused]
    exact ⟨id, [], mild_id, .nil, .ofAdds (.none w) c⟩
  · rw [launched]
    rcases launch_turns base c w (w.context c).coordinator with adds | ⟨tx, turns⟩
    · exact ⟨id, [], mild_id, .nil, .ofAdds adds c⟩
    · exact ⟨_, _, mild_enter tx, .cons (by simp) (.calls (fun _ => id) _), turns⟩

theorem abort_mild (c : ContextId) (reason : String) : ∃ f entries, Mild f ∧
    Heard (w.context c).participants entries ∧
    Turns c f entries w (Context.abort base.journaled c reason w).2 := by
  cases current : (w.context c).current with
  | none =>
      rw [abort_eq, bind_apply, Context.read, current]
      exact ⟨id, [], mild_id, .nil, .ofAdds (.none w) c⟩
  | some tx =>
      refine ⟨_, _, mild_leave (by simp) (by simp), ?_, abort_turns base current reason⟩
      exact (Heard.calls (fun _ => id) _).append (.cons (by simp) .nil)

theorem finish_mild (c : ContextId) : ∃ f entries, Mild f ∧
    Heard (w.context c).participants entries ∧
    Turns c f entries w (Context.finish base.journaled c w).2 := by
  cases current : (w.context c).current with
  | none =>
      rw [finish_eq, bind_apply, Context.read, current]
      exact ⟨id, [], mild_id, .nil, .ofAdds (.none w) c⟩
  | some tx =>
      obtain ⟨status, entries, ending, turns⟩ := finish_turns base current
      have settled : status ≠ .closed ∧ status ≠ .active := by cases ending <;> simp
      exact ⟨_, entries, mild_leave settled.1 settled.2, .ending ending, turns⟩

theorem drives_turns {operation : Operation} (drives : operation.drives = true) :
    ∃ f entries, Mild f ∧ Heard (w.context operation.target).participants entries ∧
      Turns operation.target f entries w (operation.run base.journaled w).2 := by
  cases operation with
  | start c => exact start_turns base w c
  | finish c => exact finish_mild base w c
  | abort c => exact abort_mild base w c _
  | abortWith c reason => exact abort_mild base w c reason
  | _ => simp [Operation.drives] at drives

theorem run_turns (operation : Operation) : ∃ f entries,
    Turns operation.target f entries w (operation.run base.journaled w).2 ∧
    (operation.drives = true → Mild f) ∧
    (operation.enrols = false →
      (∀ context i, Participant.isIn i (f context).participants = true →
        Participant.isIn i context.participants = true) ∧
      Heard (w.context operation.target).participants entries) := by
  have unchanged : Turns operation.target id [] w w := .ofAdds (.none w) _
  have empty : ∀ (context : Context) i, Participant.isIn i (shut context).participants = true →
      Participant.isIn i context.participants = true := by simp [shut, Participant.isIn]
  have idle : (∀ (context : Context) i, Participant.isIn i (id context).participants = true →
      Participant.isIn i context.participants = true) ∧
      Heard (w.context operation.target).participants [] := ⟨fun _ _ => id, .nil⟩
  by_cases drives : operation.drives = true
  · obtain ⟨f, entries, mild, heard, turns⟩ := drives_turns base w drives
    refine ⟨f, entries, turns, fun _ => mild, fun _ => ⟨fun context i present => ?_, heard⟩⟩
    rwa [mild.participants] at present
  have still : ∀ f, operation.drives = true → Mild f := fun f driven => absurd driven drives
  cases operation with
  | enrol c p =>
      have joins : (Operation.enrol c p).enrols ≠ false := by simp [Operation.enrols]
      rcases enrol_turns base c p w with ⟨-, adds⟩ | ⟨-, -, turns⟩
      · exact ⟨_, _, .ofAdds adds c, still _, fun none => absurd none joins⟩
      · exact ⟨_, _, turns, still _, fun none => absurd none joins⟩
  | withdraw c p =>
      cases active : (w.context c).isActive with
      | true =>
          refine ⟨id, [], ?_, still _, fun _ => idle⟩
          simp only [Operation.run, bind_apply, withdraw_active active]
          exact unchanged
      | false =>
          refine ⟨expel p, [], ?_, still _, fun _ => ⟨fun context i present => ?_, .nil⟩⟩
          · simp only [Operation.run, bind_apply, withdraw_inactive active]
            exact .update w c (expel p)
          · rw [expel, Participant.isIn_removeFrom] at present
            exact (Bool.and_eq_true_iff.1 present).1
  | contains c p => exact ⟨id, [], unchanged, still _, fun _ => idle⟩
  | defer c p =>
      exact ⟨queue p, [], .update w c (queue p), still _, fun _ => ⟨fun _ _ => id, .nil⟩⟩
  | cleanup c =>
      exact ⟨shut, _, (close_turns base c w).2, still _, fun _ => ⟨empty, .farewell _⟩⟩
  | discard c =>
      exact ⟨shut, _, (close_turns base c w).2, still _, fun _ => ⟨empty, .farewell _⟩⟩
  | inspect c => exact ⟨id, [], unchanged, still _, fun _ => idle⟩
  | _ => exact absurd rfl drives

end Run

end Context

end DatasetCache
