import DatasetCache.Proofs.Cache.Dismissal

/-!
# Who takes part

While a transaction is in progress nobody leaves the open context, but what the cache has
to seat there shrinks: datasets are dismissed and extras are removed.  So a context can have
participants that the cache knows nothing of any more.  These are no strangers.  Either they
wait in the context for their release, or they were extras once and were told to go while
they could not.
-/

namespace DatasetCache

open Act Context

variable {ε : Type}

namespace World

theorem context_update_of_mem {w : World ε} {c : ContextId} {f : Context → Context}
    {p : Participant} (member : p ∈ ((w.update c f).context c).participants) :
    (w.update c f).context c = f (w.context c) := by
  by_cases inside : c < w.contexts.length
  · exact context_update_self inside
  · rw [context_outside (by simpa using inside)] at member
    cases member

end World

namespace Context

/-! ## Who comes and who stays -/

/-- Whoever is in a context was there before or is welcome, and those who have been there
keep their place in the queue for release. -/
structure Hosts (welcome : InstanceId → Prop) (before after : Context) : Prop where
  guests : ∀ p ∈ after.participants, welcome p.id ∨ p ∈ before.participants ∧
    (Participant.isIn p.id before.deferred = true → Participant.isIn p.id after.deferred = true)
  distinct : (before.participants.map (·.id)).Nodup → (after.participants.map (·.id)).Nodup

namespace Hosts

variable {welcome : InstanceId → Prop} {before mid after : Context}

theorem refl (context : Context) : Hosts welcome context context :=
  ⟨fun _ member => .inr ⟨member, id⟩, id⟩

theorem trans (first : Hosts welcome before mid) (second : Hosts welcome mid after) :
    Hosts welcome before after where
  guests p member := by
    rcases second.guests p member with invited | ⟨there, queued⟩
    · exact .inl invited
    · exact (first.guests p there).imp_right fun past => ⟨past.1, queued ∘ past.2⟩
  distinct := second.distinct ∘ first.distinct

theorem change {f : Context → Context} (change : Change f) (context : Context) :
    Hosts welcome context (f context) := by
  cases change with
  | expel p =>
      refine ⟨fun q member => .inr ⟨(List.mem_filter.1 member).1, id⟩, fun distinct => ?_⟩
      exact distinct.sublist (List.filter_sublist.map _)
  | queue p =>
      refine ⟨fun q member => .inr ⟨member, fun queued => ?_⟩, id⟩
      simp [queue, Participant.isIn_addTo, queued]
  | shut => exact ⟨fun q member => absurd member List.not_mem_nil, fun _ => List.nodup_nil⟩
  | enter | leave => exact ⟨fun q member => .inr ⟨member, id⟩, id⟩

theorem accept {context : Context} {p : Participant} (absent : context.has p = false)
    (invited : welcome p.id) : Hosts welcome context (accept p context) where
  guests q member := by
    rcases List.mem_append.1 member with old | new
    · exact .inr ⟨old, id⟩
    · rw [List.mem_singleton.1 new]
      exact .inl invited
  distinct before := by
    have joined := Participant.nodup_addTo before p
    rwa [Participant.addTo, if_neg (show ¬ Participant.isIn _ _ = true by simpa [has] using absent)]
      at joined

end Hosts

end Context

def Receives (welcome : InstanceId → Prop) (w w' : World ε) : Prop :=
  ∀ c, Hosts welcome (w.context c) (w'.context c)

namespace Context

variable {welcome : InstanceId → Prop}

theorem receives_frame (welcome : InstanceId → Prop) : Frame (Receives (ε := ε) welcome) where
  refl _ _ := .refl _
  trans first second c := (first c).trans (second c)
  outside _ _ _ := .refl _

theorem receives_update {w : World ε} {c : ContextId} {f : Context → Context}
    (hosts : Hosts welcome (w.context c) (f (w.context c))) : Receives welcome w (w.update c f) := by
  intro other
  by_cases same : other = c
  · subst same
    by_cases inside : other < w.contexts.length
    · rw [World.context_update_self inside]
      exact hosts
    · rw [World.context_outside (Nat.le_of_not_lt inside),
        World.context_outside (by simpa using inside)]
      exact .refl _
  · rw [World.context_update_of_ne same]
    exact .refl _

variable {services : Services (Act ε)} (keep : services.Keep (Receives welcome))

include keep

theorem run_receives {operation : Operation} (declines : operation.enrols = false) :
    Keeps (Receives welcome) (operation.run services) := by
  refine run_keeps_of (receives_frame welcome).toOrder keep operation ?_ fun w c f change =>
    receives_update (.change change _)
  rintro c p rfl
  cases declines

theorem enrol_receives (c : ContextId) {p : Participant} (invited : welcome p.id) :
    Keeps (Receives welcome) (enrol services c p) :=
  enrol_keeps (receives_frame welcome).toOrder keep c p fun _ absent =>
    receives_update (.accept absent invited)

end Context

theorem Tracker.holds_untrack_of_ne {tracker : Tracker} {i j : InstanceId}
    (held : tracker.holds j = true) (other : j ≠ i) : (tracker.untrack i).2.holds j = true := by
  obtain ⟨p, member, same⟩ := List.any_eq_true.1 held
  have same : p.id = j := by simpa using same
  obtain ⟨key, found⟩ := Table.mem_values_iff.1 member
  have stays := get?_untrack_of_ne (i := i) found (same ▸ other)
  rw [← same]
  exact Participant.isIn_of_mem (mem_participants_of_get? stays)

namespace Cache

/-! ## The company of the open context -/

theorem isIn_members {cache : Cache} {i : InstanceId} :
    Participant.isIn i cache.members = true ↔
      Participant.isIn i cache.statics.participants = true ∨ cache.tracker.holds i = true ∨
        Participant.isIn i cache.extras.members = true := by
  rw [members, Participant.isIn_append, Participant.isIn_append, Bool.or_eq_true, Bool.or_eq_true,
    or_assoc]
  rfl

/-- Every participant of the open context is a member of the cache, waits for its release, or
lingers; and no instance is there twice. -/
structure Accompanied (lingers : ContextId → InstanceId → Prop) (state : Cache × World ε) :
    Prop where
  guests : ∀ {c}, state.1.context = some c → ∀ p ∈ (state.2.context c).participants,
    Participant.isIn p.id state.1.members = true ∨
      Participant.isIn p.id (state.2.context c).deferred = true ∨ lingers c p.id
  distinct : ∀ {c}, state.1.context = some c →
    ((state.2.context c).participants.map (·.id)).Nodup

namespace Accompanied

variable {lingers more : ContextId → InstanceId → Prop} {cache next : Cache} {w w' : World ε}

theorem unopened {state : Cache × World ε} (unopened : state.1.context = none) :
    Accompanied lingers state := by
  constructor <;> intro c opened <;> rw [unopened] at opened <;> cases opened

theorem mono {state : Cache × World ε}
    (accompanied : Accompanied lingers state) (all : ∀ c i, lingers c i → more c i) :
    Accompanied more state where
  guests opened p member := (accompanied.guests opened p member).imp_right (.imp_right (all _ _))
  distinct := accompanied.distinct

theorem receive {welcome : InstanceId → Prop} (accompanied : Accompanied lingers (cache, w))
    (context : next.context = cache.context) (receives : Receives welcome w w')
    (invited : ∀ i, welcome i → Participant.isIn i next.members = true)
    (stay : ∀ {c}, cache.context = some c → ∀ p ∈ (w'.context c).participants,
      Participant.isIn p.id cache.members = true ∨ lingers c p.id →
        Participant.isIn p.id next.members = true ∨
          Participant.isIn p.id (w'.context c).deferred = true ∨ more c p.id) :
    Accompanied more (next, w') where
  guests {c} opened p member := by
    have opened : cache.context = some c := context ▸ opened
    rcases (receives c).guests p member with came | ⟨there, queued⟩
    · exact .inl (invited p.id came)
    · rcases accompanied.guests opened p there with listed | waits | lingers
      · exact stay opened p member (.inl listed)
      · exact .inr (.inl (queued waits))
      · exact stay opened p member (.inr lingers)
  distinct {c} opened := (receives c).distinct (accompanied.distinct (context ▸ opened))

theorem keep {welcome : InstanceId → Prop} (accompanied : Accompanied lingers (cache, w))
    (context : next.context = cache.context) (receives : Receives welcome w w')
    (invited : ∀ i, welcome i → Participant.isIn i next.members = true)
    (seated : ∀ i, Participant.isIn i cache.members = true →
      Participant.isIn i next.members = true) : Accompanied lingers (next, w') :=
  accompanied.receive context receives invited fun _ p _ known =>
    known.elim (fun listed => .inl (seated p.id listed)) fun lingers => .inr (.inr lingers)

theorem quiet (accompanied : Accompanied lingers (cache, w))
    (context : next.context = cache.context) (members : next.members = cache.members)
    (receives : Receives (fun _ => False) w w') : Accompanied lingers (next, w') :=
  accompanied.keep context receives (fun _ => False.elim) fun _ listed => members ▸ listed

end Accompanied

/-! ## One move -/

/-- An action enrols nobody by hand, and its handles are handles on what was loaded. -/
structure Action.Courteous (datasets : List Dataset) (action : Action) : Prop where
  uses : ∀ operation, action = .use operation → operation.enrols = false
  dismisses : ∀ d, action = .dismiss d → ∀ known ∈ datasets, known.id = d.id → known = d

/-- The removal of an extra is asked for while a transaction is in progress in a context. -/
def Insists (c : ContextId) (i : InstanceId) : Condition ε := fun s w action _ _ _ =>
  ∃ p, action = .removeExtra p ∧ p.id = i ∧ s.cache.extras.holds p = true ∧
    s.cache.context = some c ∧ (w.context c).isActive = true

section Moves

variable {services : Services (Act (Journal (Ledger ε)))} {running : List ContextId}
  {action : Action} {lingers : ContextId → InstanceId → Prop} {L : List Dataset}

theorem untracking_idle {cache : Cache} {w : World (Journal (Ledger ε))} {dataset : Dataset}
    (settled : Settled (cache, w))
    (genuine : ∀ known ∈ loads w.ledger, known.id = dataset.id → known = dataset)
    (idle : dataset.participant = none ∨ cache.store.holds dataset.id = false) {i : InstanceId}
    (held : cache.tracker.holds i = true) : (cache.untracking dataset.id).tracker.holds i = true := by
  refine Tracker.holds_untrack_of_ne held ?_
  rintro rfl
  obtain ⟨p, member, same⟩ := List.any_eq_true.1 held
  have same : p.id = dataset.id := by simpa using same
  obtain ⟨key, found⟩ := Table.mem_values_iff.1 member
  obtain ⟨d, stored, capable, own⟩ := settled.held found
  have alike : d.id = dataset.id := own.symm.trans same
  rcases idle with incapable | unstored
  · have known := settled.sound.balanced.known d (mem_datasets_of_stored stored)
    rw [genuine d known alike, incapable] at capable
    cases capable
  · exact Store.holds_eq_false_iff.1 unstored key d stored alike

variable (keep : ∀ welcome, services.Keep (Receives welcome))

include keep

theorem welcome_receives (cache : Cache) (p : Participant) :
    Keeps (Receives (· = p.id)) (cache.welcome services p) := by
  have order := (receives_frame (ε := Journal (Ledger ε)) (· = p.id)).toOrder
  unfold welcome
  split
  · exact .pure order _
  · refine .bind order (enrol_receives (keep _) _ rfl) fun enrolled => ?_
    split
    · exact (keep _).report _
    · exact .pure order _

theorem addExtra_receives (cache : Cache) (p : Participant) :
    Keeps (Receives (· = p.id)) (cache.addExtra services p) := by
  have order := (receives_frame (ε := Journal (Ledger ε)) (· = p.id)).toOrder
  unfold addExtra
  split
  · exact .pure order _
  · cases cache.context with
    | none => exact .pure order _
    | some c => exact .bind order (enrol_receives (keep _) c rfl) fun _ => .pure order _

omit keep in
theorem openWith_accompanied (cache : Cache) (w : World (Journal (Ledger ε))) :
    Accompanied lingers (cache.openWith services w) := by
  have seeds := openWith_seeds services cache w
  have same : ∀ {c}, (cache.openWith services w).1.context = some c → c = w.contexts.length := by
    rintro c ⟨⟩
    rfl
  constructor
  · intro c opened p member
    left
    rw [same opened, seeds] at member
    have present := Participant.isIn_of_mem member
    rw [Participant.isIn_foldl_addTo] at present
    exact present
  · intro c opened
    rw [same opened, seeds]
    exact Participant.nodup_foldl_addTo (by simp) _

theorem tracking_accompanied {cache : Cache} {w : World (Journal (Ledger ε))} {key : Key}
    {p : Participant} (untracked : cache.tracker.get? key = none)
    (accompanied : Accompanied lingers (cache, w)) :
    Accompanied lingers (cache.tracking key p, (cache.welcome services p w).2) := by
  refine accompanied.keep rfl (welcome_receives keep cache p w) ?_ fun i listed => ?_
  · have tracked : (cache.tracking key p).tracker.get? key = some p := by
      simp [tracking, Tracker.get?]
    rintro _ rfl
    exact isIn_members.2 (.inr (.inl (Participant.isIn_of_mem
      (Tracker.mem_participants_of_get? tracked))))
  · refine isIn_members.2 ((isIn_members.1 listed).imp_right (.imp_left fun held => ?_))
    obtain ⟨q, member, same⟩ := List.any_eq_true.1 held
    obtain ⟨place, found⟩ := Table.mem_values_iff.1 member
    obtain rfl : q.id = i := by simpa using same
    exact Participant.isIn_of_mem (Tracker.mem_participants_of_get? (tracking_get? untracked found))

theorem addExtra_accompanied {cache : Cache} {w : World (Journal (Ledger ε))} (p : Participant)
    (accompanied : Accompanied lingers (cache, w)) :
    Accompanied lingers (cache.addExtra services p w) := by
  have members := addExtra_members services cache p w
  obtain ⟨extras, same⟩ := addExtra_rest cache p w services
  have receives := addExtra_receives keep cache p w
  generalize cache.addExtra services p w = added at members same receives ⊢
  obtain ⟨next, w'⟩ := added
  dsimp only at same members
  subst same
  refine accompanied.keep rfl receives ?_ fun i listed => ?_
  · rintro _ rfl
    refine isIn_members.2 (.inr (.inr ?_))
    rw [members, Participant.isIn_addTo]
    simp
  · refine isIn_members.2 ((isIn_members.1 listed).imp_right (.imp_right fun extra => ?_))
    rw [members, Participant.isIn_addTo, extra]
    rfl

omit keep in
theorem defer_accompanied {cache : Cache} {w : World (Journal (Ledger ε))} {i : InstanceId}
    {c : ContextId} {p : Participant} (own : p.id = i) (opened : cache.context = some c)
    (accompanied : Accompanied lingers (cache, w)) :
    Accompanied lingers (cache.untracking i, (Context.defer c p w).2) := by
  have receives : Receives (fun _ => False) w (Context.defer c p w).2 :=
    receives_update (.change (.queue p) _)
  refine accompanied.receive rfl receives (fun _ => False.elim) fun {c'} opened' q member => ?_
  rintro (listed | lingers)
  · by_cases same : q.id = i
    · right; left
      obtain rfl : c = c' := Option.some.inj (opened.symm.trans opened')
      have queued : (Context.defer c p w).2.context c = queue p (w.context c) :=
        World.context_update_of_mem member
      rw [queued, queue, Participant.isIn_addTo, same, own]
      simp
    · refine .inl (isIn_members.2 ((isIn_members.1 listed).imp_right (.imp_left fun held => ?_)))
      exact Tracker.holds_untrack_of_ne held same
  · exact .inr (.inr lingers)

theorem Move.accompanied {before after : State ε}
    (move : Move services running action before after) (courteous : action.Courteous L)
    (known : ∀ d ∈ loads before.2.ledger, d ∈ L) (settled : Settled before)
    (others : ∀ p, action ≠ .removeExtra p) (accompanied : Accompanied lingers before) :
    Accompanied lingers after := by
  have order := (receives_frame (ε := Journal (Ledger ε)) fun _ => False).toOrder
  have supply := (keep fun _ => False).supply
  cases move with
  | log d => exact accompanied.quiet rfl rfl ((keep _).report d _)
  | @operate cache w operation asked =>
      have declines : operation.enrols = false := by
        rcases asked.cases with used | ⟨drives, -⟩
        · exact courteous.uses operation used
        · simpa using drives_not_enrols operation drives
      exact accompanied.quiet rfl rfl (run_receives (keep _) declines w)
  | count => exact accompanied.quiet rfl rfl (order.refl _)
  | @miss cache w key | @bypass cache w typeName key | @load cache w typeName key =>
      exact accompanied.quiet rfl rfl (Loader.load_keeps order supply.toLends cache.store.loader key w)
  | track asked dynamic stored capable untracked =>
      exact tracking_accompanied keep untracked accompanied
  | @defer cache w dataset c p asked dynamic opened capable stored =>
      obtain ⟨d, member, same⟩ := List.any_eq_true.1 stored
      obtain ⟨key, found⟩ := Table.mem_values_iff.1 member
      have loaded := settled.sound.balanced.known d (mem_datasets_of_stored found)
      have alike := courteous.dismisses dataset asked d (known d loaded) (by simpa using same)
      have own : p.id = dataset.id := settled.fair.own dataset (alike ▸ loaded) p capable
      exact defer_accompanied own opened accompanied
  | @release cache w dataset asked dynamic idle =>
      cases opened : cache.context with
      | none => exact .unopened opened
      | some c =>
          have idle := idle.resolve_left (by simp [opened])
          have genuine : ∀ d ∈ loads w.ledger, d.id = dataset.id → d = dataset := fun d loaded =>
            courteous.dismisses dataset asked d (known d loaded)
          refine accompanied.keep rfl
            (Store.evictInstance_keeps order supply cache.store dataset.id w)
            (fun _ => False.elim) fun i listed => ?_
          exact isIn_members.2 ((isIn_members.1 listed).imp_right
            (.imp_left (untracking_idle settled genuine idle)))
  | @endContext cache w c => exact .unopened (endContext_rest services cache c w).2
  | @openContext cache w => exact openWith_accompanied cache w
  | @addExtra cache w p => exact addExtra_accompanied keep p accompanied
  | removeExtra asked => exact absurd asked (others _)
  | @reset cache w => exact .unopened (reset_rest services cache w).2
  | @closeExtras cache w =>
      exact accompanied.quiet rfl rfl (Extras.closeAll_keeps order supply cache.extras w)
  | retire asked unopened => exact .unopened unopened
  | @closeLoader cache w => exact accompanied.quiet rfl rfl (supply.closeInstantiator _ w)

omit keep in
theorem removeExtra_accompanied {s : Session} {w : World (Journal (Ledger ε))} {p : Participant}
    (accompanied : Accompanied lingers (s.cache, w)) (answer : Answer) (s' : Session)
    (w' : World (Journal (Ledger ε))) :
    Accompanied (fun c i => lingers c i ∨ Insists c i s w (.removeExtra p) answer s' w')
      ((s.cache.removeExtra p w).1.2, (s.cache.removeExtra p w).2) := by
  have order := (receives_frame (ε := Journal (Ledger ε)) fun _ => False).toOrder
  have erased : ∀ {i}, Participant.isIn i s.cache.members = true → i ≠ p.id →
      Participant.isIn i ({ s.cache with extras := s.cache.extras.erase p } : Cache).members = true := by
    intro i listed other
    refine isIn_members.2 ((isIn_members.1 listed).imp_right (.imp_right fun extra => ?_))
    simp [Extras.erase, Participant.isIn_removeFrom, extra, other]
  unfold removeExtra
  split
  next held =>
      cases opened : s.cache.context with
      | none => exact .unopened rfl
      | some c =>
          dsimp only
          rw [bind_apply]
          cases active : (w.context c).isActive with
          | true =>
              rw [withdraw_active active]
              refine accompanied.receive opened.symm (order.refl w) (fun _ => False.elim)
                fun {c'} opened' q member => ?_
              rintro (listed | lingers)
              · by_cases same : q.id = p.id
                · obtain rfl : c = c' := Option.some.inj (opened.symm.trans opened')
                  exact .inr (.inr (.inr ⟨p, rfl, same.symm, held, opened, active⟩))
                · exact .inl (erased listed same)
              · exact .inr (.inr (.inl lingers))
          | false =>
              rw [withdraw_inactive active]
              dsimp only [pure_apply]
              refine accompanied.receive opened.symm (receives_update (.change (.expel p) _))
                (fun _ => False.elim) fun {c'} opened' q member => ?_
              rintro (listed | lingers)
              · obtain rfl : c = c' := Option.some.inj (opened.symm.trans opened')
                rw [World.context_update_of_mem member] at member
                exact .inl (erased listed (by simpa using (List.mem_filter.1 member).2))
              · exact .inr (.inr (.inl lingers))
  next => exact accompanied.mono fun _ _ => .inl

end Moves

/-! ## Whole runs -/

section Runs

variable {services : Services (Act (Journal (Ledger ε)))} (accounts : services.Accountable)
  (keep : ∀ welcome, services.Keep (Receives welcome)) {L : List Dataset}
  {lingers : ContextId → InstanceId → Prop}

include accounts keep

theorem run_accompanied {s : Session} {w : World (Journal (Ledger ε))} {action : Action}
    (courteous : action.Courteous L) (within : FairWithin L (s.run services action w).2)
    (sound : Sound (s.cache, w)) (accompanied : Accompanied lingers (s.cache, w)) :
    let after := s.run services action w
    Sound (after.1.2.cache, after.2) ∧
      Accompanied (fun c i => lingers c i ∨ Insists c i s w action after.1.1 after.1.2 after.2)
        (after.1.2.cache, after.2) := by
  intro after
  refine ⟨run_sound accounts sound within.fair, ?_⟩
  by_cases others : ∀ p, action ≠ .removeExtra p
  · have moved := run_induct services s action w
      (P := fun state => FairWithin L state.2 → Sound state ∧ Accompanied lingers state)
      (fun _ => ⟨sound, accompanied⟩) ?_ within
    · exact moved.2.mono fun _ _ => .inl
    · intro before after move sofar within
      obtain ⟨events, conserves⟩ := move.conserves accounts
      have earlier := conserves.within within
      have settled : Settled before := ⟨(sofar earlier).1, earlier.fair⟩
      exact ⟨move.sound accounts settled,
        move.accompanied keep courteous earlier.known settled others (sofar earlier).2⟩
  · obtain ⟨p, removes⟩ := not_forall.1 others
    obtain rfl : action = .removeExtra p := not_not.1 removes
    exact removeExtra_accompanied accompanied _ _ _

theorem runAll_accompanied {s : Session} {w : World (Journal (Ledger ε))} {actions : List Action}
    (courteous : ∀ action ∈ actions, action.Courteous L)
    (within : FairWithin L (s.runAll services actions w).2) (sound : Sound (s.cache, w))
    (accompanied : Accompanied lingers (s.cache, w)) :
    Accompanied (fun c i => lingers c i ∨ Sometime services (Insists c i) s w actions)
      ((s.runAll services actions w).1.cache, (s.runAll services actions w).2) := by
  induction actions generalizing s w lingers with
  | nil => exact accompanied.mono fun _ _ => .inl
  | cons action rest ih =>
      have within' : FairWithin L (s.run services action w).2 := by
        refine runAll_backward (FairWithin L) (fun s action w within => ?_) within
        obtain ⟨events, conserves⟩ := run_conserves accounts s action w
        exact conserves.within within
      obtain ⟨sound, accompanied⟩ := run_accompanied accounts keep
        (courteous action List.mem_cons_self) within' sound accompanied
      have later := ih (fun other member => courteous other (List.mem_cons_of_mem action member))
        within sound accompanied
      exact later.mono fun c i => or_assoc.1

end Runs

/-- **No stranger takes part.**  Whatever is done with a new cache, and with contexts but
enrolling by hand, and whatever services answer, if loads give fresh instances that take part in
transactions as themselves, then every participant of the open context is a static one, tracked,
an extra, waiting in that context for its release, or an extra whose removal was asked for while
a transaction was in progress there.  No instance takes part twice. -/
theorem no_stranger_takes_part {callbacks : Callbacks ε} {base : Services (StateM ε)} {depth : Nat}
    (asks : callbacks.Ask fun _ operation => operation.enrols = false)
    {instantiator : InstantiatorId} {coordinator : CoordinatorId} {config : Config}
    {metrics : Option MetricsId} {contexts : List Context} {outside : ε} {cache : Cache}
    {w : World (Journal (Ledger ε))}
    (created : create (callbacks.audited base depth) instantiator coordinator config metrics
      (.unwritten contexts outside) = (.ok cache, w))
    {actions : List Action} {s : Session} {last : World (Journal (Ledger ε))}
    (ended : Session.runAll (callbacks.audited base depth) { cache } actions w = (s, last))
    (fair : Fair (loads last.ledger))
    (courteous : ∀ action ∈ actions, action.Courteous (loads last.ledger))
    {c : ContextId} (opened : s.cache.context = some c) :
    (∀ p ∈ (last.context c).participants,
      Participant.isIn p.id s.cache.statics.participants = true ∨
      s.cache.tracker.holds p.id = true ∨
      Participant.isIn p.id s.cache.extras.members = true ∨
      Participant.isIn p.id (last.context c).deferred = true ∨
      Sometime (callbacks.audited base depth) (Insists c p.id) { cache } w actions) ∧
    ((last.context c).participants.map (·.id)).Nodup := by
  have accounts := callbacks.audited_accountable base depth
  have keep : ∀ welcome, (callbacks.audited base depth).Keep (Receives welcome) := fun welcome =>
    callbacks.audited_keep (receives_frame welcome) base asks
      (fun keep _ _ declines => run_receives keep declines) depth
  have idle : cache.context = none := by
    obtain ⟨statics, -, rfl⟩ := create_ok (congrArg Prod.fst created)
    rfl
  have start : Accompanied (fun _ _ => False) (cache, w) := .unopened idle
  have within : FairWithin (loads last.ledger)
      (Session.runAll (callbacks.audited base depth) { cache } actions w).2 := by
    rw [ended]
    exact ⟨fair, fun _ => id⟩
  have company := runAll_accompanied accounts keep (s := { cache }) courteous within
    (create_sound accounts created) start
  rw [ended] at company
  refine ⟨fun p member => ?_, company.distinct opened⟩
  rcases company.guests opened p member with listed | waits | never | insists
  · exact (isIn_members.1 listed).imp_right (.imp_right .inl)
  · exact .inr (.inr (.inr (.inl waits)))
  · exact never.elim
  · exact .inr (.inr (.inr (.inr insists)))

def farewells : List Action :=
  [.openContext, .addExtra { id := 100, name := "audit" }, .get none (Key.named "users") false,
    .use (.start 0), .removeExtra { id := 100, name := "audit" }, .dismiss (table 1 "users")]

theorem no_stranger_takes_part_farewells :
    let services := Callbacks.silent.audited Services.minting 0
    let start := World.unwritten [] 0
    ∃ s last, Session.runAll services { cache := minted } farewells start = (s, last) ∧
      s.cache.context = some 0 ∧ (last.context 0).participants.map (·.id) = [100, 1] ∧
      s.cache.members = [] ∧
      Participant.isIn 1 (last.context 0).deferred = true ∧
      ∀ p ∈ (last.context 0).participants,
        Participant.isIn p.id s.cache.statics.participants = true ∨
        s.cache.tracker.holds p.id = true ∨
        Participant.isIn p.id s.cache.extras.members = true ∨
        Participant.isIn p.id (last.context 0).deferred = true ∨
        Sometime services (Insists 0 p.id) { cache := minted } start farewells := by
  intro services start
  have told : let ended := Session.runAll services { cache := minted } farewells start
      loads ended.2.ledger = [table 1 "users"] ∧ ended.1.cache.context = some 0 ∧
        (ended.2.context 0).participants.map (·.id) = [100, 1] ∧ ended.1.cache.members = [] ∧
        Participant.isIn 1 (ended.2.context 0).deferred = true := by
    decide +kernel
  obtain ⟨⟨s, last⟩, ended⟩ : ∃ result,
    Session.runAll services { cache := minted } farewells start = result := ⟨_, rfl⟩
  rw [ended] at told
  obtain ⟨loaded, opened, seats, members, waits⟩ := told
  have fair : Fair (loads last.ledger) := by
    rw [loaded]
    exact ⟨by decide, by simp [table]⟩
  have courteous : ∀ action ∈ farewells, action.Courteous (loads last.ledger) := by
    intro action member
    rw [loaded]
    constructor
    · rintro operation rfl
      obtain rfl : operation = .start 0 := by simpa [farewells] using member
      rfl
    · rintro d rfl known loaded same
      obtain rfl : d = table 1 "users" := by simpa [farewells] using member
      exact List.mem_singleton.1 loaded
  exact ⟨s, last, ended, opened, seats, members, waits, (no_stranger_takes_part
    (Callbacks.silent_asks _) create_minted ended fair courteous opened).1⟩

end Cache

end DatasetCache
