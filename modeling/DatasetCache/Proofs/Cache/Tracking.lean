import DatasetCache.Proofs.Cache.Residence
import DatasetCache.Proofs.Cache.Tenure

/-!
# How the tracker changes

Only a request that succeeds puts a participant into the tracker, under the key of the
request.  A participant leaves it when it is dismissed, and otherwise only if its dataset
is closed in the same action.
-/

namespace DatasetCache

open Act Context

variable {ε : Type}

namespace Cache

/-! ## Requests -/

section Requests

variable (services : Services (Act ε)) (cache : Cache) (key : Key)

theorem fetch_rest (bypass : Bool) (w : World ε) :
    let next := (cache.fetch services key bypass w).1.2
    next.tracker = cache.tracker ∧ next.statics = cache.statics := by
  unfold fetch
  split
  · exact ⟨rfl, rfl⟩
  · cases (if bypass then none else cache.statics.get? key) <;> exact ⟨rfl, rfl⟩

theorem acquire_tracker (bypass : Bool) (check : Dataset → Except Fault Unit) (w : World ε) :
    let acquired := cache.acquire services key bypass check w
    acquired.1.2.tracker = cache.tracker ∨ bypass = false ∧ ∃ d p, acquired.1.1 = .ok d ∧
      d.participant = some p ∧ cache.statics.get? key = none ∧
        acquired.1.2.tracker = ⟨cache.tracker.active.insert key p⟩ := by
  obtain ⟨tracker, statics⟩ := fetch_rest services cache key bypass w
  unfold acquire
  simp only [bind_apply]
  generalize cache.fetch services key bypass w = got at tracker statics ⊢
  obtain ⟨⟨answer, next⟩, w⟩ := got
  dsimp only at tracker statics
  cases answer with
  | error fault => exact .inl tracker
  | ok dataset =>
      dsimp only
      cases check dataset with
      | error fault => exact .inl tracker
      | ok passed =>
          cases bypass with
          | true => exact .inl tracker
          | false =>
              simp only [Bool.false_eq_true, if_false, bind_apply]
              cases static : next.statics.get? key with
              | some known =>
                  simp only [register, static, pure_apply]
                  exact .inl tracker
              | none =>
                  cases capable : dataset.participant with
                  | none =>
                      simp only [register, static, capable, pure_apply]
                      exact .inl tracker
                  | some p =>
                      cases present : next.tracker.get? key with
                      | none =>
                          rw [register_new services next static capable present]
                          exact .inr ⟨trivial, dataset, p, rfl, capable, statics ▸ static,
                            by rw [← tracker]; rfl⟩
                      | some q =>
                          simp only [register, static, capable]
                          by_cases same : q.id = p.id
                          · rw [bind_apply, Tracker.track_same services present same]
                            exact .inl tracker
                          · rw [bind_apply, Tracker.track_other services present same]
                            exact .inl tracker

theorem get_tracker (s : Session) (typeName : Option String) (bypass : Bool) (w : World ε) :
    let after := s.run services (.get typeName key bypass) w
    after.1.2.cache.tracker = s.cache.tracker ∨ bypass = false ∧ ∃ d p,
      after.1.1 = .dataset d ∧ d.participant = some p ∧ s.cache.statics.get? key = none ∧
        after.1.2.cache.tracker = ⟨s.cache.tracker.active.insert key p⟩ := by
  obtain ⟨check, -, -, same⟩ := s.getDataset_eq services key bypass typeName
  have tracks := acquire_tracker services s.cache key bypass check w
  simp only [Session.run, same, bind_apply, pure_apply]
  generalize s.cache.acquire services key bypass check w = acquired at tracks ⊢
  obtain ⟨⟨answer, next⟩, w⟩ := acquired
  refine tracks.imp_right ?_
  rintro ⟨kept, d, p, rfl, rest⟩
  exact ⟨kept, d, p, rfl, rest⟩

end Requests

/-! ## What is tracked anew -/

section Came

variable (services : Services (Act ε)) {running : List ContextId} {action : Action} {key : Key}
  {p : Participant}

variable {services} in
theorem Move.fewer {before after : Cache × World ε} (move : Move services running action before after)
    (other : action.requests = false) (found : after.1.tracker.get? key = some p) :
    before.1.tracker.get? key = some p := by
  refine (move.came found).resolve_right ?_
  rintro ⟨requests, -⟩
  rw [other] at requests
  cases requests

theorem run_came {s : Session} {w : World ε}
    (found : (s.run services action w).1.2.cache.tracker.get? key = some p) :
    s.cache.tracker.get? key = some p ∨ (∃ typeName, action = .get typeName key false) ∧
      s.cache.statics.get? key = none ∧
      ∃ d, (s.run services action w).1.1 = .dataset d ∧ d.participant = some p := by
  have others : action.requests = false → s.cache.tracker.get? key = some p := fun other =>
    run_induct services s action w (P := fun state =>
      state.1.tracker.get? key = some p → s.cache.tracker.get? key = some p) id
      (fun move sofar found => sofar (move.fewer other found)) found
  cases action with
  | get typeName place bypass =>
      rcases get_tracker services place s typeName bypass w with
        same | ⟨rfl, d, q, answer, capable, dynamic, inserted⟩
      · exact .inl (same ▸ found)
      · rw [inserted, Tracker.get?, Table.get?_insert] at found
        split at found
        next same =>
            obtain rfl := Option.some.inj found
            subst same
            exact .inr ⟨⟨typeName, rfl⟩, dynamic, d, answer, capable⟩
        next => exact .inl found
  | _ => exact .inl (others rfl)

end Came

/-! ## What leaves the tracker -/

theorem dismiss_tracker (services : Services (Act ε)) (cache : Cache) (dataset : Dataset)
    (w : World ε) : (cache.dismiss services dataset w).1.tracker =
      if cache.statics.holds dataset.id then cache.tracker
      else (cache.tracker.untrack dataset.id).2 := by
  have releases : ∀ cache : Cache,
      (dismiss.release services dataset cache w).1.tracker = cache.tracker := by
    intro cache
    unfold dismiss.release
    simp only [bind_apply]
    generalize cache.store.evictInstance services dataset.id w = evicted
    obtain ⟨⟨found, store⟩, next⟩ := evicted
    cases found <;> rfl
  unfold dismiss
  split
  · rfl
  · cases cache.context with
    | none => exact releases _
    | some c =>
        cases dataset.participant with
        | none => exact releases _
        | some p =>
            dsimp only
            split
            · rfl
            · exact releases _

theorem invalidate_tracker (services : Services (Act ε)) (cache : Cache) (w : World ε) :
    (cache.invalidate services w).1.tracker = {} := by
  have untracked := reset_tracker services cache w
  unfold invalidate
  rw [bind_apply]
  generalize cache.reset services w = reset at untracked ⊢
  obtain ⟨⟨failures, next⟩, w⟩ := reset
  cases failures <;> exact untracked

section Leaves

variable {services : Services (Act (Journal (Ledger ε)))} (accounts : services.Accountable)
  {key : Key} {p : Participant}

include accounts

theorem letGo_retains {cache : Cache} {w : World (Journal (Ledger ε))}
    (settled : Settled (cache, w)) (i : InstanceId) (found : cache.tracker.get? key = some p) :
    (cache.letGo services i w).1.tracker.get? key = some p ∨
      p.id ∈ closedIn (cache.letGo services i w).2.ledger := by
  by_cases same : p.id = i
  · right
    obtain ⟨d, stored, -, own⟩ := settled.held found
    rcases letGo_cases accounts cache i w with ⟨absent, -⟩ | ⟨-, -, -, -, books, -⟩
    · exact absurd (own.symm.trans same) (Store.holds_eq_false_iff.1 absent key d stored)
    · rw [books.ledger, closedIn_append, same]
      exact List.mem_append_right _ List.mem_cons_self
  · exact .inl (Tracker.get?_untrack_of_ne found same)

theorem endContext_retains {cache : Cache} {w : World (Journal (Ledger ε))}
    (settled : Settled (cache, w)) (c : ContextId) (found : cache.tracker.get? key = some p) :
    (cache.endContext services c w).1.tracker.get? key = some p ∨
      p.id ∈ closedIn (cache.endContext services c w).2.ledger := by
  let open' : Cache := { cache with context := none }
  let Good (next : Cache) (w' : World (Journal (Ledger ε))) : Prop :=
    Settled (next, w') ∧ (next.tracker.get? key = some p ∨ p.id ∈ closedIn w'.ledger)
  have start : Good open' (Context.close services c w).2 :=
    ⟨settled.calm (close_calm accounts c w) rfl rfl rfl, .inl found⟩
  refine (releaseDeferred_induct services (P := Good) ?_ ?_ _ open' _ start).2
  · rintro next w' i ⟨settled, sofar⟩
    refine ⟨letGo_settled accounts settled i, ?_⟩
    rcases sofar with found | closed
    · exact letGo_retains accounts settled i found
    · obtain ⟨events, conserves⟩ := letGo_conserves accounts .close next i w'
      right
      rw [conserves.ledger, closedIn_append]
      exact List.mem_append_left _ closed
  · rintro next w' d ⟨settled, sofar⟩
    have logs := (accounts.report w' d).calm
    refine ⟨settled.calm logs rfl rfl rfl, sofar.imp_right fun closed => ?_⟩
    rwa [logs]

theorem Move.retains {running : List ContextId} {action : Action} {before after : State ε}
    (move : Move services running action before after) (settled : Settled before)
    (found : before.1.tracker.get? key = some p) :
    after.1.tracker.get? key = some p ∨ p.id ∈ closedIn after.2.ledger ∨
      ∃ d, action = .dismiss d ∧ d.id = p.id := by
  cases move with
  | @track cache w typeName place dataset q asked dynamic stored capable untracked =>
      exact .inl (tracking_get? untracked found)
  | @defer cache w dataset c q asked | @release cache w dataset asked =>
      by_cases same : dataset.id = p.id
      · exact .inr (.inr ⟨dataset, asked, same⟩)
      · exact .inl (Tracker.get?_untrack_of_ne found (Ne.symm same))
  | @endContext cache w c ends opened =>
      exact (endContext_retains accounts settled c found).imp_right .inl
  | @addExtra cache w q asked =>
      obtain ⟨extras, same⟩ := addExtra_rest cache q w services
      rw [same]
      exact .inl found
  | @removeExtra cache w q asked =>
      obtain ⟨extras, same⟩ := removeExtra_rest cache q w
      rw [same]
      exact .inl found
  | @reset cache w ends =>
      obtain ⟨d, stored, -, own⟩ := settled.held found
      obtain ⟨events, restocks⟩ := reset_restocks accounts (rfl : Action.requests .invalidate = false) cache w
      rcases restocks.kept stored with still | closed
      · rw [Store.peek?, reset_entries] at still
        cases still
      · right; left
        rw [restocks.ledger, closedIn_append, own]
        exact List.mem_append_right _ closed
  | _ => exact .inl found

theorem run_retains {s : Session} {w : World (Journal (Ledger ε))} {action : Action}
    (sound : Sound (s.cache, w)) (fair : FairSoFar (s.run services action w).2)
    (found : s.cache.tracker.get? key = some p) :
    let after := s.run services action w
    after.1.2.cache.tracker.get? key = some p ∨ p.id ∈ closedIn after.2.ledger ∨
      ∃ d, action = .dismiss d ∧ d.id = p.id := by
  refine (run_induct services s action w (P := fun state => Fair (loads state.2.ledger) →
    Sound state ∧ (state.1.tracker.get? key = some p ∨ p.id ∈ closedIn state.2.ledger ∨
      ∃ d, action = .dismiss d ∧ d.id = p.id)) (fun _ => ⟨sound, .inl found⟩) ?_ fair).2
  -- Loads that are fair at the end of the action have been so at each of its moves.
  intro before after move sofar fair
  obtain ⟨events, conserves⟩ := move.conserves accounts
  have earlier := conserves.fair fair
  obtain ⟨sound, sofar⟩ := sofar earlier
  refine ⟨move.sound accounts ⟨sound, earlier⟩, ?_⟩
  rcases sofar with found | closed | dismissed
  · exact move.retains accounts ⟨sound, earlier⟩ found
  · right; left
    rw [conserves.ledger, closedIn_append]
    exact List.mem_append_left _ closed
  · exact .inr (.inr dismissed)

/-! ## What a context hands back -/

structure Gone (i : InstanceId) (cache : Cache) : Prop where
  unstored : ∀ {key d}, cache.store.peek? key = some d → d.id ≠ i
  untracked : ∀ {key p}, cache.tracker.get? key = some p → p.id ≠ i

theorem letGo_still_gone {cache : Cache} {i : InstanceId} (gone : Gone i cache) (j : InstanceId)
    (w : World (Journal (Ledger ε))) : Gone i (cache.letGo services j w).1 := by
  obtain ⟨events, restocks⟩ := letGo_restocks accounts (rfl : Action.requests .invalidate = false) cache j w
  refine ⟨fun found => ?_, fun found => gone.untracked (Tracker.get?_of_untrack found)⟩
  rcases restocks.came found with before | ⟨-, typeName, asked⟩
  · exact gone.unstored before
  · cases asked

theorem letGo_gone {cache : Cache} {w : World (Journal (Ledger ε))}
    (settled : Settled (cache, w)) (i : InstanceId) : Gone i (cache.letGo services i w).1 := by
  refine ⟨fun {key d} found same => ?_, fun {key p} found =>
    Tracker.holds_eq_false_iff.1 (settled.untracks i) key p found⟩
  rcases letGo_cases accounts cache i w with ⟨absent, alike⟩ | ⟨place, e, present, known, -, erased⟩
  · rw [alike] at found
    exact Store.holds_eq_false_iff.1 absent key d found same
  · rw [Store.peek?, erased, Table.get?_erase] at found
    split at found
    · cases found
    next other =>
        exact other (Table.key_eq settled.store_distinct found present (same.trans known.symm))

theorem releaseDeferred_gone {cache : Cache} {w : World (Journal (Ledger ε))}
    (settled : Settled (cache, w)) {deferred : List Participant} (member : p ∈ deferred) :
    Gone p.id (cache.releaseDeferred services deferred w).1 := by
  induction deferred generalizing cache w with
  | nil => cases member
  | cons q rest ih =>
      obtain ⟨w', told, same⟩ := releaseDeferred_cons services cache q rest w
      rw [same]
      rcases List.mem_cons.1 member with rfl | member
      · exact releaseDeferred_induct services (P := fun next _ => Gone p.id next)
          (fun next w i gone => letGo_still_gone accounts gone i w) (fun _ _ _ => id) rest _ w'
          (letGo_gone accounts settled p.id)
      · have still := letGo_settled accounts settled q.id
        refine ih ?_ member
        rcases told with rfl | ⟨d, rfl⟩
        · exact still
        · exact still.calm (accounts.report _ d).calm rfl rfl rfl

theorem endContext_gone {cache : Cache} {w : World (Journal (Ledger ε))}
    (settled : Settled (cache, w)) {c : ContextId}
    (member : p ∈ (Context.close services c w).1) :
    Gone p.id (cache.endContext services c w).1 := by
  let open' : Cache := { cache with context := none }
  have closed : Settled (open', (Context.close services c w).2) :=
    settled.calm (close_calm accounts c w) rfl rfl rfl
  exact releaseDeferred_gone accounts closed member

end Leaves

end Cache

end DatasetCache
