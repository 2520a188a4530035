import DatasetCache.Proofs.Context.Agreement
import DatasetCache.Proofs.Context.Growth

/-!
# The order of an orderly context

Between the calls that a context makes, its journal and its state are in an order from
which agreement follows.  The order has three parameters, which are sets of instances:
those that are `clear` to be rolled back, those that may be `owing` a rollback, and those
that are `waiting` to be told that the transaction in progress has started.
-/

namespace DatasetCache

open Act Context

structure Orderly (clear owing waiting : InstanceId → Prop) (context : Context)
    (entries : List Entry) : Prop where
  active : context.Consistent
  joined : ∀ tx, context.current = some tx → ∀ i,
    Participant.isIn i context.participants = true →
      waiting i ∨ (standing i entries).joined = some tx
  began : ∀ tx, context.current = some tx ∨ .committed tx ∈ entries → .began tx ∈ entries
  uncommitted : (issued entries).Nodup → ∀ tx, context.current = some tx →
    .committed tx ∉ entries
  clear : (issued entries).Nodup → ∀ i, clear i → ∀ tx,
    (standing i entries).joined = some tx → .committed tx ∉ entries
  held : ∀ i tx, tx ∈ (standing i entries).held → .committed tx ∈ entries ∨
    (context.current = some tx ∧ Participant.isIn i context.participants = true ∧ owing i)
  irrevocable : (issued entries).Nodup → Irrevocable entries

abbrev nobody : InstanceId → Prop := fun _ => False

abbrev among (ps : List Participant) : InstanceId → Prop := fun i => Participant.isIn i ps = true

theorem among_nil (i : InstanceId) : ¬ among [] i := by
  intro present
  cases present

theorem among_cons {p : Participant} {rest : List Participant} {i : InstanceId} :
    among (p :: rest) i ↔ p.id = i ∨ among rest i := by
  rw [among, Participant.isIn, List.any_cons, Bool.or_eq_true, beq_iff_eq]
  rfl

namespace Orderly

variable {clear owing waiting : InstanceId → Prop} {context : Context} {entries : List Entry}

theorem imp {clear' owing' waiting' : InstanceId → Prop}
    (orderly : Orderly clear owing waiting context entries) (clears : ∀ i, clear' i → clear i)
    (owes : ∀ i, owing i → owing' i) (waits : ∀ i, waiting i → waiting' i) :
    Orderly clear' owing' waiting' context entries :=
  { orderly with
    joined := fun tx current i present =>
      (orderly.joined tx current i present).imp_left (waits i)
    clear := fun distinct i member => orderly.clear distinct i (clears i member)
    held := fun i tx member =>
      (orderly.held i tx member).imp_right fun ⟨current, present, owed⟩ =>
        ⟨current, present, owes i owed⟩ }

theorem agreement (orderly : Orderly nobody nobody nobody context entries)
    (distinct : (issued entries).Nodup) : Agreement context entries := by
  refine ⟨?_, orderly.irrevocable distinct⟩
  intro tx _ uncommitted i member
  rcases orderly.held i tx member with committed | ⟨-, -, owed⟩
  · exact uncommitted committed
  · exact owed

/-! ## One more callback -/

theorem receive {waiting' owing' : InstanceId → Prop} {j : InstanceId} {callback : Callback}
    (orderly : Orderly clear owing waiting context entries)
    (joined : ∀ tx, context.current = some tx →
      Participant.isIn j context.participants = true →
      waiting' j ∨ ((standing j entries).receive callback).joined = some tx)
    (waits : ∀ i, i ≠ j → waiting i → waiting' i)
    (clears : (issued entries).Nodup → clear j → ∀ tx,
      ((standing j entries).receive callback).joined = some tx → .committed tx ∉ entries)
    (held : ∀ tx, tx ∈ ((standing j entries).receive callback).held → .committed tx ∈ entries ∨
      (context.current = some tx ∧ Participant.isIn j context.participants = true ∧ owing' j))
    (owes : ∀ i, i ≠ j → owing i → owing' i)
    (rolled : callback = .rollback → (issued entries).Nodup → ∀ tx,
      (standing j entries).joined = some tx → .committed tx ∉ entries) :
    Orderly clear owing' waiting' context (entries ++ [.received j callback]) := by
  have settled : ∀ tx, .committed tx ∈ entries ++ [.received j callback] ↔
      .committed tx ∈ entries := by simp
  have same : issued (entries ++ [.received j callback]) = issued entries := by simp [issued]
  refine ⟨orderly.active, fun tx current => ?_, ?_, ?_, fun distinct => ?_, ?_, ?_⟩
  · refine standing_received j entries
      (P := fun i standing => Participant.isIn i context.participants = true →
        waiting' i ∨ standing.joined = some tx) (joined tx current) ?_
    intro i other present
    exact (orderly.joined tx current i present).imp_left (waits i other)
  · intro tx cause
    rw [settled] at cause
    exact List.mem_append_left _ (orderly.began tx cause)
  · intro distinct tx current
    rw [same] at distinct
    rw [settled]
    exact orderly.uncommitted distinct tx current
  · rw [same] at distinct
    simp only [settled]
    exact standing_received j entries
      (P := fun i standing => clear i → ∀ tx, standing.joined = some tx → .committed tx ∉ entries)
      (clears distinct) fun i _ => orderly.clear distinct i
  · simp only [settled]
    refine standing_received j entries
      (P := fun i standing => ∀ tx, tx ∈ standing.held → .committed tx ∈ entries ∨
        (context.current = some tx ∧ Participant.isIn i context.participants = true ∧ owing' i))
      held ?_
    intro i other tx member
    rcases orderly.held i tx member with committed | ⟨current, present, owed⟩
    · exact .inl committed
    · exact .inr ⟨current, present, owes i other owed⟩
  · intro distinct
    rw [same] at distinct
    refine (orderly.irrevocable distinct).append ?_
    rintro i tx ⟨⟩ told
    exact rolled rfl distinct tx told

theorem start {j : InstanceId} {tx : Transaction}
    (orderly : Orderly clear owing waiting context entries)
    (current : context.current = some tx) :
    Orderly clear owing (fun i => waiting i ∧ i ≠ j) context
      (entries ++ [.received j (.start tx)]) := by
  refine orderly.receive ?_ (fun i other waits => ⟨waits, other⟩) ?_ ?_ (fun _ _ owes => owes) ?_
  · intro tx' current' _
    rw [current] at current'
    exact .inr current'
  · intro distinct _ tx' told
    obtain rfl : tx = tx' := by simpa [Standing.receive] using told
    exact orderly.uncommitted distinct tx current
  · exact fun tx' member => orderly.held j tx' member
  · simp

theorem hear {j : InstanceId} {callback : Callback}
    (orderly : Orderly clear owing waiting context entries)
    (idle : ∀ standing : Standing, standing.receive callback = standing)
    (other : callback ≠ .rollback) :
    Orderly clear owing waiting context (entries ++ [.received j callback]) := by
  refine orderly.receive ?_ (fun _ _ waits => waits) ?_ ?_ (fun _ _ owes => owes)
    (fun same => absurd same other)
  · rw [idle]
    exact fun tx current present => orderly.joined tx current j present
  · rw [idle]
    exact fun distinct member tx => orderly.clear distinct j member tx
  · rw [idle]
    exact fun tx member => orderly.held j tx member

theorem persist {j : InstanceId} {tx : Transaction}
    (orderly : Orderly clear owing nobody context entries)
    (current : context.current = some tx)
    (present : Participant.isIn j context.participants = true) (owes : owing j) :
    Orderly clear owing nobody context (entries ++ [.received j .persist]) := by
  refine orderly.receive ?_ (fun _ _ waits => waits) ?_ ?_ (fun _ _ owes => owes) (by simp)
  · exact fun tx' current' present' => orderly.joined tx' current' j present'
  · exact fun distinct member tx' told => orderly.clear distinct j member tx' told
  · intro tx' member
    rcases List.mem_append.1 member with new | old
    · have told := (orderly.joined tx current j present).resolve_left id
      obtain rfl : tx' = tx := by simpa [told] using new
      exact .inr ⟨current, present, owes⟩
    · exact orderly.held j tx' old

theorem rollback {j : InstanceId} (orderly : Orderly clear owing nobody context entries)
    (member : clear j) :
    Orderly clear (fun i => owing i ∧ i ≠ j) nobody context
      (entries ++ [.received j .rollback]) := by
  refine orderly.receive ?_ (fun _ _ waits => waits) ?_ ?_ (fun i other owes => ⟨owes, other⟩) ?_
  · exact fun tx current present => orderly.joined tx current j present
  · exact fun distinct member tx told => orderly.clear distinct j member tx told
  · intro tx kept
    simp only [Standing.receive, List.mem_filter, bne_iff_ne] at kept
    obtain ⟨kept, other⟩ := kept
    rcases orderly.held j tx kept with committed | ⟨current, present, -⟩
    · exact .inl committed
    · exact absurd ((orderly.joined tx current j present).resolve_left id) other
  · exact fun _ distinct tx told => orderly.clear distinct j member tx told

theorem rollback_first {p : Participant} {rest : List Participant}
    (orderly : Orderly (fun i => clear i ∨ among (p :: rest) i) (among (p :: rest)) nobody
      context entries) :
    Orderly (fun i => clear i ∨ among rest i) (among rest) nobody context
      (entries ++ [.received p.id .rollback]) := by
  have member : clear p.id ∨ among (p :: rest) p.id :=
    .inr (Participant.isIn_of_mem List.mem_cons_self)
  refine (orderly.rollback member).imp ?_ ?_ (fun _ h => h)
  · rintro i (member | member)
    · exact .inl member
    · exact .inr (among_cons.2 (.inr member))
  · rintro i ⟨owes, other⟩
    exact (among_cons.1 owes).resolve_left (Ne.symm other)

theorem overhear {j : InstanceId} {callback : Callback}
    (orderly : Orderly nobody owing waiting context entries) (unused : context.current = none)
    (same : ∀ standing : Standing, (standing.receive callback).held = standing.held)
    (other : callback ≠ .rollback) :
    Orderly nobody owing waiting context (entries ++ [.received j callback]) := by
  refine orderly.receive ?_ (fun _ _ waits => waits) (fun _ => False.elim) ?_
    (fun _ _ owes => owes) (fun rolls => absurd rolls other)
  · intro tx current
    rw [unused] at current
    contradiction
  · rw [same]
    exact fun tx member => orderly.held j tx member

/-! ## What the coordinator does -/

theorem begin {owing' : InstanceId → Prop} (orderly : Orderly clear owing waiting context entries)
    (inactive : context.isActive = false) (tx : Transaction) :
    Orderly clear owing' (among context.participants) (context.enter tx)
      (entries ++ [.began tx]) := by
  have unused : context.current = none := orderly.active.unused_iff.2 inactive
  have settled : ∀ tx', .committed tx' ∈ entries ++ [.began tx] ↔ .committed tx' ∈ entries := by
    simp
  have before : (issued (entries ++ [.began tx])).Nodup →
      (issued entries).Nodup ∧ .began tx ∉ entries := by
    intro distinct
    rw [issued_append, List.nodup_append] at distinct
    obtain ⟨distinct, -, apart⟩ := distinct
    refine ⟨distinct, fun known => ?_⟩
    exact apart tx (mem_issued.2 known) tx (by simp [issued]) rfl
  refine ⟨by simp [Consistent, enter, isActive], ?_, ?_, ?_, ?_, ?_, ?_⟩
  · exact fun _ _ i present => .inl present
  · intro tx' cause
    rw [settled] at cause
    rcases cause with current | committed
    · obtain rfl : tx = tx' := by simpa [enter] using current
      simp
    · exact List.mem_append_left _ (orderly.began tx' (.inr committed))
  · intro distinct tx' current
    obtain rfl : tx = tx' := by simpa [enter] using current
    rw [settled]
    exact fun committed => (before distinct).2 (orderly.began tx (.inr committed))
  · intro distinct i member tx' told
    rw [standing_append_began] at told
    rw [settled]
    exact orderly.clear (before distinct).1 i member tx' told
  · intro i tx' member
    rw [standing_append_began] at member
    rw [settled]
    rcases orderly.held i tx' member with committed | ⟨current, -, -⟩
    · exact .inl committed
    · rw [unused] at current
      contradiction
  · intro distinct
    exact (orderly.irrevocable (before distinct).1).append (by simp)

theorem undo (orderly : Orderly clear owing waiting context entries) (tx : Transaction) :
    Orderly clear owing waiting context (entries ++ [.undone tx]) := by
  have settled : ∀ tx', .committed tx' ∈ entries ++ [.undone tx] ↔ .committed tx' ∈ entries := by
    simp
  have same : issued (entries ++ [.undone tx]) = issued entries := by simp [issued]
  refine ⟨orderly.active, ?_, ?_, ?_, ?_, ?_, ?_⟩
  · intro tx' current i present
    rw [standing_append_undone]
    exact orderly.joined tx' current i present
  · intro tx' cause
    rw [settled] at cause
    exact List.mem_append_left _ (orderly.began tx' cause)
  · rw [same]
    intro distinct tx' current
    rw [settled]
    exact orderly.uncommitted distinct tx' current
  · rw [same]
    intro distinct i member tx' told
    rw [standing_append_undone] at told
    rw [settled]
    exact orderly.clear distinct i member tx' told
  · intro i tx' member
    rw [standing_append_undone] at member
    rw [settled]
    exact orderly.held i tx' member
  · rw [same]
    exact fun distinct => (orderly.irrevocable distinct).append (by simp)

theorem unused {owing' waiting' : InstanceId → Prop} {next : Context}
    (orderly : Orderly clear owing waiting context entries)
    (settled : ∀ i, owing i → context.current = none) (inactive : next.isActive = false)
    (unused : next.current = none) : Orderly clear owing' waiting' next entries := by
  have consistent : next.Consistent := by
    rw [Consistent, inactive, unused]
    rfl
  refine ⟨consistent, ?_, ?_, ?_, orderly.clear, ?_, orderly.irrevocable⟩
  · intro tx current
    rw [unused] at current
    contradiction
  · rintro tx (current | committed)
    · rw [unused] at current
      contradiction
    · exact orderly.began tx (.inr committed)
  · intro _ tx current
    rw [unused] at current
    contradiction
  · intro i tx member
    rcases orderly.held i tx member with committed | ⟨current, -, owes⟩
    · exact .inl committed
    · rw [settled i owes] at current
      contradiction

theorem commit {tx : Transaction} (orderly : Orderly nobody owing waiting context entries)
    (current : context.current = some tx) :
    Orderly nobody nobody nobody (context.leave .committed) (entries ++ [.committed tx]) := by
  have same : issued (entries ++ [.committed tx]) = issued entries := by simp [issued]
  refine ⟨rfl, by simp [leave], ?_, by simp [leave], ?_, ?_, ?_⟩
  · rintro tx' (none | committed)
    · simp [leave] at none
    · refine List.mem_append_left _ ?_
      rcases List.mem_append.1 committed with old | new
      · exact orderly.began tx' (.inr old)
      · obtain rfl : tx' = tx := by simpa using new
        exact orderly.began tx' (.inl current)
  · exact fun _ _ absurd => absurd.elim
  · intro i tx' member
    rw [standing_append_committed] at member
    rcases orderly.held i tx' member with committed | ⟨current', -, -⟩
    · exact .inl (List.mem_append_left _ committed)
    · obtain rfl : tx = tx' := Option.some.inj (current.symm.trans current')
      simp
  · rw [same]
    exact fun distinct => (orderly.irrevocable distinct).append (by simp)

theorem enlist {tx : Transaction} (orderly : Orderly clear owing nobody context entries)
    (current : context.current = some tx) :
    Orderly (fun i => clear i ∨ among context.participants i) (among context.participants)
      nobody context entries :=
  { orderly with
    clear := fun distinct i member tx' told => by
      rcases member with member | present
      · exact orderly.clear distinct i member tx' told
      · have joined := (orderly.joined tx current i present).resolve_left id
        obtain rfl : tx = tx' := Option.some.inj (joined.symm.trans told)
        exact orderly.uncommitted distinct tx current
    held := fun i tx' member =>
      (orderly.held i tx' member).imp_right fun ⟨current, present, _⟩ =>
        ⟨current, present, present⟩ }

/-! ## Participants come and go -/

theorem join {p : Participant} {tx : Transaction}
    (orderly : Orderly clear owing waiting context entries) (current : context.current = some tx) :
    Orderly clear owing waiting (context.accept p) (entries ++ [.received p.id (.start tx)]) := by
  have larger : Orderly clear owing (fun i => waiting i ∨ i = p.id) (context.accept p) entries :=
    { orderly with
      joined := fun tx current i present => by
        rw [accept, Participant.isIn_append, Bool.or_eq_true] at present
        rcases present with old | new
        · exact (orderly.joined tx current i old).imp_left .inl
        · have same : p.id = i := by simpa [Participant.isIn] using new
          exact .inl (.inr same.symm)
      held := fun i tx member =>
        (orderly.held i tx member).imp_right fun ⟨current, present, owes⟩ =>
          ⟨current, by rw [accept, Participant.isIn_append, present]; rfl, owes⟩ }
  refine (larger.start current).imp (fun _ h => h) (fun _ h => h) ?_
  rintro i ⟨waits | rfl, other⟩
  · exact waits
  · contradiction

theorem queue (orderly : Orderly clear owing waiting context entries) (p : Participant) :
    Orderly clear owing waiting (context.queue p) entries := by
  obtain ⟨active, joined, began, uncommitted, clear, held, irrevocable⟩ := orderly
  exact ⟨active, joined, began, uncommitted, clear, held, irrevocable⟩

end Orderly

end DatasetCache
