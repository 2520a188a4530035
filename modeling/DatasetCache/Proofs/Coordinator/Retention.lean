import DatasetCache.Proofs.Coordinator.Course

/-!
# Retention

What a coordinator retains is told by its history: the changes recorded for those who
committed while somebody was in flight who still is.  The transactions in flight, in the
order they began, see shorter and shorter ends of the history, so it is always the first
of them on whom the length of what is retained depends.
-/

namespace DatasetCache.Coordinator

def Event.begun? : Event → Option Nat
  | .began tx => some tx.id
  | _ => none

namespace History

def begun (h : History) : List Nat := h.filterMap Event.begun?

/-- The transactions in flight, the first to begin first. -/
def aloft (h : History) : List Nat := h.begun.filter h.flying

/-- Who has committed after the start of a transaction that is in flight, in the order of
the commits. -/
def heeded (h : History) : List Nat :=
  h.winners.filter fun winner => h.aloft.any fun id => (h.since id).winners.contains winner

/-- What some transactions have recorded, without those that recorded nothing. -/
def sets (h : History) (ids : List Nat) : List (List Change) :=
  (ids.map h.recorded).filter (!·.isEmpty)

/-! ## Who is in flight -/

variable {h : History} {e : Event} {id : Nat}

theorem begins_iff : e.begins id = true ↔ e.begun? = some id := by
  cases e <;> simp [Event.begins, Event.begun?]

theorem mem_begun_iff : id ∈ h.begun ↔ since h id ≠ [] := by
  simp [begun, since, List.dropWhile_eq_nil_iff, begins_iff]

theorem begun_append_singleton (h : History) (e : Event) :
    begun (h ++ [e]) = begun h ++ e.begun?.toList := by
  cases he : e.begun? <;> simp [begun, he, List.filterMap_append]

theorem mem_aloft_iff : id ∈ h.aloft ↔ flying h id = true := by
  rw [aloft, List.mem_filter, mem_begun_iff, and_iff_right_iff_imp]
  intro aloft none
  simp [flying, none] at aloft

theorem since_cons (e : Event) (h : History) (id : Nat) :
    since (e :: h) id = if e.begun? = some id then e :: h else since h id := by
  cases begins : e.begins id <;> simp [since, begins, ← begins_iff]

theorem begun_cons (e : Event) (h : History) : begun (e :: h) = e.begun?.toList ++ begun h := by
  cases he : e.begun? <;> simp [begun, he]

theorem since_suffix {p : Nat → Bool} {first : Nat} {rest : List Nat}
    (split : h.begun.filter p = first :: rest) {other : Nat} (member : other ∈ first :: rest) :
    since h other <:+ since h first := by
  have chosen : p other = true := by
    rw [← split] at member
    exact (List.mem_filter.1 member).2
  induction h with
  | nil => cases split
  | cons e h ih =>
      rw [since_cons e h first]
      split
      · exact List.dropWhile_suffix _
      next later =>
          -- nobody who matters begins here
          have others : ∀ id, e.begun? = some id → p id = false := by
            intro id he
            rw [← Bool.not_eq_true]
            intro wanted
            simp only [begun_cons, he, Option.toList_some, List.singleton_append,
              List.filter_cons_of_pos wanted, List.cons.injEq] at split
            exact later (split.1 ▸ he)
          have skipped : e.begun? ≠ some other := fun he => by
            simp [others other he] at chosen
          rw [since_cons, if_neg skipped]
          apply ih
          rw [begun_cons, List.filter_append] at split
          cases he : e.begun? with
          | none => simpa [he] using split
          | some id => simpa [he, others id he] using split

theorem heeded_nil (idle : h.aloft = []) : h.heeded = [] := by
  simp [heeded, idle]

theorem heeded_cons {rest : List Nat} (distinct : h.winners.Nodup)
    (split : h.aloft = id :: rest) : h.heeded = (h.since id).winners := by
  have seen : h.heeded = h.winners.filter (· ∈ (h.since id).winners) := by
    refine List.filter_congr fun winner _ => ?_
    rw [Bool.eq_iff_iff, List.any_eq_true, decide_eq_true_iff]
    constructor
    · rintro ⟨other, aloft, seen⟩
      exact ((since_suffix split (split ▸ aloft)).sublist.filterMap _).subset
        (List.contains_iff_mem.1 seen)
    · intro seen
      exact ⟨id, by simp [split], List.contains_iff_mem.2 seen⟩
  obtain ⟨before, whole⟩ : since h id <:+ h := List.dropWhile_suffix _
  have parts : h.winners = winners before ++ (h.since id).winners := by
    rw [winners, winners, winners, ← List.filterMap_append, whole]
  rw [parts, List.nodup_append] at distinct
  have gone : (winners before).filter (· ∈ (h.since id).winners) = [] := by
    refine List.filter_eq_nil_iff.2 fun winner early late => ?_
    exact distinct.2.2 winner early winner (by simpa using late) rfl
  rw [seen, parts, List.filter_append, gone, List.nil_append, List.filter_eq_self]
  simp

theorem settles_beq (settles : e.settles id = true) (other : Nat) :
    e.settles other = (id == other) := by
  cases e with
  | tried tx answer =>
      cases answer with
      | error fault => cases settles
      | ok value => cases value <;> simp_all [Event.settles]
  | _ => simp_all [Event.settles]

theorem begins_of_settles (settles : e.settles id = true) (other : Nat) :
    e.begins other = false := by
  cases e <;> simp_all [Event.settles, Event.begins]

theorem aloft_settled {rest : List Nat} (distinct : h.begun.Nodup) (split : h.aloft = id :: rest)
    (settles : e.settles id = true) : aloft (h ++ [e]) = rest := by
  have nothing : e.begun? = none := by
    apply Option.eq_none_iff_forall_ne_some.2
    intro other he
    simpa [begins_iff.2 he] using begins_of_settles settles other
  have alone : id ∉ rest := by
    have apart : h.aloft.Nodup := distinct.filter h.flying
    rw [split, List.nodup_cons] at apart
    exact apart.1
  have both : aloft (h ++ [e]) = h.aloft.filter (!e.settles ·) := by
    rw [aloft, aloft, begun_append_singleton, nothing, Option.toList_none, List.append_nil,
      List.filter_filter]
    refine List.filter_congr fun other _ => ?_
    rw [flying_append_singleton (begins_of_settles settles other), Bool.and_comm]
  rw [both, split, List.filter_cons_of_neg (by simp [settles]), List.filter_eq_self]
  intro other member
  have different : id ≠ other := by
    rintro rfl
    exact alone member
  simp [settles_beq settles, different]

end History

/-! ## What is kept -/

open History

/-- The coordinator that keeps every change set has one for each commit, and a read pointer
in flight parts them as the start of the transaction parts the commits. -/
structure Archives (h : History) (c : Coordinator) (version : Nat → Nat) : Prop where
  kept : c.retained = h.winners.map fun winner => ⟨version winner, h.recorded winner⟩
  later : ∀ {id entry}, c.inFlight.get? id = some entry → ∀ winner ∈ h.winners,
    entry.readPointer < version winner ↔ winner ∈ (h.since id).winners
  begun : h.begun.Nodup
  winners : h.winners.Nodup

namespace Archives

variable {h : History} {c next : Coordinator} {version : Nat → Nat} {e : Event}

private theorem quiet (a : Archives h c version) (t : Tells h c) (move : Moves c e next)
    (starts : e.begun? = none) (winner : e.winner? = none)
    (retained : next.retained = c.retained)
    (left : ∀ {id entry}, next.inFlight.get? id = some entry →
      ∃ old, c.inFlight.get? id = some old ∧ old.readPointer = entry.readPointer) :
    Archives (h ++ [e]) next version := by
  have same : History.winners (h ++ [e]) = h.winners := by
    simp [winners_append_singleton, winner]
  refine ⟨?_, fun {id entry} found past won => ?_, ?_, same ▸ a.winners⟩
  · rw [retained, a.kept, same]
    refine List.map_congr_left fun past won => ?_
    rw [t.recorded_winner move won]
  · obtain ⟨old, present, pointer⟩ := left found
    rw [← pointer, winners_since_append (t.found present).1, winner, Option.toList_none,
      List.append_nil]
    exact a.later present past (same ▸ won)
  · simpa [begun_append_singleton, starts] using a.begun

private theorem of_erase {gone : Nat} {id : Nat} {entry : InFlight}
    (found : (c.inFlight.erase gone).get? id = some entry) :
    ∃ old, c.inFlight.get? id = some old ∧ old.readPointer = entry.readPointer := by
  rw [Table.get?_erase] at found
  split at found
  · contradiction
  · exact ⟨entry, found, rfl⟩

private theorem of_insert {id' : Nat} {old : InFlight} {changes : List Change}
    (present : c.inFlight.get? id' = some old) {id : Nat} {entry : InFlight}
    (found : (c.inFlight.insert id' { old with changes }).get? id = some entry) :
    ∃ old, c.inFlight.get? id = some old ∧ old.readPointer = entry.readPointer := by
  rw [Table.get?_insert] at found
  split at found
  next same =>
      cases found
      exact ⟨old, same ▸ present, rfl⟩
  next => exact ⟨entry, found, rfl⟩

private theorem began (a : Archives h c version) (t : Tells h c) (bounded : Bounded c) :
    Archives (h ++ [.began ⟨c.lastId + 1, c.version⟩])
      { c with
        lastId := c.lastId + 1
        inFlight := c.inFlight.insert (c.lastId + 1) ⟨c.version, []⟩
        started := c.started + 1 } version := by
  have move : Moves c (.began ⟨c.lastId + 1, c.version⟩) _ := .began
  have same : History.winners (h ++ [.began ⟨c.lastId + 1, c.version⟩]) = h.winners := by
    simp [winners_append_singleton, Event.winner?]
  have unborn := (t.unborn (c.lastId + 1) (Nat.lt_succ_self _)).1
  refine ⟨?_, fun {id entry} found past won => ?_, ?_, same ▸ a.winners⟩
  · rw [a.kept, same]
    refine List.map_congr_left fun past won => ?_
    rw [t.recorded_winner move won]
  · rw [same] at won
    rw [Table.get?_insert] at found
    split at found
    next new =>
        -- all commits so far are behind the pointer of the new transaction
        subst new
        cases found
        have member : (⟨version past, h.recorded past⟩ : Committed) ∈ c.retained := by
          rw [a.kept]
          exact List.mem_map_of_mem won
        have old : ¬c.version < version past := Nat.not_lt.2 (bounded.versions member)
        simp [since_append_singleton, unborn, Event.begins, History.winners, Event.winner?, old]
    next different =>
        rw [winners_since_append (t.found found).1]
        simpa [Event.winner?] using a.later found past won
  · rw [begun_append_singleton, Event.begun?, Option.toList_some]
    refine List.nodup_append.2 ⟨a.begun, by simp, fun id old new single => ?_⟩
    rw [List.mem_singleton.1 single]
    rintro rfl
    exact mem_begun_iff.1 old unborn

private theorem won (a : Archives h c version) (t : Tells h c) (bounded : Bounded c)
    {tx : Transaction} {entry : InFlight} (present : c.inFlight.get? tx.id = some entry)
    (clear : c.conflicts entry.readPointer entry.changes = false) :
    Archives (h ++ [.tried tx (.ok true)])
      { c with
        version := c.version + 1
        inFlight := c.inFlight.erase tx.id
        retained := c.retained ++ [⟨c.version + 1, entry.changes⟩]
        committed := c.committed + 1 }
      (Function.update version tx.id (c.version + 1)) := by
  have move : Moves c (.tried tx (.ok true)) _ := .won tx entry present clear
  have same : History.winners (h ++ [.tried tx (.ok true)]) = h.winners ++ [tx.id] := by
    simp [winners_append_singleton, Event.winner?]
  have recorded' : recorded (h ++ [.tried tx (.ok true)]) = recorded h := by
    funext id
    simp [recorded_append_singleton, Event.accepted?]
  have fresh : tx.id ∉ h.winners := fun before => by
    rw [(t.won before).2] at present
    cases present
  have old : ∀ {past}, past ∈ h.winners →
      Function.update version tx.id (c.version + 1) past = version past := by
    intro past before
    refine Function.update_of_ne ?_ _ _
    rintro rfl
    exact fresh before
  refine ⟨?_, fun {id other} found past won => ?_, ?_, ?_⟩
  · have before : h.winners.map (fun winner =>
        (⟨Function.update version tx.id (c.version + 1) winner, h.recorded winner⟩ : Committed)) =
        c.retained := by
      rw [a.kept]
      refine List.map_congr_left fun past before => ?_
      rw [old before]
    rw [same, List.map_append, recorded', before]
    simp [(t.found present).2.1]
  · obtain ⟨_, still, pointer⟩ := of_erase found
    have begun := t.found still
    rw [← pointer, winners_since_append begun.1]
    rw [same, List.mem_append, List.mem_singleton] at won
    rcases won with before | rfl
    · have different : past ≠ tx.id := by
        rintro rfl
        exact fresh before
      simpa [old before, Event.winner?, different] using a.later still past before
    · have small := (bounded.entries still).2
      simp only [Function.update_self, Event.winner?, Option.toList_some, List.mem_append,
        List.mem_singleton, or_true, iff_true]
      omega
  · simpa [begun_append_singleton, Event.begun?] using a.begun
  · rw [same]
    refine List.nodup_append.2 ⟨a.winners, by simp, fun past before single member => ?_⟩
    rw [List.mem_singleton.1 member]
    rintro rfl
    exact fresh before

theorem moves (a : Archives h c version) (t : Tells h c) (bounded : Bounded c)
    (move : Moves c e next) : ∃ version, Archives (h ++ [e]) next version := by
  cases move with
  | began => exact ⟨_, a.began t bounded⟩
  | won tx entry present clear => exact ⟨_, a.won t bounded present clear⟩
  | accepted tx changes entry present =>
      exact ⟨_, a.quiet t (.accepted tx changes entry present) rfl rfl rfl (of_insert present)⟩
  | aborted tx => exact ⟨_, a.quiet t (.aborted tx) rfl rfl rfl of_erase⟩
  | invalidated tx invalid =>
      exact ⟨_, a.quiet t (.invalidated tx invalid) rfl rfl rfl of_erase⟩
  | unchecked tx changes answer refused =>
      exact ⟨_, a.quiet t (.unchecked tx changes answer refused) rfl rfl rfl
        fun found => ⟨_, found, rfl⟩⟩
  | lost tx answer refused =>
      have winner : (Event.tried tx answer).winner? = none := by
        cases answer with
        | error fault => rfl
        | ok value => cases value <;> simp_all [Event.winner?]
      exact ⟨_, a.quiet t (.lost tx answer refused) rfl winner rfl fun found => ⟨_, found, rfl⟩⟩

theorem visible_eq (a : Archives h c version) (t : Tells h c) {winner : Nat}
    (won : winner ∈ h.winners) (changes : List Change) :
    visible c.inFlight ⟨version winner, changes⟩ =
      h.aloft.any fun id => (h.since id).winners.contains winner := by
  rw [Bool.eq_iff_iff, visible_iff, List.any_eq_true]
  constructor
  · rintro ⟨id, entry, found, less⟩
    have seen := (a.later found winner won).1 less
    exact ⟨id, mem_aloft_iff.2 (t.found found).1, List.contains_iff_mem.2 seen⟩
  · rintro ⟨id, aloft, seen⟩
    cases found : c.inFlight.get? id with
    | none =>
        rw [mem_aloft_iff, t.missing found] at aloft
        cases aloft
    | some entry =>
        exact ⟨id, entry, found, (a.later found winner won).2 (List.contains_iff_mem.1 seen)⟩

theorem shed_retained (a : Archives h c version) (t : Tells h c) :
    c.shed.retained.map (·.changes) = h.sets h.heeded := by
  simp only [shed, sets, heeded, a.kept, List.filter_map, List.map_map, List.filter_filter]
  congr 1
  refine List.filter_congr fun winner won => ?_
  rw [Function.comp_apply, Function.comp_apply, a.visible_eq t won]

end Archives

theorem archives_replay (calls : List Call) :
    ∃ version, Archives (replay keep calls).1 (replay keep calls).2 version := by
  induction calls using List.reverseRecOn with
  | nil => exact ⟨fun _ => 0, by constructor <;> simp [replay, winners, begun]⟩
  | append_singleton calls call ih =>
      obtain ⟨version, archives⟩ := ih
      rw [replay_append_singleton]
      exact archives.moves (tells_replay calls) (bounded_replay calls) (keep_moves _ call)

/-! ## What is retained -/

theorem winners_nodup (calls : List Call) : (history calls).winners.Nodup := by
  obtain ⟨version, archives⟩ := archives_replay calls
  rw [history, replay_take]
  exact archives.winners

theorem begun_nodup (calls : List Call) : (history calls).begun.Nodup := by
  obtain ⟨version, archives⟩ := archives_replay calls
  rw [history, replay_take]
  exact archives.begun

theorem retained_eq (calls : List Call) :
    (after calls).retained.map (·.changes) = (history calls).sets (history calls).heeded := by
  obtain ⟨version, archives⟩ := archives_replay calls
  rw [after, history, replay_take]
  exact archives.shed_retained (tells_replay calls)

theorem history_append_singleton (calls : List Call) (call : Call) :
    history (calls ++ [call]) = history calls ++ [((after calls).take call).1] := by
  rw [history, replay_append_singleton]
  rfl

theorem after_append_singleton (calls : List Call) (call : Call) :
    after (calls ++ [call]) = ((after calls).take call).2 := by
  rw [after, replay_append_singleton]
  rfl

/-- Whether a transaction in flight could still conflict with a change set. -/
def Faces (c : Coordinator) (id : Nat) (set : Committed) : Prop :=
  ∃ entry, c.inFlight.get? id = some entry ∧ entry.readPointer < set.version

theorem retained_settled {c : Coordinator} {call : Call} {id : Nat}
    (settles : (c.take call).1.settles id = true) {set : Committed} (member : set ∈ c.retained) :
    set ∈ (c.take call).2.retained ↔ visible (c.inFlight.erase id) set = true := by
  cases call with
  | begin => cases settles
  | canCommit tx changes => cases settles
  | abort tx =>
      obtain rfl : tx.id = id := by simpa [take, Event.settles] using settles
      simp [take, abort, settle_eq, member]
  | invalidate tx =>
      obtain rfl : tx.id = id := by simpa [take, Event.settles] using settles
      simp [take, invalidate, settle_eq, member]
  | commit tx =>
      cases found : c.inFlight.get? tx.id with
      | none => simp [take, commit_absent found, Event.settles] at settles
      | some entry =>
          cases clash : c.conflicts entry.readPointer entry.changes with
          | true => simp [take, commit_clash found clash, Event.settles] at settles
          | false =>
              obtain rfl : tx.id = id := by
                simpa [take, commit_clear found clash, Event.settles] using settles
              simp only [take, commit_clear found clash, settle_eq]
              split <;> simp [member]

theorem aloft_iff (calls : List Call) {id : Nat} :
    id ∈ (history calls).aloft ↔ ∃ entry, (after calls).inFlight.get? id = some entry := by
  have ruled : Ruled (history calls) (after calls) := ⟨calls, rfl⟩
  rw [mem_aloft_iff, ruled.flying_iff]

section Settling

variable {calls : List Call} {call : Call} {first : Nat} {rest : List Nat}
  (split : (history calls).aloft = first :: rest)
  (settles : ((after calls).take call).1.settles first = true)

include split settles

theorem aloft_after : (history (calls ++ [call])).aloft = rest := by
  rw [history_append_singleton]
  exact aloft_settled (begun_nodup calls) split settles

theorem mem_retained_after_iff {set : Committed} (member : set ∈ (after calls).retained) :
    set ∈ (after (calls ++ [call])).retained ↔ ∃ other ∈ rest, (after calls).Faces other set := by
  have distinct : (first :: rest).Nodup := split ▸ (begun_nodup calls).filter _
  have others : ∀ {id}, id ∈ rest ↔ id ≠ first ∧ id ∈ (history calls).aloft := by
    intro id
    rw [split, List.mem_cons]
    have apart := (List.nodup_cons.1 distinct).1
    constructor
    · intro member
      exact ⟨fun same => apart (same ▸ member), .inr member⟩
    · rintro ⟨different, same | member⟩
      · exact absurd same different
      · exact member
  rw [after_append_singleton, retained_settled settles member, visible_iff]
  simp only [Table.get?_erase, others, Faces]
  constructor
  · rintro ⟨id, entry, found, less⟩
    split at found
    · cases found
    next different =>
        exact ⟨id, ⟨different, (aloft_iff calls).2 ⟨entry, found⟩⟩, entry, found, less⟩
  · rintro ⟨id, ⟨different, -⟩, entry, found, less⟩
    exact ⟨id, entry, by simpa [different] using found, less⟩

end Settling

/-- **Retention is exact.** What is retained are, in the order of the commits, the sets
that were recorded by those who committed after the start of a transaction still in flight,
leaving out empty ones.  While nothing is in flight nothing is retained.  Settling the
transaction that started first leaves only what was committed since the start of the next,
and of the sets retained before it releases those that no other transaction faces. -/
theorem retention_is_exact (calls : List Call) :
    (after calls).retained.map (·.changes) =
      (history calls).sets (history calls).heeded ∧
    ((history calls).aloft = [] → (after calls).retained = []) ∧
    ∀ call first rest, (history calls).aloft = first :: rest →
      ((after calls).take call).1.settles first = true →
      (history (calls ++ [call])).aloft = rest ∧
      (after (calls ++ [call])).retained.map (·.changes) =
        (history (calls ++ [call])).sets
          (rest.head?.elim [] fun next => ((history (calls ++ [call])).since next).winners) ∧
      ∀ set ∈ (after calls).retained,
        set ∈ (after (calls ++ [call])).retained ↔
          ∃ other ∈ rest, (after calls).Faces other set := by
  refine ⟨retained_eq calls, fun idle => ?_, fun call first rest split settles => ?_⟩
  · have none := retained_eq calls
    rw [heeded_nil idle] at none
    exact List.map_eq_nil_iff.1 none
  · have left := aloft_after split settles
    refine ⟨left, ?_, fun set => mem_retained_after_iff split settles⟩
    rw [retained_eq]
    cases rest with
    | nil => rw [heeded_nil left]; rfl
    | cons next rest => rw [heeded_cons (winners_nodup _) left]; rfl

end DatasetCache.Coordinator
