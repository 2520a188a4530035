import DatasetCache.Transaction

/-!
# Sets of participants

A list of participants stands for a set of instances.  What the set holds is told by
`isIn`; two handles on one instance count as one.
-/

namespace DatasetCache.Participant

theorem isIn_append (i : InstanceId) (ps qs : List Participant) :
    isIn i (ps ++ qs) = (isIn i ps || isIn i qs) := by
  simp [isIn]

theorem isIn_addTo (i : InstanceId) (ps : List Participant) (p : Participant) :
    isIn i (addTo ps p) = (isIn i ps || p.id == i) := by
  unfold addTo
  split
  next present =>
      by_cases same : p.id = i
      · rw [← same, present]
        rfl
      · simp [same]
  next absent => simp [isIn]

theorem isIn_foldl_addTo (i : InstanceId) (ps qs : List Participant) :
    isIn i (qs.foldl addTo ps) = (isIn i ps || isIn i qs) := by
  induction qs generalizing ps with
  | nil => simp [isIn]
  | cons q rest ih =>
      rw [List.foldl_cons, ih, isIn_addTo, Bool.or_assoc]
      rfl

theorem mem_addTo {ps : List Participant} {p q : Participant} (member : q ∈ addTo ps p) :
    q ∈ ps ∨ q = p := by
  unfold addTo at member
  split at member
  · exact .inl member
  · simpa using member

theorem mem_foldl_addTo {ps qs : List Participant} {q : Participant}
    (member : q ∈ qs.foldl addTo ps) : q ∈ ps ∨ q ∈ qs := by
  induction qs generalizing ps with
  | nil => exact .inl member
  | cons r rest ih =>
      rcases ih member with member | member
      · rcases mem_addTo member with member | rfl
        · exact .inl member
        · exact .inr List.mem_cons_self
      · exact .inr (List.mem_cons_of_mem _ member)

theorem isIn_of_mem {ps : List Participant} {p : Participant} (member : p ∈ ps) :
    isIn p.id ps = true := by
  simp only [isIn, List.any_eq_true]
  exact ⟨p, member, by simp⟩

theorem isIn_removeFrom (i j : InstanceId) (ps : List Participant) :
    isIn i (removeFrom ps j) = (isIn i ps && i != j) := by
  apply Bool.eq_iff_iff.mpr
  simp only [isIn, removeFrom, List.any_eq_true, List.mem_filter, Bool.and_eq_true, bne_iff_ne,
    beq_iff_eq]
  constructor
  · rintro ⟨p, ⟨member, other⟩, rfl⟩
    exact ⟨⟨p, member, rfl⟩, other⟩
  · rintro ⟨⟨p, member, rfl⟩, other⟩
    exact ⟨p, ⟨member, other⟩, rfl⟩

/-! ## Lists without repetition -/

theorem foldl_addTo_eq {ps qs : List Participant} (distinct : (qs.map (·.id)).Nodup) :
    qs.foldl addTo ps = ps ++ qs.filter fun q => !isIn q.id ps := by
  induction qs generalizing ps with
  | nil => simp
  | cons q rest ih =>
      obtain ⟨fresh, distinct⟩ := List.nodup_cons.1 distinct
      rw [List.foldl_cons, ih distinct, addTo]
      split
      next present => simp [present]
      next absent =>
          have same : (rest.filter fun r => !isIn r.id (ps ++ [q])) =
              rest.filter fun r => !isIn r.id ps := by
            refine List.filter_congr fun r member => ?_
            have other : q.id ≠ r.id := fun alike =>
              fresh (List.mem_map.2 ⟨r, member, alike.symm⟩)
            simp [isIn, other]
          simp [same, absent]

theorem foldl_addTo_eq_eraseDups (ps qs : List Participant) :
    qs.foldl addTo ps =
      ps ++ (qs.filter fun q => !isIn q.id ps).eraseDupsBy fun p q => p.id == q.id := by
  induction qs generalizing ps with
  | nil => exact (List.append_nil ps).symm
  | cons q rest ih =>
      rw [List.foldl_cons, ih, addTo]
      split
      next present => rw [List.filter_cons_of_neg (by simp [present])]
      next absent =>
          have others : (rest.filter fun r => !isIn r.id (ps ++ [q])) =
              (rest.filter fun r => !isIn r.id ps).filter fun r => (r.id == q.id) = false := by
            rw [List.filter_filter]
            apply List.filter_congr
            intro r _
            by_cases same : r.id = q.id
            · simp [isIn, same]
            · simp [isIn, same, Ne.symm same]
          rw [List.filter_cons_of_pos (by simpa using absent), List.eraseDupsBy_cons, others,
            List.append_assoc]
          rfl

theorem nodup_addTo {ps : List Participant} (distinct : (ps.map (·.id)).Nodup) (p : Participant) :
    ((addTo ps p).map (·.id)).Nodup := by
  unfold addTo
  split
  next => exact distinct
  next absent =>
      have fresh : ∀ q ∈ ps, q.id ≠ p.id := by simpa [isIn] using absent
      rw [List.map_append, List.nodup_append]
      exact ⟨distinct, by simp, by simpa using fresh⟩

theorem nodup_foldl_addTo {ps : List Participant} (distinct : (ps.map (·.id)).Nodup)
    (qs : List Participant) : ((qs.foldl addTo ps).map (·.id)).Nodup := by
  induction qs generalizing ps with
  | nil => exact distinct
  | cons q rest ih => exact ih (nodup_addTo distinct q)

theorem mem_ids_iff {ps : List Participant} {i : InstanceId} :
    i ∈ ps.map (·.id) ↔ isIn i ps = true := by
  simp [isIn]

theorem foldl_addTo_perm {ps qs : List Participant} (same : ∀ i, isIn i ps = isIn i qs) :
    ((ps.foldl addTo []).map (·.id)).Perm ((qs.foldl addTo []).map (·.id)) := by
  refine (List.perm_ext_iff_of_nodup (nodup_foldl_addTo (by simp) ps)
    (nodup_foldl_addTo (by simp) qs)).2 fun i => ?_
  rw [mem_ids_iff, mem_ids_iff, isIn_foldl_addTo, isIn_foldl_addTo, same]

end DatasetCache.Participant
