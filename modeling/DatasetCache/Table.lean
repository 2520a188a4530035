/-!
# Tables in key order

A `Table` holds at most one value per key and lists its entries in strictly
ascending key order.  The order is a field of the type, so two tables with the
same content are the same table, whatever the insertions that built them.
-/

namespace DatasetCache

structure Table (α β : Type) [Ord α] where
  entries : List (α × β)
  ascending : entries.Pairwise fun a b => compare a.1 b.1 = .lt

namespace Table

variable {α β : Type} [Ord α]

@[ext] theorem ext {s t : Table α β} (h : s.entries = t.entries) : s = t := by
  cases s; cases t; cases h; rfl

instance [DecidableEq α] [DecidableEq β] : DecidableEq (Table α β) := fun s t =>
  decidable_of_iff (s.entries = t.entries) ⟨Table.ext, fun h => h ▸ rfl⟩

instance [Repr α] [Repr β] : Repr (Table α β) := ⟨fun t => reprPrec t.entries⟩

/-! ## Reading -/

def empty : Table α β := ⟨[], .nil⟩

instance : EmptyCollection (Table α β) := ⟨empty⟩

instance : Inhabited (Table α β) := ⟨empty⟩

def get? (t : Table α β) (key : α) : Option β :=
  (t.entries.find? fun entry => compare key entry.1 == .eq).map (·.2)

def contains (t : Table α β) (key : α) : Bool := (t.get? key).isSome

def keys (t : Table α β) : List α := t.entries.map (·.1)

def values (t : Table α β) : List β := t.entries.map (·.2)

def size (t : Table α β) : Nat := t.entries.length

def isEmpty (t : Table α β) : Bool := t.entries.isEmpty

/-- First key, in key order, whose value satisfies `p`. -/
def keyWhere? (t : Table α β) (p : β → Bool) : Option α :=
  (t.entries.find? fun entry => p entry.2).map (·.1)

/-! ## Writing -/

/-- Places an entry before the first larger key, replacing an equal one. -/
def place (key : α) (value : β) : List (α × β) → List (α × β)
  | [] => [(key, value)]
  | entry :: rest =>
    match compare key entry.1 with
    | .lt => (key, value) :: entry :: rest
    | .eq => (key, value) :: rest
    | .gt => entry :: place key value rest

theorem mem_place {key : α} {value : β} {entries : List (α × β)} {e : α × β}
    (h : e ∈ place key value entries) : e = (key, value) ∨ e ∈ entries := by
  induction entries with
  | nil => simpa [place] using h
  | cons entry rest ih =>
    rw [place] at h
    split at h
    · simpa using h
    · simp only [List.mem_cons] at h ⊢
      exact h.imp_right .inr
    · simp only [List.mem_cons] at h ⊢
      rcases h with h | h
      · exact .inr (.inl h)
      · exact (ih h).imp_right .inr

variable [Std.TransOrd α]

theorem pairwise_place {key : α} {value : β} {entries : List (α × β)}
    (h : entries.Pairwise fun a b => compare a.1 b.1 = .lt) :
    (place key value entries).Pairwise fun a b => compare a.1 b.1 = .lt := by
  induction entries with
  | nil => simp [place]
  | cons entry rest ih =>
    obtain ⟨below, tail⟩ := List.pairwise_cons.1 h
    rw [place]
    split
    next hlt =>
      refine List.pairwise_cons.2 ⟨fun e he => ?_, h⟩
      rcases List.mem_cons.1 he with rfl | he
      · exact hlt
      · exact Std.TransCmp.lt_trans hlt (below e he)
    next heq =>
      exact List.pairwise_cons.2
        ⟨fun e he => Std.TransCmp.lt_of_eq_of_lt heq (below e he), tail⟩
    next hgt =>
      refine List.pairwise_cons.2 ⟨fun e he => ?_, ih tail⟩
      rcases mem_place he with rfl | he
      · exact Std.OrientedCmp.lt_of_gt hgt
      · exact below e he

def insert (t : Table α β) (key : α) (value : β) : Table α β :=
  ⟨place key value t.entries, pairwise_place t.ascending⟩

omit [Std.TransOrd α] in
def erase (t : Table α β) (key : α) : Table α β :=
  ⟨t.entries.filter fun entry => compare key entry.1 != .eq, t.ascending.filter _⟩

/-- Adds the entries of a list from left to right; of equal keys the last wins. -/
def insertAll (t : Table α β) (entries : List (α × β)) : Table α β :=
  entries.foldl (fun t entry => t.insert entry.1 entry.2) t

def ofList (entries : List (α × β)) : Table α β := empty.insertAll entries

end Table

end DatasetCache
