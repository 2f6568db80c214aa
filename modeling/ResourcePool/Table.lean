/-!
Values under numbers, in ascending order of the numbers.
-/

namespace ResourcePool

structure Table (α : Type) where
  entries : List (Nat × α) := []
  ascending : entries.Pairwise (fun e f => e.1 < f.1) := by exact .nil
  deriving DecidableEq

namespace Table

variable {α : Type}

def get? (t : Table α) (key : Nat) : Option α :=
  t.entries.lookup key

def contains (t : Table α) (key : Nat) : Bool :=
  (t.get? key).isSome

def erase (t : Table α) (key : Nat) : Table α where
  entries := t.entries.filter fun e => e.1 != key
  ascending := t.ascending.filter _

def insert (t : Table α) (key : Nat) (a : α) : Table α where
  entries :=
    t.entries.filter (fun e => e.1 < key) ++ (key, a) :: t.entries.filter (fun e => key < e.1)
  ascending := by
    refine List.pairwise_append.2 ⟨t.ascending.filter _, ?_, ?_⟩
    · exact List.pairwise_cons.2 ⟨fun e he => by simpa using (List.mem_filter.1 he).2,
        t.ascending.filter _⟩
    · intro e he f hf
      have below : e.1 < key := by simpa using (List.mem_filter.1 he).2
      rcases List.mem_cons.1 hf with rfl | hf
      · exact below
      · have above : key < f.1 := by simpa using (List.mem_filter.1 hf).2
        omega

theorem lookup_filter (l : List (Nat × α)) (keep : Nat → Bool) (key : Nat) :
    (l.filter fun e => keep e.1).lookup key = if keep key then l.lookup key else none := by
  induction l with
  | nil => simp
  | cons e l ih =>
      obtain ⟨k, a⟩ := e
      rcases hk : key == k with _ | _
      · cases h : keep k <;> simp [h, hk, ih, List.lookup_cons]
      · obtain rfl : key = k := by simpa using hk
        cases h : keep key
        · simpa [h] using ih
        · simp [h]

@[simp] theorem get?_erase (t : Table α) (key k : Nat) :
    (t.erase key).get? k = if k = key then none else t.get? k := by
  unfold erase get?
  rw [lookup_filter t.entries (fun n => n != key) k]
  by_cases h : k = key <;> simp [h]

@[simp] theorem get?_insert (t : Table α) (key k : Nat) (a : α) :
    (t.insert key a).get? k = if k = key then some a else t.get? k := by
  unfold insert get?
  rw [List.lookup_append, lookup_filter t.entries (fun n => n < key) k, List.lookup_cons,
    lookup_filter t.entries (fun n => key < n) k]
  by_cases h : k = key
  · simp [h]
  · have hne : (k == key) = false := by simpa using h
    rcases Nat.lt_or_gt_of_ne h with hlt | hgt
    · simp [h, hne, hlt, Nat.not_lt_of_gt hlt]
    · simp [h, hne, hgt, Nat.not_lt_of_gt hgt]

end Table
end ResourcePool
