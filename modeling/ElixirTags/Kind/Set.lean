import ElixirTags.Kind.Basic

/-!
# Sets of kinds

A `KindSet` holds the kinds that are on.  It is a word of six bits, one per kind in the order of
`Kind.all`, and is seen through membership: the operations of sets have lemmas that say which kinds
they hold.
-/

namespace ElixirTags

/-- A set of kinds. -/
structure KindSet where
  mask : BitVec 6
deriving DecidableEq, Repr

namespace KindSet

instance : Membership Kind KindSet where
  mem s k := s.mask.getLsbD k.index = true

instance (k : Kind) (s : KindSet) : Decidable (k ∈ s) :=
  inferInstanceAs (Decidable (_ = true))

instance : EmptyCollection KindSet where
  emptyCollection := ⟨0#6⟩

/-- The set of all kinds. -/
def full : KindSet := ⟨BitVec.allOnes 6⟩

/-- The set that holds one kind. -/
def single (k : Kind) : KindSet := ⟨BitVec.twoPow 6 k.index⟩

instance : Union KindSet where
  union s t := ⟨s.mask ||| t.mask⟩

instance : SDiff KindSet where
  sdiff s t := ⟨s.mask &&& ~~~t.mask⟩

/-- Switches the members of `t` on or off in `s`. -/
def switch (s t : KindSet) (on : Bool) : KindSet :=
  if on then s ∪ t else s \ t

/-- Switches one kind on. -/
def enable (s : KindSet) (k : Kind) : KindSet := s.switch (single k) true

/-- Switches one kind off. -/
def disable (s : KindSet) (k : Kind) : KindSet := s.switch (single k) false

/-- The members in the order of `Kind.all`. -/
def kinds (s : KindSet) : List Kind := Kind.all.filter (· ∈ s)

/-- The set of the kinds that satisfy `p`. -/
def ofPredicate (p : Kind → Bool) : KindSet :=
  (Kind.all.filter p).foldl enable ∅

/-- The kinds that are on when nothing is said. -/
def standard : KindSet := ofPredicate Kind.onByDefault

/-- The word as a number: the first kind has the lowest bit. -/
def bits (s : KindSet) : Nat := s.mask.toNat

/-! ## Members of each operation -/

variable {s t : KindSet} {j k : Kind}

theorem mem_iff : k ∈ s ↔ s.mask.getLsbD k.index = true := Iff.rfl

@[simp] theorem not_mem_empty : k ∉ (∅ : KindSet) := by
  simp [mem_iff, EmptyCollection.emptyCollection]

@[simp] theorem mem_full : k ∈ full := by
  simp only [mem_iff, full, BitVec.getLsbD_allOnes, k.index_lt, decide_true]

@[simp] theorem mem_single : j ∈ single k ↔ j = k := by
  simp [mem_iff, single, j.index_lt, eq_comm, Kind.index_inj]

@[simp] theorem mem_union : k ∈ s ∪ t ↔ k ∈ s ∨ k ∈ t := by
  simp [mem_iff, Union.union]

@[simp] theorem mem_sdiff : k ∈ s \ t ↔ k ∈ s ∧ k ∉ t := by
  simp [mem_iff, SDiff.sdiff, k.index_lt]

theorem mem_switch {on : Bool} : k ∈ s.switch t on ↔ if k ∈ t then on = true else k ∈ s := by
  cases on <;> by_cases h : k ∈ t <;> simp [switch, h]

end KindSet

end ElixirTags
