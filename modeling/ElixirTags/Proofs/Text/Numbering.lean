import ElixirTags.Text.Lines
import Mathlib.Algebra.Group.Nat.Defs
import Mathlib.Tactic.Lemma

/-!
# Line numbers as places

A list of lines is numbered from one on by `Text.numberFrom`, which stays at the greatest number
once it is reached.  Up to that many lines the number of a line is its place in the list
(`numberFrom_eq_mapIdx`), and so no two lines share a number.
-/

namespace ElixirTags.Text

@[simp] lemma map_snd_numberFrom (lines : List Bytes) :
    ∀ n, (numberFrom n lines).map Prod.snd = lines := by
  induction lines with
  | nil => intro n; rfl
  | cons line rest ih => intro n; simp [numberFrom, ih n.next]

@[simp] lemma length_numberFrom (n : LineNumber) (lines : List Bytes) :
    (numberFrom n lines).length = lines.length := by
  rw [← List.length_map (f := Prod.snd), map_snd_numberFrom]

/-- A number that is small enough is kept as it is. -/
lemma toNat_ofNat {n : Nat} (h : n < 2 ^ 32) : (UInt32.ofNat n).toNat = n :=
  UInt32.toNat_ofNat_of_lt' h

/-- Below the greatest number, the next number is the successor. -/
lemma next_ofNat {n : Nat} (h : n + 1 < 2 ^ 32) :
    LineNumber.next (.ofNat n) = .ofNat (n + 1) := by
  have hne : UInt32.ofNat n ≠ 0xFFFFFFFF := by
    intro heq
    have hval := congrArg UInt32.toNat heq
    rw [toNat_ofNat (by omega)] at hval
    have hmax : (0xFFFFFFFF : UInt32).toNat = 2 ^ 32 - 1 := by decide
    omega
  rw [LineNumber.next, if_neg hne, UInt32.ofNat_add]
  rfl

/-- As long as there are numbers enough, every line has its place as its number. -/
lemma numberFrom_eq_mapIdx (lines : List Bytes) :
    ∀ {n : Nat}, n + lines.length ≤ 2 ^ 32 →
      numberFrom (.ofNat n) lines = lines.mapIdx fun i line => (.ofNat (n + i), line) := by
  induction lines with
  | nil => intro n _; rfl
  | cons line rest ih =>
      intro n h
      rw [List.length_cons] at h
      rw [numberFrom, List.mapIdx_cons]
      cases rest with
      | nil => rfl
      | cons next rest =>
          rw [List.length_cons] at h
          rw [next_ofNat (by omega), ih (by rw [List.length_cons]; omega)]
          congr 2
          funext i line
          congr 2
          omega

/-- Lines that are numbered from one on have their places, counted from one, as numbers. -/
lemma numberFrom_one {lines : List Bytes} (h : lines.length < 2 ^ 32) :
    numberFrom 1 lines = lines.mapIdx fun i line => (.ofNat (i + 1), line) := by
  have hn : numberFrom (.ofNat 1) lines = _ := numberFrom_eq_mapIdx lines (by omega)
  simp only [Nat.add_comm 1] at hn
  exact hn

/-- Lines that are numbered from one on have increasing numbers. -/
lemma pairwise_numberFrom_one {lines : List Bytes} (h : lines.length < 2 ^ 32) :
    (numberFrom 1 lines).Pairwise fun a b => a.1 < b.1 := by
  rw [numberFrom_one h, List.pairwise_iff_getElem]
  intro i j hi hj hij
  rw [List.length_mapIdx] at hi hj
  rw [List.getElem_mapIdx, List.getElem_mapIdx]
  rw [UInt32.lt_iff_toNat_lt, toNat_ofNat (by omega), toNat_ofNat (by omega)]
  omega

end ElixirTags.Text
