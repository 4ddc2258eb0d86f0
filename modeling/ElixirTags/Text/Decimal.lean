import ElixirTags.Text.Bytes

/-!
# Line numbers in decimal

`Decimal.digits` writes a line number with no leading zero, `Decimal.parse?` reads one.  Reading is
wider than writing: a plus sign and leading zeros are accepted, a number that does not fit into 32
bits is not.  What is written is read back (`parse?_digits`).
-/

namespace ElixirTags.Decimal

/-- The decimal digits of a line number, most significant first. -/
def digits (n : UInt32) : Bytes :=
  (Nat.toDigits 10 n.toNat).map Char.toUInt8

/-- The number that a row of digits denotes. -/
def value (ds : Bytes) : Nat :=
  ds.foldl (fun v b => 10 * v + (b.toNat - 0x30)) 0

/-- The text without one leading plus sign. -/
def dropPlus : Bytes → Bytes
  | [] => []
  | b :: rest => if b = 0x2B then rest else b :: rest

/-- Reads an optional plus sign and at least one digit; the number has to fit into 32 bits. -/
def parse? (t : Bytes) : Option UInt32 :=
  let ds := dropPlus t
  if ds ≠ [] ∧ ds.all Byte.isDigit ∧ value ds < UInt32.size then some (.ofNat (value ds)) else none

/-! ## Reading what was written -/

theorem toNat_toUInt8 {c : Char} (h : c.isDigit = true) : c.toUInt8.toNat = c.toNat := by
  have h9 : c.toNat ≤ 57 := by
    simp only [Char.isDigit, Bool.and_eq_true, decide_eq_true_eq] at h
    exact UInt32.le_iff_toNat_le.1 h.2
  show c.toNat % 256 = c.toNat
  omega

theorem isDigit_toUInt8 {c : Char} (h : c.isDigit = true) : Byte.isDigit c.toUInt8 = true := by
  have hn := toNat_toUInt8 h
  simp only [Char.isDigit, Bool.and_eq_true, decide_eq_true_eq] at h
  have h0 : 48 ≤ c.toNat := UInt32.le_iff_toNat_le.1 h.1
  have h9 : c.toNat ≤ 57 := UInt32.le_iff_toNat_le.1 h.2
  simp only [Byte.isDigit, Bool.and_eq_true, decide_eq_true_eq, UInt8.le_iff_toNat_le, hn]
  exact ⟨h0, h9⟩

theorem foldl_map_toUInt8 : ∀ (cs : List Char) (v : Nat), (∀ c ∈ cs, c.isDigit = true) →
    (cs.map Char.toUInt8).foldl (fun v b => 10 * v + (b.toNat - 0x30)) v = Nat.ofDigitChars 10 cs v
  | [], v, _ => by simp
  | c :: cs, v, h => by
    have hc := toNat_toUInt8 (h c (by simp))
    simp only [List.map_cons, List.foldl_cons, Nat.ofDigitChars_cons, hc]
    exact foldl_map_toUInt8 cs _ fun d hd => h d (by simp [hd])

theorem isDigit_of_mem_toDigits {n : Nat} {c : Char} (h : c ∈ Nat.toDigits 10 n) :
    c.isDigit = true :=
  Nat.isDigit_of_mem_toDigits (by decide) (by decide) h

@[simp] theorem value_digits (n : UInt32) : value (digits n) = n.toNat := by
  rw [value, digits, foldl_map_toUInt8 _ _ fun _ => isDigit_of_mem_toDigits]
  exact Nat.ofDigitChars_ten_toDigits

theorem isDigit_of_mem_digits {n : UInt32} {b : UInt8} (h : b ∈ digits n) :
    Byte.isDigit b = true := by
  obtain ⟨c, hc, rfl⟩ := List.mem_map.1 h
  exact isDigit_toUInt8 (isDigit_of_mem_toDigits hc)

theorem digits_ne_nil (n : UInt32) : digits n ≠ [] := by
  simp [digits, Nat.toDigits_ne_nil]

@[simp] theorem dropPlus_digits (n : UInt32) : dropPlus (digits n) = digits n := by
  cases h : digits n with
  | nil => rfl
  | cons b rest =>
    have hb : Byte.isDigit b = true := isDigit_of_mem_digits (n := n) (by simp [h])
    have : b ≠ 0x2B := by rintro rfl; exact absurd hb (by decide)
    simp [dropPlus, this]

/-- Reading the digits of a line number gives the number back. -/
theorem parse?_digits (n : UInt32) : parse? (digits n) = some n := by
  have hd : (digits n).all Byte.isDigit = true := by
    simp only [List.all_eq_true]
    exact fun b => isDigit_of_mem_digits
  have hn : n.toNat < 2 ^ 32 := n.toNat_lt
  simp only [parse?, dropPlus_digits, value_digits]
  rw [if_pos ⟨digits_ne_nil n, hd, hn⟩]
  simp

end ElixirTags.Decimal
