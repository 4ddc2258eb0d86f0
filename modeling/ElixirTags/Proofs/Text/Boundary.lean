import ElixirTags.Proofs.Text.Repair

/-!
# Character boundaries

A place in a text is a character boundary if no continuation byte stands there, which takes one look
at one byte (`Utf8.isBoundary`).  In UTF-8 this says what it should: the text before the place is
UTF-8 by itself (`Utf8.isBoundary_iff`).

One direction is about what may begin a character, the other about what may go on with one: a
decoder that is inside a character takes continuation bytes only
(`Utf8.State.AwaitsContinuation`), so it must have been between two characters where another byte
comes.
-/

namespace ElixirTags.Utf8

/-- The byte can only stand inside a character. -/
def IsContinuation (b : UInt8) : Prop := 0x80 ≤ b ∧ b < 0xC0

/-- A decoder inside a character awaits continuation bytes. -/
def State.AwaitsContinuation : State → Prop
  | .boundary => True
  | .inside _ next => 0x80 ≤ next.lo ∧ next.hi < 0xC0

/-! ## What may come next -/

variable {b c : UInt8} {a rest text : Bytes} {s t : State}

/-- A lead byte is no continuation byte, and it asks for one. -/
lemma bounds_of_opening {next : Awaited} (h : opening b = .lead next) :
    0xC0 ≤ b ∧ 0x80 ≤ next.lo ∧ next.hi < 0xC0 := by
  have hlead : 0xC0 ≤ b := by
    by_contra hlt
    have hC2 : b < 0xC2 := UInt8.lt_trans (UInt8.not_le.1 hlt) (by decide)
    rw [opening, if_pos hC2] at h
    split at h <;> cases h
  refine ⟨hlead, lo_of_opening h, ?_⟩
  unfold opening at h
  repeat' split at h
  all_goals cases h <;> decide

lemma not_isContinuation_of_advance?_boundary (h : State.boundary.advance? b = some t) :
    ¬ IsContinuation b := by
  rintro ⟨hle, hlt⟩
  rw [State.advance?] at h
  split at h
  · next hwhole =>
    rw [opening, if_neg (UInt8.not_lt.2 hle), if_pos (UInt8.lt_trans hlt (by decide))] at hwhole
    cases hwhole
  · next next hnext => exact UInt8.not_lt.2 (bounds_of_opening hnext).1 hlt
  · cases h

lemma State.AwaitsContinuation.advance? (hs : s.AwaitsContinuation) (h : s.advance? b = some t) :
    t.AwaitsContinuation := by
  cases s with
  | boundary =>
      simp only [State.advance?] at h
      split at h
      · cases h
        trivial
      · next next hnext =>
        cases h
        exact (bounds_of_opening hnext).2
      · cases h
  | inside held next =>
      simp only [State.advance?] at h
      split at h
      · split at h
        · cases h
          trivial
        · cases h
          show (0x80 : UInt8) ≤ 0x80 ∧ (0xBF : UInt8) < 0xC0
          decide
      · cases h

/-- A byte that continues no character is taken between two characters only. -/
lemma State.eq_boundary_of_advance? (hs : s.AwaitsContinuation) (h : s.advance? b = some t)
    (hb : ¬ IsContinuation b) : s = .boundary := by
  cases s with
  | boundary => rfl
  | inside held next =>
      simp only [State.advance?] at h
      split at h
      · next hin =>
        rw [Bool.and_eq_true, decide_eq_true_iff, decide_eq_true_iff] at hin
        exact absurd ⟨UInt8.le_trans hs.1 hin.1, UInt8.lt_of_le_of_lt hin.2 hs.2⟩ hb
      · cases h

/-! ## Cutting a text -/

/-- A text is cut between two characters before any byte that continues none. -/
lemma validFrom_of_append_cons (hb : ¬ IsContinuation b) (hs : s.AwaitsContinuation)
    (h : validFrom s (a ++ b :: rest) = true) : validFrom s a = true := by
  induction a generalizing s with
  | nil =>
      rw [List.nil_append, validFrom] at h
      split at h
      · next next hnext =>
        rw [State.eq_boundary_of_advance? hs hnext hb]
        rfl
      · cases h
  | cons c a ih =>
      rw [List.cons_append, validFrom] at h
      rw [validFrom]
      split at h
      · next next hnext => exact ih (hs.advance? hnext) h
      · cases h

/-- What follows UTF-8 in UTF-8 is UTF-8. -/
lemma valid_of_append (ha : Valid a) (h : Valid (a ++ rest)) : Valid rest := by
  rw [Valid, validFrom_append ha] at h
  exact h

lemma not_isContinuation_of_valid_cons (h : Valid (b :: rest)) : ¬ IsContinuation b := by
  rw [Valid, validFrom] at h
  split at h
  · next next hnext => exact not_isContinuation_of_advance?_boundary hnext
  · cases h

lemma isBoundary_append_cons :
    isBoundary (a ++ b :: rest) a.length = true ↔ a = [] ∨ ¬ IsContinuation b := by
  rw [isBoundary, List.getElem?_append_right (Nat.le_refl _), Nat.sub_self, List.getElem?_cons_zero,
    Bool.or_eq_true, beq_iff_eq, List.length_eq_zero_iff, Bool.or_eq_true, decide_eq_true_iff,
    decide_eq_true_iff, IsContinuation, not_and_or, UInt8.not_le, UInt8.not_lt]

/-- UTF-8 is cut at a character boundary exactly if the first part is UTF-8. -/
lemma isBoundary_append_iff (h : Valid (a ++ rest)) :
    isBoundary (a ++ rest) a.length = true ↔ Valid a := by
  cases rest with
  | nil =>
      rw [List.append_nil] at h
      have hend : isBoundary (a ++ []) a.length = true := by
        simp [isBoundary]
      exact iff_of_true hend h
  | cons b rest =>
      rw [isBoundary_append_cons]
      constructor
      · rintro (rfl | hb)
        · rfl
        · exact validFrom_of_append_cons hb trivial h
      · intro ha
        exact Or.inr (not_isContinuation_of_valid_cons (valid_of_append ha h))

/-- A place in UTF-8 is a character boundary exactly if the text before it is UTF-8. -/
lemma isBoundary_iff {n : Nat} (h : Valid text) (hn : n ≤ text.length) :
    isBoundary text n = true ↔ Valid (text.take n) := by
  have hcut : Valid (text.take n ++ text.drop n) := by rwa [List.take_append_drop]
  have hiff := isBoundary_append_iff hcut
  rwa [List.take_append_drop, List.length_take_of_le hn] at hiff

/-- What comes before an ASCII byte of UTF-8 is UTF-8. -/
lemma valid_of_append_ascii (hb : b < 0x80) (h : Valid (a ++ b :: rest)) : Valid a := by
  refine validFrom_of_append_cons ?_ trivial h
  exact fun hcont => UInt8.not_le.2 hb hcont.1

end ElixirTags.Utf8
