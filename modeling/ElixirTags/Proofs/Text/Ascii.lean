import ElixirTags.Proofs.Text.Repair
import Mathlib.Data.List.Forall2

/-!
# Texts with the same ASCII bytes

Two texts may differ in nothing but the stretches of bytes outside ASCII that stand between their
ASCII bytes: `Text.SameAscii` leaves it open what such a stretch holds, how long it is and whether
it is UTF-8, but not where there is one.

Whatever looks for ASCII bytes only does the same on both.  The texts are cut at the same places
(`SameAscii.split`), so their lines are related again (`SameAscii.lines`), and a run of ASCII bytes
is found alike (`SameAscii.takeWhile_eq`).  Repair is a change of this sort (`sameAscii_repair`).
-/

namespace ElixirTags.Text

/-- A stretch of bytes outside ASCII, at least one. -/
structure IsForeign (stretch : Bytes) : Prop where
  ne_nil : stretch ≠ []
  le : ∀ b ∈ stretch, 0x80 ≤ b

/-- The texts have the same ASCII bytes and, in between, stretches of other bytes in the same
places. -/
inductive SameAscii : Bytes → Bytes → Prop
  | nil : SameAscii [] []
  | ascii {b : UInt8} {s t : Bytes} (hb : b < 0x80) (h : SameAscii s t) :
      SameAscii (b :: s) (b :: t)
  | stretch {r r' s t : Bytes} (hr : IsForeign r) (hr' : IsForeign r') (h : SameAscii s t) :
      SameAscii (r ++ s) (r' ++ t)

namespace IsForeign

variable {r : Bytes}

lemma not_mem (h : IsForeign r) {b : UInt8} (hb : b < 0x80) : b ∉ r :=
  fun hmem => UInt8.not_le.2 hb (h.le b hmem)

/-- A stretch begins with a byte that is not ASCII. -/
lemma exists_cons (h : IsForeign r) : ∃ b rest, r = b :: rest ∧ ¬ b < 0x80 := by
  obtain ⟨b, rest, rfl⟩ := List.exists_cons_of_ne_nil h.ne_nil
  exact ⟨b, rest, rfl, UInt8.not_lt.2 (h.le b List.mem_cons_self)⟩

end IsForeign

namespace SameAscii

variable {b : UInt8} {s t s' t' : Bytes}

lemma symm (h : SameAscii s t) : SameAscii t s := by
  induction h with
  | nil => exact .nil
  | ascii hb _ ih => exact .ascii hb ih
  | stretch hr hr' _ ih => exact .stretch hr' hr ih

lemma append (h : SameAscii s t) (h' : SameAscii s' t') : SameAscii (s ++ s') (t ++ t') := by
  induction h with
  | nil => exact h'
  | ascii hb _ ih => exact .ascii hb ih
  | stretch hr hr' _ ih =>
      rw [List.append_assoc, List.append_assoc]
      exact .stretch hr hr' ih

lemma of_ascii (h : ∀ b ∈ s, b < 0x80) : SameAscii s s := by
  induction s with
  | nil => exact .nil
  | cons b s ih =>
      exact .ascii (h b List.mem_cons_self) (ih fun c hc => h c (List.mem_cons_of_mem _ hc))

/-- Texts are cut at an ASCII byte of one of them as at the same byte of the other. -/
lemma split (hb : b < 0x80) {x y : Bytes} (h : SameAscii (x ++ b :: y) t) :
    ∃ x' y', t = x' ++ b :: y' ∧ SameAscii x x' ∧ SameAscii y y' := by
  generalize hs : x ++ b :: y = s at h
  induction h generalizing x with
  | nil => simp at hs
  | @ascii c s t hc h ih =>
      cases x with
      | nil =>
          cases hs
          exact ⟨[], t, rfl, .nil, h⟩
      | cons a x =>
          obtain ⟨rfl, hrest⟩ := List.cons.inj hs
          obtain ⟨x', y', rfl, hx, hy⟩ := ih hrest
          exact ⟨a :: x', y', rfl, .ascii hc hx, hy⟩
  | @stretch r r' s t hr hr' h ih =>
      -- the stretch ends before the byte
      obtain ⟨x, rfl, hrest⟩ : ∃ after, x = r ++ after ∧ after ++ b :: y = s := by
        rcases List.append_eq_append_iff.1 hs with ⟨z, rfl, hz⟩ | ⟨z, rfl, hz⟩
        · cases z with
          | nil => exact ⟨[], by rw [List.append_nil, List.append_nil], hz⟩
          | cons c z =>
              obtain ⟨rfl, -⟩ := List.cons.inj hz
              exact absurd (List.mem_append_right x List.mem_cons_self) (hr.not_mem hb)
        · exact ⟨z, rfl, hz.symm⟩
      obtain ⟨x', y', rfl, hx, hy⟩ := ih hrest
      exact ⟨r' ++ x', y', by rw [List.append_assoc], .stretch hr hr' hx, hy⟩

lemma of_isForeign {r r' : Bytes} (hr : IsForeign r) (hr' : IsForeign r') : SameAscii r r' := by
  have h := SameAscii.stretch hr hr' .nil
  rwa [List.append_nil, List.append_nil] at h

lemma mem (hb : b < 0x80) (h : SameAscii s t) (hmem : b ∈ s) : b ∈ t := by
  obtain ⟨x, y, rfl⟩ := List.append_of_mem hmem
  obtain ⟨x', y', rfl, -, -⟩ := h.split hb
  simp

lemma eq_nil (h : SameAscii [] t) : t = [] := by
  generalize hs : ([] : Bytes) = s at h
  cases h with
  | nil => rfl
  | ascii _ _ => cases hs
  | stretch hr _ _ => exact absurd (List.append_eq_nil_iff.1 hs.symm).1 hr.ne_nil

lemma eq_nil_iff (h : SameAscii s t) : s = [] ↔ t = [] := by
  constructor
  · rintro rfl
    exact h.eq_nil
  · rintro rfl
    exact h.symm.eq_nil

/-! ## Lines and runs -/

lemma endedLines (h : SameAscii s t) :
    List.Forall₂ SameAscii (Text.endedLines s) (Text.endedLines t) ∧
      SameAscii (unended s) (unended t) := by
  have hnl : Byte.newline < 0x80 := by decide
  induction s using cutInduction Byte.newline generalizing t with
  | uncut s hmem =>
      have hmem' : Byte.newline ∉ t := mt (h.symm.mem hnl) hmem
      rw [endedLines_of_not_mem hmem, endedLines_of_not_mem hmem', unended_of_not_mem hmem,
        unended_of_not_mem hmem']
      exact ⟨.nil, h⟩
  | cut first rest hfirst ih =>
      obtain ⟨first', rest', rfl, hx, hy⟩ := h.split hnl
      have hfirst' : Byte.newline ∉ first' := mt (hx.symm.mem hnl) hfirst
      obtain ⟨hended, hunended⟩ := ih hy
      rw [endedLines_append_newline, endedLines_append_newline, endedLines_of_not_mem hfirst,
        endedLines_of_not_mem hfirst', unended_of_not_mem hfirst, unended_of_not_mem hfirst',
        unended_append_newline, unended_append_newline]
      exact ⟨.cons hx hended, hunended⟩

lemma lines (h : SameAscii s t) : List.Forall₂ SameAscii (Text.lines s) (Text.lines t) := by
  obtain ⟨hended, hunended⟩ := h.endedLines
  refine List.rel_append hended ?_
  rw [unendedLine, unendedLine]
  simp only [hunended.eq_nil_iff]
  split
  · exact .nil
  · exact .cons hunended .nil

section Runs

variable {p : UInt8 → Bool}

lemma takeWhile_eq (hp : ∀ b, p b = true → b < 0x80) (h : SameAscii s t) :
    s.takeWhile p = t.takeWhile p := by
  induction h with
  | nil => rfl
  | ascii hb _ ih => rw [List.takeWhile_cons, List.takeWhile_cons, ih]
  | stretch hr hr' _ _ =>
      obtain ⟨a, r, rfl, ha⟩ := hr.exists_cons
      obtain ⟨a', r', rfl, ha'⟩ := hr'.exists_cons
      rw [List.cons_append, List.cons_append, List.takeWhile_cons_of_neg (mt (hp a) ha),
        List.takeWhile_cons_of_neg (mt (hp a') ha')]

/-- What follows a run is related again. -/
lemma dropWhile (hp : ∀ b, p b = true → b < 0x80) (h : SameAscii s t) :
    SameAscii (s.dropWhile p) (t.dropWhile p) := by
  induction h with
  | nil => exact .nil
  | @ascii b s t hb h ih =>
      rw [List.dropWhile_cons, List.dropWhile_cons]
      split
      · exact ih
      · exact .ascii hb h
  | stretch hr hr' h _ =>
      have hrelated := SameAscii.stretch hr hr' h
      obtain ⟨a, r, rfl, ha⟩ := hr.exists_cons
      obtain ⟨a', r', rfl, ha'⟩ := hr'.exists_cons
      rw [List.cons_append, List.cons_append, List.dropWhile_cons_of_neg (mt (hp a) ha),
        List.dropWhile_cons_of_neg (mt (hp a') ha')]
      exact hrelated

end Runs

end SameAscii

/-! ## Repair -/

/-- A text without ASCII bytes is repaired to another. -/
lemma sameAscii_repair_of_le {text : Bytes} (h : ∀ b ∈ text, 0x80 ≤ b) :
    SameAscii text (Utf8.repair text) := by
  by_cases hnil : text = []
  · rw [hnil]
    exact .nil
  · have hrepair : IsForeign (Utf8.repair text) := by
      refine ⟨mt Utf8.repair_eq_nil_iff.1 hnil, fun b hb => ?_⟩
      by_contra hlt
      rw [UInt8.not_le] at hlt
      exact UInt8.not_le.2 hlt (h b (Utf8.mem_of_mem_repair hlt hb))
    exact .of_isForeign ⟨hnil, h⟩ hrepair

/-- Repair changes a text outside its ASCII bytes only. -/
lemma sameAscii_repair (text : Bytes) : SameAscii text (Utf8.repair text) := by
  -- the induction is on what comes after a text that has no ASCII bytes so far
  suffices hall : ∀ left : Bytes, (∀ b ∈ left, 0x80 ≤ b) →
      SameAscii (left ++ text) (Utf8.repair (left ++ text)) from hall [] (by simp)
  induction text with
  | nil =>
      intro left hleft
      rw [List.append_nil]
      exact sameAscii_repair_of_le hleft
  | cons b rest ih =>
      intro left hleft
      by_cases hb : b < 0x80
      · rw [Utf8.repair_append_ascii hb]
        exact (sameAscii_repair_of_le hleft).append (.ascii hb (ih [] (by simp)))
      · have hleft' : ∀ c ∈ left ++ [b], 0x80 ≤ c := by
          intro c hc
          rcases List.mem_append.1 hc with hc | hc
          · exact hleft c hc
          · rw [List.mem_singleton.1 hc]
            exact UInt8.not_lt.1 hb
        have hrest := ih (left ++ [b]) hleft'
        rwa [List.append_assoc] at hrest

end ElixirTags.Text
