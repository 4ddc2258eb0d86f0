import ElixirTags.Proofs.Text.Lines
import ElixirTags.Text.Utf8
import Mathlib.Tactic.Tauto

/-!
# Repair and the shape of a text

Repair replaces what is no character and leaves the rest alone.  This module says that it cannot be
noticed in the shape of a text: the lines of a repaired text are the repaired lines
(`Text.lines_repair`), a carriage return ends a repaired line exactly if it ends the line
(`Text.dropReturn_repair`), and a repaired text begins with a byte order mark exactly if the text
does (`Text.dropMark_repair`).

For single ASCII bytes all this follows from `repair_append_ascii`.  The byte order mark is a
character of three bytes, and there one has to know what the first piece of a text can be
(`repair_cons`): the replacement character shares its first byte with the mark, but not the second.
-/

namespace ElixirTags.Utf8

/-! ## The first piece of a text -/

/-- An unfinished character is broken off, or it is finished by as many bytes as it awaits. -/
lemma piecesFrom_inside (text : Bytes) : ∀ (held : Bytes) (next : Awaited),
    (∃ ps, piecesFrom (.inside held next) text = .broken :: ps) ∨
      ∃ more rest, more.length = next.more + 1 ∧ text = more ++ rest ∧
        piecesFrom (.inside held next) text = .character (held ++ more) :: pieces rest := by
  induction text with
  | nil => intro held next; exact Or.inl ⟨[], rfl⟩
  | cons b text ih =>
      intro held next
      by_cases hin : (next.lo ≤ b && b ≤ next.hi) = true
      · cases hmore : next.more with
        | zero =>
            refine Or.inr ⟨[b], text, rfl, rfl, ?_⟩
            simp [piecesFrom, State.step, hin, hmore, pieces]
        | succ n =>
            have hstep : piecesFrom (.inside held next) (b :: text) =
                piecesFrom (.inside (held ++ [b]) ⟨0x80, 0xBF, n⟩) text := by
              simp [piecesFrom, State.step, hin, hmore]
            rw [hstep]
            rcases ih (held ++ [b]) ⟨0x80, 0xBF, n⟩ with hbroken | ⟨more, rest, hlen, rfl, hps⟩
            · exact Or.inl hbroken
            · refine Or.inr ⟨b :: more, rest, by simp [hlen], rfl, ?_⟩
              rw [hps, List.append_assoc]
              rfl
      · refine Or.inl ⟨(start b).1 ++ piecesFrom (start b).2 text, ?_⟩
        simp [piecesFrom, State.step, hin]

/-- A repaired text begins with the replacement character, or with a character that the text begins
with. -/
lemma repair_cons (b : UInt8) (text : Bytes) :
    (∃ w, repair (b :: text) = replacement ++ w) ∨
      ∃ more rest, text = more ++ rest ∧ repair (b :: text) = (b :: more) ++ repair rest ∧
        ∀ next, opening b = .lead next → more.length = next.more + 1 := by
  cases ho : opening b with
  | whole =>
      refine Or.inr ⟨[], text, rfl, ?_, fun next h => by cases h⟩
      simp [repair, pieces, piecesFrom, State.step, start, ho, Piece.bytes]
  | stray =>
      refine Or.inl ⟨(pieces text).flatMap Piece.bytes, ?_⟩
      simp [repair, pieces, piecesFrom, State.step, start, ho, Piece.bytes]
  | lead next =>
      have hstep : pieces (b :: text) = piecesFrom (.inside [b] next) text := by
        simp [pieces, piecesFrom, State.step, start, ho]
      rcases piecesFrom_inside text [b] next with ⟨ps, hps⟩ | ⟨more, rest, hlen, rfl, hps⟩
      · refine Or.inl ⟨ps.flatMap Piece.bytes, ?_⟩
        rw [repair, hstep, hps]
        rfl
      · refine Or.inr ⟨more, rest, rfl, ?_, fun next' h => by cases h; exact hlen⟩
        rw [repair, hstep, hps]
        rfl

lemma repair_eq_nil_iff {text : Bytes} : repair text = [] ↔ text = [] := by
  constructor
  · intro h
    cases text with
    | nil => rfl
    | cons b text =>
        rcases repair_cons b text with ⟨w, hw⟩ | ⟨more, rest, -, hrest, -⟩
        · rw [hw] at h
          cases h
        · rw [hrest] at h
          cases h
  · rintro rfl
    rfl

/-! ## ASCII bytes of a repaired text -/

lemma le_of_mem_replacement {b : UInt8} (h : b ∈ replacement) : 0x80 ≤ b := by
  simp only [replacement, List.mem_cons, List.not_mem_nil, or_false] at h
  rcases h with rfl | rfl | rfl <;> decide

lemma not_mem_replacement {b : UInt8} (hb : b < 0x80) : b ∉ replacement := by
  intro h
  exact absurd (le_of_mem_replacement h) (UInt8.not_le.2 hb)

lemma mem_of_mem_step {s : State} {a b : UInt8} (hb : b < 0x80)
    (h : b ∈ (s.step a).1.flatMap Piece.bytes ∨ b ∈ (s.step a).2.held) :
    b ∈ s.held ++ [a] := by
  have hstart : b ∈ (start a).1.flatMap Piece.bytes ∨ b ∈ (start a).2.held → b = a := by
    have hrep := not_mem_replacement hb
    unfold start
    cases opening a <;> simp [State.held, Piece.bytes, hrep]
  cases s with
  | boundary => simpa [State.held] using hstart h
  | inside held next =>
      simp only [State.step] at h
      split at h
      · split at h <;> simpa [State.held, Piece.bytes] using h
      · have hrep := not_mem_replacement hb
        have ha : b = a := by
          apply hstart
          simpa [Piece.bytes, hrep] using h
        simp [ha]

lemma mem_of_mem_piecesFrom {b : UInt8} (hb : b < 0x80) (text : Bytes) : ∀ s : State,
    b ∈ (piecesFrom s text).flatMap Piece.bytes → b ∈ s.held ++ text := by
  induction text with
  | nil =>
      intro s h
      cases s with
      | boundary => simp [piecesFrom, State.finish] at h
      | inside held next =>
          have hrep := not_mem_replacement hb
          simp [piecesFrom, State.finish, Piece.bytes, hrep] at h
  | cons a text ih =>
      intro s h
      rw [piecesFrom, List.flatMap_append, List.mem_append] at h
      have hstep : b ∈ (s.step a).1.flatMap Piece.bytes ∨ b ∈ (s.step a).2.held →
          b ∈ s.held ++ [a] := mem_of_mem_step hb
      rcases h with hpiece | hrest
      · have hmem := hstep (Or.inl hpiece)
        simp only [List.mem_append, List.mem_singleton] at hmem
        simp only [List.mem_append, List.mem_cons]
        tauto
      · have hmem := ih _ hrest
        simp only [List.mem_append] at hmem
        rcases hmem with hheld | htext
        · have hmem := hstep (Or.inr hheld)
          simp only [List.mem_append, List.mem_singleton] at hmem
          simp only [List.mem_append, List.mem_cons]
          tauto
        · simp [htext]

/-- Repair brings no ASCII byte into a text. -/
lemma mem_of_mem_repair {b : UInt8} (hb : b < 0x80) {text : Bytes} (h : b ∈ repair text) :
    b ∈ text :=
  mem_of_mem_piecesFrom hb text .boundary h

/-- An ASCII byte ends a repaired text exactly if it ends the text. -/
lemma getLast?_repair {b : UInt8} (hb : b < 0x80) (text : Bytes) :
    (repair text).getLast? = some b ↔ text.getLast? = some b := by
  induction text using Text.cutInduction b with
  | uncut text hmem =>
      constructor
      · intro h
        exact absurd (mem_of_mem_repair hb (List.mem_of_getLast? h)) hmem
      · intro h
        exact absurd (List.mem_of_getLast? h) hmem
  | cut first rest _ ih =>
      rw [repair_append_ascii hb]
      by_cases hrest : rest = []
      · subst hrest
        have hnil : repair [] = [] := rfl
        simp [hnil]
      · have hrep : repair rest ≠ [] := fun h => hrest (repair_eq_nil_iff.1 h)
        rw [List.getLast?_append, List.getLast?_append, List.getLast?_cons, List.getLast?_cons]
        simpa [List.getLast?_eq_some_getLast hrest, List.getLast?_eq_some_getLast hrep] using ih

/-! ## Valid texts -/

lemma validFrom_append {a : Bytes} {s : State} (h : validFrom s a = true) (b : Bytes) :
    validFrom s (a ++ b) = validFrom .boundary b := by
  induction a generalizing s with
  | nil =>
      cases s with
      | boundary => rfl
      | inside _ _ => cases h
  | cons c a ih =>
      simp only [validFrom] at h
      simp only [List.cons_append, validFrom]
      split
      · next next hnext =>
        rw [hnext] at h
        exact ih h
      · next hnext =>
        rw [hnext] at h
        cases h

lemma valid_append {a b : Bytes} (ha : Valid a) (hb : Valid b) : Valid (a ++ b) := by
  rw [Valid, validFrom_append ha]
  exact hb

lemma valid_of_ascii {text : Bytes} (h : ∀ b ∈ text, b < 0x80) : Valid text := by
  induction text with
  | nil => rfl
  | cons b rest ih =>
      have hb : Valid [b] := by
        rw [Valid, validFrom, State.advance?, opening_ascii (h b List.mem_cons_self)]
        rfl
      exact valid_append hb (ih fun c hc => h c (List.mem_cons_of_mem _ hc))

lemma valid_flatMap {α : Type} {f : α → Bytes} {xs : List α} (h : ∀ x ∈ xs, Valid (f x)) :
    Valid (xs.flatMap f) := by
  induction xs with
  | nil => rfl
  | cons x xs ih =>
      rw [List.flatMap_cons]
      exact valid_append (h x List.mem_cons_self) (ih fun y hy => h y (List.mem_cons_of_mem _ hy))

lemma valid_intercalate {sep : Bytes} {fields : List Bytes} (hsep : Valid sep)
    (h : ∀ field ∈ fields, Valid field) : Valid (sep.intercalate fields) := by
  induction fields with
  | nil => rfl
  | cons field rest ih =>
      have hfield := h field List.mem_cons_self
      by_cases hrest : rest = []
      · rwa [hrest, List.intercalate_singleton]
      · rw [List.intercalate_cons_of_ne_nil hrest]
        exact valid_append (valid_append hfield hsep)
          (ih fun other hother => h other (List.mem_cons_of_mem _ hother))

end ElixirTags.Utf8

/-! ## Lines and marks of a repaired text -/

namespace ElixirTags.Text

open Utf8

lemma dropReturn_concat (line : Bytes) : dropReturn (line ++ [Byte.carriageReturn]) = line := by
  simp [dropReturn]

lemma dropReturn_of_ne {line : Bytes} (h : line.getLast? ≠ some Byte.carriageReturn) :
    dropReturn line = line :=
  if_neg h

lemma dropReturn_repair (line : Bytes) : dropReturn (repair line) = repair (dropReturn line) := by
  have hcr : Byte.carriageReturn < 0x80 := by decide
  by_cases h : line.getLast? = some Byte.carriageReturn
  · obtain ⟨before, rfl⟩ := List.getLast?_eq_some_iff.1 h
    have hnil : repair [] = [] := rfl
    rw [repair_append_ascii hcr, hnil, dropReturn_concat, dropReturn_concat]
  · rw [dropReturn_of_ne h, dropReturn_of_ne (mt (getLast?_repair hcr line).1 h)]

lemma endedLines_repair (text : Bytes) :
    endedLines (repair text) = (endedLines text).map repair ∧
      unended (repair text) = repair (unended text) := by
  have hnl : Byte.newline < 0x80 := by decide
  induction text using cutInduction Byte.newline with
  | uncut text h =>
      have h' : Byte.newline ∉ repair text := mt (mem_of_mem_repair hnl) h
      simp [endedLines_of_not_mem, unended_of_not_mem, h, h']
  | cut first rest hfirst ih =>
      have hfirst' : Byte.newline ∉ repair first := mt (mem_of_mem_repair hnl) hfirst
      rw [repair_append_ascii hnl]
      simp [endedLines_append_newline, endedLines_of_not_mem, unended_of_not_mem, hfirst, hfirst',
        ih]

/-- The lines of a repaired text are the repaired lines. -/
lemma lines_repair (text : Bytes) : lines (repair text) = (lines text).map repair := by
  obtain ⟨hended, hunended⟩ := endedLines_repair text
  simp only [lines, unendedLine, hended, hunended, repair_eq_nil_iff, List.map_append]
  split <;> rfl

lemma isPrefixOf?_byteOrderMark {text rest : Bytes} :
    byteOrderMark.isPrefixOf? text = some rest ↔ text = byteOrderMark ++ rest := by
  rw [List.isPrefixOf?_eq_some_iff_append_eq]
  exact eq_comm

@[simp] lemma dropMark_byteOrderMark_append (rest : Bytes) :
    dropMark (byteOrderMark ++ rest) = rest := by
  rw [dropMark, isPrefixOf?_byteOrderMark.2 rfl]
  rfl

lemma dropMark_eq_self {text : Bytes} (h : ¬ byteOrderMark <+: text) : dropMark text = text := by
  rw [dropMark]
  cases hp : byteOrderMark.isPrefixOf? text with
  | none => rfl
  | some rest => exact absurd ⟨rest, (isPrefixOf?_byteOrderMark.1 hp).symm⟩ h

/-- The mark is a character, and repair keeps it. -/
lemma repair_byteOrderMark_append (text : Bytes) :
    repair (byteOrderMark ++ text) = byteOrderMark ++ repair text := by
  have hpieces : pieces (byteOrderMark ++ text) = .character byteOrderMark :: pieces text := rfl
  rw [repair, hpieces]
  rfl

/-- Repair brings no mark to the start of a text. -/
lemma byteOrderMark_prefix_of_repair {text : Bytes} (h : byteOrderMark <+: repair text) :
    byteOrderMark <+: text := by
  obtain ⟨w, hw⟩ := h
  cases text with
  | nil => cases hw
  | cons b text =>
      rcases repair_cons b text with ⟨w', hw'⟩ | ⟨more, rest, rfl, hrest, hlen⟩
      · -- the second byte of the replacement character is not that of the mark
        rw [hw'] at hw
        simp [byteOrderMark, replacement] at hw
      · rw [hrest] at hw
        have hb : b = 0xEF := by
          simp only [byteOrderMark, List.cons_append, List.cons.injEq] at hw
          exact hw.1.symm
        subst hb
        have hlen := hlen ⟨0x80, 0xBF, 1⟩ (by decide)
        match more, hlen with
        | [c, d], _ =>
            simp only [byteOrderMark, List.cons_append, List.nil_append, List.cons.injEq] at hw
            obtain ⟨-, rfl, rfl, -⟩ := hw
            exact ⟨rest, rfl⟩

lemma dropMark_repair (text : Bytes) : dropMark (repair text) = repair (dropMark text) := by
  by_cases h : byteOrderMark <+: text
  · obtain ⟨rest, rfl⟩ := h
    rw [repair_byteOrderMark_append, dropMark_byteOrderMark_append, dropMark_byteOrderMark_append]
  · rw [dropMark_eq_self h, dropMark_eq_self (mt byteOrderMark_prefix_of_repair h)]

end ElixirTags.Text
