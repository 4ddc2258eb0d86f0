import ElixirTags.Proofs.Scan.Isolation
import ElixirTags.Proofs.Scan.Selection

/-!
# The grammar of a line

A line is blanks, a word, blanks, a name, and a rest.  `Text.Parts.Of` says this without a cursor:
the parts make up the line, and each of the first four is the longest run of its bytes.  There is
one way to part a line (`Text.Parts.of_iff`).

What a scanner makes of a line depends on the word and the name alone.  `Scanner.scanLine_grammar`
says which words and names make a tag, what the tag is, and which module the scanner goes on with,
whatever its buffers hold.
-/

namespace ElixirTags

namespace Text

/-! ## Longest runs -/

/-- The bytes of `run` have the property, and the byte after them, which is the first of `rest`, has
it not. -/
structure IsRun (p : UInt8 → Bool) (run rest : Bytes) : Prop where
  all : ∀ b ∈ run, p b = true
  stops : ∀ b, rest.head? = some b → p b = false

section Runs

variable {p : UInt8 → Bool} {run rest : Bytes}

lemma IsRun.takeWhile_eq (h : IsRun p run rest) : (run ++ rest).takeWhile p = run := by
  rw [List.takeWhile_append_of_pos h.all]
  cases rest with
  | nil => simp
  | cons b rest => simp [h.stops b rfl]

lemma IsRun.dropWhile_eq (h : IsRun p run rest) : (run ++ rest).dropWhile p = rest := by
  rw [List.dropWhile_append_of_pos h.all]
  cases rest with
  | nil => rfl
  | cons b rest => simp [h.stops b rfl]

lemma isRun_takeWhile (p : UInt8 → Bool) (text : Bytes) :
    IsRun p (text.takeWhile p) (text.dropWhile p) where
  all b hb := List.all_eq_true.1 List.all_takeWhile b hb
  stops b hb := by
    have hstop := List.head?_dropWhile_not p text
    rw [hb] at hstop
    exact hstop

end Runs

/-! ## The parts of a line -/

/-- A line, taken apart. -/
structure Parts where
  indent : Bytes
  word : Bytes
  gap : Bytes
  name : Bytes
  rest : Bytes

namespace Parts

/-- The parts make up the line: blanks, a word of the class, blanks, another word of the class, and
a rest.  Each of the first four is as long as it can be, and it may be empty. -/
structure Of (cls : IdentClass) (line : Bytes) (parts : Parts) : Prop where
  line_eq : line = parts.indent ++ (parts.word ++ (parts.gap ++ (parts.name ++ parts.rest)))
  indent : IsRun Byte.isBlank parts.indent (parts.word ++ (parts.gap ++ (parts.name ++ parts.rest)))
  word : IsRun cls.contains parts.word (parts.gap ++ (parts.name ++ parts.rest))
  gap : IsRun Byte.isBlank parts.gap (parts.name ++ parts.rest)
  name : IsRun cls.contains parts.name parts.rest

/-- The parts of a line as they are read. -/
def ofLine (cls : IdentClass) (line : Bytes) : Parts where
  indent := line.takeWhile Byte.isBlank
  word := firstWord cls line
  gap := (afterFirstWord cls line).takeWhile Byte.isBlank
  name := secondWord cls line
  rest := afterFirstWord cls (afterFirstWord cls line)

variable {cls : IdentClass} {line : Bytes} {parts : Parts}

lemma of_ofLine (cls : IdentClass) (line : Bytes) : (ofLine cls line).Of cls line := by
  have hname : secondWord cls line ++ afterFirstWord cls (afterFirstWord cls line) =
      (afterFirstWord cls line).dropWhile Byte.isBlank := List.takeWhile_append_dropWhile
  have hgap : (ofLine cls line).gap ++ ((ofLine cls line).name ++ (ofLine cls line).rest) =
      afterFirstWord cls line := by
    show _ ++ (secondWord cls line ++ afterFirstWord cls (afterFirstWord cls line)) = _
    rw [hname]
    exact List.takeWhile_append_dropWhile
  have hword : firstWord cls line ++ afterFirstWord cls line = line.dropWhile Byte.isBlank :=
    List.takeWhile_append_dropWhile
  constructor
  · rw [hgap]
    show line = _ ++ (firstWord cls line ++ _)
    rw [hword]
    exact List.takeWhile_append_dropWhile.symm
  · rw [hgap]
    show IsRun _ _ (firstWord cls line ++ _)
    rw [hword]
    exact isRun_takeWhile _ _
  · rw [hgap]
    exact isRun_takeWhile _ _
  · show IsRun _ _ (secondWord cls line ++ afterFirstWord cls (afterFirstWord cls line))
    rw [hname]
    exact isRun_takeWhile _ _
  · exact isRun_takeWhile _ _

/-- A line has its parts in one way. -/
lemma of_iff : parts.Of cls line ↔ parts = ofLine cls line := by
  constructor
  · rintro ⟨rfl, hindent, hword, hgap, hname⟩
    obtain ⟨indent, word, gap, name, rest⟩ := parts
    dsimp only at hindent hword hgap hname ⊢
    have hafter : afterFirstWord cls (indent ++ (word ++ (gap ++ (name ++ rest)))) =
        gap ++ (name ++ rest) := by
      rw [afterFirstWord, hindent.dropWhile_eq, hword.dropWhile_eq]
    rw [ofLine, secondWord, hafter, firstWord, firstWord, afterFirstWord, hindent.takeWhile_eq,
      hindent.dropWhile_eq, hword.takeWhile_eq, hgap.takeWhile_eq, hgap.dropWhile_eq,
      hname.takeWhile_eq, hname.dropWhile_eq]
  · rintro rfl
    exact of_ofLine cls line

/-- A name is kept apart from the word before it by blanks. -/
lemma Of.gap_ne_nil (h : parts.Of cls line) (hname : parts.name ≠ []) : parts.gap ≠ [] := by
  intro hgap
  obtain ⟨b, more, hcons⟩ := List.exists_cons_of_ne_nil hname
  have hnot := h.word.stops b (by simp [hgap, hcons])
  have hin := h.name.all b (by simp [hcons])
  rw [hin] at hnot
  cases hnot

end Parts

end Text

/-! ## Directives by name -/

namespace Directive

variable {d : Directive}

lemma ofKeyword?_eq_some_iff {word : Bytes} :
    ofKeyword? word = some d ↔ word = Bytes.ofString d.keyword := by
  constructor
  · exact eq_keyword_of_ofKeyword?
  · rintro rfl
    exact ofKeyword?_keyword d

lemma isFunction_iff_eq : d.isFunction = true ↔ d = .functionDef ∨ d = .privateFunctionDef := by
  cases d <;> decide

lemma isExtended_kind_iff : d.kind.isExtended = true ↔ d = .protocolDef ∨ d = .protocolImpl := by
  cases d <;> decide

end Directive

/-! ## What a scanner makes of a line -/

namespace Verdict

lemma startsWithLetter_iff {name : Bytes} :
    startsWithLetter name = true ↔ ∃ b, name.head? = some b ∧ Byte.isLetter b = true := by
  rw [startsWithLetter, Option.any_eq_true]

/-- A line makes a tag if its word is a directive that defines its name, and the configuration
selects what it defines. -/
lemma tag?_ofLine_eq_some_iff {config : Config} {line : Bytes} {owner : Option Bytes}
    {n : LineNumber} {tag : Tag} :
    (ofLine config line).tag? config owner n = some tag ↔
      ∃ d : Directive, Text.firstWord config.identClass line = Bytes.ofString d.keyword ∧
        Text.secondWord config.identClass line ≠ [] ∧
        config.Selects (d.definition (Text.secondWord config.identClass line) owner n) ∧
        tag =
          config.attributed (d.definition (Text.secondWord config.identClass line) owner n) := by
  cases h : Directive.ofKeyword? (Text.firstWord config.identClass line) with
  | none =>
      rw [tag?_eq_none_of_silent (silent_ofLine (config.directive?_eq_none h))]
      simp only [← Directive.ofKeyword?_eq_some_iff, h, reduceCtorEq, false_and, exists_false]
  | some d =>
      rw [tag?_ofLine_of_directive config h rfl]
      simp only [← Directive.ofKeyword?_eq_some_iff, h, Option.some.injEq, exists_eq_left']
      split
      · next hsel => simp [hsel, eq_comm]
      · next hsel => simp [← and_assoc, hsel]

end Verdict

namespace Scanner

variable (s : Scanner) (number : LineNumber) (line : Bytes)

/-- The tag that is found on a line is the one that a session finds. -/
lemma tag?_scanLine : (s.scanLine number line).1.bind Event.tag? =
    (Verdict.ofLine s.config line).tag? s.config s.owner? number := by
  rw [(s.scanLine_spec number line).1]
  exact (Reading.ofLine s.config s.owner? number line).bind_tag?_event? s.config

lemma owner_eq : s.owner = s.owner?.getD [] := by
  rw [owner?]
  split
  · next h => exact h
  · rfl

/-- The owner after a line is the module that the line begins, if it begins one. -/
lemma owner_scanLine : (s.scanLine number line).2.owner =
    (Text.begunModule? s.config.identClass line).getD s.owner := by
  have hsession := congrArg Session.owner (s.scanLine_spec number line).2
  have howner : (s.scanLine number line).2.owner? =
      (Text.begunModule? s.config.identClass line).or s.owner? :=
    hsession.trans (Verdict.ownerAfter_ofLine s.config line s.owner?)
  rw [owner_eq, howner, owner_eq s]
  cases Text.begunModule? s.config.identClass line with
  | none => rfl
  | some name => rfl

/-- A function is attributed to the module that the scanner is in, if it is in one. -/
lemma owner_of_directive (d : Directive) :
    (if d.isFunction && s.config.scopes then s.owner? else none) =
      if (d = .functionDef ∨ d = .privateFunctionDef) ∧ s.config.scopes = true ∧ s.owner ≠ [] then
        some s.owner
      else none := by
  simp only [← Directive.isFunction_iff_eq, owner?]
  by_cases howner : s.owner = []
  · simp [howner]
  · simp [howner]

/-- **What a line says is in its first two words.**  A line has its parts in one way.  It makes a
tag exactly if its word is a directive, which for protocols and implementations has to be known,
there is a name whose kind is on, and the name begins with a letter if a function's has to.  The tag
has the name, the kind of the directive and the number of the line; if it is a function and
functions are attributed, its owner is the module that the scanner is in.  Then there are blanks
between the word and the name.  The scanner is in the same module afterwards, unless the line begins
one. -/
theorem scanLine_grammar :
    ∃ parts, (∀ other : Text.Parts, other.Of s.config.identClass line ↔ other = parts) ∧
      (∀ tag, (s.scanLine number line).1.bind Event.tag? = some tag ↔
        ∃ d : Directive, parts.word = Bytes.ofString d.keyword ∧
          (d = .protocolDef ∨ d = .protocolImpl → s.config.protocols = true) ∧
          parts.name ≠ [] ∧ d.kind ∈ s.config.kinds ∧
          (d = .functionDef ∨ d = .privateFunctionDef → s.config.lettersOnly = true →
            ∃ b, parts.name.head? = some b ∧ Byte.isLetter b = true) ∧
          tag = {
            name := parts.name
            kind := d.kind
            line := number
            owner := if (d = .functionDef ∨ d = .privateFunctionDef) ∧ s.config.scopes = true ∧
              s.owner ≠ [] then some s.owner else none }) ∧
      (∀ tag, (s.scanLine number line).1.bind Event.tag? = some tag → parts.gap ≠ []) ∧
      (s.scanLine number line).2.owner =
        if parts.word = Bytes.ofString "defmodule" ∧ parts.name ≠ [] then parts.name
        else s.owner := by
  refine ⟨.ofLine s.config.identClass line, fun other => Text.Parts.of_iff, ?_, ?_, ?_⟩
  · intro tag
    rw [tag?_scanLine, Verdict.tag?_ofLine_eq_some_iff]
    apply exists_congr
    intro d
    rw [Directive.selects_definition_iff, Directive.attributed_definition, owner_of_directive,
      Directive.isExtended_kind_iff, Directive.isFunction_iff_eq, Verdict.startsWithLetter_iff]
    show (Text.firstWord _ _ = _ ∧ Text.secondWord _ _ ≠ [] ∧ _) ↔
      (Text.firstWord _ _ = _ ∧ _ ∧ Text.secondWord _ _ ≠ [] ∧ _)
    tauto
  · intro tag htag
    rw [tag?_scanLine, Verdict.tag?_ofLine_eq_some_iff] at htag
    obtain ⟨d, -, hname, -⟩ := htag
    exact (Text.Parts.of_ofLine s.config.identClass line).gap_ne_nil hname
  · rw [owner_scanLine, Text.begunModule?]
    split
    · next h => exact (if_pos h).symm
    · next h => exact (if_neg h).symm

end Scanner

end ElixirTags
