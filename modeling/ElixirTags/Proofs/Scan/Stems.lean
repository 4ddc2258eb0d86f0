import ElixirTags.Proofs.Scan.Grammar

/-!
# The identifier class does not choose the definitions

An identifier class says how far a word goes, for the directive of a line as well as for the name
after it.  The classes agree on letters, digits and underscores, so what they disagree about is how
a name goes on after its stem, which is its longest beginning made of these.

The stem of a name can be found without a class (`Text.plainDefinition?`): blanks, a directive made
of word bytes, a blank, and a stem.  A directive that is followed by anything but a blank defines
nothing in either class, because the byte either belongs to the directive, which then is none, or it
begins no name.  That each class finds the same definitions is said of one line by
`Text.plainDefinition?_eq` and of a whole source by `scanSource_stems_eq`.
-/

namespace ElixirTags

/-! ## Stems -/

namespace Text

/-- The beginning of a name that belongs to it in every class. -/
def stem (name : Bytes) : Bytes := name.takeWhile Byte.isWord

variable {cls : IdentClass} {name text : Bytes}

lemma stem_ne_nil_iff : stem name ≠ [] ↔ name.head?.any Byte.isWord = true := by
  cases name with
  | nil => simp [stem]
  | cons b rest =>
      rw [stem, List.takeWhile_cons, List.head?_cons, Option.any_some]
      split
      · next hb => simp [hb]
      · next hb => simp [hb]

/-- A word of a class has the stem of the text that it begins. -/
lemma stem_takeWhile_contains (text : Bytes) : stem (text.takeWhile cls.contains) = stem text := by
  have hboth : ∀ b, (Byte.isWord b = true ∧ cls.contains b = true) ↔ Byte.isWord b = true :=
    fun b => and_iff_left_of_imp fun hb => IdentClass.contains_of_isWord hb cls
  simp only [stem, List.takeWhile_takeWhile, hboth, Bool.decide_eq_true]

lemma startsWithLetter_stem (h : stem name ≠ []) :
    Verdict.startsWithLetter (stem name) = Verdict.startsWithLetter name := by
  rw [stem_ne_nil_iff] at h
  cases name with
  | nil => cases h
  | cons b rest =>
      rw [List.head?_cons, Option.any_some] at h
      rw [stem, List.takeWhile_cons_of_pos h]
      rfl

end Text

/-! ## Words without a class -/

namespace Text

/-- The first word of a line, as far as it is made of word bytes. -/
def plainWord (line : Bytes) : Bytes := stem (line.dropWhile Byte.isBlank)

/-- What follows the plain word of a line. -/
def afterPlainWord (line : Bytes) : Bytes :=
  (line.dropWhile Byte.isBlank).dropWhile Byte.isWord

/-- What a line defines, in any class: a directive, set apart from the name by a blank, and the stem
of the name. -/
def plainDefinition? (line : Bytes) : Option (Directive × Bytes) :=
  if (afterPlainWord line).head?.any Byte.isBlank ∧ plainWord (afterPlainWord line) ≠ [] then
    (Directive.ofKeyword? (plainWord line)).map (·, plainWord (afterPlainWord line))
  else none

variable {cls : IdentClass} {line : Bytes}

/-- The plain word of a line is its first word in the class. -/
structure PlainIn (cls : IdentClass) (line : Bytes) : Prop where
  word : firstWord cls line = plainWord line
  rest : afterFirstWord cls line = afterPlainWord line

/-- A run that is longest in another sense as well is found alike. -/
lemma IsRun.eq_takeWhile {p q : UInt8 → Bool} {text : Bytes}
    (h : IsRun q (text.takeWhile p) (text.dropWhile p)) :
    text.takeWhile q = text.takeWhile p ∧ text.dropWhile q = text.dropWhile p := by
  have htext : text.takeWhile p ++ text.dropWhile p = text := List.takeWhile_append_dropWhile
  have htake := h.takeWhile_eq
  have hdrop := h.dropWhile_eq
  rw [htext] at htake hdrop
  exact ⟨htake, hdrop⟩

/-- A blank after the plain word ends it in every class. -/
lemma plainIn_of_blank (h : (afterPlainWord line).head?.any Byte.isBlank = true) :
    PlainIn cls line := by
  have hplain := isRun_takeWhile Byte.isWord (line.dropWhile Byte.isBlank)
  have hrun : IsRun cls.contains (plainWord line) (afterPlainWord line) := by
    refine ⟨fun b hb => IdentClass.contains_of_isWord (hplain.all b hb) cls, fun b hb => ?_⟩
    rw [hb, Option.any_some] at h
    refine Bool.eq_false_iff.2 fun hcontains => ?_
    rw [IdentClass.not_isBlank_of_contains hcontains] at h
    cases h
  obtain ⟨hword, hrest⟩ := hrun.eq_takeWhile
  exact ⟨hword, hrest⟩

/-- A first word without punctuation is the plain word. -/
lemma plainIn_of_isWord (h : ∀ b ∈ firstWord cls line, Byte.isWord b = true) :
    PlainIn cls line := by
  have hclass := isRun_takeWhile cls.contains (line.dropWhile Byte.isBlank)
  have hrun : IsRun Byte.isWord (firstWord cls line) (afterFirstWord cls line) := by
    refine ⟨h, fun b hb => Bool.eq_false_iff.2 fun hword => ?_⟩
    have hstop := hclass.stops b hb
    rw [IdentClass.contains_of_isWord hword] at hstop
    cases hstop
  obtain ⟨hword, hrest⟩ := hrun.eq_takeWhile
  exact ⟨hword.symm, hrest.symm⟩

/-- A name is kept apart from the word before it by a blank. -/
lemma blank_of_secondWord_ne_nil (h : secondWord cls line ≠ []) :
    (afterFirstWord cls line).head?.any Byte.isBlank = true := by
  have hgap : (afterFirstWord cls line).takeWhile Byte.isBlank ≠ [] :=
    (Parts.of_ofLine cls line).gap_ne_nil h
  cases hafter : afterFirstWord cls line with
  | nil =>
      rw [hafter] at hgap
      exact absurd rfl hgap
  | cons b rest =>
      rw [hafter, List.takeWhile_cons] at hgap
      split at hgap
      · next hb => exact hb
      · exact absurd rfl hgap

end Text

lemma Directive.isWord_of_mem_keyword {d : Directive} :
    ∀ b ∈ Bytes.ofString d.keyword, Byte.isWord b = true := by
  rw [← List.all_eq_true]
  cases d <;> decide

/-- Every class finds on a line what is found there without one, if names that do not begin with a
word byte are left out. -/
lemma Text.plainDefinition?_eq (cls : IdentClass) (line : Bytes) :
    plainDefinition? line =
      if stem (secondWord cls line) ≠ [] then
        (Directive.ofKeyword? (firstWord cls line)).map (·, stem (secondWord cls line))
      else none := by
  by_cases hblank : (afterPlainWord line).head?.any Byte.isBlank = true
  · obtain ⟨hword, hrest⟩ : PlainIn cls line := plainIn_of_blank hblank
    have hstem : stem (secondWord cls line) = plainWord (afterPlainWord line) := by
      rw [secondWord, hrest, firstWord, stem_takeWhile_contains, plainWord]
    simp only [plainDefinition?, hblank, true_and, hstem, hword]
  · rw [plainDefinition?, if_neg fun h => hblank h.1]
    split
    · next hstem =>
      cases hd : Directive.ofKeyword? (firstWord cls line) with
      | none => rfl
      | some d =>
          -- the directive would have to be the plain word, and it has no blank after it
          have hkeyword := Directive.eq_keyword_of_ofKeyword? hd
          have hplain : PlainIn cls line :=
            plainIn_of_isWord (hkeyword ▸ Directive.isWord_of_mem_keyword)
          have hname : secondWord cls line ≠ [] := by
            intro hnil
            rw [hnil] at hstem
            exact hstem rfl
          exact absurd (hplain.rest ▸ blank_of_secondWord_ne_nil hname) hblank
    · rfl

/-! ## Tags -/

/-- What the tags say whose names begin with a word byte, as far as it does not depend on a class:
the kind, the line and the stem of the name. -/
def Tag.stems (tags : List Tag) : List (Kind × LineNumber × Bytes) :=
  (tags.filter fun tag => tag.name.head?.any Byte.isWord).map fun tag =>
    (tag.kind, tag.line, Text.stem tag.name)

lemma Tag.stems_append (a b : List Tag) : stems (a ++ b) = stems a ++ stems b := by
  rw [stems, List.filter_append, List.map_append, stems, stems]

lemma Tag.stems_singleton (tag : Tag) :
    stems [tag] =
      if Text.stem tag.name ≠ [] then [(tag.kind, tag.line, Text.stem tag.name)] else [] := by
  simp only [stems, List.filter_singleton, Text.stem_ne_nil_iff]
  cases tag.name.head?.any Byte.isWord <;> rfl

/-- Of a tag that may be left out there is something to say if it is not, and its name has a
stem. -/
lemma Tag.stems_toList_ite (p : Prop) [Decidable p] (tag : Tag) :
    stems (if p then some tag else none).toList =
      if Text.stem tag.name ≠ [] ∧ p then [(tag.kind, tag.line, Text.stem tag.name)] else [] := by
  by_cases hp : p
  · rw [if_pos hp, Option.toList_some, stems_singleton]
    exact if_congr (and_iff_left hp).symm rfl rfl
  · rw [if_neg hp, if_neg fun h => hp h.2]
    rfl

/-- What the configuration reports of a line, without a class. -/
def Config.stem? (config : Config) (n : LineNumber) (line : Bytes) :
    Option (Kind × LineNumber × Bytes) :=
  ((Text.plainDefinition? line).filter fun (d, stem) =>
    config.Selects (d.definition stem none n)).map fun (d, stem) => (d.kind, n, stem)

/-- A configuration selects by the stem of a name, if there is one. -/
lemma Directive.selects_definition_stem_iff (config : Config) (d : Directive) {name : Bytes}
    (owner : Option Bytes) (n : LineNumber) (h : Text.stem name ≠ []) :
    config.Selects (d.definition (Text.stem name) none n) ↔
      config.Selects (d.definition name owner n) := by
  rw [selects_definition_iff, selects_definition_iff, Text.startsWithLetter_stem h]

/-- What is reported of a line, in terms of its words in a class. -/
lemma Config.toList_stem?_of_directive {config : Config} {line : Bytes} {d : Directive}
    (cls : IdentClass) (h : Directive.ofKeyword? (Text.firstWord cls line) = some d)
    (n : LineNumber) :
    let stem := Text.stem (Text.secondWord cls line)
    (config.stem? n line).toList =
      if stem ≠ [] ∧ config.Selects (d.definition stem none n) then [(d.kind, n, stem)]
      else [] := by
  intro stem
  rw [stem?, Text.plainDefinition?_eq cls, h, Option.map_some]
  by_cases hstem : stem = []
  · rw [if_neg (not_not_intro hstem), if_neg fun hsel => hsel.1 hstem]
    rfl
  · rw [if_pos hstem, Option.filter_some]
    by_cases hsel : config.Selects (d.definition stem none n)
    · rw [if_pos (decide_eq_true hsel), if_pos ⟨hstem, hsel⟩]
      rfl
    · rw [if_neg (mt of_decide_eq_true hsel), if_neg fun h => hsel h.2]
      rfl

/-- The tag of a line says what is reported of the line without a class, whatever the owner. -/
lemma Verdict.stems_tag?_ofLine (config : Config) (line : Bytes) (owner : Option Bytes)
    (n : LineNumber) :
    Tag.stems ((ofLine config line).tag? config owner n).toList =
      (config.stem? n line).toList := by
  cases hd : Directive.ofKeyword? (Text.firstWord config.identClass line) with
  | none =>
      rw [tag?_eq_none_of_silent (silent_ofLine (config.directive?_eq_none hd)), Config.stem?,
        Text.plainDefinition?_eq config.identClass, hd]
      split <;> rfl
  | some d =>
      rw [tag?_ofLine_of_directive config hd rfl, Directive.attributed_definition,
        Tag.stems_toList_ite, Config.toList_stem?_of_directive config.identClass hd]
      -- a name with a stem is not empty, and the stem is selected as the name is
      refine if_congr (and_congr_right fun hstem => ?_) rfl rfl
      have hname : Text.secondWord config.identClass line ≠ [] := by
        intro hnil
        rw [hnil] at hstem
        exact hstem rfl
      exact (and_iff_right hname).trans
        (Directive.selects_definition_stem_iff config d owner n hstem).symm

/-- The tags of lines say what is reported of the lines without a class, each line by itself. -/
lemma Reading.stems_tags_ofLines (config : Config) (lines : List (LineNumber × Bytes)) :
    ∀ owner, Tag.stems (tags config (ofLines config owner lines)) =
      lines.flatMap fun line => (config.stem? line.1 line.2).toList := by
  induction lines with
  | nil => intro owner; rfl
  | cons line rest ih =>
      intro owner
      -- the module that the line begins has another name in another class, but owners do not count
      rw [tags_ofLines_cons, Tag.stems_append, Verdict.stems_tag?_ofLine, ih, List.flatMap_cons]

/-- **The identifier class does not choose the definitions.**  Two scans of a source that differ in
nothing but the class have the same tags up to what follows the stems of the names, if names that do
not begin with a letter, a digit or an underscore are left out. -/
theorem scanSource_stems_eq (config : Config) (a b : IdentClass) (source : Bytes) :
    Tag.stems (scanSource { config with identClass := a } source) =
      Tag.stems (scanSource { config with identClass := b } source) := by
  rw [scanSource, scanLines, Reading.stems_tags_ofLines, scanSource, scanLines,
    Reading.stems_tags_ofLines]
  rfl

/-- Names with punctuation at their ends, between their parts, and at their start, and a directive
with a question mark after it. -/
example (cls : IdentClass) :
    Tag.stems (scanSource { Config.legacy with identClass := cls }
        (Bytes.ofString "defmodule Shop.Cart\ndef valid?\ndef !x\ndef? y")) =
      [(.moduleDef, 1, Bytes.ofString "Shop"), (.functionDef, 2, Bytes.ofString "valid")] := by
  cases cls <;> decide

end ElixirTags
