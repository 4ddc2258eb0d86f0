import ElixirTags.Scan.Session
import Mathlib.Data.List.Forall2

/-!
# The two words of a line

A line is read by a cursor, and what comes of it depends on the first word of the line and on the
word after that alone.  `Text.firstWord` and `Text.secondWord` say what these two are without a
cursor: blanks, a longest run of identifier bytes, blanks, another such run.

`Verdict.ofLine_of_directive` and `Verdict.silent_ofLine` then say what a line says in terms of its
words.  The look at the leading byte that precedes every other test drops out here, because every
directive begins with that byte (`lead_of_directive`).  From this come the three readings of a line
that a scan makes: its tag (`tag?_ofLine`), the module it begins (`ownerAfter_ofLine`), and the form
of all the names that a scan reports (`Tag.WellFormed`).

So lines with the same two words cannot be told apart by a scan (`Reading.tags_ofLines_congr`), and
lines without a first word at the end of a file do not count (`Reading.tags_ofLines_append`).
-/

namespace ElixirTags

/-! ## Words -/

namespace Text

variable (cls : IdentClass)

/-- The first word of a line: what follows the blanks at its start, as far as it is identifier
bytes. -/
def firstWord (line : Bytes) : Bytes :=
  (line.dropWhile Byte.isBlank).takeWhile cls.contains

/-- What follows the first word of a line. -/
def afterFirstWord (line : Bytes) : Bytes :=
  (line.dropWhile Byte.isBlank).dropWhile cls.contains

/-- The second word of a line: the first word of what follows the first word. -/
def secondWord (line : Bytes) : Bytes :=
  firstWord cls (afterFirstWord cls line)

lemma contains_of_mem_firstWord {cls : IdentClass} {line : Bytes} {b : UInt8}
    (h : b ∈ firstWord cls line) : cls.contains b = true := by
  have hall := List.all_takeWhile (p := cls.contains) (l := line.dropWhile Byte.isBlank)
  rw [List.all_eq_true] at hall
  exact hall b h

lemma contains_of_mem_secondWord {cls : IdentClass} {line : Bytes} {b : UInt8}
    (h : b ∈ secondWord cls line) : cls.contains b = true :=
  contains_of_mem_firstWord h

end Text

/-! ## The verdict on a line -/

variable {config : Config} {line : Bytes} {d : Directive}

lemma Config.directive?_eq_some {word : Bytes} :
    config.directive? word = some d ↔
      word = Bytes.ofString d.keyword ∧ (config.protocols = true ∨ d.kind.isExtended = false) := by
  simp only [Config.directive?, Option.filter_eq_some_iff, Bool.or_eq_true, Bool.not_eq_true']
  constructor
  · rintro ⟨hword, hknown⟩
    exact ⟨Directive.eq_keyword_of_ofKeyword? hword, hknown⟩
  · rintro ⟨rfl, hknown⟩
    exact ⟨Directive.ofKeyword?_keyword d, hknown⟩

namespace Verdict

/-- A line whose first word is a directive begins, blanks apart, with the letter that every
directive begins with. -/
lemma lead_of_directive (h : config.directive? (Text.firstWord config.identClass line) = some d) :
    (Cursor.ofLine line).skipBlanks.current = Directive.lead := by
  have hword := (Config.directive?_eq_some.1 h).1
  have hhead := Directive.head_keyword d
  rw [← hword, Text.firstWord] at hhead
  show (line.dropWhile Byte.isBlank).headD 0 = Directive.lead
  cases hrest : line.dropWhile Byte.isBlank with
  | nil => simp [hrest] at hhead
  | cons b rest =>
      rw [hrest, List.takeWhile_cons] at hhead
      split at hhead
      · simpa using hhead
      · simp at hhead

/-- The verdict on a line whose first word is a directive. -/
lemma ofLine_of_directive
    (h : config.directive? (Text.firstWord config.identClass line) = some d) :
    ofLine config line =
      if d.isFunction && config.lettersOnly &&
          !startsWithLetter (Text.secondWord config.identClass line) then
        .refusedName d (Text.secondWord config.identClass line)
      else .defines d (Text.secondWord config.identClass line) := by
  have hword : ((Cursor.ofLine line).skipBlanks.identifier config.identClass).1 =
      Text.firstWord config.identClass line := rfl
  rw [ofLine, if_pos (lead_of_directive h)]
  simp only [hword, h]
  rfl

/-- The verdict says neither that a line defines something nor that it has a name to refuse. -/
def Silent : Verdict → Prop
  | ignored | unknownWord _ => True
  | refusedName .. | defines .. => False

/-- A line whose first word is no directive says nothing. -/
lemma silent_ofLine (h : config.directive? (Text.firstWord config.identClass line) = none) :
    (ofLine config line).Silent := by
  have hword : ((Cursor.ofLine line).skipBlanks.identifier config.identClass).1 =
      Text.firstWord config.identClass line := rfl
  rw [ofLine]
  split
  · simp only [hword, h]
    trivial
  · trivial

lemma tag?_eq_none_of_silent {v : Verdict} (h : v.Silent) (owner : Option Bytes)
    (n : LineNumber) : v.tag? config owner n = none := by
  cases v with
  | ignored => rfl
  | unknownWord word => rfl
  | refusedName d name => exact h.elim
  | defines d name => exact h.elim

lemma ownerAfter_eq_of_silent {v : Verdict} (h : v.Silent) (owner : Option Bytes) :
    v.ownerAfter owner = owner := by
  cases v with
  | ignored => rfl
  | unknownWord word => rfl
  | refusedName d name => exact h.elim
  | defines d name => exact h.elim

end Verdict

/-! ## What a line tells a scan -/

/-- The module that a line begins: the word after `defmodule`, if there is one. -/
def Text.begunModule? (cls : IdentClass) (line : Bytes) : Option Bytes :=
  if firstWord cls line = Bytes.ofString "defmodule" ∧ secondWord cls line ≠ [] then
    some (secondWord cls line)
  else none

/-- The first word of the line is one of the two that define functions. -/
def Text.DefinesFunction (cls : IdentClass) (line : Bytes) : Prop :=
  firstWord cls line = Bytes.ofString "def" ∨ firstWord cls line = Bytes.ofString "defp"

instance (cls : IdentClass) (line : Bytes) : Decidable (Text.DefinesFunction cls line) :=
  inferInstanceAs (Decidable (_ ∨ _))

lemma Directive.keyword_eq_defmodule_iff :
    Bytes.ofString d.keyword = Bytes.ofString "defmodule" ↔ d.beginsModule = true := by
  cases d <;> decide

lemma Directive.isFunction_iff :
    d.isFunction = true ↔
      Bytes.ofString d.keyword = Bytes.ofString "def" ∨
        Bytes.ofString d.keyword = Bytes.ofString "defp" := by
  cases d <;> decide

/-- The word `defmodule` is a directive of every configuration. -/
lemma Config.directive?_defmodule :
    config.directive? (Bytes.ofString "defmodule") = some .moduleDef :=
  Config.directive?_eq_some.2 ⟨rfl, Or.inr rfl⟩

/-- The owner after a line is the module that the line begins, or else the owner before it. -/
lemma Verdict.ownerAfter_ofLine (config : Config) (line : Bytes) (owner : Option Bytes) :
    (ofLine config line).ownerAfter owner =
      (Text.begunModule? config.identClass line).or owner := by
  cases h : config.directive? (Text.firstWord config.identClass line) with
  | none =>
      have hword : Text.firstWord config.identClass line ≠ Bytes.ofString "defmodule" := by
        intro hmod
        rw [hmod, Config.directive?_defmodule] at h
        cases h
      rw [ownerAfter_eq_of_silent (silent_ofLine h), Text.begunModule?,
        if_neg (fun hc => hword hc.1)]
      rfl
  | some d =>
      have hword := (Config.directive?_eq_some.1 h).1
      have hmod := Directive.keyword_eq_defmodule_iff (d := d)
      simp only [ofLine_of_directive h, Text.begunModule?, hword, hmod]
      by_cases hd : d.beginsModule = true
      · -- a module is no function, so its name is never refused
        have hfun : d.isFunction = false := by
          cases d <;> first | rfl | cases hd
        by_cases hname : Text.secondWord config.identClass line = [] <;>
          simp [hfun, hd, hname, ownerAfter]
      · split <;> simp [hd, ownerAfter]

/-- What a line defines in the place of an owner is what it defines without one, attributed to the
owner if it is a function and the configuration attributes functions. -/
lemma Verdict.tag?_ofLine (config : Config) (line : Bytes) (owner : Option Bytes)
    (m n : LineNumber) :
    (ofLine config line).tag? config owner n =
      ((ofLine config line).tag? config none m).map fun tag =>
        { tag with
          line := n
          owner := if Text.DefinesFunction config.identClass line ∧ config.scopes = true then owner
            else none } := by
  cases h : config.directive? (Text.firstWord config.identClass line) with
  | none =>
      rw [tag?_eq_none_of_silent (silent_ofLine h), tag?_eq_none_of_silent (silent_ofLine h)]
      rfl
  | some d =>
      have hword := (Config.directive?_eq_some.1 h).1
      have hfun : Text.DefinesFunction config.identClass line ↔ d.isFunction = true := by
        rw [Text.DefinesFunction, hword, Directive.isFunction_iff]
      rw [ofLine_of_directive h]
      split
      · rfl
      · simp only [tag?, hfun]
        split
        · simp [Bool.and_eq_true]
        · rfl

/-! ## Lines with the same words -/

/-- The two words of the lines are the same. -/
structure Text.SameWords (cls : IdentClass) (a b : Bytes) : Prop where
  first : firstWord cls a = firstWord cls b
  second : secondWord cls a = secondWord cls b

lemma Text.SameWords.symm {cls : IdentClass} {a b : Bytes} (h : SameWords cls a b) :
    SameWords cls b a :=
  ⟨h.first.symm, h.second.symm⟩

lemma Text.SameWords.trans {cls : IdentClass} {a b c : Bytes} (hab : SameWords cls a b)
    (hbc : SameWords cls b c) : SameWords cls a c :=
  ⟨hab.first.trans hbc.first, hab.second.trans hbc.second⟩

section SameWords

variable {a b : Bytes} {lines lines' : List Bytes}

lemma Verdict.tag?_ofLine_congr (h : Text.SameWords config.identClass a b) (owner : Option Bytes)
    (n : LineNumber) :
    (ofLine config a).tag? config owner n = (ofLine config b).tag? config owner n := by
  cases hd : config.directive? (Text.firstWord config.identClass a) with
  | none =>
      have hd' := hd
      rw [h.first] at hd'
      rw [tag?_eq_none_of_silent (silent_ofLine hd), tag?_eq_none_of_silent (silent_ofLine hd')]
  | some d =>
      have hd' := hd
      rw [h.first] at hd'
      rw [ofLine_of_directive hd, ofLine_of_directive hd', h.second]

lemma Verdict.ownerAfter_ofLine_congr (h : Text.SameWords config.identClass a b)
    (owner : Option Bytes) :
    (ofLine config a).ownerAfter owner = (ofLine config b).ownerAfter owner := by
  rw [ownerAfter_ofLine, ownerAfter_ofLine, Text.begunModule?, Text.begunModule?, h.first, h.second]

lemma Reading.tags_cons (config : Config) (r : Reading) (rest : List Reading) :
    tags config (r :: rest) = (r.tag? config).toList ++ tags config rest := by
  rw [tags, tags, List.filterMap_cons]
  cases r.tag? config with
  | none => rfl
  | some tag => rfl

lemma Reading.tags_ofLines_cons (owner : Option Bytes) (n : LineNumber) (text : Bytes)
    (rest : List (LineNumber × Bytes)) :
    tags config (ofLines config owner ((n, text) :: rest)) =
      ((Verdict.ofLine config text).tag? config owner n).toList ++
        tags config (ofLines config ((Verdict.ofLine config text).ownerAfter owner) rest) :=
  tags_cons config _ _

/-- Lines with the same words, under the same numbers, have the same tags. -/
lemma Reading.tags_ofLines_congr (h : List.Forall₂ (Text.SameWords config.identClass) lines lines')
    (owner : Option Bytes) (n : LineNumber) :
    tags config (ofLines config owner (Text.numberFrom n lines)) =
      tags config (ofLines config owner (Text.numberFrom n lines')) := by
  induction h generalizing owner n with
  | nil => rfl
  | cons hline hrest ih =>
      rw [Text.numberFrom, Text.numberFrom, tags_ofLines_cons, tags_ofLines_cons,
        Verdict.tag?_ofLine_congr hline, Verdict.ownerAfter_ofLine_congr hline, ih]

lemma Config.directive?_nil : config.directive? [] = none := by
  cases h : config.directive? [] with
  | none => rfl
  | some d =>
      have hhead := d.head_keyword
      rw [← (directive?_eq_some.1 h).1] at hhead
      cases hhead

/-- Lines without words have no tags. -/
lemma Reading.tags_ofLines_of_wordless
    (h : ∀ line ∈ lines, Text.firstWord config.identClass line = []) (owner : Option Bytes)
    (n : LineNumber) : tags config (ofLines config owner (Text.numberFrom n lines)) = [] := by
  induction lines generalizing owner n with
  | nil => rfl
  | cons line rest ih =>
      have hnone : config.directive? [] = none := Config.directive?_nil
      rw [← h line List.mem_cons_self] at hnone
      rw [Text.numberFrom, tags_ofLines_cons,
        Verdict.tag?_eq_none_of_silent (Verdict.silent_ofLine hnone),
        ih fun other hother => h other (List.mem_cons_of_mem _ hother)]
      rfl

/-- Lines without words after the last line do not count. -/
lemma Reading.tags_ofLines_append (lines : List Bytes)
    (h : ∀ line ∈ lines', Text.firstWord config.identClass line = []) (owner : Option Bytes)
    (n : LineNumber) :
    tags config (ofLines config owner (Text.numberFrom n (lines ++ lines'))) =
      tags config (ofLines config owner (Text.numberFrom n lines)) := by
  induction lines generalizing owner n with
  | nil => exact tags_ofLines_of_wordless h owner n
  | cons line rest ih =>
      rw [List.cons_append, Text.numberFrom, Text.numberFrom, tags_ofLines_cons, tags_ofLines_cons,
        ih]

end SameWords

/-! ## The form of a tag -/

/-- The text is a word of the class. -/
def IdentClass.IsWord (cls : IdentClass) (text : Bytes) : Prop :=
  text ≠ [] ∧ ∀ b ∈ text, cls.contains b = true

/-- The name of the tag is a word, and so is the module that it is attributed to. -/
structure Tag.WellFormed (cls : IdentClass) (tag : Tag) : Prop where
  name : cls.IsWord tag.name
  owner : ∀ owner, tag.owner = some owner → cls.IsWord owner

lemma Text.isWord_of_begunModule? {cls : IdentClass} {name : Bytes}
    (h : Text.begunModule? cls line = some name) : cls.IsWord name := by
  rw [Text.begunModule?] at h
  split at h
  · next hmod =>
    cases h
    exact ⟨hmod.2, fun b => Text.contains_of_mem_secondWord⟩
  · cases h

lemma Verdict.name_of_tag?_ofLine {owner : Option Bytes} {n : LineNumber} {tag : Tag}
    (h : (ofLine config line).tag? config owner n = some tag) :
    config.identClass.IsWord tag.name ∧ tag.line = n := by
  cases hd : config.directive? (Text.firstWord config.identClass line) with
  | none =>
      rw [tag?_eq_none_of_silent (silent_ofLine hd)] at h
      cases h
  | some d =>
      rw [ofLine_of_directive hd] at h
      split at h
      · cases h
      · simp only [tag?] at h
        split at h
        · next hname =>
          cases h
          exact ⟨⟨hname.1, fun b => Text.contains_of_mem_secondWord⟩, rfl⟩
        · cases h

end ElixirTags
