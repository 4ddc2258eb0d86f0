import ElixirTags.Proofs.Scan.Words

/-!
# A configuration selects

The settings of a configuration are tested at different points of a line: a directive may be
unknown, a name may be refused, a kind may be off, and what is left out on one line must not change
what later lines are attributed to.  Here a scan is compared with the scan that leaves nothing out,
`Config.unrestricted`, which shares only the identifier class.

What a line defines is the same for all configurations of an identifier class
(`Directive.definition`), and a configuration reports it if it selects it
(`Verdict.tag?_ofLine_of_directive`).  Every line hands the same owner on, so the tags of two scans
differ by selection alone, line by line and for a whole source
(`scanSource_eq_filter_unrestricted`).
-/

namespace ElixirTags

namespace Config

variable (config : Config)

/-- The configuration with the same identifiers that leaves nothing out. -/
def unrestricted : Config where
  identClass := config.identClass
  protocols := true
  scopes := true
  lettersOnly := false
  kinds := .full

/-- The tag is one that the configuration reports: its kind is on, it is no protocol and no
implementation unless these are known, and if it is a function, it begins with a letter if it has
to. -/
def Selects (tag : Tag) : Prop :=
  tag.kind ∈ config.kinds ∧
    (tag.kind.isExtended = true → config.protocols = true) ∧
    (tag.kind = .functionDef → config.lettersOnly = true →
      Verdict.startsWithLetter tag.name = true)

instance : DecidablePred config.Selects := fun _ =>
  inferInstanceAs (Decidable (_ ∧ (_ → _) ∧ (_ → _ → _)))

/-- The tag as it is reported: without an owner, unless functions are attributed. -/
def attributed (tag : Tag) : Tag :=
  if config.scopes then tag else { tag with owner := none }

lemma selects_unrestricted (tag : Tag) : config.unrestricted.Selects tag :=
  ⟨KindSet.mem_full, fun _ => rfl, fun _ h => Bool.noConfusion h⟩

lemma directive?_of_ofKeyword? {word : Bytes} {d : Directive}
    (h : Directive.ofKeyword? word = some d) :
    config.directive? word =
      if d.kind.isExtended = true → config.protocols = true then some d else none := by
  rw [directive?, h, Option.filter_some]
  cases d.kind.isExtended <;> cases config.protocols <;> rfl

lemma directive?_eq_none {word : Bytes} (h : Directive.ofKeyword? word = none) :
    config.directive? word = none := by
  rw [directive?, h]
  rfl

end Config

namespace Directive

/-- What the directive defines on a line, as long as no configuration has been asked. -/
def definition (d : Directive) (name : Bytes) (owner : Option Bytes) (n : LineNumber) : Tag where
  name := name
  kind := d.kind
  line := n
  owner := if d.isFunction then owner else none

variable {config : Config} {d : Directive} {name : Bytes} {owner : Option Bytes} {n : LineNumber}

lemma isFunction_iff_kind : d.isFunction = true ↔ d.kind = .functionDef := by
  cases d <;> decide

lemma selects_definition_iff :
    config.Selects (d.definition name owner n) ↔ d.kind ∈ config.kinds ∧
      (d.kind.isExtended = true → config.protocols = true) ∧
      (d.isFunction = true → config.lettersOnly = true →
        Verdict.startsWithLetter name = true) := by
  rw [isFunction_iff_kind]
  rfl

lemma attributed_definition :
    config.attributed (d.definition name owner n) =
      { name, kind := d.kind, line := n,
        owner := if d.isFunction && config.scopes then owner else none } := by
  rw [Config.attributed, definition]
  cases config.scopes <;> simp

end Directive

/-! ## One line -/

namespace Verdict

variable {config : Config} {line : Bytes} {d : Directive}

/-- A configuration reports what the line defines, if it selects it. -/
lemma tag?_ofLine_of_directive (config : Config) {name : Bytes}
    (h : Directive.ofKeyword? (Text.firstWord config.identClass line) = some d)
    (hname : Text.secondWord config.identClass line = name) (owner : Option Bytes)
    (n : LineNumber) :
    (ofLine config line).tag? config owner n =
      if name ≠ [] ∧ config.Selects (d.definition name owner n) then
        some (config.attributed (d.definition name owner n))
      else none := by
  simp only [Directive.selects_definition_iff]
  have hd := config.directive?_of_ofKeyword? h
  split at hd
  · next hknown =>
    rw [ofLine_of_directive hd, hname]
    by_cases hletter : d.isFunction = true → config.lettersOnly = true →
        startsWithLetter name = true
    · have hkept : (d.isFunction && config.lettersOnly && !startsWithLetter name) ≠ true := by
        simpa using hletter
      rw [if_neg hkept, Directive.attributed_definition]
      have hsel : (name ≠ [] ∧ d.kind ∈ config.kinds ∧
          (d.kind.isExtended = true → config.protocols = true) ∧
            (d.isFunction = true → config.lettersOnly = true → startsWithLetter name = true)) ↔
          name ≠ [] ∧ d.kind ∈ config.kinds :=
        and_congr_right' (and_iff_left ⟨hknown, hletter⟩)
      simp only [hsel]
      rfl
    · have hrefused : (d.isFunction && config.lettersOnly && !startsWithLetter name) = true := by
        simpa [and_assoc] using hletter
      rw [if_pos hrefused, if_neg fun hsel => hletter hsel.2.2.2]
      rfl
  · next hknown =>
    rw [tag?_eq_none_of_silent (silent_ofLine hd), if_neg fun hsel => hknown hsel.2.2.1]

/-- What is reported of a line is selected from what is reported without restrictions. -/
lemma tag?_ofLine_eq_filter (config : Config) (line : Bytes) (owner : Option Bytes)
    (n : LineNumber) :
    (ofLine config line).tag? config owner n =
      (((ofLine config.unrestricted line).tag? config.unrestricted owner n).filter
        config.Selects).map config.attributed := by
  cases h : Directive.ofKeyword? (Text.firstWord config.identClass line) with
  | none =>
      rw [tag?_eq_none_of_silent (silent_ofLine (config.directive?_eq_none h)),
        tag?_eq_none_of_silent (silent_ofLine (config.unrestricted.directive?_eq_none h))]
      rfl
  | some d =>
      obtain ⟨name, hname⟩ : ∃ name, Text.secondWord config.identClass line = name := ⟨_, rfl⟩
      have hall : (ofLine config.unrestricted line).tag? config.unrestricted owner n =
          if name ≠ [] then some (d.definition name owner n) else none := by
        rw [tag?_ofLine_of_directive config.unrestricted h hname]
        simp only [config.selects_unrestricted, and_true]
        rfl
      rw [tag?_ofLine_of_directive config h hname, hall]
      by_cases hempty : name = []
      · rw [if_neg fun hsel => hsel.1 hempty, if_neg (not_not_intro hempty)]
        rfl
      · rw [if_pos hempty, Option.filter_some]
        simp only [hempty, ne_eq, not_false_eq_true, true_and, decide_eq_true_eq]
        split <;> rfl

end Verdict

/-! ## Many lines -/

/-- Selection can wait until all lines have been read, because the owners do not depend on it. -/
lemma Reading.tags_ofLines_eq_filter (config : Config) (lines : List (LineNumber × Bytes)) :
    ∀ owner, tags config (ofLines config owner lines) =
      ((tags config.unrestricted (ofLines config.unrestricted owner lines)).filter
        config.Selects).map config.attributed := by
  simp only [tags, List.filter_filterMap, List.map_filterMap]
  induction lines with
  | nil => intro owner; rfl
  | cons line rest ih =>
      intro owner
      obtain ⟨n, text⟩ := line
      have hstep : (ofLine config owner n text).tag? config =
          (((ofLine config.unrestricted owner n text).tag? config.unrestricted).filter
            config.Selects).map config.attributed :=
        Verdict.tag?_ofLine_eq_filter config text owner n
      -- both scans go on with the module that the line begins, if it begins one
      have howner : (ofLine config owner n text).ownerAfter =
          (ofLine config.unrestricted owner n text).ownerAfter := by
        rw [ownerAfter, ownerAfter, ofLine, ofLine, Verdict.ownerAfter_ofLine,
          Verdict.ownerAfter_ofLine]
        rfl
      rw [ofLines, ofLines, List.filterMap_cons, List.filterMap_cons, hstep, ← howner, ih]

/-- **A configuration selects.**  The tags of a source are those of the scan that leaves nothing
out, as far as the configuration selects them, in the same order; if functions are not attributed,
the owners are taken off them, and otherwise they are unchanged. -/
theorem scanSource_eq_filter_unrestricted (config : Config) (source : Bytes) :
    scanSource config source =
      ((scanSource config.unrestricted source).filter config.Selects).map config.attributed :=
  Reading.tags_ofLines_eq_filter config (Text.sourceLines source) none

end ElixirTags
