import ElixirTags.CommandLine.Parse
import Mathlib.Data.List.Basic
import Mathlib.Tactic.Lemma

/-!
# The grammar of a command line

A command line is a row of `Part`s: arguments by themselves, and options with the argument after
them as their value.  `CommandLine.Reads` says which they are.  There is one way to read the
arguments (`CommandLine.Reads.unique`).

An argument by itself has one of a few forms.  `Part.Asks` says by the form of a part which switch
it asks for, and `Part.Refused` why it is none; `CommandLine.IsUnknown` is what is left.  Every part
asks for one switch or is refused for one reason, and the reader agrees (`Part.switch_eq_ok_iff`,
`Part.switch_eq_error_iff`).
-/

namespace ElixirTags

namespace CommandLine

/-! ## The parts of a command line -/

/-- A part of a command line. -/
inductive Part where
  | alone (argument : String)
  /-- An option with the argument after it, whatever that looks like. -/
  | valued (option value : String)
  /-- An option with nothing after it. -/
  | lacking (option : String)

/-- The options whose value is the next argument. -/
def targetOptions : List String := ["-o", "-f"]

/-- The parts of a command line, read from left to right. -/
inductive Reads : List String → List Part → Prop
  | nil : Reads [] []
  | alone {argument : String} {rest : List String} {parts : List Part} :
    argument ∉ targetOptions → Reads rest parts →
    Reads (argument :: rest) (.alone argument :: parts)
  | valued {option value : String} {rest : List String} {parts : List Part} :
    option ∈ targetOptions → Reads rest parts →
    Reads (option :: value :: rest) (.valued option value :: parts)
  | lacking {option : String} : option ∈ targetOptions → Reads [option] [.lacking option]

lemma Reads.unique {arguments : List String} {parts others : List Part}
    (h : Reads arguments parts) (hothers : Reads arguments others) : others = parts := by
  induction h generalizing others with
  | nil => cases hothers; rfl
  | alone hargument _ ih =>
      cases hothers with
      | alone _ hrest => rw [ih hrest]
      | valued hoption _ => exact absurd hoption hargument
      | lacking hoption => exact absurd hoption hargument
  | valued hoption _ ih =>
      cases hothers with
      | alone hargument _ => exact absurd hoption hargument
      | valued _ hrest => rw [ih hrest]
  | lacking hoption =>
      cases hothers with
      | alone hargument _ => exact absurd hoption hargument
      | lacking _ => rfl

/-- What the reader makes of a part. -/
def Part.switch : Part → Except UsageFault Switch
  | .alone argument => Switch.ofArgument argument
  | .valued _ value => .ok (.target (.ofArgument value))
  | .lacking option => .error (.missingValue option)

lemma takesNext_iff {argument : String} :
    Switch.takesNext argument = true ↔ argument ∈ targetOptions := by
  simp [Switch.takesNext, targetOptions]

/-- Every command line has its parts, and its switches are those of the parts. -/
lemma exists_reads (arguments : List String) :
    ∃ parts, Reads arguments parts ∧ Switch.ofArguments arguments = parts.map Part.switch := by
  fun_induction Switch.ofArguments arguments with
  | case1 => exact ⟨[], .nil, rfl⟩
  | case2 argument =>
      by_cases htakes : Switch.takesNext argument = true
      · exact ⟨_, .lacking (takesNext_iff.1 htakes), by simp [htakes, Part.switch]⟩
      · exact ⟨_, .alone (mt takesNext_iff.2 htakes) .nil, by simp [htakes, Part.switch]⟩
  | case3 option value rest htakes ih =>
      obtain ⟨parts, hreads, hswitches⟩ := ih
      exact ⟨_, .valued (takesNext_iff.1 htakes) hreads, by simp [hswitches, Part.switch]⟩
  | case4 argument value rest htakes ih =>
      obtain ⟨parts, hreads, hswitches⟩ := ih
      exact ⟨_, .alone (mt takesNext_iff.2 htakes) hreads, by simp [hswitches, Part.switch]⟩

lemma ofArguments_of_reads {arguments : List String} {parts : List Part}
    (h : Reads arguments parts) : Switch.ofArguments arguments = parts.map Part.switch := by
  obtain ⟨others, hothers, hswitches⟩ := exists_reads arguments
  rw [hswitches, h.unique hothers]

/-! ## The forms of an argument -/

/-- `sep` stands between two parts of the text, and nowhere further left. -/
structure FirstCut (sep text before after : String) : Prop where
  text_eq : text = before ++ sep ++ after
  first : ∀ before' after', text = before' ++ sep ++ after' → before.length ≤ before'.length

/-- The beginnings of options that have their value in them. -/
def valueOptions : List String := ["--output=", "--sort=", "--ident=", "--list-kinds="]

/-- The argument is an option with a kind spec for a language, which stands either after the word
`kinds` or before it. -/
inductive IsKindsOption (argument language spec : String) : Prop
  | after {rest : String} : argument = "--kinds-" ++ rest → FirstCut "=" rest language spec →
    IsKindsOption argument language spec
  | before {rest : String} : argument = "--" ++ rest → FirstCut "-kinds=" rest language spec →
    (∀ option ∈ "--kinds-" :: valueOptions, ∀ value, argument ≠ option ++ value) →
    IsKindsOption argument language spec

/-- The argument names a file or a directory. -/
def IsInput (argument : String) : Prop :=
  argument = "-" ∨ argument.toList.head? ≠ some '-'

end CommandLine

/-- The words that ask for the switch. -/
def Switch.spellings : Switch → List String
  | help => ["-h", "--help"]
  | version => ["-V", "--version"]
  | listKinds => ["--list-kinds"]
  | listMaps => ["--list-maps"]
  | recurse => ["-R", "--recurse"]
  | append => ["-a", "--append"]
  | verbose => ["-v", "--verbose"]
  | unscoped => ["--no-scope"]
  | allNames => ["--all-names"]
  | legacy => ["--legacy"]
  | target _ | sort _ | identClass _ | kinds _ | input _ => []

namespace CommandLine

/-- The argument looks like an option and is none. -/
structure IsUnknown (argument : String) : Prop where
  not_input : ¬ IsInput argument
  not_word : ∀ switch : Switch, argument ∉ switch.spellings
  not_valued : ∀ option ∈ valueOptions, ∀ value, argument ≠ option ++ value
  not_kinds : ∀ language spec, ¬ IsKindsOption argument language spec

/-- The values that say yes or no. -/
def sortValues : List (String × Bool) :=
  [("yes", true), ("1", true), ("true", true), ("no", false), ("0", false), ("false", false)]

/-- What a part asks for. -/
inductive Part.Asks : Part → Switch → Prop
  | word {argument : String} {switch : Switch} : argument ∈ switch.spellings →
    Asks (.alone argument) switch
  | target (option value : String) : Asks (.valued option value) (.target (.ofArgument value))
  | output (value : String) : Asks (.alone ("--output=" ++ value)) (.target (.ofArgument value))
  | sort {value : String} {on : Bool} : (value, on) ∈ sortValues →
    Asks (.alone ("--sort=" ++ value)) (.sort on)
  | ident (cls : IdentClass) : Asks (.alone ("--ident=" ++ cls.name)) (.identClass cls)
  | listKinds {language : String} : Language.elixir.isNamed language = true →
    Asks (.alone ("--list-kinds=" ++ language)) .listKinds
  | kinds {argument language text : String} {spec : KindSpec} :
    IsKindsOption argument language text → Language.elixir.isNamed language = true →
    KindSpec.parse text = .ok spec → Asks (.alone argument) (.kinds spec)
  | input {argument : String} : IsInput argument →
    Asks (.alone argument) (.input (Bytes.ofString argument))

/-- Why a part is refused. -/
inductive Part.Refused : Part → UsageFault → Prop
  | lacking (option : String) : Refused (.lacking option) (.missingValue option)
  | sort {value : String} : (∀ on, (value, on) ∉ sortValues) →
    Refused (.alone ("--sort=" ++ value)) (.invalidValue "--sort" value)
  | ident {value : String} : (∀ cls : IdentClass, cls.name ≠ value) →
    Refused (.alone ("--ident=" ++ value)) (.invalidValue "--ident" value)
  | listKinds {language : String} : Language.elixir.isNamed language = false →
    Refused (.alone ("--list-kinds=" ++ language)) (.unknownLanguage language)
  | kindsLanguage {argument language text : String} : IsKindsOption argument language text →
    Language.elixir.isNamed language = false → Refused (.alone argument) (.unknownLanguage language)
  | kindsSpec {argument language text : String} {fault : KindSpec.Fault} :
    IsKindsOption argument language text → Language.elixir.isNamed language = true →
    KindSpec.parse text = .error fault → Refused (.alone argument) (.kindSpec fault)
  | unknown {argument : String} : IsUnknown argument →
    Refused (.alone argument) (.unknownOption argument)

/-! ## Cutting an argument -/

lemma afterWords?_eq_some_iff {words argument : String} {rest : List Char} :
    afterWords? words argument.toList = some rest ↔
      ∃ value : String, rest = value.toList ∧ argument = words ++ value := by
  rw [afterWords?, List.isPrefixOf?_eq_some_iff_append_eq]
  constructor
  · intro h
    refine ⟨String.ofList rest, by simp, ?_⟩
    rw [← String.toList_inj, ← h, String.toList_append, String.toList_ofList]
  · rintro ⟨value, rfl, rfl⟩
    rw [String.toList_append]

lemma afterWords?_append (words value : String) :
    afterWords? words (words ++ value).toList = some value.toList :=
  afterWords?_eq_some_iff.2 ⟨value, rfl, rfl⟩

lemma afterWords?_eq_none_iff {words argument : String} :
    afterWords? words argument.toList = none ↔ ∀ value, argument ≠ words ++ value := by
  rw [Option.eq_none_iff_forall_ne_some]
  constructor
  · exact fun h value heq => h value.toList (heq ▸ afterWords?_append words value)
  · intro h rest hrest
    obtain ⟨value, -, heq⟩ := afterWords?_eq_some_iff.1 hrest
    exact h value heq

/-- Words of which neither begins with the other begin no argument together. -/
lemma append_ne_append {words words' : String}
    (h : ¬ (words.toList <+: words'.toList ∨ words'.toList <+: words.toList))
    (value value' : String) : words ++ value ≠ words' ++ value' := by
  intro heq
  have hlists := congrArg String.toList heq
  rw [String.toList_append, String.toList_append] at hlists
  refine h (List.prefix_or_prefix_of_prefix (List.prefix_append _ value.toList) ?_)
  rw [hlists]
  exact List.prefix_append _ _

lemma afterWords?_append_eq_none {words words' : String}
    (h : ¬ (words.toList <+: words'.toList ∨ words'.toList <+: words.toList)) (value : String) :
    afterWords? words' (words ++ value).toList = none :=
  afterWords?_eq_none_iff.2 (append_ne_append h value)

lemma splitFirst?_eq_some_iff {sep text before after : List Char} (hsep : sep ≠ []) :
    splitFirst? sep text = some (before, after) ↔ text = before ++ sep ++ after ∧
      ∀ before' after', text = before' ++ sep ++ after' → before.length ≤ before'.length := by
  induction text generalizing before with
  | nil =>
      simp only [splitFirst?, reduceCtorEq, false_iff]
      rintro ⟨htext, -⟩
      simp [hsep] at htext
  | cons c rest ih =>
      rw [splitFirst?]
      cases hprefix : sep.isPrefixOf? (c :: rest) with
      | some remaining =>
          -- the text begins with the separator, so nothing stands before it
          rw [List.isPrefixOf?_eq_some_iff_append_eq] at hprefix
          rw [← hprefix]
          constructor
          · intro h
            obtain ⟨rfl, rfl⟩ := Prod.mk.inj (Option.some.inj h)
            exact ⟨rfl, fun _ _ _ => Nat.zero_le _⟩
          · rintro ⟨htext, hfirst⟩
            obtain rfl : before = [] := List.length_eq_zero_iff.1 (Nat.le_zero.1 (hfirst [] _ rfl))
            rw [List.append_cancel_left htext]
      | none =>
          have hnot (after' : List Char) : c :: rest ≠ sep ++ after' := by
            intro heq
            rw [eq_comm, ← List.isPrefixOf?_eq_some_iff_append_eq, hprefix] at heq
            cases heq
          simp only [Option.map_eq_some_iff, Prod.exists, Prod.mk.injEq]
          constructor
          · rintro ⟨before, remaining, hrest, rfl, rfl⟩
            obtain ⟨rfl, hfirst⟩ := ih.1 hrest
            refine ⟨rfl, fun before' after' heq => ?_⟩
            cases before' with
            | nil => exact absurd heq (hnot after')
            | cons c' before' =>
                have htail := hfirst before' after' (List.cons.inj heq).2
                simpa using htail
          · rintro ⟨htext, hfirst⟩
            cases before with
            | nil => exact absurd htext (hnot after)
            | cons c' before =>
                obtain ⟨rfl, hrest⟩ := List.cons.inj htext
                refine ⟨before, after, ih.2 ⟨hrest, fun before' after' heq => ?_⟩, rfl, rfl⟩
                have hcons := hfirst (c :: before') after' (by rw [heq]; rfl)
                simpa using hcons

lemma splitFirst?_toList_eq_some_iff {sep text before after : String} (hsep : sep ≠ "") :
    splitFirst? sep.toList text.toList = some (before.toList, after.toList) ↔
      FirstCut sep text before after := by
  have htext (before after : String) :
      text.toList = before.toList ++ sep.toList ++ after.toList ↔
        text = before ++ sep ++ after := by
    rw [← String.toList_append, ← String.toList_append, String.toList_inj]
  rw [splitFirst?_eq_some_iff (by simpa using hsep), htext]
  constructor
  · rintro ⟨heq, hfirst⟩
    refine ⟨heq, fun before' after' h => ?_⟩
    simpa only [String.length_toList] using hfirst _ _ ((htext before' after').2 h)
  · rintro ⟨heq, hfirst⟩
    refine ⟨heq, fun before' after' h => ?_⟩
    have hcut := hfirst (String.ofList before') (String.ofList after')
      ((htext _ _).1 (by simpa using h))
    simpa only [String.length_toList, String.length_ofList] using hcut

/-- Among the arguments that begin with no other option, the reader finds the kinds options. -/
lemma kindsOption?_eq_some_iff {argument language spec : String}
    (hvalued : ∀ option ∈ valueOptions, ∀ value, argument ≠ option ++ value) :
    kindsOption? argument.toList = some (language.toList, spec.toList) ↔
      IsKindsOption argument language spec := by
  rw [kindsOption?]
  cases hkinds : afterWords? "--kinds-" argument.toList with
  | some rest =>
      obtain ⟨rest, rfl, hargument⟩ := afterWords?_eq_some_iff.1 hkinds
      show splitFirst? "=".toList rest.toList = _ ↔ _
      rw [splitFirst?_toList_eq_some_iff (by decide)]
      constructor
      · exact .after hargument
      · intro h
        cases h with
        | after heq hcut =>
            rw [hargument, String.append_right_inj] at heq
            rwa [heq]
        | before _ _ hnot => exact absurd hargument (hnot _ List.mem_cons_self _)
  | none =>
      have hnot := afterWords?_eq_none_iff.1 hkinds
      show (afterWords? "--" argument.toList).bind _ = _ ↔ _
      simp only [Option.bind_eq_some_iff, afterWords?_eq_some_iff]
      constructor
      · rintro ⟨_, ⟨rest, rfl, hargument⟩, hcut⟩
        exact .before hargument ((splitFirst?_toList_eq_some_iff (by decide)).1 hcut)
          (List.forall_mem_cons.2 ⟨hnot, hvalued⟩)
      · intro h
        cases h with
        | after heq _ => exact absurd heq (hnot _)
        | before heq hcut _ =>
            exact ⟨_, ⟨_, rfl, heq⟩, (splitFirst?_toList_eq_some_iff (by decide)).2 hcut⟩

/-! ## What the reader makes of each form -/

section Forms

variable {argument language text value : String} {switch : Switch}

lemma lookup_words_eq_some_iff :
    Switch.words.lookup argument = some switch ↔ argument ∈ switch.spellings := by
  constructor
  · intro h
    obtain ⟨before, after, heq, -⟩ := List.lookup_eq_some_iff.1 h
    have hmem : (argument, switch) ∈ Switch.words := by simp [heq]
    have hall : ∀ word ∈ Switch.words, word.1 ∈ word.2.spellings := by decide
    exact hall _ hmem
  · intro h
    have hall : ∀ word ∈ switch.spellings, Switch.words.lookup word = some switch := by
      cases switch <;> simp [Switch.spellings] <;> decide
    exact hall _ h

/-- No word has an equals sign in it. -/
lemma lookup_words_of_mem (h : '=' ∈ argument.toList) : Switch.words.lookup argument = none := by
  rw [List.lookup_eq_none_iff]
  intro word hword
  have hall : ∀ word ∈ Switch.words, '=' ∉ word.1.toList := by decide
  rw [bne_iff_ne]
  rintro rfl
  exact hall word hword h

lemma ofArgument_of_mem (h : '=' ∈ argument.toList) :
    Switch.ofArgument argument = Switch.ofValued argument := by
  rw [Switch.ofArgument, lookup_words_of_mem h]

lemma ofArgument_word (h : argument ∈ switch.spellings) :
    Switch.ofArgument argument = .ok switch := by
  rw [Switch.ofArgument, lookup_words_eq_some_iff.2 h]

lemma ofArgument_output (value : String) :
    Switch.ofArgument ("--output=" ++ value) = .ok (.target (.ofArgument value)) := by
  rw [ofArgument_of_mem (by simp), Switch.ofValued]
  simp only [afterWords?_append, String.ofList_toList]

lemma ofArgument_sort (value : String) :
    Switch.ofArgument ("--sort=" ++ value) = (Switch.yesOrNo "--sort" value).map .sort := by
  have hnone (words : String) := @afterWords?_append_eq_none "--sort=" words
  rw [ofArgument_of_mem (by simp), Switch.ofValued]
  simp only [hnone "--output=" (by decide), afterWords?_append, String.ofList_toList]

lemma ofArgument_ident (value : String) :
    Switch.ofArgument ("--ident=" ++ value) =
      (Switch.identClassOf "--ident" value).map .identClass := by
  have hnone (words : String) := @afterWords?_append_eq_none "--ident=" words
  rw [ofArgument_of_mem (by simp), Switch.ofValued]
  simp only [hnone "--output=" (by decide), hnone "--sort=" (by decide), afterWords?_append,
    String.ofList_toList]

lemma ofArgument_listKinds (language : String) :
    Switch.ofArgument ("--list-kinds=" ++ language) =
      (Switch.checkLanguage language).map fun _ => .listKinds := by
  have hnone (words : String) := @afterWords?_append_eq_none "--list-kinds=" words
  rw [ofArgument_of_mem (by simp), Switch.ofValued]
  simp only [hnone "--output=" (by decide), hnone "--sort=" (by decide),
    hnone "--ident=" (by decide), afterWords?_append, String.ofList_toList]

/-- Arguments that begin with none of the options with a value in them are kinds options, inputs or
unknown. -/
lemma ofValued_of_not_valued (h : ∀ option ∈ valueOptions, ∀ value, argument ≠ option ++ value) :
    Switch.ofValued argument =
      match kindsOption? argument.toList with
      | some (language, text) => (Switch.checkLanguage (String.ofList language)).bind fun _ =>
          (Switch.kindSpecOf (String.ofList text)).map .kinds
      | none =>
        if argument.toList.head? = some '-' ∧ argument ≠ "-" then .error (.unknownOption argument)
        else .ok (.input (Bytes.ofString argument)) := by
  have hnone (option : String) (hoption : option ∈ valueOptions) :
      afterWords? option argument.toList = none := afterWords?_eq_none_iff.2 (h option hoption)
  rw [Switch.ofValued]
  simp only [hnone "--output=" (by decide), hnone "--sort=" (by decide),
    hnone "--ident=" (by decide), hnone "--list-kinds=" (by decide)]
  cases kindsOption? argument.toList <;> rfl

lemma IsKindsOption.mem (h : IsKindsOption argument language text) : '=' ∈ argument.toList := by
  cases h with
  | after heq hcut => simp [heq, hcut.text_eq]
  | before heq hcut _ => simp [heq, hcut.text_eq]

/-- A kinds option is no other option with a value in it. -/
lemma IsKindsOption.not_valued (h : IsKindsOption argument language text) :
    ∀ option ∈ valueOptions, ∀ value, argument ≠ option ++ value := by
  cases h with
  | after heq _ =>
      have hapart : ∀ option ∈ valueOptions,
          ¬ ("--kinds-".toList <+: option.toList ∨ option.toList <+: "--kinds-".toList) := by
        decide
      intro option hoption value
      rw [heq]
      exact append_ne_append (hapart option hoption) _ value
  | before _ _ hnot => exact fun option hoption => hnot option (List.mem_cons_of_mem _ hoption)

lemma ofArgument_kinds (h : IsKindsOption argument language text) :
    Switch.ofArgument argument = (Switch.checkLanguage language).bind fun _ =>
      (Switch.kindSpecOf text).map .kinds := by
  rw [ofArgument_of_mem h.mem, ofValued_of_not_valued h.not_valued,
    (kindsOption?_eq_some_iff h.not_valued).2 h]
  simp only [String.ofList_toList]

/-- Arguments of none of these forms are inputs or unknown. -/
lemma ofArgument_of_not (hword : ∀ switch : Switch, argument ∉ switch.spellings)
    (hvalued : ∀ option ∈ valueOptions, ∀ value, argument ≠ option ++ value)
    (hkinds : ∀ language spec, ¬ IsKindsOption argument language spec) :
    Switch.ofArgument argument =
      if argument.toList.head? = some '-' ∧ argument ≠ "-" then .error (.unknownOption argument)
      else .ok (.input (Bytes.ofString argument)) := by
  have hlookup : Switch.words.lookup argument = none := by
    rw [Option.eq_none_iff_forall_ne_some]
    exact fun switch hswitch => hword switch (lookup_words_eq_some_iff.1 hswitch)
  have hnone : kindsOption? argument.toList = none := by
    rw [Option.eq_none_iff_forall_ne_some]
    rintro ⟨language, text⟩ hsome
    rw [← String.toList_ofList (l := language), ← String.toList_ofList (l := text),
      kindsOption?_eq_some_iff hvalued] at hsome
    exact hkinds _ _ hsome
  rw [Switch.ofArgument, hlookup]
  show Switch.ofValued argument = _
  rw [ofValued_of_not_valued hvalued, hnone]

lemma not_isInput_iff : ¬ IsInput argument ↔ argument.toList.head? = some '-' ∧ argument ≠ "-" := by
  rw [IsInput]
  tauto

/-- What begins with two dashes is no input. -/
lemma not_isInput_append {words : String} (h : ['-', '-'] <+: words.toList) (value : String) :
    ¬ IsInput (words ++ value) := by
  obtain ⟨rest, hrest⟩ := h
  rw [not_isInput_iff, ne_eq, ← String.toList_inj, String.toList_append, ← hrest]
  simp

lemma ofArgument_input (h : IsInput argument) :
    Switch.ofArgument argument = .ok (.input (Bytes.ofString argument)) := by
  rw [ofArgument_of_not, if_neg (mt not_isInput_iff.2 (not_not.2 h))]
  · intro switch hword
    have hall : ∀ word ∈ switch.spellings, ¬ IsInput word := by
      cases switch <;> simp [Switch.spellings, IsInput]
    exact hall argument hword h
  · rintro option hoption value rfl
    have hall : ∀ option ∈ valueOptions, ['-', '-'] <+: option.toList := by decide
    exact not_isInput_append (hall option hoption) value h
  · intro language spec hkinds
    cases hkinds with
    | after heq _ => exact not_isInput_append (by decide) _ (heq ▸ h)
    | before heq _ _ => exact not_isInput_append (by decide) _ (heq ▸ h)

lemma ofArgument_unknown (h : IsUnknown argument) :
    Switch.ofArgument argument = .error (.unknownOption argument) := by
  rw [ofArgument_of_not h.not_word h.not_valued h.not_kinds,
    if_pos (not_isInput_iff.1 h.not_input)]

/-! ## Values -/

lemma yesOrNo_of_mem {option : String} {on : Bool} (h : (value, on) ∈ sortValues) :
    Switch.yesOrNo option value = .ok on := by
  simp only [sortValues, List.mem_cons, Prod.mk.injEq, List.not_mem_nil, or_false] at h
  rcases h with ⟨rfl, rfl⟩ | ⟨rfl, rfl⟩ | ⟨rfl, rfl⟩ | ⟨rfl, rfl⟩ | ⟨rfl, rfl⟩ | ⟨rfl, rfl⟩ <;> rfl

lemma yesOrNo_of_forall_not_mem {option : String} (h : ∀ on, (value, on) ∉ sortValues) :
    Switch.yesOrNo option value = .error (.invalidValue option value) := by
  have hyes := h true
  have hno := h false
  simp [sortValues] at hyes hno
  simp [Switch.yesOrNo, hyes, hno]

lemma identClassOf_of_forall_ne {option : String} (h : ∀ cls : IdentClass, cls.name ≠ value) :
    Switch.identClassOf option value = .error (.invalidValue option value) := by
  have hnone : IdentClass.ofName? value = none := by
    simp [IdentClass.ofName?, h]
  rw [Switch.identClassOf, hnone]

end Forms

/-! ## The reader -/

namespace Part

variable {part : Part} {switch : Switch} {fault : UsageFault}

lemma switch_of_asks (h : part.Asks switch) : part.switch = .ok switch := by
  cases h with
  | word hword => exact ofArgument_word hword
  | target => rfl
  | output value => exact ofArgument_output value
  | sort hvalue => rw [Part.switch, ofArgument_sort, yesOrNo_of_mem hvalue]; rfl
  | ident cls =>
      rw [Part.switch, ofArgument_ident, Switch.identClassOf, IdentClass.ofName?_name]
      rfl
  | listKinds hlanguage =>
      rw [Part.switch, ofArgument_listKinds, Switch.checkLanguage, if_pos hlanguage]
      rfl
  | kinds hoption hlanguage hspec =>
      rw [Part.switch, ofArgument_kinds hoption, Switch.checkLanguage, if_pos hlanguage,
        Switch.kindSpecOf, hspec]
      rfl
  | input hinput => exact ofArgument_input hinput

lemma switch_of_refused (h : part.Refused fault) : part.switch = .error fault := by
  cases h with
  | lacking option => rfl
  | sort hvalue => rw [Part.switch, ofArgument_sort, yesOrNo_of_forall_not_mem hvalue]; rfl
  | ident hvalue => rw [Part.switch, ofArgument_ident, identClassOf_of_forall_ne hvalue]; rfl
  | listKinds hlanguage =>
      rw [Part.switch, ofArgument_listKinds, Switch.checkLanguage, hlanguage]
      rfl
  | kindsLanguage hoption hlanguage =>
      rw [Part.switch, ofArgument_kinds hoption, Switch.checkLanguage, hlanguage]
      rfl
  | kindsSpec hoption hlanguage hspec =>
      rw [Part.switch, ofArgument_kinds hoption, Switch.checkLanguage, if_pos hlanguage,
        Switch.kindSpecOf, hspec]
      rfl
  | unknown hunknown => exact ofArgument_unknown hunknown

lemma asks_or_refused_of_kinds {argument language text : String}
    (h : IsKindsOption argument language text) :
    (∃ switch, (alone argument).Asks switch) ∨ ∃ fault, (alone argument).Refused fault := by
  by_cases hlanguage : Language.elixir.isNamed language = true
  · cases hspec : KindSpec.parse text with
    | ok spec => exact .inl ⟨_, .kinds h hlanguage hspec⟩
    | error fault => exact .inr ⟨_, .kindsSpec h hlanguage hspec⟩
  · exact .inr ⟨_, .kindsLanguage h (Bool.eq_false_iff.2 hlanguage)⟩

lemma asks_or_refused_of_valued {option : String} (h : option ∈ valueOptions) (value : String) :
    (∃ switch, (alone (option ++ value)).Asks switch) ∨
      ∃ fault, (alone (option ++ value)).Refused fault := by
  simp only [valueOptions, List.mem_cons, List.not_mem_nil, or_false] at h
  rcases h with rfl | rfl | rfl | rfl
  · exact .inl ⟨_, .output value⟩
  · by_cases hvalue : ∃ on, (value, on) ∈ sortValues
    · obtain ⟨on, hon⟩ := hvalue
      exact .inl ⟨_, .sort hon⟩
    · exact .inr ⟨_, .sort (not_exists.1 hvalue)⟩
  · by_cases hvalue : ∃ cls : IdentClass, cls.name = value
    · obtain ⟨cls, rfl⟩ := hvalue
      exact .inl ⟨_, .ident cls⟩
    · exact .inr ⟨_, .ident (not_exists.1 hvalue)⟩
  · by_cases hlanguage : Language.elixir.isNamed value = true
    · exact .inl ⟨_, .listKinds hlanguage⟩
    · exact .inr ⟨_, .listKinds (Bool.eq_false_iff.2 hlanguage)⟩

/-- Every part has one of the forms. -/
lemma asks_or_refused (part : Part) :
    (∃ switch, part.Asks switch) ∨ ∃ fault, part.Refused fault := by
  cases part with
  | valued option value => exact .inl ⟨_, .target option value⟩
  | lacking option => exact .inr ⟨_, .lacking option⟩
  | alone argument =>
      by_cases hinput : IsInput argument
      · exact .inl ⟨_, .input hinput⟩
      by_cases hword : ∃ switch : Switch, argument ∈ switch.spellings
      · obtain ⟨switch, hword⟩ := hword
        exact .inl ⟨switch, .word hword⟩
      by_cases hvalued : ∃ option ∈ valueOptions, ∃ value, argument = option ++ value
      · obtain ⟨option, hoption, value, rfl⟩ := hvalued
        exact asks_or_refused_of_valued hoption value
      by_cases hkinds : ∃ language text, IsKindsOption argument language text
      · obtain ⟨language, text, hkinds⟩ := hkinds
        exact asks_or_refused_of_kinds hkinds
      push Not at hword hvalued hkinds
      exact .inr ⟨_, .unknown ⟨hinput, hword, hvalued, hkinds⟩⟩

/-- The switches that the reader finds are those that parts ask for. -/
lemma switch_eq_ok_iff : part.switch = .ok switch ↔ part.Asks switch := by
  refine ⟨fun h => ?_, switch_of_asks⟩
  obtain ⟨other, hasks⟩ | ⟨fault, hrefused⟩ := part.asks_or_refused
  · rw [switch_of_asks hasks] at h
    rwa [← Except.ok.inj h]
  · rw [switch_of_refused hrefused] at h
    cases h

/-- The faults that the reader finds are why parts are refused. -/
lemma switch_eq_error_iff : part.switch = .error fault ↔ part.Refused fault := by
  refine ⟨fun h => ?_, switch_of_refused⟩
  obtain ⟨switch, hasks⟩ | ⟨other, hrefused⟩ := part.asks_or_refused
  · rw [switch_of_asks hasks] at h
    cases h
  · rw [switch_of_refused hrefused] at h
    rwa [← Except.error.inj h]

end Part

end CommandLine

end ElixirTags
