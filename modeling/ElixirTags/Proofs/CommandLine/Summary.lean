import ElixirTags.Proofs.CommandLine.Grammar
import Mathlib.Data.List.DropRight
import Mathlib.Data.List.Forall2

/-!
# What a command line comes to

The reading of a command line ends at the first part that stops it, and the answer is that part's
alone.  If no part stops it, the command follows from the switches that the parts ask for
(`Command.ofArguments_first_stop`).

The options of such a command are what the switches say as a whole, `Options.SaidBy`: flags are on
if they are given, of the values of one option the last counts, and kind specs are applied one
after the other (`Command.options_saidBy`).  One more switch changes the options as it changes what
is said (`Options.SaidBy.concat`), and the reading does this for one switch after the other.
-/

namespace ElixirTags

/-! ## What switches say -/

namespace Switch

/-- The target that the switch sets. -/
def setsTarget? : Switch → Option Target
  | target t => some t
  | _ => none

/-- Whether the switch asks for sorted tags, if it says so. -/
def setsSort? : Switch → Option Bool
  | sort on => some on
  | _ => none

/-- The class of identifiers that the switch sets. -/
def setsIdentClass? : Switch → Option IdentClass
  | identClass cls => some cls
  | _ => none

/-- The kind spec of the switch. -/
def kindSpec? : Switch → Option KindSpec
  | kinds spec => some spec
  | _ => none

/-- The input that the switch names. -/
def namesInput? : Switch → Option Path
  | input path => some path
  | _ => none

end Switch

/-- The options are what the switches say as a whole, in whatever order they stand.  Only the
classes of identifiers before the last wish for the older reading are forgotten. -/
structure Options.SaidBy (switches : List Switch) (o : Options) : Prop where
  protocols : o.scan.protocols = true ↔ .legacy ∉ switches
  scopes : o.scan.scopes = true ↔ .legacy ∉ switches ∧ .unscoped ∉ switches
  lettersOnly : o.scan.lettersOnly = true ↔ .legacy ∉ switches ∧ .allNames ∉ switches
  identClass : o.scan.identClass =
    ((switches.rtakeWhile (· ≠ .legacy)).filterMap Switch.setsIdentClass?).getLast?.getD
      (if .legacy ∈ switches then .dotted else .punctuated)
  kinds : o.scan.kinds =
    (switches.filterMap Switch.kindSpec?).foldl (fun s spec => spec.apply s) .standard
  sort : o.sort = (switches.filterMap Switch.setsSort?).getLast?.getD true
  target : o.target = (switches.filterMap Switch.setsTarget?).getLast?.getD
    (.file (Bytes.ofString "tags"))
  recurse : o.recurse = true ↔ .recurse ∈ switches
  append : o.append = true ↔ .append ∈ switches
  verbose : o.verbose = true ↔ .verbose ∈ switches
  inputs : o.inputs = switches.filterMap Switch.namesInput?

namespace Options.SaidBy

variable {switches : List Switch} {o : Options}

lemma nil : SaidBy [] {} := by
  constructor <;> simp [Config.standard]

lemma rtakeWhile_concat (switches : List Switch) (switch : Switch) :
    (switches ++ [switch]).rtakeWhile (· ≠ .legacy) =
      if switch = .legacy then [] else switches.rtakeWhile (· ≠ .legacy) ++ [switch] := by
  rw [List.rtakeWhile_concat]
  by_cases h : switch = .legacy <;> simp [h]

/-- One more switch changes the options as it changes what is said. -/
lemma concat (h : SaidBy switches o) (switch : Switch) :
    SaidBy (switches ++ [switch]) (o.apply switch) where
  protocols := by cases switch <;> simp [Options.apply, Config.legacy, h.protocols]
  scopes := by cases switch <;> simp [Options.apply, Config.legacy, h.scopes]
  lettersOnly := by cases switch <;> simp [Options.apply, Config.legacy, h.lettersOnly]
  identClass := by
    rw [rtakeWhile_concat]
    cases switch <;> simp [Options.apply, Config.legacy, h.identClass, Switch.setsIdentClass?]
  kinds := by
    cases switch <;> simp [Options.apply, h.kinds, List.filterMap_cons, Switch.kindSpec?]
  sort := by cases switch <;> simp [Options.apply, h.sort, Switch.setsSort?]
  target := by cases switch <;> simp [Options.apply, h.target, Switch.setsTarget?]
  recurse := by cases switch <;> simp [Options.apply, h.recurse]
  append := by cases switch <;> simp [Options.apply, h.append]
  verbose := by cases switch <;> simp [Options.apply, h.verbose]
  inputs := by cases switch <;> simp [Options.apply, h.inputs, Switch.namesInput?]

end Options.SaidBy

lemma Options.SaidBy.inputs_eq_nil_iff {switches : List Switch} {o : Options}
    (h : o.SaidBy switches) : o.inputs = [] ↔ ∀ path, .input path ∉ switches := by
  rw [h.inputs, List.filterMap_eq_nil_iff]
  constructor
  · exact fun hnone path hmem => nomatch hnone _ hmem
  · intro hnot switch hmem
    cases switch <;> first | rfl | exact absurd hmem (hnot _)

/-- The request is what the switches say as a whole. -/
structure Request.SaidBy (switches : List Switch) (r : Request) : Prop where
  options : r.options.SaidBy switches
  listKinds : r.listKinds = true ↔ .listKinds ∈ switches
  listMaps : r.listMaps = true ↔ .listMaps ∈ switches

lemma Request.SaidBy.foldl_apply (switches : List Switch) :
    SaidBy switches (switches.foldl apply {}) := by
  induction switches using List.reverseRecOn with
  | nil => exact ⟨.nil, by simp, by simp⟩
  | append_singleton switches switch ih =>
      rw [List.foldl_append]
      refine ⟨ih.options.concat switch, ?_, ?_⟩
      · simp [Request.apply, ih.listKinds, eq_comm (b := switch)]
      · simp [Request.apply, ih.listMaps, eq_comm (b := switch)]

/-! ## Reading on -/

namespace Request

/-- The answer to a part that ends the reading, as the reader sees it. -/
def stop? : Except UsageFault Switch → Option (Except UsageFault Command)
  | .error fault => some (.error fault)
  | .ok .help => some (.ok .help)
  | .ok .version => some (.ok .version)
  | .ok _ => none

variable {r : Request} {item : Except UsageFault Switch} {rest : List (Except UsageFault Switch)}
  {switch : Switch} {switches : List Switch} {result : Except UsageFault Command}

lemma finish_cons_of_stop (h : stop? item = some result) : r.finish (item :: rest) = result := by
  unfold stop? at h
  split at h <;> simp_all [finish]

lemma finish_cons_of_ok (h : stop? (.ok switch) = none) :
    r.finish (.ok switch :: rest) = (r.apply switch).finish rest := by
  cases switch <;> first | rfl | cases h

/-- Switches that do not end the reading are applied one after the other. -/
lemma finish_map_ok_append (h : ∀ switch ∈ switches, stop? (.ok switch) = none) :
    r.finish (switches.map .ok ++ rest) = (switches.foldl apply r).finish rest := by
  induction switches generalizing r with
  | nil => rfl
  | cons switch switches ih =>
      obtain ⟨hswitch, hrest⟩ := List.forall_mem_cons.1 h
      rw [List.map_cons, List.cons_append, finish_cons_of_ok hswitch, ih hrest, List.foldl_cons]

end Request

namespace CommandLine

variable {part : Part} {parts before after : List Part} {switches : List Switch}
  {arguments : List String} {result : Except UsageFault Command}

/-- The part ends the reading with an answer. -/
inductive Part.Stops (part : Part) : Except UsageFault Command → Prop
  | help : part.Asks .help → Stops part (.ok .help)
  | version : part.Asks .version → Stops part (.ok .version)
  | refused {fault : UsageFault} : part.Refused fault → Stops part (.error fault)

lemma Part.stop?_switch_eq_some_iff :
    Request.stop? part.switch = some result ↔ part.Stops result := by
  constructor
  · intro h
    unfold Request.stop? at h
    split at h
    · next fault hswitch => exact Option.some.inj h ▸ .refused (switch_eq_error_iff.1 hswitch)
    · next hswitch => exact Option.some.inj h ▸ .help (switch_eq_ok_iff.1 hswitch)
    · next hswitch => exact Option.some.inj h ▸ .version (switch_eq_ok_iff.1 hswitch)
    · cases h
  · intro h
    cases h with
    | help hasks => rw [switch_of_asks hasks]; rfl
    | version hasks => rw [switch_of_asks hasks]; rfl
    | refused hrefused => rw [switch_of_refused hrefused]; rfl

lemma forall₂_asks_iff :
    List.Forall₂ Part.Asks parts switches ↔ parts.map Part.switch = switches.map .ok := by
  rw [← List.forall₂_eq_eq_eq, List.forall₂_map_left_iff, List.forall₂_map_right_iff]
  simp only [Part.switch_eq_ok_iff]

/-- Parts that do not end the reading ask for switches that do not. -/
lemma exists_switches (h : ∀ part ∈ parts, ∀ result, ¬ part.Stops result) :
    ∃ switches : List Switch, parts.map Part.switch = switches.map .ok ∧
      ∀ switch ∈ switches, Request.stop? (.ok switch) = none := by
  induction parts with
  | nil => exact ⟨[], rfl, by simp⟩
  | cons part parts ih =>
      obtain ⟨hpart, hparts⟩ := List.forall_mem_cons.1 h
      obtain ⟨switches, hswitches, hgo⟩ := ih hparts
      obtain ⟨switch, hasks⟩ | ⟨fault, hrefused⟩ := part.asks_or_refused
      · have hswitch := Part.switch_of_asks hasks
        refine ⟨switch :: switches, by simp [hswitch, hswitches],
          List.forall_mem_cons.2 ⟨?_, hgo⟩⟩
        rw [Option.eq_none_iff_forall_ne_some, ← hswitch]
        exact fun result hstop => hpart result (Part.stop?_switch_eq_some_iff.1 hstop)
      · exact absurd (.refused hrefused) (hpart _)

/-- The first part that ends the reading decides. -/
lemma ofArguments_of_stops (hreads : Reads arguments (before ++ part :: after))
    (hbefore : ∀ p ∈ before, ∀ r, ¬ p.Stops r) (hstops : part.Stops result) :
    Command.ofArguments arguments = result := by
  obtain ⟨switches, hswitches, hgo⟩ := exists_switches hbefore
  rw [Command.ofArguments, ofArguments_of_reads hreads, List.map_append, hswitches, List.map_cons,
    Request.finish_map_ok_append hgo]
  exact Request.finish_cons_of_stop (Part.stop?_switch_eq_some_iff.2 hstops)

lemma stops_or_not (parts : List Part) :
    (∀ part ∈ parts, ∀ r, ¬ part.Stops r) ∨
      ∃ before part after result, parts = before ++ part :: after ∧
        (∀ p ∈ before, ∀ r, ¬ p.Stops r) ∧ part.Stops result := by
  simp only [← Part.stop?_switch_eq_some_iff, ← Option.eq_none_iff_forall_ne_some]
  cases hstop : parts.findSome? fun part => Request.stop? part.switch with
  | none => exact .inl (List.findSome?_eq_none_iff.1 hstop)
  | some result =>
      obtain ⟨before, part, after, heq, hpart, hbefore⟩ := List.findSome?_eq_some_iff.1 hstop
      exact .inr ⟨before, part, after, result, heq, hbefore, hpart⟩

/-- If no part ends the reading, the command is that of a request that the switches say. -/
lemma exists_request (hreads : Reads arguments parts)
    (hparts : ∀ part ∈ parts, ∀ r, ¬ part.Stops r) :
    ∃ (switches : List Switch) (r : Request), parts.map Part.switch = switches.map .ok ∧
      r.SaidBy switches ∧ Command.ofArguments arguments = r.command := by
  obtain ⟨switches, hswitches, hgo⟩ := exists_switches hparts
  refine ⟨switches, _, hswitches, .foldl_apply switches, ?_⟩
  have hfinish : Request.finish {} (switches.map .ok ++ []) =
      (switches.foldl Request.apply {}).finish [] := Request.finish_map_ok_append hgo
  rw [List.append_nil] at hfinish
  rw [Command.ofArguments, ofArguments_of_reads hreads, hswitches, hfinish]
  rfl

/-- One of the parts asks for the switch. -/
def Asked (parts : List Part) (switch : Switch) : Prop := ∃ part ∈ parts, part.Asks switch

lemma asked_iff {switch : Switch} (h : parts.map Part.switch = switches.map .ok) :
    Asked parts switch ↔ switch ∈ switches := by
  have hmem : .ok switch ∈ parts.map Part.switch ↔ Asked parts switch := by
    simp only [List.mem_map, Part.switch_eq_ok_iff, Asked]
  rw [← hmem, h, List.mem_map_of_injective fun _ _ => Except.ok.inj]

end CommandLine

/-! ## The answer -/

namespace Command

open CommandLine

/-- **The first part that stops the reading decides.**  Every command line is read in one way.  The
first of its parts that asks for help or for the version or is refused gives the answer, whatever
stands before and after it.  If there is none, listings go before the making of tags, which needs an
input. -/
theorem ofArguments_first_stop (arguments : List String) :
    ∃ parts, (∀ others, Reads arguments others ↔ others = parts) ∧
      (∀ before part after result, parts = before ++ part :: after →
        (∀ p ∈ before, ∀ r, ¬ p.Stops r) → part.Stops result → ofArguments arguments = result) ∧
      ((∀ p ∈ parts, ∀ r, ¬ p.Stops r) →
        (Asked parts .listMaps → ofArguments arguments = .ok .listMaps) ∧
        (¬ Asked parts .listMaps → Asked parts .listKinds →
          ∃ o, ofArguments arguments = .ok (.listKinds o)) ∧
        (¬ Asked parts .listMaps → ¬ Asked parts .listKinds →
          (∀ path, ¬ Asked parts (.input path)) → ofArguments arguments = .error .noInputs) ∧
        (¬ Asked parts .listMaps → ¬ Asked parts .listKinds →
          (∃ path, Asked parts (.input path)) →
            ∃ o, ofArguments arguments = .ok (.generate o))) := by
  obtain ⟨parts, hreads, -⟩ := exists_reads arguments
  refine ⟨parts, fun others => ⟨hreads.unique, fun h => h ▸ hreads⟩, ?_, fun hparts => ?_⟩
  · rintro before part after result rfl hbefore hstops
    exact ofArguments_of_stops hreads hbefore hstops
  · obtain ⟨switches, r, hswitches, hsaid, hcommand⟩ := exists_request hreads hparts
    have hnil := hsaid.options.inputs_eq_nil_iff
    rw [hcommand]
    simp only [asked_iff hswitches, ← hsaid.listMaps, ← hsaid.listKinds]
    refine ⟨fun hmaps => if_pos hmaps, fun hmaps hkinds => ?_, fun hmaps hkinds hnone => ?_,
      fun hmaps hkinds ⟨path, hpath⟩ => ?_⟩
    · exact ⟨r.options, by rw [Request.command, if_neg hmaps, if_pos hkinds]⟩
    · rw [Request.command, if_neg hmaps, if_neg hkinds, if_pos (hnil.2 hnone)]
    · refine ⟨r.options, ?_⟩
      rw [Request.command, if_neg hmaps, if_neg hkinds, if_neg fun h => hnil.1 h path hpath]

/-- **The options are what the whole command line says.**  Every command line is read in one way,
and if making tags or listing kinds comes of it, its parts ask for one row of switches, which says
all of the options. -/
theorem options_saidBy {arguments : List String} {o : Options}
    (h : ofArguments arguments = .ok (.generate o) ∨ ofArguments arguments = .ok (.listKinds o)) :
    ∃ parts switches, (∀ others, Reads arguments others ↔ others = parts) ∧
      (∀ others, List.Forall₂ Part.Asks parts others ↔ others = switches) ∧ o.SaidBy switches := by
  obtain ⟨parts, hreads, -⟩ := exists_reads arguments
  rcases stops_or_not parts with hparts | ⟨before, part, after, result, rfl, hbefore, hstops⟩
  · obtain ⟨switches, r, hswitches, hsaid, hcommand⟩ := exists_request hreads hparts
    have hoptions : r.options = o := by
      rw [hcommand, Request.command] at h
      split at h
      · simp at h
      · split at h
        · simpa using h
        · split at h
          · simp at h
          · simpa using h
    refine ⟨parts, switches, fun others => ⟨hreads.unique, fun h => h ▸ hreads⟩, fun others => ?_,
      hoptions ▸ hsaid.options⟩
    rw [forall₂_asks_iff, hswitches, List.map_inj_right fun _ _ => Except.ok.inj, eq_comm]
  · rw [ofArguments_of_stops hreads hbefore hstops] at h
    cases hstops <;> simp at h

/-! ## A command line in which much is said twice -/

namespace Repetitive

/-- The word after `-o` is a value, and what the older reading changes is partly changed again. -/
def arguments : List String :=
  ["--ident=dotted", "--kinds-elixir=fm", "-o", "--sort=no", "--legacy", "--ident=punctuated",
    "-R", "--eLixir-kinds=-{module}p", "-", "--all-names", "--output=-", "lib"]

def switches : List Switch :=
  [.identClass .dotted, .kinds ⟨false, [.kind .functionDef, .kind .moduleDef]⟩,
    .target (.file (Bytes.ofString "--sort=no")), .legacy, .identClass .punctuated, .recurse,
    .kinds ⟨true, [.minus, .kind .moduleDef, .kind .protocolDef]⟩, .input (Bytes.ofString "-"),
    .allNames, .target .standardOutput, .input (Bytes.ofString "lib")]

def options : Options where
  inputs := [Bytes.ofString "-", Bytes.ofString "lib"]
  target := .standardOutput
  recurse := true
  scan := { Config.legacy with identClass := .punctuated, kinds := .single .functionDef }

end Repetitive

theorem options_saidBy_repetitive :
    ofArguments Repetitive.arguments = .ok (.generate Repetitive.options) ∧
      Repetitive.options.SaidBy Repetitive.switches := by
  have hcommand : ofArguments Repetitive.arguments = .ok (.generate Repetitive.options) := by
    decide +kernel
  have hswitches : Switch.ofArguments Repetitive.arguments = Repetitive.switches.map .ok := by
    decide +kernel
  obtain ⟨parts, switches, hreads, hasks, hsaid⟩ := options_saidBy (.inl hcommand)
  rw [ofArguments_of_reads ((hreads parts).2 rfl)] at hswitches
  have heq := (hasks _).1 (forall₂_asks_iff.2 hswitches)
  exact ⟨hcommand, heq ▸ hsaid⟩

end Command

end ElixirTags
