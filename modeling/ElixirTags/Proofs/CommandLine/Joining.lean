import ElixirTags.Proofs.CommandLine.Grammar
import ElixirTags.Proofs.Kind.Mentions

/-!
# Kind specs in one text or in two

The reader of a kind spec carries two things along, the name it is inside of and the mode.  A spec
that is accepted does not end inside a name, so the tokens of a longer text that begins with it are
its own and then those of the rest (`KindSpec.parse_append`).  If the rest begins with a sign, the
mode is set anew there (`KindSpec.run_append`), and the rest by itself would edit the set as well.
So such specs may be written in one text or in two, and a command line may have them in one option
or in two (`KindSet.edit_append`).
-/

namespace ElixirTags

namespace KindSpec

/-! ## Specs one after the other -/

/-- The spec that goes on with the tokens of another one. -/
def followedBy (a b : KindSpec) : KindSpec := ⟨a.edits, a.tokens ++ b.tokens⟩

/-- The tokens set the mode before they name a kind. -/
def SetsMode (ts : List Token) : Prop := ts.head? = some .plus ∨ ts.head? = some .minus

variable {first second text : String} {a b : KindSpec} {ts : List Token}

lemma cons_eq_ok_iff {t : Except Fault Token} {us : Except Fault (List Token)} :
    cons t us = .ok ts ↔ ∃ t' us', t = .ok t' ∧ us = .ok us' ∧ ts = t' :: us' := by
  cases t <;> cases us <;> simp [cons, eq_comm]

lemma cons_ok_map (t : Token) (us : List Token) (vs : Except Fault (List Token)) :
    cons (.ok t) (vs.map (us ++ ·)) = vs.map (t :: us ++ ·) := by
  cases vs <;> rfl

/-- Reading goes on after an accepted part as at the beginning.  The induction is over the reader,
which may be inside a name, and has left it at the end of the part. -/
lemma readFrom_append {held : Option (List Char)} {part rest : List Char}
    (h : readFrom held part = .ok ts) :
    readFrom held (part ++ rest) = (readTokens rest).map (ts ++ ·) := by
  fun_induction readFrom held part generalizing ts with
  | case1 =>
      cases h
      rw [List.nil_append, ← readTokens]
      cases readTokens rest <;> rfl
  | case2 held => cases h
  | case3 part ih => rw [List.cons_append, readFrom, if_pos rfl, ih h]
  | case4 c part hbrace ih =>
      obtain ⟨t, us, ht, hus, rfl⟩ := cons_eq_ok_iff.1 h
      rw [List.cons_append, readFrom, if_neg hbrace, ih hus, ht, cons_ok_map]
  | case5 held part ih =>
      obtain ⟨t, us, ht, hus, rfl⟩ := cons_eq_ok_iff.1 h
      rw [List.cons_append, readFrom, if_pos rfl, ih hus, ht, cons_ok_map]
  | case6 held c part hbrace ih => rw [List.cons_append, readFrom, if_neg hbrace, ih h]

lemma parse_eq_ok_iff : parse text = .ok a ↔
    readTokens text.toList = .ok a.tokens ∧ isEdit text.toList = a.edits := by
  rw [parse]
  cases readTokens text.toList with
  | error fault => simp [Except.map]
  | ok ts =>
      obtain ⟨edits, tokens⟩ := a
      simp [Except.map, and_comm]

lemma isEdit_append {part : List Char} (h : part ≠ []) (rest : List Char) :
    isEdit (part ++ rest) = isEdit part := by
  obtain ⟨c, part, rfl⟩ := List.exists_cons_of_ne_nil h
  rfl

/-- A text that begins with an accepted spec is read as that spec and what follows. -/
lemma parse_append (hfirst : first ≠ "") (h : parse first = .ok a) :
    parse (first ++ second) = (parse second).map a.followedBy := by
  obtain ⟨htokens, hedits⟩ := parse_eq_ok_iff.1 h
  rw [parse, readTokens, String.toList_append, readFrom_append htokens,
    isEdit_append (by simpa using hfirst), hedits, parse]
  cases readTokens second.toList <;> rfl

/-! ## Modes -/

/-- A text that begins with a sign edits a set, and its tokens begin with the sign. -/
lemma setsMode_of_parse (hsign : text.toList.head? = some '+' ∨ text.toList.head? = some '-')
    (h : parse text = .ok a) : a.edits = true ∧ SetsMode a.tokens := by
  obtain ⟨htokens, hedits⟩ := parse_eq_ok_iff.1 h
  rw [← hedits]
  cases htext : text.toList with
  | nil => simp [htext] at hsign
  | cons c rest =>
      rw [htext, readTokens] at htokens
      rw [htext] at hsign
      obtain rfl | rfl : c = '+' ∨ c = '-' := by simpa using hsign
      · obtain ⟨t, us, ht, -, heq⟩ := cons_eq_ok_iff.1 htokens
        cases ht
        exact ⟨rfl, .inl (by rw [heq]; rfl)⟩
      · obtain ⟨t, us, ht, -, heq⟩ := cons_eq_ok_iff.1 htokens
        cases ht
        exact ⟨rfl, .inr (by rw [heq]; rfl)⟩

lemma run_of_setsMode (h : SetsMode ts) (on on' : Bool) (s : KindSet) :
    run on s ts = run on' s ts := by
  cases ts with
  | nil => simp [SetsMode] at h
  | cons t ts =>
      obtain rfl | rfl : t = .plus ∨ t = .minus := by simpa [SetsMode] using h
      · rfl
      · rfl

/-- Tokens that set the mode may be applied by themselves. -/
lemma run_append {us : List Token} (h : SetsMode us) (on : Bool) (s : KindSet) (ts : List Token) :
    run on s (ts ++ us) = run true (run on s ts) us := by
  fun_induction run on s ts with
  | case1 on s => exact run_of_setsMode h on true s
  | case2 _ _ _ ih => exact ih
  | case3 _ _ _ ih => exact ih
  | case4 _ _ _ ih => exact ih
  | case5 _ _ _ _ ih => exact ih

lemma apply_followedBy (hedits : b.edits = true) (hmode : SetsMode b.tokens) (s : KindSet) :
    (a.followedBy b).apply s = b.apply (a.apply s) := by
  rw [apply, apply, apply, followedBy, run_append hmode, hedits, if_pos rfl]

end KindSpec

namespace KindSet

open KindSpec

lemma run_edit_of_parse {text : String} {a : KindSpec} (h : parse text = .ok a) (s : KindSet) :
    (edit text).run.run s = (.ok (), a.apply s) := by
  rw [run_edit, applySpec, h]
  rfl

lemma exists_parse_of_run_edit {text : String} {s after : KindSet}
    (h : (edit text).run.run s = (.ok (), after)) : ∃ a, parse text = .ok a := by
  cases hparse : parse text with
  | ok a => exact ⟨a, rfl⟩
  | error fault =>
      rw [run_edit, applySpec, hparse] at h
      cases h

end KindSet

/-! ## Options one after the other -/

namespace Request

open KindSpec

variable {first second : String} {a b : KindSpec}

lemma apply_kinds (r : Request) (spec : KindSpec) : r.apply (.kinds spec) =
    { r with options := r.options.apply (.kinds spec) } := by
  have hkinds : (Switch.kinds spec == .listKinds) = false := beq_false_of_ne nofun
  have hmaps : (Switch.kinds spec == .listMaps) = false := beq_false_of_ne nofun
  rw [apply, hkinds, hmaps, Bool.or_false, Bool.or_false]

lemma apply_kinds_kinds (hedits : b.edits = true) (hmode : SetsMode b.tokens) (r : Request) :
    (r.apply (.kinds a)).apply (.kinds b) = r.apply (.kinds (a.followedBy b)) := by
  simp only [apply_kinds, Options.apply, apply_followedBy hedits hmode]

/-- Two specs end as one that goes on with the second, whatever is left to read. -/
lemma finish_kinds_kinds {result : Except KindSpec.Fault KindSpec}
    (h : ∀ b, result = .ok b → b.edits = true ∧ SetsMode b.tokens)
    (rest : List (Except UsageFault Switch)) (r : Request) :
    r.finish (.ok (.kinds a) :: (result.mapError .kindSpec).map .kinds :: rest) =
      r.finish (((result.map a.followedBy).mapError .kindSpec).map .kinds :: rest) := by
  cases result with
  | error fault => rfl
  | ok b =>
      obtain ⟨hedits, hmode⟩ := h b rfl
      show ((r.apply (.kinds a)).apply (.kinds b)).finish rest =
        (r.apply (.kinds (a.followedBy b))).finish rest
      rw [apply_kinds_kinds hedits hmode]

/-- What comes later may be exchanged if it has the same end from every request. -/
lemma finish_append_congr {later later' : List (Except UsageFault Switch)}
    (h : ∀ r : Request, r.finish later = r.finish later')
    (items : List (Except UsageFault Switch)) (r : Request) :
    r.finish (items ++ later) = r.finish (items ++ later') := by
  induction items generalizing r with
  | nil => exact h r
  | cons item items ih =>
      cases item with
      | error fault => rfl
      | ok switch => cases switch <;> first | rfl | exact ih _

end Request

namespace CommandLine

lemma isKindsOption_elixir (text : String) :
    IsKindsOption ("--kinds-elixir=" ++ text) "elixir" text := by
  have hargument : "--kinds-elixir=" ++ text = "--kinds-" ++ ("elixir=" ++ text) := by
    rw [← String.append_assoc]
    rfl
  refine .after hargument ((splitFirst?_toList_eq_some_iff (by decide)).1 ?_)
  rw [String.toList_append]
  rfl

lemma ofArgument_kinds_elixir (text : String) :
    Switch.ofArgument ("--kinds-elixir=" ++ text) = (Switch.kindSpecOf text).map .kinds := by
  rw [ofArgument_kinds (isKindsOption_elixir text)]
  rfl

lemma Reads.append {before after : List String} {parts later : List Part}
    (hbefore : Reads before parts) (hwhole : ∀ option, .lacking option ∉ parts)
    (hafter : Reads after later) : Reads (before ++ after) (parts ++ later) := by
  induction hbefore with
  | nil => exact hafter
  | alone hargument _ ih =>
      exact .alone hargument (ih fun option hmem => hwhole option (List.mem_cons_of_mem _ hmem))
  | valued hoption _ ih =>
      exact .valued hoption (ih fun option hmem => hwhole option (List.mem_cons_of_mem _ hmem))
  | lacking _ => exact absurd List.mem_cons_self (hwhole _)

/-- Parts that lack nothing stay what they are before other arguments. -/
lemma ofArguments_append {before : List String}
    (h : ∀ parts, Reads before parts → ∀ option, .lacking option ∉ parts) (after : List String) :
    Switch.ofArguments (before ++ after) =
      Switch.ofArguments before ++ Switch.ofArguments after := by
  obtain ⟨parts, hparts, hbefore⟩ := exists_reads before
  obtain ⟨later, hlater, hafter⟩ := exists_reads after
  rw [ofArguments_of_reads (hparts.append (h parts hparts) hlater), hbefore, hafter,
    List.map_append]

lemma ofArguments_kinds_cons (text : String) (rest : List String) :
    Switch.ofArguments (("--kinds-elixir=" ++ text) :: rest) =
      (Switch.kindSpecOf text).map .kinds :: Switch.ofArguments rest := by
  obtain ⟨parts, hparts, hrest⟩ := exists_reads rest
  have hoption : "--kinds-elixir=" ++ text ∉ targetOptions := by
    have hall : ∀ option ∈ targetOptions, '=' ∉ option.toList := by decide
    exact fun hmem => hall _ hmem (isKindsOption_elixir text).mem
  rw [ofArguments_of_reads (.alone hoption hparts), hrest, List.map_cons, Part.switch,
    ofArgument_kinds_elixir]

end CommandLine

namespace KindSet

open KindSpec CommandLine

/-- **A spec that begins with a sign may be joined to the one before it.**  After a spec that is not
empty and is accepted, it does to every set what both do one after the other, except that the set
stays where it was if there is a fault.  One option may so take the place of two wherever they
stand in a command line, the one right after the other. -/
theorem edit_append {first second : String} {s₀ s₁ : KindSet} (hfirst : first ≠ "")
    (haccepted : (edit first).run.run s₀ = (.ok (), s₁))
    (hsign : second.toList.head? = some '+' ∨ second.toList.head? = some '-') :
    (∀ s, (edit (first ++ second)).run.run s =
      match (edit first >>= fun _ => edit second).run.run s with
      | (.ok (), after) => (.ok (), after)
      | (.error fault, _) => (.error fault, s)) ∧
    ∀ before after : List String,
      (∀ parts, Reads before parts → ∀ option, .lacking option ∉ parts) →
        Command.ofArguments (before ++
          ("--kinds-elixir=" ++ first) :: ("--kinds-elixir=" ++ second) :: after) =
        Command.ofArguments (before ++ ("--kinds-elixir=" ++ (first ++ second)) :: after) := by
  obtain ⟨a, ha⟩ := exists_parse_of_run_edit haccepted
  have hjoined : parse (first ++ second) = (parse second).map a.followedBy :=
    parse_append hfirst ha
  constructor
  · intro s
    have hboth : (edit first >>= fun _ => edit second).run.run s =
        (edit second).run.run (a.apply s) := by
      rw [ExceptT.run_bind, StateT.run_bind, run_edit_of_parse ha]
      rfl
    rw [hboth, run_edit, run_edit, applySpec, applySpec, hjoined]
    cases hb : parse second with
    | error fault => rfl
    | ok b =>
        obtain ⟨hedits, hmode⟩ := setsMode_of_parse hsign hb
        simp only [Except.map, apply_followedBy hedits hmode]
  · intro before after hwhole
    rw [Command.ofArguments, Command.ofArguments, ofArguments_append hwhole,
      ofArguments_append hwhole]
    refine Request.finish_append_congr (fun r => ?_) _ _
    rw [ofArguments_kinds_cons, ofArguments_kinds_cons, ofArguments_kinds_cons, Switch.kindSpecOf,
      Switch.kindSpecOf, Switch.kindSpecOf, ha, hjoined]
    exact Request.finish_kinds_kinds (fun b => setsMode_of_parse hsign) _ r

/-- The second spec takes back a part of the first, and an argument that looks like a kinds option
is the value of the one before it. -/
theorem edit_append_taken_back :
    "fm" ≠ "" ∧ (edit "fm").run.run ∅ = (.ok (), single .functionDef ∪ single .moduleDef) ∧
      "-{function}+p".toList.head? = some '-' ∧
      (edit "fm-{function}+p").run.run full =
        (.ok (), single .moduleDef ∪ single .protocolDef) ∧
      Command.ofArguments ["-o", "--kinds-elixir=f", "--kinds-elixir=fm",
          "--kinds-elixir=-{function}+p", "lib"] =
        Command.ofArguments
          ["-o", "--kinds-elixir=f", "--kinds-elixir=fm-{function}+p", "lib"] := by
  have haccepted : (edit "fm").run.run ∅ = (.ok (), single .functionDef ∪ single .moduleDef) := by
    rfl
  have hsign : "-{function}+p".toList.head? = some '-' := by decide
  have hwhole : ∀ parts, Reads ["-o", "--kinds-elixir=f"] parts →
      ∀ option, .lacking option ∉ parts := by
    intro parts hparts option
    rw [Reads.unique (.valued (by decide) .nil) hparts]
    simp
  obtain ⟨hedit, hjoin⟩ := edit_append (by decide) haccepted (.inr hsign)
  refine ⟨by decide, haccepted, hsign, (hedit full).trans ?_, hjoin _ ["lib"] hwhole⟩
  rfl

end KindSet

end ElixirTags
