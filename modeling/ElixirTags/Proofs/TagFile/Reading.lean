import ElixirTags.Proofs.Scan.Words
import ElixirTags.Proofs.Text.Lines
import ElixirTags.Proofs.Text.Repair
import ElixirTags.TagFile.Basic

/-!
# Reading a tag file back

A tag file that is merged with new entries is read again, line by line.  The line of a tag is read
as the entry of the tag, with one exception: a name may begin as the lines about the tag file itself
do, and then its line is taken for one of these (`Entry.parse?_text`).  So of a tag file that is
made of tags, all entries come back but those with such a name (`TagFile.existingEntries_render`).

The entries that are made of tags are those with `Entry.FromTag`.  Their lines hold no line breaks
and, apart from the path, nothing outside ASCII.
-/

namespace ElixirTags

/-! ## Lines and fields -/

lemma Byte.lt_of_isDigit {b : UInt8} (h : Byte.isDigit b = true) : b < 0x80 := by
  have hnine : b ≤ 0x39 := by
    simp only [isDigit, Bool.and_eq_true, decide_eq_true_eq] at h
    exact h.2
  exact UInt8.lt_of_le_of_lt hnine (by decide)

/-- The text can stand between tabs on a line. -/
def Text.IsField (text : Bytes) : Prop :=
  ∀ b ∈ text, b ≠ Byte.tab ∧ b ≠ Byte.newline ∧ b ≠ Byte.carriageReturn

instance (text : Bytes) : Decidable (Text.IsField text) :=
  List.decidableBAll _ text

namespace Text

lemma of_mem_intercalate {sep : Bytes} {fields : List Bytes} {b : UInt8}
    (h : b ∈ sep.intercalate fields) : b ∈ sep ∨ ∃ field ∈ fields, b ∈ field := by
  induction fields with
  | nil => cases h
  | cons field rest ih =>
      by_cases hrest : rest = []
      · rw [hrest, List.intercalate_singleton] at h
        exact .inr ⟨field, List.mem_cons_self, h⟩
      · rw [List.intercalate_cons_of_ne_nil hrest, List.mem_append, List.mem_append] at h
        rcases h with (h | h) | h
        · exact .inr ⟨field, List.mem_cons_self, h⟩
        · exact .inl h
        · rcases ih h with hsep | ⟨other, hother, hb⟩
          · exact .inl hsep
          · exact .inr ⟨other, List.mem_cons_of_mem _ hother, hb⟩

/-- Whatever class they belong to, the bytes of identifiers are neither tabs nor line breaks. -/
lemma isField_of_contains {text : Bytes}
    (h : ∀ b ∈ text, ∃ cls : IdentClass, cls.contains b = true) : IsField text := by
  intro b hb
  obtain ⟨cls, hcls⟩ := h b hb
  have hblank := IdentClass.not_isBlank_of_contains hcls
  refine ⟨?_, ?_, ?_⟩
  all_goals
    rintro rfl
    revert hblank
    decide

lemma isField_of_isWord {cls : IdentClass} {word : Bytes} (h : cls.IsWord word) : IsField word :=
  isField_of_contains fun b hb => ⟨cls, h.2 b hb⟩

lemma isField_append {a b : Bytes} (ha : IsField a) (hb : IsField b) : IsField (a ++ b) := by
  intro c hc
  rcases List.mem_append.1 hc with h | h
  · exact ha c h
  · exact hb c h

lemma isField_digits (n : LineNumber) : IsField (Decimal.digits n) := by
  intro b hb
  have hdigit := Decimal.isDigit_of_mem_digits hb
  refine ⟨?_, ?_, ?_⟩
  all_goals
    rintro rfl
    revert hdigit
    decide

end Text

/-- The texts of the tag can be fields of a line. -/
structure Tag.HasFields (tag : Tag) : Prop where
  name : Text.IsField tag.name
  owner : ∀ owner, tag.owner = some owner → Text.IsField owner

lemma Tag.WellFormed.hasFields {cls : IdentClass} {tag : Tag} (h : tag.WellFormed cls) :
    tag.HasFields where
  name := Text.isField_of_isWord h.name
  owner owner howner := Text.isField_of_isWord (h.owner owner howner)

namespace Entry

lemma isField_kindField (k : Kind) : Text.IsField (kindField k) := by
  cases k <;> decide

lemma isField_fieldsOfTag {file : Bytes} {tag : Tag} (hfile : Text.IsField file)
    (htag : tag.HasFields) : ∀ field ∈ fieldsOfTag file tag, Text.IsField field := by
  intro field hfield
  simp only [fieldsOfTag, List.cons_append, List.nil_append, List.mem_cons,
    Option.mem_toList] at hfield
  rcases hfield with rfl | rfl | rfl | rfl | hscope
  · exact htag.name
  · exact hfile
  · exact Text.isField_append (Text.isField_digits _) (by decide)
  · exact isField_kindField _
  · obtain ⟨owner, howner, rfl⟩ := Option.map_eq_some_iff.1 hscope
    exact Text.isField_append (by decide) (htag.owner owner howner)

/-! ## The line of a tag -/

/-- The entry is that of a tag found in a file with a path that can be written. -/
def FromTag (e : Entry) : Prop :=
  ∃ (cls : IdentClass) (file : Bytes) (tag : Tag),
    tag.WellFormed cls ∧ Text.IsField file ∧ file ≠ [] ∧ e = ofTag file tag

/-- The line of a tag splits at its tabs into the fields of the tag. -/
lemma splitOn_tab_ofTag {file : Bytes} {tag : Tag} (hfile : Text.IsField file)
    (htag : tag.HasFields) : (ofTag file tag).text.splitOn Byte.tab = fieldsOfTag file tag := by
  refine List.splitOn_intercalate Byte.tab ?_ ?_
  · intro field hfield htab
    exact (isField_fieldsOfTag hfile htag field hfield _ htab).1 rfl
  · simp [fieldsOfTag]

lemma lineOfAddress_digits (n : LineNumber) :
    lineOfAddress (Decimal.digits n ++ addressMark) = n := by
  have hmark : dropMarks (Decimal.digits n ++ addressMark).reverse =
      (Decimal.digits n).reverse := by
    rw [List.reverse_append]
    show dropMarks (Decimal.digits n).reverse = _
    cases hrev : (Decimal.digits n).reverse with
    | nil => rfl
    | cons b rest =>
        have hb : Byte.isDigit b = true := by
          apply Decimal.isDigit_of_mem_digits (n := n)
          rw [← List.mem_reverse, hrev]
          exact List.mem_cons_self
        have hquote : b ≠ 0x22 := by
          rintro rfl
          revert hb
          decide
        unfold dropMarks
        split
        · next heq =>
          cases heq
          exact absurd rfl hquote
        · rfl
  rw [lineOfAddress, hmark, List.reverse_reverse, Decimal.parse?_digits]
  rfl

lemma isHeader_iff {text : Bytes} : isHeader text = true ↔ [0x21, 0x5F] <+: text :=
  List.isPrefixOf_iff_prefix

lemma isHeader_append_tab {name : Bytes} (hname : name ≠ []) (rest : Bytes) :
    isHeader (name ++ Byte.tab :: rest) = isHeader name := by
  rw [Bool.eq_iff_iff, isHeader_iff, isHeader_iff]
  match name, hname with
  | [a], _ => simp [List.cons_prefix_cons, Byte.tab]
  | a :: b :: more, _ => simp [List.cons_prefix_cons]

/-- After the name, the file and the address comes at least one more field. -/
lemma exists_text_ofTag (file : Bytes) (tag : Tag) :
    ∃ more, (ofTag file tag).text = tag.name ++ Byte.tab :: (file ++ Byte.tab ::
      (Decimal.digits tag.line ++ addressMark ++ Byte.tab :: more)) := by
  refine ⟨[Byte.tab].intercalate (kindField tag.kind :: tag.scope.toList), ?_⟩
  show [Byte.tab].intercalate (fieldsOfTag file tag) = _
  simp [fieldsOfTag, List.intercalate_cons_cons]

lemma isHeader_text_ofTag (file : Bytes) (tag : Tag) (hname : tag.name ≠ []) :
    isHeader (ofTag file tag).text = isHeader tag.name := by
  obtain ⟨more, htext⟩ := exists_text_ofTag file tag
  rw [htext]
  exact isHeader_append_tab hname _

/-- The line of a tag is read as its entry if the name and the file are fields that are not empty,
unless the name makes it look like a line about the tag file itself. -/
lemma parse?_text_ofTag {file : Bytes} {tag : Tag} (hname : tag.name ≠ []) (hfile : file ≠ [])
    (hnametab : Byte.tab ∉ tag.name) (hfiletab : Byte.tab ∉ file) :
    parse? (ofTag file tag).text =
      if isHeader tag.name then none else some (ofTag file tag) := by
  obtain ⟨more, htext⟩ := exists_text_ofTag file tag
  have haddress : Byte.tab ∉ Decimal.digits tag.line ++ addressMark := fun hmem =>
    (Text.isField_append (Text.isField_digits tag.line) (by decide) _ hmem).1 rfl
  have hsplit : (ofTag file tag).text.splitOn Byte.tab =
      tag.name :: file :: (Decimal.digits tag.line ++ addressMark) :: more.splitOn Byte.tab := by
    rw [htext, List.splitOn_append_cons_self_of_not_mem hnametab,
      List.splitOn_append_cons_self_of_not_mem hfiletab,
      List.splitOn_append_cons_self_of_not_mem haddress]
  rw [parse?, isHeader_text_ofTag file tag hname, hsplit]
  simp [hname, hfile, lineOfAddress_digits, ofTag]

lemma parse?_text {e : Entry} (h : e.FromTag) :
    parse? e.text = if isHeader e.name then none else some e := by
  obtain ⟨cls, file, tag, htag, hfield, hfile, rfl⟩ := h
  exact parse?_text_ofTag htag.name.1 hfile (fun hmem => (htag.hasFields.name _ hmem).1 rfl)
    fun hmem => (hfield _ hmem).1 rfl

/-- The file that a line of a tag file names. -/
def fileField? (line : Bytes) : Option Bytes := (line.splitOn Byte.tab)[1]?

lemma fileField?_ofTag {file : Bytes} {tag : Tag} (hfile : Text.IsField file)
    (htag : tag.HasFields) : fileField? (ofTag file tag).text = some file := by
  rw [fileField?, splitOn_tab_ofTag hfile htag]
  rfl

lemma fileField?_text {e : Entry} (h : e.FromTag) : fileField? e.text = some e.file := by
  obtain ⟨cls, file, tag, htag, hfield, -, rfl⟩ := h
  exact fileField?_ofTag hfield htag.hasFields

/-- An entry that has been read keeps its line. -/
lemma text_of_parse? {line : Bytes} {e : Entry} (h : parse? line = some e) :
    e.text = line ∧ fileField? line = some e.file := by
  rw [parse?] at h
  split at h
  · cases h
  · split at h
    · next name file address more hsplit =>
      split at h
      · cases h
      · cases h
        exact ⟨rfl, by rw [fileField?, hsplit]; rfl⟩
    · cases h

/-- A line that is read is not about the tag file itself, and its name and its file are fields that
are not empty. -/
lemma fields_of_parse? {line : Bytes} {e : Entry} (h : parse? line = some e) :
    isHeader line = false ∧ e.name ≠ [] ∧ e.file ≠ [] ∧ Byte.tab ∉ e.name ∧ Byte.tab ∉ e.file := by
  rw [parse?] at h
  split at h
  · cases h
  · next hheader =>
    split at h
    · next name file address more hsplit =>
      have hfield : ∀ field ∈ [name, file], Byte.tab ∉ field := by
        intro field hmem
        have hmem' : field ∈ line.splitOn Byte.tab := by
          rw [hsplit]
          exact List.mem_append_left (address :: more) hmem
        exact Text.not_mem_of_mem_splitOn hmem'
      split at h
      · cases h
      · next hempty =>
        cases h
        simp only [Bool.or_eq_true, decide_eq_true_eq, not_or] at hempty
        exact ⟨Bool.eq_false_iff.2 hheader, hempty.1, hempty.2, hfield _ (by simp),
          hfield _ (by simp)⟩
    · cases h

/-- **Which tags can be read back.**  The line of a tag is read as the entry that was written
exactly if the name and the file are not empty, neither holds a tab, and the name does not begin as
the lines about the tag file itself do.  Nothing is asked of the kind, the line and the owner. -/
theorem parse?_ofTag_eq_some_iff (file : Bytes) (tag : Tag) :
    parse? (ofTag file tag).text = some (ofTag file tag) ↔
      tag.name ≠ [] ∧ file ≠ [] ∧ Byte.tab ∉ tag.name ∧ Byte.tab ∉ file ∧
        ¬ Bytes.ofString "!_" <+: tag.name := by
  have hmark : isHeader tag.name = true ↔ Bytes.ofString "!_" <+: tag.name :=
    List.isPrefixOf_iff_prefix
  constructor
  · intro h
    obtain ⟨hheader, hname, hfile, hnametab, hfiletab⟩ := fields_of_parse? h
    rw [isHeader_text_ofTag file tag hname] at hheader
    refine ⟨hname, hfile, hnametab, hfiletab, fun hprefix => ?_⟩
    rw [hmark.2 hprefix] at hheader
    cases hheader
  · rintro ⟨hname, hfile, hnametab, hfiletab, hprefix⟩
    rw [parse?_text_ofTag hname hfile hnametab hfiletab, if_neg (mt hmark.1 hprefix)]

/-- The line of a tag holds no line breaks. -/
lemma mem_text_ofTag {file : Bytes} {tag : Tag} (hfile : Text.IsField file) (htag : tag.HasFields)
    {b : UInt8} (hb : b ∈ (ofTag file tag).text) : b ≠ Byte.newline ∧ b ≠ Byte.carriageReturn := by
  rcases Text.of_mem_intercalate hb with htab | ⟨field, hmem, hb⟩
  · rw [List.mem_singleton.1 htab]
    decide
  · exact (isField_fieldsOfTag hfile htag field hmem b hb).2

lemma mem_text {e : Entry} (h : e.FromTag) {b : UInt8} (hb : b ∈ e.text) :
    b ≠ Byte.newline ∧ b ≠ Byte.carriageReturn := by
  obtain ⟨cls, file, tag, htag, hfield, -, rfl⟩ := h
  exact mem_text_ofTag hfield htag.hasFields hb

lemma newline_not_mem_text {e : Entry} (h : e.FromTag) : Byte.newline ∉ e.text :=
  fun hmem => (mem_text h hmem).1 rfl

lemma dropReturn_text {e : Entry} (h : e.FromTag) : Text.dropReturn e.text = e.text :=
  Text.dropReturn_of_ne fun hlast => (mem_text h (List.mem_of_getLast? hlast)).2 rfl

/-- The line of a tag is UTF-8 if the path is. -/
lemma valid_text {e : Entry} (h : e.FromTag) (hvalid : Utf8.Valid e.file) : Utf8.Valid e.text := by
  obtain ⟨cls, file, tag, htag, -, -, rfl⟩ := h
  refine Utf8.valid_intercalate (by decide) ?_
  intro field hfield
  simp only [fieldsOfTag, List.cons_append, List.nil_append, List.mem_cons,
    Option.mem_toList] at hfield
  rcases hfield with rfl | rfl | rfl | rfl | hscope
  · exact Utf8.valid_of_ascii fun b hb => IdentClass.lt_of_contains (htag.name.2 b hb)
  · exact hvalid
  · refine Utf8.valid_append (Utf8.valid_of_ascii fun b hb => ?_) (by decide)
    exact Byte.lt_of_isDigit (Decimal.isDigit_of_mem_digits hb)
  · cases tag.kind <;> decide
  · obtain ⟨owner, howner, rfl⟩ := Option.map_eq_some_iff.1 hscope
    refine Utf8.valid_append (by decide) (Utf8.valid_of_ascii fun b hb => ?_)
    exact IdentClass.lt_of_contains ((htag.owner owner howner).2 b hb)

end Entry

/-! ## The lines of a tag file -/

lemma FileTags.isWritable_iff {f : FileTags} : f.isWritable = true ↔ Text.IsField f.shownPath := by
  simp [isWritable, Text.IsField, and_assoc]

namespace TagFile

lemma foldl_add (files : List FileTags) (t : TagFile) :
    files.foldl add t = { t with entries := t.entries ++ files.flatMap FileTags.entries } := by
  induction files generalizing t with
  | nil => simp
  | cons f files ih => rw [List.foldl_cons, ih, add, List.flatMap_cons, List.append_assoc]

/-- The header is four lines, all of them about the tag file itself. -/
lemma header_spec (sorted : Bool) :
    (Text.endedLines (header sorted)).length = 4 ∧
      (∀ line ∈ Text.endedLines (header sorted),
        Entry.isHeader line = true ∧ Text.dropReturn line = line) ∧
      Text.unended (header sorted) = [] ∧ Utf8.Valid (header sorted) := by
  simp only [header, Bytes.ofString_append, programName, programVersion]
  simp only [Bytes.ofString, String.reduceToList]
  cases sorted <;> decide +kernel

lemma endedLines_render {t : TagFile} (h : ∀ e ∈ t.entries, Byte.newline ∉ e.text) :
    Text.endedLines t.render = Text.endedLines (header t.sorted) ++ t.ordered.map Entry.text ∧
      Text.unended t.render = [] := by
  have htexts : ∀ l ∈ t.ordered.map Entry.text, Byte.newline ∉ l := by
    intro l hl
    obtain ⟨e, he, rfl⟩ := List.mem_map.1 hl
    exact h e (t.ordered_perm.mem_iff.1 he)
  have hrender : t.render =
      header t.sorted ++ (t.ordered.map Entry.text).flatMap (· ++ [Byte.newline]) := by
    rw [render, List.flatMap_map]
  rw [hrender]
  exact Text.lines_append_flatMap_newline (header_spec t.sorted).2.2.1 htexts

/-- An entry of an existing tag file is what its own line says. -/
lemma parse?_of_mem_existingEntries {text : Bytes} {e : Entry} (h : e ∈ existingEntries text) :
    e.text ∈ Text.recordLines text ∧ Entry.parse? e.text = some e := by
  obtain ⟨line, hline, he⟩ := List.mem_filterMap.1 h
  rw [(Entry.text_of_parse? he).1]
  exact ⟨hline, he⟩

lemma mem_existingEntries {text : Bytes} {e : Entry} (h : e ∈ existingEntries text) :
    Byte.newline ∉ e.text ∧ Entry.fileField? e.text = some e.file := by
  obtain ⟨hline, he⟩ := parse?_of_mem_existingEntries h
  exact ⟨Text.not_mem_of_mem_recordLines hline, (Entry.text_of_parse? he).2⟩

/-- The entries of a tag file are read back line by line, and its header is passed over. -/
lemma existingEntries_render_eq_filterMap {t : TagFile}
    (hnewline : ∀ e ∈ t.entries, Byte.newline ∉ e.text)
    (hreturn : ∀ e ∈ t.entries, Text.dropReturn e.text = e.text) :
    existingEntries t.render = t.ordered.filterMap fun e => Entry.parse? e.text := by
  obtain ⟨hended, hunended⟩ := endedLines_render hnewline
  have hheader : ((Text.endedLines (header t.sorted)).map Text.dropReturn).filterMap
      Entry.parse? = [] := by
    rw [List.filterMap_map, List.filterMap_eq_nil_iff]
    intro line hline
    obtain ⟨hmark, hline⟩ := (header_spec t.sorted).2.1 line hline
    show Entry.parse? (Text.dropReturn line) = none
    rw [hline, Entry.parse?, if_pos hmark]
  rw [existingEntries, Text.recordLines, hended, Text.unendedLine, if_pos hunended,
    List.append_nil, List.map_append, List.filterMap_append, hheader, List.nil_append,
    List.map_map, List.filterMap_map]
  apply List.filterMap_congr
  intro e he
  show Entry.parse? (Text.dropReturn e.text) = _
  rw [hreturn e (t.ordered_perm.mem_iff.1 he)]

/-- Of a tag file that is made of tags all entries are read back but those whose names begin as the
lines about the tag file itself. -/
lemma existingEntries_render {t : TagFile} (h : ∀ e ∈ t.entries, e.FromTag) :
    existingEntries t.render = t.ordered.filter fun e => !Entry.isHeader e.name := by
  rw [existingEntries_render_eq_filterMap (fun e he => Entry.newline_not_mem_text (h e he))
    (fun e he => Entry.dropReturn_text (h e he)), ← List.filterMap_eq_filter]
  apply List.filterMap_congr
  intro e he
  rw [Entry.parse?_text (h e (t.ordered_perm.mem_iff.1 he))]
  cases hname : Entry.isHeader e.name <;> simp [Option.guard, hname]

/-- A tag file that is made of tags of files with valid paths is valid. -/
lemma valid_render {t : TagFile} (h : ∀ e ∈ t.entries, e.FromTag)
    (hvalid : ∀ e ∈ t.entries, Utf8.Valid e.file) : Utf8.Valid t.render := by
  refine Utf8.valid_append (header_spec t.sorted).2.2.2 (Utf8.valid_flatMap fun e he => ?_)
  have hmem := t.ordered_perm.mem_iff.1 he
  exact Utf8.valid_append (Entry.valid_text (h e hmem) (hvalid e hmem)) (by decide)

end TagFile

end ElixirTags
