import ElixirTags.Proofs.Program.Repeat
import ElixirTags.Proofs.Program.Stale

/-!
# Entries of other files

A merge replaces the entries of the sources that it scans and keeps everything else that is an
entry, whichever tool has written it.  What is an entry can be said of a line alone
(`Entry.IsRecord`): it is no line about the tag file itself, it has three fields at least, and the
first two are not empty.

The lines of the new tag file that are about no scanned source are such lines of the old one, as
they were, as often as they were there, and in the same order if the tag file is not sorted
(`Generation.generate_append_foreign`).
-/

namespace ElixirTags

namespace Entry

/-! ## Lines that are entries -/

/-- The line is an entry: it is not about the tag file itself, and cut at tabs it has three fields
at least, of which the first two are not empty. -/
def IsRecord (line : Bytes) : Prop :=
  ¬ Bytes.ofString "!_" <+: line ∧ 3 ≤ (line.splitOn Byte.tab).length ∧
    (line.splitOn Byte.tab)[0]? ≠ some [] ∧ (line.splitOn Byte.tab)[1]? ≠ some []

instance : DecidablePred IsRecord := fun _ => inferInstanceAs (Decidable (_ ∧ _ ∧ _ ∧ _))

/-- The lines that are read as entries are those that are. -/
lemma isSome_parse?_iff {line : Bytes} : (parse? line).isSome = true ↔ IsRecord line := by
  have hheader : isHeader line = true ↔ Bytes.ofString "!_" <+: line := isHeader_iff
  rw [parse?, IsRecord, ← hheader]
  split
  · next h => simp [h]
  · next h =>
    split
    · next name file address more hsplit => simp [h, hsplit, or_iff_not_imp_left]
    · next hshort =>
      rcases hfields : line.splitOn Byte.tab with _ | ⟨a, _ | ⟨b, _ | ⟨c, more⟩⟩⟩
      · simp
      · simp
      · simp
      · exact absurd hfields (hshort a b c more)

/-- The line is about none of the sources: its second field is the path of none, as it is shown. -/
def IsForeign (sources : List Path) (line : Bytes) : Prop :=
  ∀ p ∈ sources, (line.splitOn Byte.tab)[1]? ≠ some (Utf8.repair p)

instance (sources : List Path) : DecidablePred (IsForeign sources) := fun _ =>
  List.decidableBAll _ sources

lemma isForeign_iff {sources : List Path} {line file : Bytes} (h : fileField? line = some file) :
    IsForeign sources line ↔ file ∉ sources.map Utf8.repair := by
  rw [fileField?] at h
  simp only [IsForeign, h, ne_eq, Option.some.injEq, List.mem_map, not_exists, not_and, eq_comm]

end Entry

namespace TagFile

/-! ## What is kept -/

/-- The lines of the entries of an existing tag file. -/
lemma map_text_existingEntries (text : Bytes) :
    (existingEntries text).map Entry.text = (Text.recordLines text).filter Entry.IsRecord := by
  rw [existingEntries, List.map_filterMap, ← List.filterMap_eq_filter]
  apply List.filterMap_congr
  intro line _
  cases h : Entry.parse? line with
  | none =>
      have hnot : ¬ Entry.IsRecord line := by simp [← Entry.isSome_parse?_iff, h]
      simp [Option.guard, hnot]
  | some e =>
      have hrecord : Entry.IsRecord line := by simp [← Entry.isSome_parse?_iff, h]
      simp [Option.guard, hrecord, (Entry.text_of_parse? h).1]

/-- Of lines that name the files of their entries, those about other files are the lines of the
entries of other files. -/
lemma filter_isForeign_map_text {entries : List Entry}
    (h : ∀ e ∈ entries, Entry.fileField? e.text = some e.file) (sources : List Path) :
    (entries.map Entry.text).filter (Entry.IsForeign sources) =
      (entries.filter (·.file ∉ sources.map Utf8.repair)).map Entry.text := by
  rw [List.filter_map]
  congr 1
  apply List.filter_congr
  intro e he
  exact decide_eq_decide.2 (Entry.isForeign_iff (h e he))

/-- The lines that are kept of an existing tag file. -/
lemma map_text_keptEntries (text : Bytes) (sources : List Path) :
    (keptEntries (some text) (sources.map Utf8.repair)).map Entry.text =
      (Text.recordLines text).filter fun line =>
        Entry.IsRecord line ∧ Entry.IsForeign sources line := by
  rw [keptEntries_some, ← filter_isForeign_map_text fun e he => (mem_existingEntries he).2,
    map_text_existingEntries, List.filter_filter]
  apply List.filter_congr
  intro line _
  rw [Bool.and_comm, Bool.decide_and]

/-- Without the entries of the sources a tag file is what was kept of the old one. -/
lemma filter_file_entries_sourceTagFile (fs : FileSystem) (sorted : Bool) (config : Config)
    (text : Bytes) (sources : List Path) :
    (sourceTagFile fs sorted config (some text) sources).entries.filter
        (·.file ∉ sources.map Utf8.repair) =
      keptEntries (some text) (sources.map Utf8.repair) := by
  have hshown : (sources.map (sourceTags fs config)).map FileTags.shownPath =
      sources.map Utf8.repair := by
    rw [List.map_map]
    rfl
  rw [← hshown]
  exact filter_file_entries_ofFiles sorted text _

end TagFile

/-- **A merge keeps the entries of other files.**  After a run that merges with the tag file `text`,
the lines after the header that are about no scanned source are the lines of `text` that are entries
and about no scanned source, each as often as it was there.  If the tag file is not sorted, they are
in the same order. -/
theorem Generation.generate_append_foreign {fs : FileSystem} {o : Options}
    {stdout : StandardOutput} {target : Path} {text : Bytes}
    (htarget : o.target = .file target) (happend : o.append = true)
    (htext : fs.readText target = .ok text) {summary : Summary}
    (hresult : (generate fs o stdout).result = .ok summary) :
    ∃ sources body, Sources.find fs o.recurse o.inputs = .ok sources ∧
      (generate fs o stdout).files.read target = .ok (TagFile.header o.sort ++ body) ∧
      ((Text.lines body).filter (Entry.IsForeign sources)).Perm
        ((Text.recordLines text).filter fun line =>
          Entry.IsRecord line ∧ Entry.IsForeign sources line) ∧
      (o.sort = false →
        (Text.lines body).filter (Entry.IsForeign sources) =
          (Text.recordLines text).filter fun line =>
            Entry.IsRecord line ∧ Entry.IsForeign sources line) := by
  obtain ⟨sources, existing, hfind, -, hexisting, hstore⟩ := exists_of_generate_ok hresult
  rw [existingText_of_readText happend htarget htext] at hexisting
  cases hexisting
  rw [htarget] at hstore
  obtain ⟨made, hmade⟩ : ∃ made, sourceTagFile fs o.sort o.scan (some text) sources = made :=
    ⟨_, rfl⟩
  have hentries : ∀ e ∈ made.ordered, Byte.newline ∉ e.text ∧
      Entry.fileField? e.text = some e.file := by
    intro e he
    rw [made.ordered_perm.mem_iff, ← hmade] at he
    exact line_of_mem_sourceTagFile he
  obtain ⟨body, hrender, hlines⟩ := TagFile.render_eq_header_append (t := made)
    fun e he => (hentries e (made.ordered_perm.mem_iff.2 he)).1
  have hsorted : made.sorted = o.sort := by
    rw [← hmade, sorted_sourceTagFile]
  have hforeign := TagFile.filter_isForeign_map_text (fun e he => (hentries e he).2) sources
  rw [← hlines] at hforeign
  have hkept := TagFile.filter_file_entries_sourceTagFile fs o.sort o.scan text sources
  rw [hmade] at hkept
  refine ⟨sources, body, hfind, ?_, ?_, ?_⟩
  · rw [← hsorted, ← hrender, ← hmade]
    exact FileSystem.read_of_write (write_of_store hstore)
  · rw [hforeign, ← TagFile.map_text_keptEntries, ← hkept]
    exact (made.ordered_perm.filter _).map _
  · intro hunsorted
    rw [hforeign, ← TagFile.map_text_keptEntries, ← hkept,
      TagFile.ordered_of_not_sorted (hsorted.trans hunsorted)]

/-! ## A tag file of other tools -/

namespace Foreign

/-- A tag file with a line about itself, a line that ends in a carriage return and has a tab in its
address, lines that are no entries, a line that is there twice, an entry of a source, and a line
that does not end. -/
def text : Bytes := Bytes.ofString <|
  "!_TAG_FILE_SORTED\t1\n" ++ "z\tb.rb\t/^\tz$/;\"\tf\r\n" ++ "\n" ++ "g\tb.rb\n" ++
    "\tb.rb\t3\n" ++ "g\tb.rb\t3\n" ++ "g\tb.rb\t3\n" ++
    "f\ta.ex\t7;\"\tkind:function\n" ++ "f\tc.rb\t9"

def files : FileSystem where
  root := [(Bytes.ofString "a.ex", .file (Bytes.ofString "def f\n")),
    (Bytes.ofString "tags", .file text)]
  workingDirectory := []

def options : Options where
  inputs := [Bytes.ofString "a.ex"]
  target := .file (Bytes.ofString "tags")
  sort := false
  append := true

end Foreign

/-- Four lines are kept as they were. -/
theorem Generation.generate_append_foreign_unsorted :
    Foreign.files.readText (Bytes.ofString "tags") = .ok Foreign.text ∧
      ∃ summary body, (generate Foreign.files Foreign.options).result = .ok summary ∧
        (generate Foreign.files Foreign.options).files.read (Bytes.ofString "tags") =
          .ok (TagFile.header false ++ body) ∧
        (Text.lines body).filter (Entry.IsForeign [Bytes.ofString "a.ex"]) =
          ["z\tb.rb\t/^\tz$/;\"\tf", "g\tb.rb\t3", "g\tb.rb\t3", "f\tc.rb\t9"].map
            Bytes.ofString := by
  have htext : Foreign.files.readText (Bytes.ofString "tags") = .ok Foreign.text := by
    decide +kernel
  have hfound : Sources.find Foreign.files false [Bytes.ofString "a.ex"] =
      .ok [Bytes.ofString "a.ex"] := by decide
  have hread : ∀ p ∈ [Bytes.ofString "a.ex"], ∃ content, Foreign.files.read p = .ok content :=
    List.forall_mem_singleton.2 ⟨_, rfl⟩
  obtain ⟨summary, hresult, -⟩ := exists_generate_eq (o := Foreign.options) .takes hfound hread
    (existingText_of_readText rfl rfl htext) rfl
  obtain ⟨sources, body, hfind, htags, -, hlines⟩ :=
    generate_append_foreign rfl rfl htext hresult
  cases hfound.symm.trans hfind
  refine ⟨htext, summary, body, hresult, htags, ?_⟩
  rw [hlines rfl]
  decide +kernel

end ElixirTags
