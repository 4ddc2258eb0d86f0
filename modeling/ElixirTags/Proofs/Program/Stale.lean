import ElixirTags.Proofs.FileSystem.Frame
import ElixirTags.Proofs.Program.Contents

/-!
# Stale entries

A run that merges drops the entries of the sources that it scans anew from the tag file that was
there.  It knows the sources by their paths as shown, while a file may stand in the old tag file
under another path that leads to it.  The entries under such a path stay, stale or not.

`Generation.generate_append_fresh_iff` says when none stays: exactly if the old tag file names every
scanned source in the spelling of the run.
-/

namespace ElixirTags

/-- The path leads to one of the sources. -/
def Sources.Names (fs : FileSystem) (sources : List Path) (path : Path) : Prop :=
  ∃ p ∈ sources, ∃ place, fs.locate p = .ok place ∧ fs.locate path = .ok place

/-- What stands after the header: the lines of the entries. -/
lemma TagFile.render_eq_header_append {t : TagFile} (h : ∀ e ∈ t.entries, Byte.newline ∉ e.text) :
    ∃ body, t.render = header t.sorted ++ body ∧ Text.lines body = t.ordered.map Entry.text := by
  refine ⟨(t.ordered.map Entry.text).flatMap (· ++ [Byte.newline]), ?_, ?_⟩
  · rw [render, List.flatMap_map]
  · apply Text.lines_flatMap_newline
    intro l hl
    obtain ⟨e, he, rfl⟩ := List.mem_map.1 hl
    exact h e (t.ordered_perm.mem_iff.1 he)

section Stale

variable {fs : FileSystem} {o : Options} {stdout : StandardOutput} {target : Path} {config : Config}
  {sources : List Path} {text : Bytes} {e : Entry}

lemma line_of_mem_sourceTagFile {sorted : Bool}
    (he : e ∈ (sourceTagFile fs sorted config (some text) sources).entries) :
    Byte.newline ∉ e.text ∧ Entry.fileField? e.text = some e.file := by
  rw [entries_sourceTagFile, List.mem_append] at he
  rcases he with hkept | hown
  · exact TagFile.mem_existingEntries (List.mem_filter.1 hkept).1
  · have htag := fromTag_of_mem_sourceEntries hown
    exact ⟨Entry.newline_not_mem_text htag, Entry.fileField?_text htag⟩

/-- The lines about the sources are those of the run, if the entries that are kept are about other
files. -/
lemma fresh_sourceTagFile_iff (names : Bytes → Prop) (sorted : Bool) :
    (∀ e ∈ (sourceTagFile fs sorted config (some text) sources).entries, names e.file →
        e.text ∈ (sourceEntries fs config sources).map Entry.text) ↔
      ∀ e ∈ TagFile.existingEntries text, names e.file → e.file ∈ sources.map Utf8.repair := by
  rw [entries_sourceTagFile]
  constructor
  · intro hfresh e he hnames
    by_contra hother
    have hkept : e ∈ keptEntries (some text) (sources.map Utf8.repair) :=
      List.mem_filter.2 ⟨he, decide_eq_true hother⟩
    obtain ⟨own, hown, htext⟩ := List.mem_map.1
      (hfresh e (List.mem_append_left _ hkept) hnames)
    -- the line of the run names the file in the spelling of the run
    have hfield := Entry.fileField?_text (fromTag_of_mem_sourceEntries hown)
    rw [htext, (TagFile.mem_existingEntries he).2, Option.some.injEq] at hfield
    apply hother
    rw [hfield]
    exact file_of_mem_sourceEntries hown
  · intro hshown e he hnames
    rcases List.mem_append.1 he with hkept | hown
    · obtain ⟨hold, hother⟩ := List.mem_filter.1 hkept
      exact absurd (hshown e hold hnames) (of_decide_eq_true hother)
    · exact List.mem_map_of_mem hown

/-- **When a merge leaves no stale entry.**  After a run that merges with the tag file `text`, every
line that names a scanned source, in whatever spelling, is a line of this run, exactly if `text`
names every scanned source as the run shows it. -/
theorem Generation.generate_append_fresh_iff (htarget : o.target = .file target)
    (happend : o.append = true) (htext : fs.readText target = .ok text) {summary : Summary}
    (hresult : (generate fs o stdout).result = .ok summary) :
    ∃ sources body, Sources.find fs o.recurse o.inputs = .ok sources ∧
      (generate fs o stdout).files.read target = .ok (TagFile.header o.sort ++ body) ∧
      (∀ p q, (generate fs o stdout).files.locate p = .ok q ↔ fs.locate p = .ok q) ∧
      ((∀ line ∈ Text.lines body, ∀ file, Entry.fileField? line = some file →
          Sources.Names fs sources file →
          line ∈ (sourceEntries fs o.scan sources).map Entry.text) ↔
        ∀ e ∈ TagFile.existingEntries text, Sources.Names fs sources e.file →
          e.file ∈ sources.map Utf8.repair) := by
  obtain ⟨sources, existing, hfind, -, hexisting, hstore⟩ := exists_of_generate_ok hresult
  rw [existingText_of_readText happend htarget htext] at hexisting
  cases hexisting
  rw [htarget] at hstore
  have hwrite := write_of_store hstore
  have hentries : ∀ e ∈ (sourceTagFile fs o.sort o.scan (some text) sources).entries,
      Byte.newline ∉ e.text ∧ Entry.fileField? e.text = some e.file :=
    fun e he => line_of_mem_sourceTagFile he
  obtain ⟨body, hrender, hlines⟩ :=
    TagFile.render_eq_header_append fun e he => (hentries e he).1
  rw [sorted_sourceTagFile] at hrender
  refine ⟨sources, body, hfind, ?_, ?_, ?_⟩
  · rw [← hrender]
    exact FileSystem.read_of_write hwrite
  · exact FileSystem.locate_iff_of_write hwrite (FileSystem.read_of_readText htext)
  · rw [← fresh_sourceTagFile_iff (Sources.Names fs sources) o.sort, hlines]
    constructor
    · intro hfresh e he hnames
      have hline := List.mem_map_of_mem (f := Entry.text) ((TagFile.ordered_perm _).mem_iff.2 he)
      exact hfresh e.text hline e.file (hentries e he).2 hnames
    · intro hfresh line hline file hfile hnames
      obtain ⟨e, he, rfl⟩ := List.mem_map.1 hline
      have he' := (TagFile.ordered_perm _).mem_iff.1 he
      rw [(hentries e he').2, Option.some.injEq] at hfile
      rw [← hfile] at hnames
      exact hfresh e he' hnames

end Stale

/-! ## A file in two spellings -/

namespace Stale

/-- The tag file that was made when the function had another name, of the file in another
spelling. -/
def text : Bytes := Bytes.ofString "old\t./a.ex\t1;\"\tkind:function\n"

def files : FileSystem where
  root := [(Bytes.ofString "a.ex", .file (Bytes.ofString "def new\n")),
    (Bytes.ofString "tags", .file text)]
  workingDirectory := []

def options : Options := { target := .file (Bytes.ofString "tags"), append := true }

def run (inputs : List String) : Generation :=
  generate files { options with inputs := inputs.map Bytes.ofString }

end Stale

/-- In the old spelling, the old entry is dropped. -/
theorem Generation.generate_append_fresh_iff_same_spelling :
    Stale.files.readText (Bytes.ofString "tags") = .ok Stale.text ∧
      (Stale.run ["./a.ex"]).result = .ok ⟨1, 1⟩ ∧
      ∃ body, (Stale.run ["./a.ex"]).files.read (Bytes.ofString "tags") =
          .ok (TagFile.header true ++ body) ∧
        ∀ line ∈ Text.lines body, ∀ file, Entry.fileField? line = some file →
          Sources.Names Stale.files [Bytes.ofString "./a.ex"] file →
          line ∈ (sourceEntries Stale.files Stale.options.scan
            [Bytes.ofString "./a.ex"]).map Entry.text := by
  have htext : Stale.files.readText (Bytes.ofString "tags") = .ok Stale.text := by decide
  have hresult : (Stale.run ["./a.ex"]).result = .ok ⟨1, 1⟩ := rfl
  have hfound : Sources.find Stale.files false [Bytes.ofString "./a.ex"] =
      .ok [Bytes.ofString "./a.ex"] := by decide
  obtain ⟨sources, body, hfind, hread, -, hfresh⟩ :=
    generate_append_fresh_iff rfl rfl htext hresult
  cases hfound.symm.trans hfind
  refine ⟨htext, hresult, body, hread, hfresh.2 ?_⟩
  have hshown : ∀ e ∈ TagFile.existingEntries Stale.text,
      e.file ∈ [Bytes.ofString "./a.ex"].map Utf8.repair := by decide
  exact fun e he _ => hshown e he

/-- In the new spelling, it stays beside the entry of the run. -/
theorem Generation.generate_append_keeps_stale :
    Stale.files.locate (Bytes.ofString "./a.ex") = Stale.files.locate (Bytes.ofString "a.ex") ∧
      (Stale.run ["a.ex"]).files.read (Bytes.ofString "tags") =
        .ok (TagFile.header true ++ Bytes.ofString "new\ta.ex\t1;\"\tkind:function\n" ++
          Stale.text) := by
  have hread : (Stale.run ["a.ex"]).files.read (Bytes.ofString "tags") =
      .ok (sourceTagFile Stale.files true .standard (some Stale.text)
        [Bytes.ofString "a.ex"]).render := rfl
  have hbody : TagFile.body (sourceTagFile Stale.files true .standard (some Stale.text)
      [Bytes.ofString "a.ex"]).ordered =
        Bytes.ofString "new\ta.ex\t1;\"\tkind:function\n" ++ Stale.text := by
    rw [TagFile.ordered_eq]
    decide +kernel
  refine ⟨by decide, ?_⟩
  rw [hread, TagFile.render_eq_header_append_body, hbody, List.append_assoc]
  rfl

end ElixirTags
