import ElixirTags.Proofs.Scan.Linewise
import ElixirTags.Proofs.Scan.Streaming
import ElixirTags.Proofs.TagFile.Reading
import ElixirTags.Proofs.TagFile.Sorting
import ElixirTags.Program.Generate
import Mathlib.Data.List.Nodup

/-!
# What a run writes

A run that ends well has found its sources, read every one of them, and stored one tag file, which
is made of what the sources define (`sourceTags`) and of what is kept of the tag file that was
there.  `Generation.exists_of_generate_ok` says what can be learned from such a run, and
`Generation.exists_generate_eq` that nothing else is needed for one.

The entries of a source come from tags (`fromTag_of_mem_sourceTags`), they are filed under the path
of the source, and no two of them have the same line (`eq_of_line_eq_of_mem_sourceTags`).
-/

namespace ElixirTags

/-! ## The tags of a source -/

/-- The tags of the file that a path leads to. -/
def sourceTags (fs : FileSystem) (config : Config) (path : Path) : FileTags where
  path := path
  tags := match fs.read path with
    | .ok content => scanSource config (Utf8.repair content)
    | .error _ => []

lemma records_ofBytes {ε : Type} (text : Bytes) :
    (Feed.ofBytes text : Feed ε).records = Text.lines text := by
  rw [Feed.ofBytes, Feed.records, Feed.recordsFrom, List.nil_append]
  rfl

lemma Feed.length_lines {ε : Type} (feed : Feed ε) : feed.lines.length = feed.records.length := by
  rw [lines]
  cases feed.records with
  | nil => rfl
  | cons first rest => simp

lemma scanFile_eq_ok {fs : FileSystem} {path : Path} {content : Bytes} (config : Config)
    (h : fs.read path = .ok content) :
    ∃ scanned, scanFile fs config path = .ok scanned ∧
      scanned.fileTags config = sourceTags fs config path := by
  rw [scanFile, h]
  refine ⟨_, rfl, ?_⟩
  rw [sourceTags, h]
  show FileTags.mk path (scanLines config (Feed.ofBytes content : Feed Empty).sourceLines) = _
  rw [scanLines_sourceLines_eq_scanSource config (records_ofBytes content)]

lemma read_of_scanFile {fs : FileSystem} {config : Config} {path : Path} {scanned : ScannedFile}
    (h : scanFile fs config path = .ok scanned) :
    ∃ content, fs.read path = .ok content := by
  rw [scanFile] at h
  cases hread : fs.read path with
  | ok content => exact ⟨content, rfl⟩
  | error _ =>
      rw [hread] at h
      cases h

section SourceTags

variable {fs : FileSystem} {config : Config} {path : Path} {e e' : Entry}

lemma mem_entries_iff {f : FileTags} :
    e ∈ f.entries ↔ Text.IsField f.shownPath ∧ ∃ tag ∈ f.tags, e = .ofTag f.shownPath tag := by
  rw [FileTags.entries, ← FileTags.isWritable_iff]
  split
  · next hfield => simp [hfield, eq_comm]
  · next hfield => simp [hfield]

lemma file_of_mem_entries {f : FileTags} (h : e ∈ f.entries) : e.file = f.shownPath := by
  obtain ⟨-, tag, -, rfl⟩ := mem_entries_iff.1 h
  rfl

lemma tags_sourceTags_of_read {content : Bytes} (h : fs.read path = .ok content) :
    (sourceTags fs config path).tags = scanSource config (Utf8.repair content) := by
  rw [sourceTags, h]

lemma exists_read_of_mem_sourceTags (h : e ∈ (sourceTags fs config path).entries) :
    ∃ content, fs.read path = .ok content := by
  obtain ⟨-, tag, htag, -⟩ := mem_entries_iff.1 h
  cases hread : fs.read path with
  | error _ => simp [sourceTags, hread] at htag
  | ok content => exact ⟨content, rfl⟩

lemma fromTag_of_mem_sourceTags (h : e ∈ (sourceTags fs config path).entries) : e.FromTag := by
  obtain ⟨content, hread⟩ := exists_read_of_mem_sourceTags h
  obtain ⟨hfield, tag, htag, rfl⟩ := mem_entries_iff.1 h
  rw [tags_sourceTags_of_read hread] at htag
  refine ⟨config.identClass, _, tag, wellFormed_of_mem_scanLines htag, hfield, ?_, rfl⟩
  -- an empty path leads nowhere
  intro hempty
  have hpath : path = [] := Utf8.repair_eq_nil_iff.1 hempty
  rw [hpath] at hread
  cases hread

/-- No two entries of a source with fewer than 2³² lines have the same line. -/
lemma eq_of_line_eq_of_mem_sourceTags {content : Bytes} (hread : fs.read path = .ok content)
    (hlines : (Text.lines content).length < 2 ^ 32)
    (he : e ∈ (sourceTags fs config path).entries) (he' : e' ∈ (sourceTags fs config path).entries)
    (hline : e.line = e'.line) : e = e' := by
  obtain ⟨-, tag, htag, rfl⟩ := mem_entries_iff.1 he
  obtain ⟨-, tag', htag', rfl⟩ := mem_entries_iff.1 he'
  have hrecords : (Feed.ofBytes content : Feed Empty).records = Text.lines content :=
    records_ofBytes content
  have hsorted : (sourceTags fs config path).tags.Pairwise fun a b => a.line < b.line := by
    rw [tags_sourceTags_of_read hread, ← scanLines_sourceLines_eq_scanSource config hrecords]
    apply pairwise_scanLines
    apply Text.pairwise_numberFrom_one
    rw [Feed.length_lines, hrecords]
    exact hlines
  have hnodup : ((sourceTags fs config path).tags.map Tag.line).Nodup :=
    List.pairwise_map.2 (hsorted.imp UInt32.ne_of_lt)
  rw [List.inj_on_of_nodup_map hnodup htag htag' hline]

/-- The entries of some sources. -/
def sourceEntries (fs : FileSystem) (config : Config) (paths : List Path) : List Entry :=
  paths.flatMap fun p => (sourceTags fs config p).entries

lemma fromTag_of_mem_sourceEntries {paths : List Path} (he : e ∈ sourceEntries fs config paths) :
    e.FromTag := by
  obtain ⟨p, -, he⟩ := List.mem_flatMap.1 he
  exact fromTag_of_mem_sourceTags he

lemma file_of_mem_sourceEntries {paths : List Path} (he : e ∈ sourceEntries fs config paths) :
    e.file ∈ paths.map Utf8.repair := by
  obtain ⟨p, hp, he⟩ := List.mem_flatMap.1 he
  rw [file_of_mem_entries he]
  exact List.mem_map_of_mem hp

lemma file_of_mem_sourceTags (hvalid : Utf8.Valid path)
    (he : e ∈ (sourceTags fs config path).entries) : e.file = path := by
  rw [file_of_mem_entries he]
  exact Utf8.repair_of_valid hvalid

/-- The entries of sources whose paths are shown as they are and whose lines can be numbered are
ordered strictly by name, file and line. -/
lemma eq_of_compare_eq_of_mem_sourceEntries {paths : List Path}
    (hvalid : ∀ p ∈ paths, Utf8.Valid p)
    (hlines : ∀ p ∈ paths, ∀ content, fs.read p = .ok content →
      (Text.lines content).length < 2 ^ 32)
    (he : e ∈ sourceEntries fs config paths) (he' : e' ∈ sourceEntries fs config paths)
    (hcompare : compare e e' = .eq) : e = e' := by
  obtain ⟨p, hp, he⟩ := List.mem_flatMap.1 he
  obtain ⟨p', hp', he'⟩ := List.mem_flatMap.1 he'
  have hkey : e.key = e'.key := Entry.compare_eq_eq_iff.1 hcompare
  obtain ⟨hfile, hline⟩ := Prod.mk.inj (Prod.mk.inj hkey).2
  rw [file_of_mem_sourceTags (hvalid p hp) he, file_of_mem_sourceTags (hvalid p' hp') he'] at hfile
  subst hfile
  obtain ⟨content, hread⟩ := exists_read_of_mem_sourceTags he
  exact eq_of_line_eq_of_mem_sourceTags hread (hlines p hp content hread) he he' hline

end SourceTags

/-! ## The entries of a tag file -/

/-- The entries that are kept of an existing tag file. -/
def keptEntries (existing : Option Bytes) (replaced : List Bytes) : List Entry :=
  match existing with
  | some text => (TagFile.retain { sorted := false } text replaced).entries
  | none => []

lemma keptEntries_some (text : Bytes) (replaced : List Bytes) :
    keptEntries (some text) replaced =
      (TagFile.existingEntries text).filter (·.file ∉ replaced) := rfl

lemma TagFile.ofFiles_eq (sorted : Bool) (existing : Option Bytes) (files : List FileTags) :
    ofFiles sorted existing files =
      { sorted, entries := keptEntries existing (files.map FileTags.shownPath) ++
          files.flatMap FileTags.entries } := by
  cases existing with
  | none => exact foldl_add files _
  | some text => exact foldl_add files _

@[simp] lemma TagFile.sorted_ofFiles (sorted : Bool) (existing : Option Bytes)
    (files : List FileTags) : (ofFiles sorted existing files).sorted = sorted := by
  rw [ofFiles_eq]

/-- The tag file that is made of some sources. -/
def sourceTagFile (fs : FileSystem) (sorted : Bool) (config : Config) (existing : Option Bytes)
    (sources : List Path) : TagFile :=
  TagFile.ofFiles sorted existing (sources.map (sourceTags fs config))

lemma entries_sourceTagFile (fs : FileSystem) (sorted : Bool) (config : Config)
    (existing : Option Bytes) (sources : List Path) :
    (sourceTagFile fs sorted config existing sources).entries =
      keptEntries existing (sources.map Utf8.repair) ++ sourceEntries fs config sources := by
  have hshown : (sources.map (sourceTags fs config)).map FileTags.shownPath =
      sources.map Utf8.repair := by
    rw [List.map_map]
    rfl
  rw [sourceTagFile, TagFile.ofFiles_eq, hshown, sourceEntries, List.flatMap_map]

@[simp] lemma sorted_sourceTagFile (fs : FileSystem) (sorted : Bool) (config : Config)
    (existing : Option Bytes) (sources : List Path) :
    (sourceTagFile fs sorted config existing sources).sorted = sorted :=
  TagFile.sorted_ofFiles ..

/-! ## Runs -/

section Run

variable {fs after : FileSystem} {o : Options} {stdout : StandardOutput} {files : List FileTags}
  {sources : List Path} {existing : Option Bytes} {output : Bytes}

lemma fileTags_of_map_scanFile {config : Config} {scanned : List ScannedFile}
    (h : sources.map (scanFile fs config) = scanned.map .ok) :
    (∀ p ∈ sources, ∃ content, fs.read p = .ok content) ∧
      scanned.map (·.fileTags config) = sources.map (sourceTags fs config) := by
  induction sources generalizing scanned with
  | nil =>
      cases scanned with
      | nil => exact ⟨fun p hp => absurd hp List.not_mem_nil, rfl⟩
      | cons _ _ => cases h
  | cons p sources ih =>
      cases scanned with
      | nil => cases h
      | cons f scanned =>
          rw [List.map_cons, List.map_cons, List.cons.injEq] at h
          obtain ⟨hread, htags⟩ := ih h.2
          obtain ⟨content, hcontent⟩ := read_of_scanFile h.1
          obtain ⟨f', hf', hftags⟩ := scanFile_eq_ok config hcontent
          rw [h.1] at hf'
          cases hf'
          refine ⟨List.forall_mem_cons.2 ⟨⟨content, hcontent⟩, hread⟩, ?_⟩
          rw [List.map_cons, List.map_cons, hftags, htags]

lemma exists_scanFiles_of_read (config : Config)
    (hread : ∀ p ∈ sources, ∃ content, fs.read p = .ok content) :
    ∃ scanned, (scanFiles fs config sources).result = .ok scanned := by
  apply Sweep.exists_result_along
  intro p hp
  obtain ⟨content, hcontent⟩ := hread p hp
  obtain ⟨f, hf, -⟩ := scanFile_eq_ok config hcontent
  exact ⟨f, hf⟩

lemma scanFiles_result_eq_ok_iff {config : Config} :
    (scanFiles fs config sources).result.map (·.map (·.fileTags config)) = .ok files ↔
      (∀ p ∈ sources, ∃ content, fs.read p = .ok content) ∧
        files = sources.map (sourceTags fs config) := by
  constructor
  · intro h
    cases hscan : (scanFiles fs config sources).result with
    | error _ =>
        rw [hscan] at h
        cases h
    | ok scanned =>
        obtain ⟨hread, htags⟩ := fileTags_of_map_scanFile (Sweep.result_along_eq_ok_iff.1 hscan)
        rw [hscan] at h
        cases h
        exact ⟨hread, htags⟩
  · rintro ⟨hread, rfl⟩
    obtain ⟨scanned, hscan⟩ := exists_scanFiles_of_read config hread
    rw [hscan, ← (fileTags_of_map_scanFile (Sweep.result_along_eq_ok_iff.1 hscan)).2]
    rfl

lemma scanInputs_result_eq_ok_iff :
    (scanInputs fs o).result = .ok files ↔
      ∃ sources, Sources.find fs o.recurse o.inputs = .ok sources ∧
        (∀ p ∈ sources, ∃ content, fs.read p = .ok content) ∧
        files = sources.map (sourceTags fs o.scan) := by
  rw [scanInputs, Sources.find]
  cases (Sources.survey fs .elixir o.recurse o.inputs).result with
  | error _ => simp [Except.map]
  | ok found =>
      show (scanFiles fs o.scan (Sources.ofFindings fs found.flatten)).result.map _ = _ ↔ _
      rw [scanFiles_result_eq_ok_iff]
      simp [Except.map]

lemma existingText_of_not_append (h : o.append = false) : existingText fs o = .ok none := by
  rw [existingText, h]

lemma existingText_of_readText {target : Path} {text : Bytes} (happend : o.append = true)
    (htarget : o.target = .file target) (h : fs.readText target = .ok text) :
    existingText fs o = .ok (some text) := by
  simp only [existingText, happend, htarget, h]

lemma write_of_store {path : Path} {content : Bytes}
    (h : store fs stdout (.file path) content = .ok (after, output)) :
    fs.write path content = .ok after := by
  rw [store] at h
  split at h
  · next after' hwrite =>
    have hafter : after' = after := congrArg Prod.fst (Except.ok.inj h)
    rw [hwrite, hafter]
  · cases h

namespace Generation

/-- What a run that ends well has done. -/
lemma exists_of_generate_ok {summary : Summary}
    (h : (generate fs o stdout).result = .ok summary) :
    ∃ sources existing, Sources.find fs o.recurse o.inputs = .ok sources ∧
      (∀ p ∈ sources, ∃ content, fs.read p = .ok content) ∧
      existingText fs o = .ok existing ∧
      store fs stdout o.target (sourceTagFile fs o.sort o.scan existing sources).render =
        .ok ((generate fs o stdout).files, (generate fs o stdout).output) := by
  rw [generate] at h ⊢
  cases hscan : (scanInputs fs o).result with
  | error _ => simp [hscan, failed] at h
  | ok files =>
      obtain ⟨sources, hfind, hread, rfl⟩ := scanInputs_result_eq_ok_iff.1 hscan
      simp only [hscan, writeTagFile] at h ⊢
      cases hexisting : existingText fs o with
      | error _ => simp [hexisting, failed] at h
      | ok existing =>
          refine ⟨sources, existing, hfind, hread, rfl, ?_⟩
          simp only [hexisting, sourceTagFile] at h ⊢
          cases hstore : store fs stdout o.target
              (TagFile.ofFiles o.sort existing (sources.map (sourceTags fs o.scan))).render with
          | error _ => simp [hstore, failed] at h
          | ok stored => rfl

/-- The counts of a run that ends well. -/
lemma summary_of_generate_ok {summary : Summary}
    (h : (generate fs o stdout).result = .ok summary)
    (hfind : Sources.find fs o.recurse o.inputs = .ok sources) :
    summary = ⟨sources.length, (sourceEntries fs o.scan sources).length⟩ := by
  rw [generate] at h
  cases hscan : (scanInputs fs o).result with
  | error _ => simp [hscan, failed] at h
  | ok files =>
      obtain ⟨sources', hfind', -, rfl⟩ := scanInputs_result_eq_ok_iff.1 hscan
      cases hfind.symm.trans hfind'
      simp only [hscan, writeTagFile] at h
      cases hexisting : existingText fs o with
      | error _ => simp [hexisting, failed] at h
      | ok existing =>
          simp only [hexisting] at h
          split at h
          · cases h
          · cases h
            rw [List.length_map, List.flatMap_map, sourceEntries]

/-- What a run has to do to end well. -/
lemma exists_generate_eq (stdout : StandardOutput)
    (hfind : Sources.find fs o.recurse o.inputs = .ok sources)
    (hread : ∀ p ∈ sources, ∃ content, fs.read p = .ok content)
    (hexisting : existingText fs o = .ok existing)
    (hstore : store fs stdout o.target (sourceTagFile fs o.sort o.scan existing sources).render =
      .ok (after, output)) :
    ∃ summary, (generate fs o stdout).result = .ok summary ∧ (generate fs o stdout).files = after ∧
      (generate fs o stdout).output = output := by
  rw [sourceTagFile] at hstore
  have hscan := scanInputs_result_eq_ok_iff.2 ⟨sources, hfind, hread, rfl⟩
  rw [generate, hscan]
  simp only [writeTagFile, hexisting, hstore]
  exact ⟨_, rfl, trivial, trivial⟩

end Generation

end Run

end ElixirTags
