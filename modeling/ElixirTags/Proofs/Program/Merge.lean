import ElixirTags.Proofs.Program.Contents
import ElixirTags.Proofs.Sources.Identity
import ElixirTags.Proofs.TagFile.Sorting

/-!
# Merging compared with making anew

A tag file can be made of all sources at once, or of some of them first, with the others merged
later.  The two ways are compared here for sorted tag files.  Both end well, and the tag files are
the same exactly if no source that is left alone by the second run defines a name that begins as
the lines about the tag file itself do (`Generation.generate_append_eq_iff`).  The entry of such a
name is written by the first run and lost by the second.

The entries of the two files differ in their order and in what is lost.  The order goes away with
sorting, because entries that are equal in name, file and line are equal
(`TagFile.render_eq_of_perm`); what is lost can be seen in the number of lines
(`TagFile.render_eq_iff_of_filter`).
-/

namespace ElixirTags

/-! ## Tag files with the same entries -/

namespace TagFile

lemma length_entries_eq_of_render_eq {t t' : TagFile}
    (h : ∀ e ∈ t.entries, Byte.newline ∉ e.text) (h' : ∀ e ∈ t'.entries, Byte.newline ∉ e.text)
    (heq : t.render = t'.render) : t.entries.length = t'.entries.length := by
  have hlines := congrArg List.length (congrArg Text.endedLines heq)
  rw [(endedLines_render h).1, (endedLines_render h').1, List.length_append, List.length_append,
    (header_spec _).1, (header_spec _).1, List.length_map, List.length_map,
    t.ordered_perm.length_eq, t'.ordered_perm.length_eq] at hlines
  omega

/-- A sorted tag file that keeps only some entries of another is the same file exactly if it keeps
all of them. -/
lemma render_eq_iff_of_filter {t t' : TagFile} {left own : List Entry} {keep : Entry → Bool}
    (hsorted : t.sorted = true) (hsorted' : t'.sorted = true)
    (hperm : t.entries.Perm (left.filter keep ++ own)) (hperm' : t'.entries.Perm (left ++ own))
    (htext : ∀ e ∈ t'.entries, Byte.newline ∉ e.text)
    (hstrict : ∀ a ∈ t'.entries, ∀ b ∈ t'.entries, compare a b = .eq → a = b) :
    t.render = t'.render ↔ ∀ e ∈ left, keep e = true := by
  constructor
  · -- what is not kept is missing in the number of lines
    intro heq
    have hkept : ∀ e ∈ t.entries, Byte.newline ∉ e.text := by
      intro e he
      apply htext e
      rw [hperm'.mem_iff]
      rcases List.mem_append.1 (hperm.mem_iff.1 he) with hleft | hown
      · exact List.mem_append_left own (List.mem_filter.1 hleft).1
      · exact List.mem_append_right left hown
    have hlength := length_entries_eq_of_render_eq hkept htext heq
    rw [hperm.length_eq, hperm'.length_eq, List.length_append, List.length_append,
      Nat.add_right_cancel_iff] at hlength
    exact List.length_filter_eq_length_iff.1 hlength
  · intro hkeep
    rw [List.filter_eq_self.2 hkeep] at hperm
    exact render_eq_of_perm hsorted hsorted' (hperm.trans hperm'.symm) hstrict

end TagFile

/-! ## The entries of some sources -/

/-- The path leads to a source file and can be shown as it is, and the file has fewer than 2³²
lines. -/
structure IsSource (fs : FileSystem) (path : Path) : Prop where
  valid : Utf8.Valid path
  language : Language.elixir.matchesPath path = true
  readable : ∃ content, fs.read path = .ok content ∧ (Text.lines content).length < 2 ^ 32

section SourceEntries

variable {fs : FileSystem} {config : Config} {paths paths' : List Path} {e e' : Entry}

lemma IsSource.exists_read (h : ∀ p ∈ paths, IsSource fs p) :
    ∀ p ∈ paths, Language.elixir.matchesPath p = true ∧ ∃ content, fs.read p = .ok content := by
  intro p hp
  obtain ⟨content, hread, -⟩ := (h p hp).readable
  exact ⟨(h p hp).language, content, hread⟩

lemma IsSource.file_eq {p : Path} (h : IsSource fs p) (fs' : FileSystem)
    (he : e ∈ (sourceTags fs' config p).entries) : e.file = p :=
  file_of_mem_sourceTags h.valid he

lemma IsSource.length_lines_lt {p : Path} (h : IsSource fs p) {content : Bytes}
    (hread : fs.read p = .ok content) : (Text.lines content).length < 2 ^ 32 := by
  obtain ⟨content', hread', hlines⟩ := h.readable
  cases hread.symm.trans hread'
  exact hlines

lemma spelledOnce_of_isSource (h : ∀ p ∈ paths, IsSource fs p)
    (hspelled : ∀ p ∈ paths, ∀ q ∈ paths, fs.locate p = fs.locate q → p = q) :
    Sources.SpelledOnce fs paths := by
  refine ⟨fun p hp => ?_, hspelled⟩
  obtain ⟨content, hcontent, -⟩ := (h p hp).readable
  obtain ⟨q, hq, -⟩ := FileSystem.read_eq_ok_iff.1 hcontent
  exact ⟨q, hq⟩

lemma valid_file_of_mem_sourceEntries (h : ∀ p ∈ paths, IsSource fs p)
    (he : e ∈ sourceEntries fs config paths) : Utf8.Valid e.file := by
  obtain ⟨p, hp, he⟩ := List.mem_flatMap.1 he
  rw [(h p hp).file_eq fs he]
  exact (h p hp).valid

/-- What is left of the entries of some sources if those of others are dropped. -/
lemma filter_file_sourceEntries (h : ∀ p ∈ paths, IsSource fs p) (dropped : List Path) :
    (sourceEntries fs config paths).filter (·.file ∉ dropped) =
      sourceEntries fs config (paths.filter (· ∉ dropped)) := by
  induction paths with
  | nil => rfl
  | cons p paths ih =>
      have hp := h p List.mem_cons_self
      have hrest := ih fun q hq => h q (List.mem_cons_of_mem _ hq)
      have hfile : ∀ e ∈ (sourceTags fs config p).entries, e.file = p :=
        fun e he => hp.file_eq fs he
      rw [sourceEntries, List.flatMap_cons, List.filter_append, ← sourceEntries, hrest,
        List.filter_cons]
      by_cases hdropped : p ∈ dropped
      · rw [if_neg (by simpa using hdropped), List.filter_eq_nil_iff.2, List.nil_append]
        intro e he
        rw [hfile e he]
        simpa using hdropped
      · rw [if_pos (by simpa using hdropped), List.filter_eq_self.2]
        · rfl
        · intro e he
          rw [hfile e he]
          simpa using hdropped

lemma sourceEntries_append (fs : FileSystem) (config : Config) (paths paths' : List Path) :
    sourceEntries fs config (paths ++ paths') =
      sourceEntries fs config paths ++ sourceEntries fs config paths' :=
  List.flatMap_append

end SourceEntries

/-! ## One run -/

section Run

variable {fs after : FileSystem} {o : Options} {stdout : StandardOutput} {target : Path}
  {existing : Option Bytes}

lemma entries_sourceTagFile_of_isSource {sources : List Path} (h : ∀ p ∈ sources, IsSource fs p)
    (sorted : Bool) (config : Config) (existing : Option Bytes) :
    (sourceTagFile fs sorted config existing sources).entries =
      keptEntries existing sources ++ sourceEntries fs config sources := by
  have hshown : sources.map Utf8.repair = sources := by
    conv_rhs => rw [← List.map_id sources]
    exact List.map_congr_left fun p hp => Utf8.repair_of_valid (h p hp).valid
  rw [entries_sourceTagFile, hshown]

/-- A run on sources that ends well has stored its tag file. -/
lemma write_of_generate_sources (htarget : o.target = .file target)
    (h : ∀ p ∈ o.inputs, IsSource fs p) {summary : Summary}
    (hresult : (generate fs o stdout).result = .ok summary)
    (hexisting : existingText fs o = .ok existing) :
    fs.write target
        (sourceTagFile fs o.sort o.scan existing (Sources.distinct fs [] o.inputs)).render =
      .ok (generate fs o stdout).files := by
  obtain ⟨sources, existing', hfind, -, hexisting', hstore⟩ :=
    Generation.exists_of_generate_ok hresult
  rw [Sources.find_of_forall_read o.recurse (IsSource.exists_read h)] at hfind
  cases hfind
  rw [hexisting] at hexisting'
  cases hexisting'
  rw [htarget] at hstore
  exact write_of_store hstore

/-- A run on sources that stores its tag file ends well, and the tag file can be read. -/
lemma exists_generate_sources (stdout : StandardOutput) (htarget : o.target = .file target)
    (h : ∀ p ∈ o.inputs, IsSource fs p) (hexisting : existingText fs o = .ok existing)
    (hwrite : fs.write target (sourceTagFile fs o.sort o.scan existing
      (Sources.distinct fs [] o.inputs)).render = .ok after) :
    (∃ summary, (generate fs o stdout).result = .ok summary) ∧
      (generate fs o stdout).files.read target = .ok (sourceTagFile fs o.sort o.scan existing
        (Sources.distinct fs [] o.inputs)).render := by
  have hfind := Sources.find_of_forall_read o.recurse (IsSource.exists_read h)
  have hread : ∀ p ∈ Sources.distinct fs [] o.inputs, ∃ content, fs.read p = .ok content :=
    fun p hp => (IsSource.exists_read h p ((Sources.distinct_sublist fs [] _).subset hp)).2
  have hstore : store fs stdout o.target (sourceTagFile fs o.sort o.scan existing
      (Sources.distinct fs [] o.inputs)).render = .ok (after, []) := by
    rw [htarget, store, hwrite]
  obtain ⟨summary, hresult, hfiles, -⟩ :=
    Generation.exists_generate_eq stdout hfind hread hexisting hstore
  refine ⟨⟨summary, hresult⟩, ?_⟩
  rw [hfiles]
  exact FileSystem.read_of_write hwrite

end Run

/-! ## Two runs and one -/

section Merge

variable {fs after : FileSystem} {o : Options} {stdout : StandardOutput} {config : Config}
  {target : Path} {a b : List Path}

/-- What the second of two runs writes: what the first has written of the sources that are left
alone, without the lost entries, and the entries of its own sources. -/
lemma entries_merged {first second : List Path} (sorted : Bool)
    (hfirst : ∀ p ∈ first, IsSource fs p) (hsecond : ∀ p ∈ second, IsSource after p)
    (hsame : ∀ p ∈ second, sourceTags after config p = sourceTags fs config p) :
    (sourceTagFile after sorted config
        (some (sourceTagFile fs sorted config none first).render) second).entries.Perm
      ((sourceEntries fs config (first.filter (· ∉ second))).filter
          (fun e => !Entry.isHeader e.name) ++
        sourceEntries fs config second) := by
  have hentries : (sourceTagFile fs sorted config none first).entries =
      sourceEntries fs config first := entries_sourceTagFile_of_isSource hfirst sorted config none
  have htags : ∀ e ∈ (sourceTagFile fs sorted config none first).entries, e.FromTag := by
    intro e he
    rw [hentries] at he
    exact fromTag_of_mem_sourceEntries he
  have hown : sourceEntries after config second = sourceEntries fs config second := by
    apply List.flatMap_congr
    intro p hp
    rw [hsame p hp]
  rw [entries_sourceTagFile_of_isSource hsecond, keptEntries_some,
    TagFile.existingEntries_render htags, hown]
  refine List.Perm.append_right _ ?_
  -- sorting does not matter, and the two conditions can be asked in either order
  have hperm := ((sourceTagFile fs sorted config none first).ordered_perm.filter
    fun e => !Entry.isHeader e.name).filter fun e => decide (e.file ∉ second)
  refine hperm.trans (.of_eq ?_)
  rw [hentries, ← filter_file_sourceEntries hfirst, List.filter_filter, List.filter_filter]
  apply List.filter_congr
  intro e _
  exact Bool.and_comm _ _

/-- The sources of one run are those of two, up to their order. -/
lemma distinct_append_perm (h : Sources.SpelledOnce fs (a ++ b))
    (hb : Sources.SpelledOnce after b) :
    (Sources.distinct fs [] (a ++ b)).Perm
      ((Sources.distinct fs [] a).filter (· ∉ Sources.distinct after [] b) ++
        Sources.distinct after [] b) := by
  have ha : Sources.SpelledOnce fs a := h.mono fun p hp => List.mem_append_left b hp
  refine (List.perm_ext_iff_of_nodup (Sources.nodup_distinct fs _) ?_).2 ?_
  · refine List.Nodup.append ((Sources.nodup_distinct fs a).filter _)
      (Sources.nodup_distinct after b) ?_
    intro p hp hp'
    simpa [hp'] using (List.mem_filter.1 hp).2
  · intro p
    rw [Sources.mem_distinct_iff h, List.mem_append, List.mem_append, List.mem_filter,
      decide_eq_true_iff, Sources.mem_distinct_iff ha, Sources.mem_distinct_iff hb]
    tauto

/-- The tag files of two runs and of one are the same if nothing is lost. -/
lemma render_merged_eq_iff {sorted : Bool} (hsorted : sorted = true)
    (hsources : ∀ p ∈ a ++ b, IsSource fs p) (hafter : ∀ p ∈ b, IsSource after p)
    (hsame : ∀ p ∈ b, sourceTags after config p = sourceTags fs config p)
    (hspelled : Sources.SpelledOnce fs (a ++ b)) (hspelled' : Sources.SpelledOnce after b) :
    (sourceTagFile after sorted config
        (some (sourceTagFile fs sorted config none (Sources.distinct fs [] a)).render)
        (Sources.distinct after [] b)).render =
        (sourceTagFile fs sorted config none (Sources.distinct fs [] (a ++ b))).render ↔
      ∀ p ∈ a, p ∉ b → ∀ e ∈ (sourceTags fs config p).entries, ¬ Entry.isHeader e.name := by
  subst hsorted
  have ha : Sources.SpelledOnce fs a := hspelled.mono fun p hp => List.mem_append_left b hp
  have hfirst : ∀ p ∈ Sources.distinct fs [] a, IsSource fs p := fun p hp =>
    hsources p (List.mem_append_left b ((Sources.mem_distinct_iff ha).1 hp))
  have hsecond : ∀ p ∈ Sources.distinct after [] b, IsSource after p := fun p hp =>
    hafter p ((Sources.mem_distinct_iff hspelled').1 hp)
  have hall : ∀ p ∈ Sources.distinct fs [] (a ++ b), IsSource fs p := fun p hp =>
    hsources p ((Sources.mem_distinct_iff hspelled).1 hp)
  have hmerged := entries_merged true hfirst hsecond fun p hp =>
    hsame p ((Sources.mem_distinct_iff hspelled').1 hp)
  have hentries : (sourceTagFile fs true config none (Sources.distinct fs [] (a ++ b))).entries =
      sourceEntries fs config (Sources.distinct fs [] (a ++ b)) :=
    entries_sourceTagFile_of_isSource hall true config none
  have hwhole := (distinct_append_perm hspelled hspelled').flatMap_right
    fun p => (sourceTags fs config p).entries
  rw [← sourceEntries, ← hentries, ← sourceEntries, sourceEntries_append] at hwhole
  rw [TagFile.render_eq_iff_of_filter (sorted_sourceTagFile ..) (sorted_sourceTagFile ..) hmerged
    hwhole]
  · simp only [sourceEntries, List.mem_flatMap, List.mem_filter, decide_eq_true_iff,
      Sources.mem_distinct_iff ha, Sources.mem_distinct_iff hspelled']
    constructor
    · intro h p hp hpb e he
      simpa using h e ⟨p, ⟨hp, hpb⟩, he⟩
    · rintro h e ⟨p, ⟨hp, hpb⟩, he⟩
      simpa using h p hp hpb e he
  · intro e he
    rw [hentries] at he
    exact Entry.newline_not_mem_text (fromTag_of_mem_sourceEntries he)
  · intro e he e' he' hcompare
    rw [hentries] at he he'
    exact eq_of_compare_eq_of_mem_sourceEntries (fun p hp => (hall p hp).valid)
      (fun p hp _ => (hall p hp).length_lines_lt) he he' hcompare

lemma valid_render_sourceTagFile {sources : List Path} {sorted : Bool}
    (h : ∀ p ∈ sources, IsSource fs p) :
    Utf8.Valid (sourceTagFile fs sorted config none sources).render := by
  have hentries : (sourceTagFile fs sorted config none sources).entries =
      sourceEntries fs config sources := entries_sourceTagFile_of_isSource h sorted config none
  apply TagFile.valid_render
  · intro e he
    rw [hentries] at he
    exact fromTag_of_mem_sourceEntries he
  · intro e he
    rw [hentries] at he
    exact valid_file_of_mem_sourceEntries h he

/-- What a write to another file leaves of some sources. -/
lemma sources_of_write {content : Bytes} {paths : List Path}
    (hwrite : fs.write target content = .ok after) (hsources : ∀ p ∈ paths, IsSource fs p)
    (hspelled : Sources.SpelledOnce fs paths)
    (hother : ∀ p ∈ paths, fs.locate p ≠ fs.locate target) :
    (∀ p ∈ paths, IsSource after p) ∧ Sources.SpelledOnce after paths ∧
      ∀ config, ∀ p ∈ paths, sourceTags after config p = sourceTags fs config p := by
  have hread : ∀ p ∈ paths, ∀ content, fs.read p = .ok content → after.read p = .ok content :=
    fun p hp content => FileSystem.read_of_write_of_ne hwrite (hother p hp)
  refine ⟨?_, ⟨?_, ?_⟩, ?_⟩
  · intro p hp
    obtain ⟨content, hcontent, hlines⟩ := (hsources p hp).readable
    exact ⟨(hsources p hp).valid, (hsources p hp).language, content, hread p hp content hcontent,
      hlines⟩
  · intro p hp
    obtain ⟨q, hq⟩ := hspelled.1 p hp
    exact ⟨q, FileSystem.locate_of_write hwrite hq⟩
  · intro p hp p' hp' hplace
    obtain ⟨q, hq⟩ := hspelled.1 p hp
    obtain ⟨q', hq'⟩ := hspelled.1 p' hp'
    rw [FileSystem.locate_of_write hwrite hq, FileSystem.locate_of_write hwrite hq'] at hplace
    exact hspelled.2 p hp p' hp' (by rw [hq, hq', hplace])
  · intro config p hp
    obtain ⟨content, hcontent, -⟩ := (hsources p hp).readable
    rw [sourceTags, sourceTags, hcontent, hread p hp content hcontent]

/-- After a run has stored the tag file of some sources, a run that merges others ends well, as one
run on all of them does, and the tag files that they leave can be read. -/
lemma exists_read_merged (stdout : StandardOutput) (htarget : o.target = .file target)
    (hsources : ∀ p ∈ a ++ b, IsSource fs p) (hafter : ∀ p ∈ b, IsSource after p)
    (hwrite : fs.write target
      (sourceTagFile fs o.sort o.scan none (Sources.distinct fs [] a)).render = .ok after) :
    let second := generate after { o with inputs := b, append := true } stdout
    let full := generate fs { o with inputs := a ++ b, append := false } stdout
    (∃ s, second.result = .ok s) ∧ (∃ s, full.result = .ok s) ∧
      second.files.read target = .ok (sourceTagFile after o.sort o.scan
        (some (sourceTagFile fs o.sort o.scan none (Sources.distinct fs [] a)).render)
        (Sources.distinct after [] b)).render ∧
      full.files.read target =
        .ok (sourceTagFile fs o.sort o.scan none (Sources.distinct fs [] (a ++ b))).render := by
  intro second full
  -- what has been stored can be read back
  have hvalid : Utf8.Valid
      (sourceTagFile fs o.sort o.scan none (Sources.distinct fs [] a)).render := by
    apply valid_render_sourceTagFile
    intro p hp
    exact hsources p (List.mem_append_left b ((Sources.distinct_sublist fs [] a).subset hp))
  have hreadText := FileSystem.readText_of_read (FileSystem.read_of_write hwrite) hvalid
  -- the other runs can write where the first could
  obtain ⟨after₂, hwrite₂⟩ := FileSystem.exists_write_after_write hwrite
    (sourceTagFile after o.sort o.scan
      (some (sourceTagFile fs o.sort o.scan none (Sources.distinct fs [] a)).render)
      (Sources.distinct after [] b)).render
  obtain ⟨after₃, hwrite₃⟩ := FileSystem.exists_write_of_write hwrite
    (sourceTagFile fs o.sort o.scan none (Sources.distinct fs [] (a ++ b))).render
  obtain ⟨hsecond, hmerged⟩ := exists_generate_sources stdout
    (o := { o with inputs := b, append := true }) htarget hafter
    (existingText_of_readText rfl htarget hreadText) hwrite₂
  obtain ⟨hfull, hwhole⟩ := exists_generate_sources stdout
    (o := { o with inputs := a ++ b, append := false }) htarget hsources
    (existingText_of_not_append rfl) hwrite₃
  exact ⟨hsecond, hfull, hmerged, hwhole⟩

/-- **Merging loses only names that look like the header.**  Sources are given to two runs that
write the same sorted tag file, the second of which merges, and to one run.  No source is given in
two spellings, and none is the tag file.  If the first run ends well, so do the others, and the two
runs leave what the one writes exactly if no source that is left alone by the second run has an
entry with a name that begins as the lines about the tag file itself. -/
theorem Generation.generate_append_eq_iff (htarget : o.target = .file target)
    (hsort : o.sort = true) (hsources : ∀ p ∈ a ++ b, IsSource fs p)
    (hspelled : ∀ p ∈ a ++ b, ∀ q ∈ a ++ b, fs.locate p = fs.locate q → p = q)
    (hother : ∀ p ∈ a ++ b, fs.locate p ≠ fs.locate target) {summary : Summary}
    (hfirst : (generate fs { o with inputs := a, append := false } stdout).result = .ok summary) :
    let first := generate fs { o with inputs := a, append := false } stdout
    let second := generate first.files { o with inputs := b, append := true } stdout
    let full := generate fs { o with inputs := a ++ b, append := false } stdout
    (∃ s, second.result = .ok s) ∧ (∃ s, full.result = .ok s) ∧
      ∃ merged whole, second.files.read target = .ok merged ∧
        full.files.read target = .ok whole ∧
        (merged = whole ↔
          ∀ p ∈ a, p ∉ b → ∀ e ∈ (sourceTags fs o.scan p).entries, ¬ Entry.isHeader e.name) := by
  intro first second full
  obtain ⟨ha, hb⟩ := List.forall_mem_append.1 hsources
  have honce := spelledOnce_of_isSource hsources hspelled
  have hwrite := write_of_generate_sources (o := { o with inputs := a, append := false }) htarget
    ha hfirst (existingText_of_not_append rfl)
  -- the first run leaves the sources of the second as they were
  obtain ⟨hafter, hspelled', hsame⟩ := sources_of_write hwrite hb
    (honce.mono fun p hp => List.mem_append_right a hp) (List.forall_mem_append.1 hother).2
  obtain ⟨hsecond, hfull, hmerged, hwhole⟩ :=
    exists_read_merged stdout htarget hsources hafter hwrite
  exact ⟨hsecond, hfull, _, _, hmerged, hwhole,
    render_merged_eq_iff hsort hsources hafter (hsame o.scan) honce hspelled'⟩

end Merge

/-! ## A lost name -/

namespace Merge

/-- A macro whose name begins as the header does, and a function in another file. -/
def files : FileSystem where
  root := [(Bytes.ofString "a.ex", .file (Bytes.ofString "defmacro !_m\n")),
    (Bytes.ofString "b.ex", .file (Bytes.ofString "def f\n"))]
  workingDirectory := []

def options : Options := { target := .file (Bytes.ofString "tags") }

def run (fs : FileSystem) (append : Bool) (inputs : List String) : Generation :=
  generate fs { options with inputs := inputs.map Bytes.ofString, append }

lemma isSource_files :
    ∀ p ∈ [Bytes.ofString "a.ex"] ++ [Bytes.ofString "a.ex", Bytes.ofString "b.ex"],
      IsSource files p := by
  intro p hp
  simp only [List.cons_append, List.nil_append, List.mem_cons, List.not_mem_nil, or_false] at hp
  rcases hp with rfl | rfl | rfl
  · exact ⟨by decide, by decide, _, rfl, by decide⟩
  · exact ⟨by decide, by decide, _, rfl, by decide⟩
  · exact ⟨by decide, by decide, _, rfl, by decide⟩

end Merge

/-- If the macro is scanned by both runs, nothing is lost. -/
theorem Generation.generate_append_eq_iff_rescanned :
    (Merge.run Merge.files false ["a.ex"]).result = .ok ⟨1, 1⟩ ∧
      ∃ text, (Merge.run (Merge.run Merge.files false ["a.ex"]).files true
          ["a.ex", "b.ex"]).files.read (Bytes.ofString "tags") = .ok text ∧
        (Merge.run Merge.files false ["a.ex", "a.ex", "b.ex"]).files.read
          (Bytes.ofString "tags") = .ok text := by
  have hfirst : (Merge.run Merge.files false ["a.ex"]).result = .ok ⟨1, 1⟩ := rfl
  obtain ⟨-, -, merged, whole, hmerged, hwhole, heq⟩ :=
    generate_append_eq_iff (o := Merge.options) (a := [Bytes.ofString "a.ex"])
      (b := [Bytes.ofString "a.ex", Bytes.ofString "b.ex"]) rfl rfl Merge.isSource_files
      (by decide) (by decide) hfirst
  have hkept : merged = whole := by
    rw [heq]
    intro p hp hnot
    rw [List.mem_singleton.1 hp] at hnot
    exact absurd List.mem_cons_self hnot
  exact ⟨hfirst, merged, hmerged, hkept ▸ hwhole⟩

/-- If it is scanned by the first run only, the second loses its entry. -/
theorem Generation.generate_append_loses_name :
    (Merge.run (Merge.run Merge.files false ["a.ex"]).files true ["b.ex"]).files.read
        (Bytes.ofString "tags") =
      .ok (TagFile.header true ++ Bytes.ofString "f\tb.ex\t1;\"\tkind:function\n") ∧
    (Merge.run Merge.files false ["a.ex", "b.ex"]).files.read (Bytes.ofString "tags") =
      .ok (TagFile.header true ++ Bytes.ofString
        "!_m\ta.ex\t1;\"\tkind:macro\nf\tb.ex\t1;\"\tkind:function\n") := by
  have hsources : ∀ p ∈ [Bytes.ofString "a.ex"] ++ [Bytes.ofString "b.ex"],
      IsSource Merge.files p := fun p hp => Merge.isSource_files p (List.mem_cons_of_mem _ hp)
  obtain ⟨ha, hb⟩ := List.forall_mem_append.1 hsources
  have hother : ∀ p ∈ [Bytes.ofString "b.ex"],
      Merge.files.locate p ≠ Merge.files.locate (Bytes.ofString "tags") := by decide
  have hfirst : (Merge.run Merge.files false ["a.ex"]).result = .ok ⟨1, 1⟩ := rfl
  have hwrite := write_of_generate_sources rfl ha hfirst (existingText_of_not_append rfl)
  obtain ⟨hafter, -, hsame⟩ :=
    sources_of_write hwrite hb (spelledOnce_of_isSource hb (by decide)) hother
  obtain ⟨-, -, hmerged, hwhole⟩ :=
    exists_read_merged (o := Merge.options) .takes rfl hsources hafter hwrite
  -- of the first run nothing is left, so there is but one entry
  have hleft : (sourceEntries Merge.files Merge.options.scan ([Bytes.ofString "a.ex"].filter
      (· ∉ [Bytes.ofString "b.ex"]))).filter (fun e => !Entry.isHeader e.name) = [] := by
    decide +kernel
  have hown : sourceEntries Merge.files Merge.options.scan [Bytes.ofString "b.ex"] =
      [⟨Bytes.ofString "f", Bytes.ofString "b.ex", 1,
        Bytes.ofString "f\tb.ex\t1;\"\tkind:function"⟩] := by
    decide +kernel
  have hentries := entries_merged true ha hafter (hsame Merge.options.scan)
  rw [hleft, hown, List.nil_append] at hentries
  have hordered := List.perm_singleton.1 ((TagFile.ordered_perm _).trans hentries)
  have hbody : TagFile.body (sourceTagFile Merge.files true Merge.options.scan none
      [Bytes.ofString "a.ex", Bytes.ofString "b.ex"]).ordered =
        Bytes.ofString "!_m\ta.ex\t1;\"\tkind:macro\nf\tb.ex\t1;\"\tkind:function\n" := by
    rw [TagFile.ordered_eq]
    decide +kernel
  constructor
  · refine hmerged.trans (congrArg Except.ok (congrArg (TagFile.header true ++ ·) ?_))
    exact (congrArg TagFile.body hordered).trans (by decide +kernel)
  · exact hwhole.trans (congrArg Except.ok (congrArg (TagFile.header true ++ ·) hbody))

end ElixirTags
