import ElixirTags.Proofs.Program.Contents
import ElixirTags.Proofs.Sources.Exact

/-!
# The order of the inputs

A sorted tag file that is made anew does not depend on the order of the inputs
(`Generation.generate_eq_of_perm`).  The search finds the same files whatever the order; only which
path of a file is taken may depend on it, and it does not if no file is reached by two paths
(`Sources.find_perm`).  So the entries of two runs differ in their order alone, and sorting forgets
that, because no two entries of a run are equal in name, file and line.
-/

namespace ElixirTags

/-! ## What is reached -/

namespace Sources

variable {fs : FileSystem} {enter : Bool} {inputs inputs' sources sources' : List Path} {p : Path}

/-- The path is found at one of the inputs. -/
def Reaches (fs : FileSystem) (enter : Bool) (inputs : List Path) (p : Path) : Prop :=
  ∃ d ∈ inputs, FoundAt fs enter d p

lemma reaches_perm (h : inputs.Perm inputs') :
    Reaches fs enter inputs p ↔ Reaches fs enter inputs' p := by
  simp only [Reaches, h.mem_iff]

/-- What is found is reached, and of what is reached another path is found, if not the same. -/
lemma reaches_of_find (h : find fs enter inputs = .ok sources) :
    (∀ p ∈ sources, Reaches fs enter inputs p) ∧
      ∀ p, Reaches fs enter inputs p → ∃ p' ∈ sources, identity fs p' = identity fs p := by
  obtain ⟨paths, rfl, hpaths⟩ := exists_of_find h
  constructor
  · exact fun p hp => (hpaths p).1 ((distinct_sublist fs [] paths).subset hp)
  · exact fun p hp => exists_mem_distinct ((hpaths p).2 hp)

lemma nodup_of_find (h : find fs enter inputs = .ok sources) : sources.Nodup := by
  obtain ⟨paths, rfl, -⟩ := exists_of_find h
  exact nodup_distinct fs paths

/-- No file is reached by two paths. -/
def ReachedOnce (fs : FileSystem) (enter : Bool) (inputs : List Path) : Prop :=
  ∀ p p' place, Reaches fs enter inputs p → Reaches fs enter inputs p' →
    fs.locate p = .ok place → fs.locate p' = .ok place → p = p'

/-- Files that are reached once and can be read are found again if the same is reached. -/
lemma subset_of_reaches (honce : ReachedOnce fs enter inputs)
    (hreaches : ∀ p, Reaches fs enter inputs p ↔ Reaches fs enter inputs' p)
    (hfind : find fs enter inputs = .ok sources) (hfind' : find fs enter inputs' = .ok sources')
    (hread : ∀ p ∈ sources, ∃ content, fs.read p = .ok content)
    (hread' : ∀ p ∈ sources', ∃ content, fs.read p = .ok content) : sources ⊆ sources' := by
  intro p hp
  have hreach := (reaches_of_find hfind).1 p hp
  obtain ⟨p', hp', hsame⟩ := (reaches_of_find hfind').2 p ((hreaches p).1 hreach)
  have hreach' := (hreaches p').2 ((reaches_of_find hfind').1 p' hp')
  obtain ⟨content, hcontent⟩ := hread p hp
  obtain ⟨content', hcontent'⟩ := hread' p' hp'
  obtain ⟨place, hplace, -⟩ := FileSystem.read_eq_ok_iff.1 hcontent
  obtain ⟨place', hplace', -⟩ := FileSystem.read_eq_ok_iff.1 hcontent'
  have hplaces : place' = place := locate_eq_of_identity_eq hsame hplace' hplace
  rw [hplaces] at hplace'
  rwa [honce p p' place hreach hreach' hplace hplace']

/-- The order of the inputs is only seen in the order of the sources. -/
lemma find_perm (hinputs : inputs.Perm inputs') (honce : ReachedOnce fs enter inputs)
    (hfind : find fs enter inputs = .ok sources) (hfind' : find fs enter inputs' = .ok sources')
    (hread : ∀ p ∈ sources, ∃ content, fs.read p = .ok content)
    (hread' : ∀ p ∈ sources', ∃ content, fs.read p = .ok content) : sources.Perm sources' := by
  have hreaches (p : Path) : Reaches fs enter inputs p ↔ Reaches fs enter inputs' p :=
    reaches_perm hinputs
  have honce' : ReachedOnce fs enter inputs' := by
    intro p p' place hp hp'
    exact honce p p' place ((hreaches p).2 hp) ((hreaches p').2 hp')
  rw [List.perm_ext_iff_of_nodup (nodup_of_find hfind) (nodup_of_find hfind')]
  intro p
  constructor
  · exact fun hp => subset_of_reaches honce hreaches hfind hfind' hread hread' hp
  · exact fun hp =>
      subset_of_reaches honce' (fun p => (hreaches p).symm) hfind' hfind hread' hread hp

end Sources

/-! ## What is written -/

section Reorder

variable {fs : FileSystem} {o : Options} {stdout : StandardOutput} {config : Config}
  {inputs inputs' sources sources' : List Path}

/-- The same sources in another order make the same sorted tag file. -/
lemma render_sourceTagFile_eq_of_perm (hperm : sources.Perm sources')
    (hvalid : ∀ p ∈ sources', Utf8.Valid p)
    (hlines : ∀ p ∈ sources', ∀ content, fs.read p = .ok content →
      (Text.lines content).length < 2 ^ 32) :
    (sourceTagFile fs true config none sources).render =
      (sourceTagFile fs true config none sources').render := by
  have hentries (sources : List Path) : (sourceTagFile fs true config none sources).entries =
      sourceEntries fs config sources := entries_sourceTagFile fs true config none sources
  apply TagFile.render_eq_of_perm (sorted_sourceTagFile ..) (sorted_sourceTagFile ..)
  · rw [hentries, hentries]
    exact hperm.flatMap_right _
  · intro a ha b hb hcompare
    rw [hentries] at ha hb
    exact eq_of_compare_eq_of_mem_sourceEntries hvalid hlines ha hb hcompare

/-- **The order of the inputs does not matter.**  Two runs make a sorted tag file anew, with the
same options and from the same file system, and are given the same inputs in another order.  The
paths that are found are UTF-8, no file is reached by two of them, and every file has fewer than 2³²
lines.  If both runs end well, they have the same counts and leave the same tag file.  The tag file
may even be one of the sources, because they are all read before it is written. -/
theorem Generation.generate_eq_of_perm (hsort : o.sort = true) (happend : o.append = false)
    (hinputs : inputs.Perm inputs')
    (hvalid : ∀ p, Sources.Reaches fs o.recurse inputs p → Utf8.Valid p)
    (honce : Sources.ReachedOnce fs o.recurse inputs)
    (hlines : ∀ p content, Sources.Reaches fs o.recurse inputs p → fs.read p = .ok content →
      (Text.lines content).length < 2 ^ 32)
    {summary summary' : Summary}
    (hfirst : (generate fs { o with inputs } stdout).result = .ok summary)
    (hsecond : (generate fs { o with inputs := inputs' } stdout).result = .ok summary') :
    summary = summary' ∧
      (generate fs { o with inputs } stdout).files =
        (generate fs { o with inputs := inputs' } stdout).files ∧
      (generate fs { o with inputs } stdout).output =
        (generate fs { o with inputs := inputs' } stdout).output ∧
      ∀ target, o.target = .file target → ∃ text,
        (generate fs { o with inputs } stdout).files.read target = .ok text ∧
        (generate fs { o with inputs := inputs' } stdout).files.read target = .ok text := by
  obtain ⟨sources, existing, hfind, hread, hexisting, hstore⟩ := exists_of_generate_ok hfirst
  obtain ⟨sources', existing', hfind', hread', hexisting', hstore'⟩ :=
    exists_of_generate_ok hsecond
  cases (existingText_of_not_append happend).symm.trans hexisting
  cases (existingText_of_not_append happend).symm.trans hexisting'
  have hperm : sources.Perm sources' :=
    Sources.find_perm hinputs honce hfind hfind' hread hread'
  have hreaches : ∀ p ∈ sources', Sources.Reaches fs o.recurse inputs p := fun p hp =>
    (Sources.reaches_perm hinputs).2 ((Sources.reaches_of_find hfind').1 p hp)
  have hrender : (sourceTagFile fs o.sort o.scan none sources).render =
      (sourceTagFile fs o.sort o.scan none sources').render := by
    rw [hsort]
    exact render_sourceTagFile_eq_of_perm hperm (fun p hp => hvalid p (hreaches p hp))
      fun p hp content => hlines p content (hreaches p hp)
  -- the two runs store the same text
  have hsame : Except.ok ((generate fs { o with inputs } stdout).files,
        (generate fs { o with inputs } stdout).output) =
      (Except.ok ((generate fs { o with inputs := inputs' } stdout).files,
        (generate fs { o with inputs := inputs' } stdout).output) : Except AccessFailure _) := by
    rw [← hstore, ← hstore']
    exact congrArg (store fs stdout o.target) hrender
  obtain ⟨hfiles, houtput⟩ := Prod.mk.inj (Except.ok.inj hsame)
  have hcounts : summary = summary' := by
    rw [summary_of_generate_ok hfirst hfind, summary_of_generate_ok hsecond hfind',
      hperm.length_eq, sourceEntries, sourceEntries, (hperm.flatMap_right _).length_eq]
  refine ⟨hcounts, hfiles, houtput, fun target htarget => ?_⟩
  have hwrite := write_of_store ((congrArg (store fs stdout · _) htarget).symm.trans hstore)
  have hread := FileSystem.read_of_write hwrite
  exact ⟨_, hread, hfiles ▸ hread⟩

end Reorder

/-! ## A file and its directory -/

namespace Reorder

/-- Three sources that define functions of one name, two of them in a directory. -/
def files : FileSystem where
  root := [(Bytes.ofString "lib", .directory
      [(Bytes.ofString "b.exs", .file (Bytes.ofString "def f\n")),
        (Bytes.ofString "a.ex", .file (Bytes.ofString "def f\n"))]),
    (Bytes.ofString "main.ex", .file (Bytes.ofString "defmodule Main do\n  def f\n"))]
  workingDirectory := []

/-- One of the sources is also named by itself. -/
def inputs : List Path := ["lib/a.ex", "main.ex", "lib"].map Bytes.ofString

def sources : List Path := ["lib/a.ex", "main.ex", "lib/b.exs"].map Bytes.ofString

def options : Options := { recurse := true }

def run (inputs : List Path) : Generation := generate files { options with inputs }

/-- In the directory, the sources are found in the order of their paths. -/
lemma atInput_lib : Sources.atInput files .elixir true (Bytes.ofString "lib") =
    .ok (["lib/a.ex", "lib/b.exs"].map (.source <| Bytes.ofString ·)) := by
  have hlib : files.find (Bytes.ofString "lib") = .ok (.directory _) := rfl
  simp only [Sources.atInput, hlib, if_true, Sources.inDirectory]
  rw [List.mergeSort_eq_insertionSort_of_total (fun _ _ _ => Std.TransCmp.isLE_trans)
    Path.order_total]
  decide

lemma survey_inputs : (Sources.survey files .elixir true inputs).result =
    .ok ([["lib/a.ex"], ["main.ex"], ["lib/a.ex", "lib/b.exs"]].map
      (·.map (.source <| Bytes.ofString ·))) := by
  rw [Sources.survey, Sweep.result_along_eq_ok_iff]
  exact congrArg (fun found => [_, _, found]) atInput_lib

lemma find_inputs : Sources.find files true inputs = .ok sources :=
  Sources.find_eq_ok_iff.2 ⟨_, survey_inputs, by decide⟩

lemma find_reversed : Sources.find files true inputs.reverse =
    .ok (["lib/a.ex", "lib/b.exs", "main.ex"].map Bytes.ofString) := by
  have hsurvey : (Sources.survey files .elixir true inputs.reverse).result =
      .ok ([["lib/a.ex", "lib/b.exs"], ["main.ex"], ["lib/a.ex"]].map
        (·.map (.source <| Bytes.ofString ·))) := by
    rw [Sources.survey, Sweep.result_along_eq_ok_iff]
    exact congrArg (fun found => [found, _, _]) atInput_lib
  exact Sources.find_eq_ok_iff.2 ⟨_, hsurvey, by decide⟩

lemma mem_of_reaches {p : Path} (h : Sources.Reaches files true inputs p) : p ∈ sources := by
  obtain ⟨d, hd, found, hat, hp⟩ := h
  have hfound := (Sweep.mem_iff_of_result_along survey_inputs).2 ⟨d, hd, hat⟩
  have hsources : ∀ found ∈ [["lib/a.ex"], ["main.ex"], ["lib/a.ex", "lib/b.exs"]].map
      (·.map (.source <| Bytes.ofString ·)), ∀ q ∈ found.filterMap Finding.source?,
        q ∈ sources := by
    decide
  exact hsources found hfound p (Sources.mem_filterMap_source?_iff.2 hp)

lemma read_sources :
    ∀ p ∈ sources, ∃ content, files.read p = .ok content ∧ (Text.lines content).length < 3 := by
  simp only [sources, List.map_cons, List.map_nil, List.forall_mem_cons, List.not_mem_nil,
    false_implies, implies_true, and_true]
  exact ⟨⟨_, rfl, by decide⟩, ⟨_, rfl, by decide⟩, ⟨_, rfl, by decide⟩⟩

lemma exists_run {inputs found : List Path} (hfind : Sources.find files true inputs = .ok found)
    (hfound : ∀ p ∈ found, p ∈ sources) : ∃ summary, (run inputs).result = .ok summary := by
  have hread : ∀ p ∈ found, ∃ content, files.read p = .ok content := by
    intro p hp
    obtain ⟨content, hcontent, -⟩ := read_sources p (hfound p hp)
    exact ⟨content, hcontent⟩
  obtain ⟨summary, hresult, -⟩ := Generation.exists_generate_eq (o := { options with inputs })
    .takes hfind hread (existingText_of_not_append rfl) rfl
  exact ⟨summary, hresult⟩

end Reorder

/-- The sources are found in another order if the inputs are turned round, and the tag file is the
same. -/
theorem Generation.generate_eq_of_perm_reversed :
    Reorder.inputs.Perm Reorder.inputs.reverse ∧
      (∀ p, Sources.Reaches Reorder.files true Reorder.inputs p → Utf8.Valid p) ∧
      Sources.ReachedOnce Reorder.files true Reorder.inputs ∧
      (∀ p content, Sources.Reaches Reorder.files true Reorder.inputs p →
        Reorder.files.read p = .ok content → (Text.lines content).length < 2 ^ 32) ∧
      Sources.find Reorder.files true Reorder.inputs ≠
        Sources.find Reorder.files true Reorder.inputs.reverse ∧
      ∃ summary text, (Reorder.run Reorder.inputs).result = .ok summary ∧
        (Reorder.run Reorder.inputs.reverse).result = .ok summary ∧
        (Reorder.run Reorder.inputs).files.read (Bytes.ofString "tags") = .ok text ∧
        (Reorder.run Reorder.inputs.reverse).files.read (Bytes.ofString "tags") = .ok text := by
  have hinputs : Reorder.inputs.Perm Reorder.inputs.reverse := (List.reverse_perm _).symm
  have hread := Reorder.read_sources
  have hvalid : ∀ p ∈ Reorder.sources, Utf8.Valid p := by decide
  have hplaces : ∀ p ∈ Reorder.sources, ∀ p' ∈ Reorder.sources,
      Reorder.files.locate p = Reorder.files.locate p' → p = p' := by decide
  have honce : Sources.ReachedOnce Reorder.files true Reorder.inputs := by
    intro p p' place hp hp' hplace hplace'
    exact hplaces p (Reorder.mem_of_reaches hp) p' (Reorder.mem_of_reaches hp')
      (hplace.trans hplace'.symm)
  have hlines : ∀ p content, Sources.Reaches Reorder.files true Reorder.inputs p →
      Reorder.files.read p = .ok content → (Text.lines content).length < 2 ^ 32 := by
    intro p content hp hcontent
    obtain ⟨content', hcontent', hlength⟩ := hread p (Reorder.mem_of_reaches hp)
    cases hcontent.symm.trans hcontent'
    exact hlength.trans (by decide)
  have hother : ∀ p ∈ ["lib/a.ex", "lib/b.exs", "main.ex"].map Bytes.ofString,
      p ∈ Reorder.sources := by decide
  obtain ⟨summary, hfirst⟩ := Reorder.exists_run Reorder.find_inputs fun p hp => hp
  obtain ⟨summary', hsecond⟩ := Reorder.exists_run Reorder.find_reversed hother
  obtain ⟨rfl, -, -, htags⟩ := generate_eq_of_perm (o := Reorder.options) rfl rfl hinputs
    (fun p hp => hvalid p (Reorder.mem_of_reaches hp)) honce hlines hfirst hsecond
  obtain ⟨text, htext, htext'⟩ := htags _ rfl
  refine ⟨hinputs, fun p hp => hvalid p (Reorder.mem_of_reaches hp), honce, hlines, ?_, summary,
    text, hfirst, hsecond, htext, htext'⟩
  rw [Reorder.find_inputs, Reorder.find_reversed]
  decide

end ElixirTags
