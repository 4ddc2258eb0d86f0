import ElixirTags.Proofs.Program.Contents
import ElixirTags.Proofs.TagFile.Sorting

/-!
# Merging twice

Merging the same scanned files into a tag file for a second time changes nothing
(`TagFile.render_ofFiles_idempotent`).  The second time reads what the first has written: lines of
some other tool, which stay as they are, and the lines of tags.  Whether a line of a tag is taken
for its entry or for one about the tag file itself, it is not kept, because it names a file that is
scanned again.  So what is kept is what was kept the first time, in the order in which it was
written (`TagFile.keptEntries_render`).

A carriage return is left out here because it is part of a line ending only if a newline follows:
a line that ends in two of them loses one each time it is read.
-/

namespace ElixirTags

namespace TagFile

section Repeat

variable (sorted : Bool) {text : Bytes} {files : List FileTags}

/-- The line of an entry holds no line breaks, and it is read as the entry, unless it names one of
the scanned files. -/
lemma of_mem_entries_ofFiles {e : Entry} (htext : Byte.carriageReturn ∉ text)
    (hfiles : ∀ f ∈ files, ∀ tag ∈ f.tags, tag.HasFields)
    (he : e ∈ (ofFiles sorted (some text) files).entries) :
    Byte.newline ∉ e.text ∧ Byte.carriageReturn ∉ e.text ∧
      (e.file ∉ files.map FileTags.shownPath ∧ Entry.parse? e.text = some e ∨
        e.file ∈ files.map FileTags.shownPath ∧ Entry.fileField? e.text = some e.file) := by
  rw [ofFiles_eq] at he
  rcases List.mem_append.1 he with hkept | hnew
  · obtain ⟨hexisting, hfile⟩ := List.mem_filter.1 hkept
    obtain ⟨hline, hparse⟩ := parse?_of_mem_existingEntries hexisting
    refine ⟨Text.not_mem_of_mem_recordLines hline, ?_, .inl ⟨of_decide_eq_true hfile, hparse⟩⟩
    exact fun hreturn => htext (Text.subset_of_mem_recordLines hline hreturn)
  · obtain ⟨f, hf, hmem⟩ := List.mem_flatMap.1 hnew
    obtain ⟨hfield, tag, htag, rfl⟩ := mem_entries_iff.1 hmem
    have hfields := hfiles f hf tag htag
    refine ⟨fun hb => (Entry.mem_text_ofTag hfield hfields hb).1 rfl,
      fun hb => (Entry.mem_text_ofTag hfield hfields hb).2 rfl, .inr ⟨?_, ?_⟩⟩
    · exact List.mem_map_of_mem hf
    · exact Entry.fileField?_ofTag hfield hfields

/-- What is kept of a tag file if the files that it was made of are scanned again. -/
lemma keptEntries_render (htext : Byte.carriageReturn ∉ text)
    (hfiles : ∀ f ∈ files, ∀ tag ∈ f.tags, tag.HasFields) :
    keptEntries (some (ofFiles sorted (some text) files).render) (files.map FileTags.shownPath) =
      (ofFiles sorted (some text) files).ordered.filter
        (·.file ∉ files.map FileTags.shownPath) := by
  have hline := fun e => of_mem_entries_ofFiles sorted (e := e) htext hfiles
  have hread : existingEntries (ofFiles sorted (some text) files).render =
      (ofFiles sorted (some text) files).ordered.filterMap fun e => Entry.parse? e.text := by
    refine existingEntries_render_eq_filterMap (fun e he => (hline e he).1) fun e he => ?_
    exact Text.dropReturn_of_ne fun hlast => (hline e he).2.1 (List.mem_of_getLast? hlast)
  rw [keptEntries_some, hread, List.filter_filterMap, ← List.filterMap_eq_filter]
  apply List.filterMap_congr
  intro e he
  rcases (hline e ((ofFiles ..).ordered_perm.mem_iff.1 he)).2.2 with
    ⟨hfile, hparse⟩ | ⟨hfile, hfield⟩
  · rw [hparse, Option.filter_some, Option.guard]
  · -- if the line is read as an entry, then as one of the same file
    rw [Option.guard, if_neg (by simpa using hfile), Option.filter_eq_none_iff]
    intro e' hparse
    rw [(Entry.text_of_parse? hparse).2, Option.some.injEq] at hfield
    rw [hfield]
    simpa using hfile

/-- Without the entries of the scanned files a tag file is what was kept at first. -/
lemma filter_file_entries_ofFiles (text : Bytes) (files : List FileTags) :
    (ofFiles sorted (some text) files).entries.filter (·.file ∉ files.map FileTags.shownPath) =
      keptEntries (some text) (files.map FileTags.shownPath) := by
  have hkept : ∀ e ∈ keptEntries (some text) (files.map FileTags.shownPath),
      decide (e.file ∉ files.map FileTags.shownPath) = true :=
    fun e he => (List.mem_filter.1 he).2
  have hnew : ∀ e ∈ files.flatMap FileTags.entries,
      ¬ decide (e.file ∉ files.map FileTags.shownPath) = true := by
    intro e he
    obtain ⟨f, hf, hmem⟩ := List.mem_flatMap.1 he
    rw [file_of_mem_entries hmem]
    simpa using ⟨f, hf, rfl⟩
  rw [ofFiles_eq, List.filter_append, List.filter_eq_self.2 hkept, List.filter_eq_nil_iff.2 hnew,
    List.append_nil]

/-- What is kept the second time has the entries of each key that were kept the first time. -/
lemma filter_key_keptEntries_render (htext : Byte.carriageReturn ∉ text)
    (hfiles : ∀ f ∈ files, ∀ tag ∈ f.tags, tag.HasFields) (k : Bytes × Bytes × LineNumber) :
    (keptEntries (some (ofFiles sorted (some text) files).render)
        (files.map FileTags.shownPath)).filter (·.key = k) =
      (keptEntries (some text) (files.map FileTags.shownPath)).filter (·.key = k) := by
  rw [keptEntries_render sorted htext hfiles, List.filter_comm, filter_key_ordered,
    List.filter_comm, filter_file_entries_ofFiles]

end Repeat

/-- **Merging again changes nothing.**  Scanned files are merged into a text without carriage
returns, and then into the tag file that this gives.  The second tag file is the first one. -/
theorem render_ofFiles_idempotent (sorted : Bool) (text : Bytes) (files : List FileTags)
    (htext : Byte.carriageReturn ∉ text)
    (hfiles : ∀ f ∈ files, ∀ tag ∈ f.tags, ∃ config lines, tag ∈ scanLines config lines) :
    (ofFiles sorted (some (ofFiles sorted (some text) files).render) files).render =
      (ofFiles sorted (some text) files).render := by
  have hfields : ∀ f ∈ files, ∀ tag ∈ f.tags, tag.HasFields := by
    intro f hf tag htag
    obtain ⟨config, lines, hscan⟩ := hfiles f hf tag htag
    exact (wellFormed_of_mem_scanLines hscan).hasFields
  apply render_eq_of_ordered_eq
  · rw [sorted_ofFiles, sorted_ofFiles]
  cases sorted with
  | false =>
      have hkept := keptEntries_render false htext hfields
      rw [ordered_of_not_sorted (sorted_ofFiles ..), filter_file_entries_ofFiles] at hkept
      rw [ordered_of_not_sorted (sorted_ofFiles ..), ordered_of_not_sorted (sorted_ofFiles ..),
        ofFiles_eq, hkept, ofFiles_eq]
  | true =>
      refine ordered_eq_of_filter_key (sorted_ofFiles ..) (sorted_ofFiles ..) fun k => ?_
      have hkept := filter_key_keptEntries_render true htext hfields k
      rw [ofFiles_eq, List.filter_append, hkept, ofFiles_eq, List.filter_append]

/-! ## A tag file of two tools -/

namespace Repeat

/-- A tag file with lines of another tool, two lines for the same place, and lines that name no
definition.  One of its files is scanned again. -/
def text : Bytes := Bytes.ofString <|
  "!_TAG_FILE_SORTED\t0\n" ++ "f\ta.ex\t4;\"\tkind:function\n" ++ "g\tb.rb\t/^g$/;\"\tf\n\n" ++
    "c\tb.ex\t2\told\n" ++ "c\tb.ex\t2\tolder\n" ++ "nothing"

/-- A file with a function and a macro whose name begins as the header does. -/
def files : List FileTags :=
  [⟨Bytes.ofString "a.ex", scanSource .standard (Bytes.ofString "def f\ndefmacro !_m\n")⟩]

end Repeat

/-- The lines of the other tool and those of the scanned file stay as they are. -/
theorem render_ofFiles_idempotent_foreign :
    Byte.carriageReturn ∉ Repeat.text ∧
      (∀ f ∈ Repeat.files, ∀ tag ∈ f.tags, ∃ config lines, tag ∈ scanLines config lines) ∧
      (ofFiles true (some Repeat.text) Repeat.files).ordered.map Entry.text = [
        "!_m\ta.ex\t2;\"\tkind:macro", "c\tb.ex\t2\told", "c\tb.ex\t2\tolder",
        "f\ta.ex\t1;\"\tkind:function", "g\tb.rb\t/^g$/;\"\tf"].map Bytes.ofString ∧
      (ofFiles true (some (ofFiles true (some Repeat.text) Repeat.files).render)
        Repeat.files).render = (ofFiles true (some Repeat.text) Repeat.files).render := by
  have htext : Byte.carriageReturn ∉ Repeat.text := by decide +kernel
  have hfiles : ∀ f ∈ Repeat.files, ∀ tag ∈ f.tags,
      ∃ config lines, tag ∈ scanLines config lines := by
    intro f hf tag htag
    rw [List.mem_singleton.1 hf] at htag
    exact ⟨_, _, htag⟩
  refine ⟨htext, hfiles, ?_, render_ofFiles_idempotent true Repeat.text Repeat.files htext hfiles⟩
  rw [ordered_eq]
  decide +kernel

end TagFile

end ElixirTags
