import ElixirTags.Proofs.TagFile.Reading
import Mathlib.Algebra.GroupWithZero.Nat

/-!
# A tag file can be read field by field

Nothing is escaped in a tag file: names and paths stand between tabs, and lines between newlines.
Here a tag file is read by what the format says alone.  Lines are cut at newlines and fields at
tabs, and `Framing.tagOfFields` turns the fields of a line into a path and a tag.

What is read is what was written (`TagFile.tagOfFields_render`).  The names are those of a scan,
whose bytes belong to identifiers, and a path that could not be told from the marks around it is
left out together with its tags (`Framing.written`).
-/

namespace ElixirTags

/-- The name of the tag and the module that it is attributed to are made of bytes that belong to
identifiers of one class or the other. -/
structure Tag.Named (tag : Tag) : Prop where
  name : ∀ b ∈ tag.name, ∃ cls : IdentClass, cls.contains b = true
  owner : ∀ owner, tag.owner = some owner → ∀ b ∈ owner, ∃ cls : IdentClass, cls.contains b = true

lemma Tag.Named.hasFields {tag : Tag} (h : tag.Named) : tag.HasFields where
  name := Text.isField_of_contains h.name
  owner owner howner := Text.isField_of_contains (h.owner owner howner)

namespace Framing

/-! ## What is written -/

/-- The tags that find their way into a tag file, each with the path as shown: those of the files
whose paths hold neither a tab nor a line break. -/
def written (files : List FileTags) : List (Bytes × Tag) :=
  (files.filter fun f => Byte.tab ∉ f.shownPath ∧ Byte.newline ∉ f.shownPath ∧
      Byte.carriageReturn ∉ f.shownPath).flatMap
    fun f => f.tags.map fun tag => (f.shownPath, tag)

/-- The fields of a line: four, and a fifth if the tag is attributed to a module. -/
def fields (file : Bytes) (tag : Tag) : List Bytes :=
  [tag.name, file, Decimal.digits tag.line ++ Bytes.ofString ";\"",
    Bytes.ofString "kind:" ++ Bytes.ofString tag.kind.name] ++
  match tag.owner with
  | some owner => [Bytes.ofString "module:" ++ owner]
  | none => []

lemma isField_iff {file : Bytes} : Text.IsField file ↔
    Byte.tab ∉ file ∧ Byte.newline ∉ file ∧ Byte.carriageReturn ∉ file := by
  constructor
  · intro h
    exact ⟨fun hb => (h _ hb).1 rfl, fun hb => (h _ hb).2.1 rfl, fun hb => (h _ hb).2.2 rfl⟩
  · rintro ⟨htab, hnewline, hreturn⟩ b hb
    refine ⟨?_, ?_, ?_⟩
    · rintro rfl
      exact htab hb
    · rintro rfl
      exact hnewline hb
    · rintro rfl
      exact hreturn hb

lemma flatMap_entries (files : List FileTags) : files.flatMap FileTags.entries =
    (written files).map fun (file, tag) => Entry.ofTag file tag := by
  induction files with
  | nil => rfl
  | cons f files ih =>
      rw [List.flatMap_cons, ih, FileTags.entries]
      simp only [written, List.filter_cons, ← isField_iff, FileTags.isWritable_iff,
        decide_eq_true_eq]
      split
      · rw [List.flatMap_cons, List.map_append, List.map_map]
        rfl
      · rfl

lemma of_mem_written {files : List FileTags} {file : Bytes} {tag : Tag}
    (h : (file, tag) ∈ written files) : Text.IsField file ∧ ∃ f ∈ files, tag ∈ f.tags := by
  obtain ⟨f, hf, hmem⟩ := List.mem_flatMap.1 h
  obtain ⟨hf, hpath⟩ := List.mem_filter.1 hf
  obtain ⟨_, htag, heq⟩ := List.mem_map.1 hmem
  cases heq
  exact ⟨isField_iff.2 (of_decide_eq_true hpath), f, hf, htag⟩

lemma fieldsOfTag_eq (file : Bytes) (tag : Tag) : Entry.fieldsOfTag file tag = fields file tag := by
  rw [Entry.fieldsOfTag, fields, Tag.scope]
  cases tag.owner with
  | none => rfl
  | some owner => rfl

/-! ## What is read -/

/-- The line number in an address. -/
def line? (field : Bytes) : Option LineNumber :=
  ((Bytes.ofString ";\"").isSuffixOf? field).bind Decimal.parse?

/-- The kind in the field for it. -/
def kind? (field : Bytes) : Option Kind :=
  ((Bytes.ofString "kind:").isPrefixOf? field).bind fun name =>
    Kind.all.find? fun k => Bytes.ofString k.name == name

/-- The module in the field for it. -/
def owner? (field : Bytes) : Option Bytes :=
  (Bytes.ofString "module:").isPrefixOf? field

/-- The path and the tag that the fields of a line stand for. -/
def tagOfFields : List Bytes → Option (Bytes × Tag)
  | [name, file, address, kind] => do
    let line ← line? address
    let kind ← kind? kind
    return (file, { name, kind, line })
  | [name, file, address, kind, scope] => do
    let line ← line? address
    let kind ← kind? kind
    let owner ← owner? scope
    return (file, { name, kind, line, owner := some owner })
  | _ => none

lemma line?_address (n : LineNumber) :
    line? (Decimal.digits n ++ Bytes.ofString ";\"") = some n := by
  rw [line?, List.isSuffixOf?_eq_some_iff_append_eq.2 rfl]
  exact Decimal.parse?_digits n

lemma kind?_kind (k : Kind) :
    kind? (Bytes.ofString "kind:" ++ Bytes.ofString k.name) = some k := by
  rw [kind?, List.isPrefixOf?_eq_some_iff_append_eq.2 rfl]
  cases k <;> decide

lemma owner?_scope (owner : Bytes) : owner? (Bytes.ofString "module:" ++ owner) = some owner :=
  List.isPrefixOf?_eq_some_iff_append_eq.2 rfl

/-- The fields of a tag stand for the tag and its path. -/
lemma tagOfFields_fields (file : Bytes) (tag : Tag) :
    tagOfFields (fields file tag) = some (file, tag) := by
  obtain ⟨name, kind, line, owner⟩ := tag
  cases owner with
  | none => simp [fields, tagOfFields, line?_address, kind?_kind]
  | some owner => simp [fields, tagOfFields, line?_address, kind?_kind, owner?_scope]

end Framing

/-- **A tag file holds its tags.**  After the header of a tag file that is made of scanned files
come as many lines as the files have entries, each with a newline at its end and none inside.  Cut
at tabs, these lines are the fields of the tags in order, without the files whose paths as shown
hold a tab or a line break, and the fields give back the tags and the paths. -/
theorem TagFile.tagOfFields_render (files : List FileTags)
    (h : ∀ f ∈ files, ∀ tag ∈ f.tags, tag.Named) :
    ∃ lines : List Bytes,
      (files.foldl add { sorted := false }).render =
        header false ++ lines.flatMap (· ++ [Byte.newline]) ∧
      (∀ line ∈ lines, Byte.newline ∉ line) ∧
      lines.length = (files.map fun f => f.entries.length).sum ∧
      lines.map (·.splitOn Byte.tab) =
        (Framing.written files).map (fun (file, tag) => Framing.fields file tag) ∧
      lines.map (fun line => Framing.tagOfFields (line.splitOn Byte.tab)) =
        (Framing.written files).map some := by
  have hentries : (files.foldl add { sorted := false }).ordered =
      (Framing.written files).map fun (file, tag) => Entry.ofTag file tag := by
    rw [foldl_add, ordered, Framing.flatMap_entries]
    rfl
  have hwritten : ∀ p ∈ Framing.written files, Text.IsField p.1 ∧ p.2.HasFields := by
    rintro ⟨file, tag⟩ hmem
    obtain ⟨hfield, f, hf, htag⟩ := Framing.of_mem_written hmem
    exact ⟨hfield, (h f hf tag htag).hasFields⟩
  have hsplit : ∀ p ∈ Framing.written files,
      (Entry.ofTag p.1 p.2).text.splitOn Byte.tab = Framing.fields p.1 p.2 := by
    intro p hp
    rw [Entry.splitOn_tab_ofTag (hwritten p hp).1 (hwritten p hp).2, Framing.fieldsOfTag_eq]
  refine ⟨(Framing.written files).map fun (file, tag) => (Entry.ofTag file tag).text,
    ?_, ?_, ?_, ?_, ?_⟩
  · rw [render, hentries, foldl_add, List.flatMap_map, List.flatMap_map]
  · intro line hline hnewline
    obtain ⟨p, hp, rfl⟩ := List.mem_map.1 hline
    exact (Entry.mem_text_ofTag (hwritten p hp).1 (hwritten p hp).2 hnewline).1 rfl
  · rw [← List.length_flatMap, Framing.flatMap_entries, List.length_map, List.length_map]
  · rw [List.map_map]
    exact List.map_congr_left hsplit
  · rw [List.map_map]
    refine List.map_congr_left fun p hp => ?_
    show Framing.tagOfFields ((Entry.ofTag p.1 p.2).text.splitOn Byte.tab) = some p
    rw [hsplit p hp, Framing.tagOfFields_fields]

/-! ## Three files -/

namespace Framing

/-- A function of the greatest line number and a macro without a module. -/
def tags : List Tag :=
  [{ name := Bytes.ofString "valid?", kind := .functionDef, line := 4294967295,
     owner := some (Bytes.ofString "Shop.Cart") },
    { name := Bytes.ofString "with_cart", kind := .macroDef, line := 7 }]

/-- A file, one whose path holds a tab, and one whose path is not UTF-8. -/
def files : List FileTags :=
  [⟨Bytes.ofString "lib/cart.ex", tags⟩, ⟨Bytes.ofString "lib/a\tb.ex", tags⟩,
    ⟨0xFF :: Bytes.ofString ".ex", tags.drop 1⟩]

lemma named_tags : ∀ tag ∈ tags, tag.Named := by
  have hvalid : (Bytes.ofString "valid?").all IdentClass.punctuated.contains = true := by decide
  have hcart : (Bytes.ofString "Shop.Cart").all IdentClass.dotted.contains = true := by decide
  have hwith : (Bytes.ofString "with_cart").all IdentClass.dotted.contains = true := by decide
  rw [List.all_eq_true] at hvalid hcart hwith
  simp only [tags, List.forall_mem_cons, List.not_mem_nil, false_implies, implies_true, and_true]
  refine ⟨⟨fun b hb => ⟨_, hvalid b hb⟩, ?_⟩, ⟨fun b hb => ⟨_, hwith b hb⟩, ?_⟩⟩
  · intro owner howner
    cases howner
    exact fun b hb => ⟨_, hcart b hb⟩
  · intro owner howner
    cases howner

end Framing

/-- The tags of two of the files are read back. -/
theorem TagFile.tagOfFields_render_files :
    (∀ f ∈ Framing.files, ∀ tag ∈ f.tags, tag.Named) ∧
      ∃ lines : List Bytes,
        (Framing.files.foldl add { sorted := false }).render =
          header false ++ lines.flatMap (· ++ [Byte.newline]) ∧
        lines.length = 3 ∧
        lines.map (fun line => Framing.tagOfFields (line.splitOn Byte.tab)) =
          (Framing.tags.map fun tag => some (Bytes.ofString "lib/cart.ex", tag)) ++
            (Framing.tags.drop 1).map fun tag => some (Bytes.ofString "\uFFFD.ex", tag) := by
  have hfiles : ∀ f ∈ Framing.files, ∀ tag ∈ f.tags, tag.Named := by
    intro f hf tag htag
    simp only [Framing.files, List.mem_cons, List.not_mem_nil, or_false] at hf
    rcases hf with rfl | rfl | rfl
    · exact Framing.named_tags tag htag
    · exact Framing.named_tags tag htag
    · exact Framing.named_tags tag (List.mem_of_mem_drop htag)
  obtain ⟨lines, hrender, -, hlength, -, htags⟩ := tagOfFields_render Framing.files hfiles
  refine ⟨hfiles, lines, hrender, ?_, ?_⟩
  · rw [hlength]
    decide
  · rw [htags]
    decide

end ElixirTags
