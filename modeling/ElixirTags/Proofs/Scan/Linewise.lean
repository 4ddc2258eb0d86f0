import ElixirTags.Proofs.Scan.Words
import ElixirTags.Proofs.Text.Numbering
import Mathlib.Data.List.Basic

/-!
# A scan is made line by line

A scan carries the current module from line to line, and a wrong step would show only in the scope
of a tag far below.  Here a scan is compared with a description that carries nothing:
`Linewise.tags` asks a fresh session about each line by itself, and looks up the module of a
function among the lines before it.

The invariant is that the owner a line is read with is the last module begun on the lines before it
(`Reading.ofLines_eq_mapIdx`).  The main result is `scanSource_eq_linewise`.
-/

namespace ElixirTags

/-! ## The module that a line stands in -/

/-- The last module that some lines begin. -/
def Text.lastModule? (cls : IdentClass) (lines : List Bytes) : Option Bytes :=
  lines.reverse.findSome? (begunModule? cls)

lemma Text.lastModule?_cons (cls : IdentClass) (line : Bytes) (rest : List Bytes) :
    lastModule? cls (line :: rest) = (lastModule? cls rest).or (begunModule? cls line) := by
  rw [lastModule?, lastModule?, List.reverse_cons, List.findSome?_append, List.findSome?_singleton]

lemma Text.isWord_of_lastModule? {cls : IdentClass} {lines : List Bytes} {name : Bytes}
    (h : lastModule? cls lines = some name) : cls.IsWord name := by
  obtain ⟨line, -, hline⟩ := List.exists_of_findSome?_eq_some h
  exact isWord_of_begunModule? hline

/-- Every line is read with the last module begun on the lines before it, or else with the owner
that the first line is read with. -/
lemma Reading.ofLines_eq_mapIdx (config : Config) (lines : List (LineNumber × Bytes)) :
    ∀ owner, ofLines config owner lines = lines.mapIdx fun i line =>
      ⟨line.1, (Text.lastModule? config.identClass ((lines.take i).map Prod.snd)).or owner,
        .ofLine config line.2⟩ := by
  induction lines with
  | nil => intro owner; rfl
  | cons line rest ih =>
      intro owner
      obtain ⟨n, text⟩ := line
      rw [ofLines, List.mapIdx_cons]
      congr 1
      rw [ih]
      congr 1
      funext i next
      rw [List.take_succ_cons, List.map_cons, Text.lastModule?_cons, Option.or_assoc]
      rw [ownerAfter, ofLine, Verdict.ownerAfter_ofLine]

/-! ## The description -/

namespace Linewise

variable (config : Config)

/-- The tags that a fresh session finds on a line. -/
def freshTags (line : Bytes) : List Tag :=
  Reading.tags config (({ config } : Session).call (.line 1 line)).1.readings

/-- The tags that a line contributes at its place: those that a fresh session finds on it, with the
number of the line, and attributed to the last module begun on the earlier lines if the line
defines a function and functions are attributed at all. -/
def tagsAt (earlier : List Bytes) (number : Nat) (line : Bytes) : List Tag :=
  (freshTags config line).map fun tag =>
    { tag with
      line := .ofNat number
      owner :=
        if Text.DefinesFunction config.identClass line ∧ config.scopes = true then
          Text.lastModule? config.identClass earlier
        else none }

/-- The tags of some lines, each line taken by itself. -/
def tags (lines : List Bytes) : List Tag :=
  (lines.mapIdx fun i line => tagsAt config (lines.take i) (i + 1) line).flatten

/-- A fresh session finds what the verdict on the line says, and so at most one tag. -/
lemma freshTags_eq (line : Bytes) :
    freshTags config line = ((Verdict.ofLine config line).tag? config none 1).toList := by
  simp only [freshTags, Session.call, Reading.tags, Reading.ofLine, Reading.tag?,
    List.filterMap_cons, List.filterMap_nil]
  cases (Verdict.ofLine config line).tag? config none 1 <;> rfl

lemma length_freshTags_le (line : Bytes) : (freshTags config line).length ≤ 1 := by
  rw [freshTags_eq]
  exact Option.length_toList_le

lemma tag?_ofLine_toList (earlier : List Bytes) (n : Nat) (line : Bytes) :
    ((Verdict.ofLine config line).tag? config (Text.lastModule? config.identClass earlier)
      (.ofNat n)).toList = tagsAt config earlier n line := by
  rw [Verdict.tag?_ofLine config line _ 1, tagsAt, freshTags_eq]
  cases (Verdict.ofLine config line).tag? config none 1 <;> rfl

end Linewise

/-! ## The comparison -/

/-- The tags of lines that are numbered from one on are those of the lines taken by themselves. -/
lemma scanLines_numberFrom (config : Config) {lines : List Bytes} (h : lines.length < 2 ^ 32) :
    scanLines config (Text.numberFrom 1 lines) = Linewise.tags config lines := by
  rw [scanLines, Reading.tags, Reading.ofLines_eq_mapIdx, List.filterMap_eq_flatMap_toList,
    List.flatMap_def, Linewise.tags]
  congr 1
  apply List.ext_getElem
  · simp
  intro i hi hi'
  have hlines : ((Text.numberFrom 1 lines).take i).map Prod.snd = lines.take i := by
    rw [List.map_take, Text.map_snd_numberFrom]
  simp only [List.getElem_map, List.getElem_mapIdx, hlines, Option.or_none]
  simp only [Text.numberFrom_one h, List.getElem_mapIdx]
  exact Linewise.tag?_ofLine_toList config _ _ _

/-- Every tag of some lines is what the verdict on one of them says, with the last module begun on
the lines before it as the owner. -/
lemma exists_tag?_of_mem_scanLines {config : Config} {lines : List (LineNumber × Bytes)} {tag : Tag}
    (h : tag ∈ scanLines config lines) :
    ∃ line ∈ lines, ∃ earlier,
      (Verdict.ofLine config line.2).tag? config (Text.lastModule? config.identClass earlier)
        line.1 = some tag := by
  rw [scanLines, Reading.tags, Reading.ofLines_eq_mapIdx, List.mem_filterMap] at h
  obtain ⟨reading, hmem, htag⟩ := h
  obtain ⟨i, hi, rfl⟩ := List.mem_mapIdx.1 hmem
  rw [Reading.tag?, Option.or_none] at htag
  exact ⟨lines[i], List.getElem_mem hi, _, htag⟩

/-- Every tag of numbered lines has the number of a line, and the name and the kind of what a fresh
session finds on that line. -/
lemma exists_line_of_mem_scanLines {config : Config} {lines : List (LineNumber × Bytes)} {tag : Tag}
    (h : tag ∈ scanLines config lines) :
    ∃ line, (tag.line, line) ∈ lines ∧
      ∃ fresh ∈ Linewise.freshTags config line, fresh.name = tag.name ∧ fresh.kind = tag.kind := by
  obtain ⟨line, hline, earlier, htag⟩ := exists_tag?_of_mem_scanLines h
  rw [Verdict.tag?_ofLine config _ _ 1, Option.map_eq_some_iff] at htag
  obtain ⟨fresh, hfresh, rfl⟩ := htag
  refine ⟨line.2, hline, fresh, ?_, rfl, rfl⟩
  rw [Linewise.freshTags_eq, hfresh]
  exact List.mem_singleton_self fresh

lemma wellFormed_of_mem_scanLines {config : Config} {lines : List (LineNumber × Bytes)} {tag : Tag}
    (h : tag ∈ scanLines config lines) : tag.WellFormed config.identClass := by
  obtain ⟨line, -, earlier, htag⟩ := exists_tag?_of_mem_scanLines h
  refine ⟨(Verdict.name_of_tag?_ofLine htag).1, ?_⟩
  intro owner howner
  rw [Verdict.tag?_ofLine config _ _ 1, Option.map_eq_some_iff] at htag
  obtain ⟨fresh, -, rfl⟩ := htag
  split at howner
  · exact Text.isWord_of_lastModule? howner
  · cases howner

/-- Lines with increasing numbers have tags with increasing numbers. -/
lemma pairwise_scanLines {config : Config} {lines : List (LineNumber × Bytes)}
    (h : lines.Pairwise fun a b => a.1 < b.1) :
    (scanLines config lines).Pairwise fun a b => a.line < b.line := by
  rw [scanLines, Reading.tags, Reading.ofLines_eq_mapIdx, List.pairwise_filterMap,
    List.pairwise_iff_getElem]
  intro i j hi hj hij a ha b hb
  rw [List.length_mapIdx] at hi hj
  rw [List.getElem_mapIdx] at ha hb
  rw [(Verdict.name_of_tag?_ofLine ha).2, (Verdict.name_of_tag?_ofLine hb).2]
  exact List.pairwise_iff_getElem.1 h i j hi hj hij

/-- **A scan is made line by line.**  The tags of a source text are what its lines contribute one
after the other: a line contributes a tag exactly if a fresh session finds one on it, with the same
name and kind, the number of the line, and, for functions, the last module begun before it as the
owner.  So a line has at most one tag, the numbers of the tags increase, and every tag has the
number of the line that defines it. -/
theorem scanSource_eq_linewise (config : Config) (source : Bytes)
    (h : (Text.sourceLines source).length < 2 ^ 32) :
    let lines := (Text.sourceLines source).map Prod.snd
    Text.sourceLines source = lines.mapIdx (fun i line => (.ofNat (i + 1), line)) ∧
      scanSource config source = Linewise.tags config lines ∧
      (∀ line ∈ lines, (Linewise.freshTags config line).length ≤ 1) ∧
      (scanSource config source).Pairwise (fun a b => a.line < b.line) ∧
      ∀ tag ∈ scanSource config source, ∃ line, (tag.line, line) ∈ Text.sourceLines source ∧
        ∃ fresh ∈ Linewise.freshTags config line,
          fresh.name = tag.name ∧ fresh.kind = tag.kind := by
  intro lines
  have hnum : Text.sourceLines source = Text.numberFrom 1 lines := by
    simp only [lines, Text.sourceLines, Text.map_snd_numberFrom]
  have hlen : lines.length < 2 ^ 32 := by simpa only [lines, List.length_map] using h
  refine ⟨?_, ?_, fun line _ => Linewise.length_freshTags_le config line, ?_, ?_⟩
  · rw [hnum]
    exact Text.numberFrom_one hlen
  · rw [scanSource, hnum]
    exact scanLines_numberFrom config hlen
  · apply pairwise_scanLines
    rw [hnum]
    exact Text.pairwise_numberFrom_one hlen
  · intro tag htag
    exact exists_line_of_mem_scanLines htag

/-- A source with a byte order mark, carriage returns, a module in a module, and no newline at its
end. -/
def Linewise.nestedSource : Bytes :=
  Bytes.ofString "\uFEFFdefmodule A do\r\n  defmodule B do\r\n    def f\r\n  end\r\n  def g"

set_option maxRecDepth 4000 in
/-- With modules left out of the report, the functions are still attributed to the last of them. -/
theorem scanSource_eq_linewise_nested :
    (Text.sourceLines Linewise.nestedSource).length < 2 ^ 32 ∧
      scanSource { Config.standard with kinds := KindSet.standard.disable .moduleDef }
          Linewise.nestedSource =
        [{ name := Bytes.ofString "f", kind := .functionDef, line := 3,
           owner := some (Bytes.ofString "B") },
          { name := Bytes.ofString "g", kind := .functionDef, line := 5,
            owner := some (Bytes.ofString "B") }] := by
  have hlen : (Text.sourceLines Linewise.nestedSource).length < 2 ^ 32 := by decide
  obtain ⟨-, htags, -⟩ := scanSource_eq_linewise
    { Config.standard with kinds := KindSet.standard.disable .moduleDef }
    Linewise.nestedSource hlen
  refine ⟨hlen, ?_⟩
  rw [htags]
  decide

end ElixirTags
