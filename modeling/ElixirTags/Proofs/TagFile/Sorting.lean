import ElixirTags.Proofs.Text.Lines
import ElixirTags.TagFile.Basic
import Mathlib.Data.List.Sort

/-!
# The order of a tag file

The entries of a sorted tag file stand in the order of their keys, which are name, file and line
(`TagFile.pairwise_ordered`).  Entries with the same key stay in the order in which they came
(`TagFile.filter_key_ordered`).  There is only one such order, so two tag files are sorted to the
same entries if they have the same entries of each key, in the same order
(`TagFile.ordered_eq_of_filter_key`).

Sorting is all that a sorted tag file differs in from an unsorted one with the same history, their
headers apart (`TagFile.render_sorted`).

The entries are sorted by merging.  As any stable sort gives the same list, the order of a given tag
file can be found by insertion, which recurses on the list itself (`TagFile.ordered_eq`).
-/

namespace ElixirTags

section Insertion

variable {α : Type} {le : α → α → Bool}

lemma List.orderedInsert_append {a : α} {before after : List α}
    (hbefore : ∀ b ∈ before, le a b = false) (hafter : ∀ b ∈ after, le a b = true) :
    (before ++ after).orderedInsert (fun a b => le a b = true) a = before ++ a :: after := by
  induction before with
  | nil =>
      cases after with
      | nil => rfl
      | cons b after => exact List.orderedInsert_cons_of_le _ after (hafter b List.mem_cons_self)
  | cons b before ih =>
      obtain ⟨hb, hbefore⟩ := List.forall_mem_cons.1 hbefore
      rw [List.cons_append, List.orderedInsert_of_not_le _ _ (by simp [hb]), ih hbefore,
        List.cons_append]

/-- Sorting by merging is sorting by insertion, also where distinct elements may stand in either
order. -/
lemma List.mergeSort_eq_insertionSort_of_total
    (trans : ∀ a b c, le a b = true → le b c = true → le a c = true)
    (total : ∀ a b, (le a b || le b a) = true) (l : List α) :
    l.mergeSort le = l.insertionSort fun a b => le a b = true := by
  induction l with
  | nil => rw [List.mergeSort_nil, List.insertionSort_nil]
  | cons a l ih =>
      -- the first element goes behind those that it may not stand before
      obtain ⟨before, after, hcons, hl, hbefore⟩ := List.mergeSort_cons trans total a l
      have hsorted : (before ++ a :: after).Pairwise fun a b => le a b = true := by
        rw [← hcons]
        exact List.pairwise_mergeSort trans total (a :: l)
      have hafter : ∀ b ∈ after, le a b = true :=
        (List.pairwise_cons.1 (List.pairwise_append.1 hsorted).2.1).1
      rw [hcons, List.insertionSort_cons, ← ih, hl, List.orderedInsert_append ?_ hafter]
      intro b hb
      simpa using hbefore b hb

end Insertion

lemma Bytes.compare_eq_lt_iff {a b : Bytes} : compare a b = .lt ↔ a < b := by
  rw [List.compare_eq_compareLex]
  induction a generalizing b with
  | nil => cases b <;> simp [List.compareLex]
  | cons x a ih =>
      cases b with
      | nil => simp [List.compareLex]
      | cons y b =>
          rw [List.compareLex_cons_cons, List.cons_lt_cons_iff, Ordering.then_eq_lt, ih,
            Std.compare_eq_lt, Std.compare_eq_iff_eq]

namespace Entry

/-- What entries are sorted by. -/
def key (e : Entry) : Bytes × Bytes × LineNumber := (e.name, e.file, e.line)

variable {a b : Entry}

lemma compare_eq_eq_iff : compare a b = .eq ↔ a.key = b.key := by
  have hlex : compare a b =
      compareLex (compareOn name) (compareLex (compareOn file) (compareOn line)) a b := rfl
  rw [hlex, key, key, Prod.mk.injEq, Prod.mk.injEq]
  simp only [compareLex, compareOn, Ordering.then_eq_eq, Std.compare_eq_iff_eq]

/-- Entries that may stand in either order have the same key. -/
lemma key_eq_of_le_of_le (hab : a.le b = true) (hba : b.le a = true) : a.key = b.key := by
  have hswap : compare b a = (compare a b).swap := Std.OrientedCmp.eq_swap
  rw [le] at hab hba
  rw [hswap] at hba
  rw [← compare_eq_eq_iff]
  cases h : compare a b with
  | eq => rfl
  | lt => simp [h] at hba
  | gt => simp [h] at hab

lemma le_of_key_eq (h : a.key = b.key) : a.le b = true := by
  rw [le, compare_eq_eq_iff.2 h]
  rfl

/-- The entry may stand before the other: its name is less, byte by byte, or the names are the same
and its file is less, or these are the same as well and its line is not below the other's. -/
def Precedes (a b : Entry) : Prop :=
  a.name < b.name ∨ a.name = b.name ∧
    (a.file < b.file ∨ a.file = b.file ∧ a.line.toNat ≤ b.line.toNat)

lemma le_iff_precedes : a.le b = true ↔ a.Precedes b := by
  have hlex : compare a b =
      (compare a.name b.name).then ((compare a.file b.file).then (compare a.line b.line)) := rfl
  rw [le, hlex, Ordering.isLE_then_iff_or, Ordering.isLE_then_iff_or, Bytes.compare_eq_lt_iff,
    Bytes.compare_eq_lt_iff, Std.compare_eq_iff_eq, Std.compare_eq_iff_eq, Std.isLE_compare,
    UInt32.le_iff_toNat_le]
  rfl

/-- Two lists that are in order and have the same entries of each key, in the same order, are the
same. -/
lemma eq_of_pairwise_of_filter_key {l l' : List Entry}
    (hl : l.Pairwise fun a b => a.le b = true) (hl' : l'.Pairwise fun a b => a.le b = true)
    (h : ∀ k, l.filter (·.key = k) = l'.filter (·.key = k)) : l = l' := by
  induction l generalizing l' with
  | nil =>
      cases l' with
      | nil => rfl
      | cons b l' => simpa using h b.key
  | cons a l ih =>
      cases l' with
      | nil => simpa using h a.key
      | cons b l' =>
          have hmem : ∀ e, e ∈ a :: l ↔ e ∈ b :: l' := by
            intro e
            have hkey : e ∈ (a :: l).filter (·.key = e.key) ↔
                e ∈ (b :: l').filter (·.key = e.key) := by rw [h]
            simpa using hkey
          -- each of the two heads may stand before all of the other list
          have hle : ∀ e ∈ a :: l, b.le e = true := by
            intro e he
            rcases List.mem_cons.1 ((hmem e).1 he) with rfl | htail
            · exact le_of_key_eq rfl
            · exact List.rel_of_pairwise_cons hl' htail
          have hle' : ∀ e ∈ b :: l', a.le e = true := by
            intro e he
            rcases List.mem_cons.1 ((hmem e).2 he) with rfl | htail
            · exact le_of_key_eq rfl
            · exact List.rel_of_pairwise_cons hl htail
          have hkey : a.key = b.key :=
            key_eq_of_le_of_le (hle' b List.mem_cons_self) (hle a List.mem_cons_self)
          have hfirst := h a.key
          rw [List.filter_cons_of_pos (by simp), List.filter_cons_of_pos (by simp [hkey])] at hfirst
          obtain ⟨rfl, -⟩ := List.cons.inj hfirst
          congr 1
          refine ih hl.of_cons hl'.of_cons fun k => ?_
          have hk := h k
          rw [List.filter_cons, List.filter_cons] at hk
          split at hk
          · exact (List.cons.inj hk).2
          · exact hk

lemma pairwise_mergeSort (entries : List Entry) :
    (entries.mergeSort le).Pairwise fun a b => a.le b = true := by
  apply List.pairwise_mergeSort
  · intro a b c hab hbc
    exact le_trans hab hbc
  · exact le_total

/-- Sorting is stable. -/
lemma filter_key_mergeSort (entries : List Entry) (k : Bytes × Bytes × LineNumber) :
    (entries.mergeSort le).filter (·.key = k) = entries.filter (·.key = k) := by
  have hpairwise : (entries.filter (·.key = k)).Pairwise fun a b => a.le b = true := by
    refine List.pairwise_of_forall_mem_list fun a ha b hb => le_of_key_eq ?_
    have hka : a.key = k := of_decide_eq_true (List.mem_filter.1 ha).2
    have hkb : b.key = k := of_decide_eq_true (List.mem_filter.1 hb).2
    rw [hka, hkb]
  have hsublist : (entries.filter (·.key = k)).Sublist (entries.mergeSort le) := by
    refine List.sublist_mergeSort ?_ le_total hpairwise List.filter_sublist
    intro a b c hab hbc
    exact le_trans hab hbc
  have hkey := hsublist.filter (·.key = k)
  simp only [List.filter_filter, Bool.and_self] at hkey
  refine (hkey.eq_of_length ?_).symm
  exact ((List.mergeSort_perm entries le).symm.filter _).length_eq

end Entry

namespace TagFile

variable {t t' : TagFile}

lemma render_eq_of_ordered_eq (hsorted : t.sorted = t'.sorted) (h : t.ordered = t'.ordered) :
    t.render = t'.render := by
  rw [render, render, hsorted, h]

lemma ordered_of_not_sorted (h : t.sorted = false) : t.ordered = t.entries := by
  rw [ordered, h]
  rfl

/-- The order of the entries, by insertion. -/
lemma ordered_eq (t : TagFile) :
    t.ordered = if t.sorted then t.entries.insertionSort fun a b => a.le b = true
      else t.entries := by
  have htrans (a b c : Entry) (hab : a.le b = true) (hbc : b.le c = true) : a.le c = true :=
    Entry.le_trans hab hbc
  rw [ordered, List.mergeSort_eq_insertionSort_of_total htrans Entry.le_total]

/-- A sorted tag file is in order. -/
lemma pairwise_ordered (h : t.sorted = true) : t.ordered.Pairwise fun a b => a.le b = true := by
  rw [ordered, if_pos h]
  exact Entry.pairwise_mergeSort t.entries

/-- Entries with the same key are written in the order in which they came. -/
lemma filter_key_ordered (t : TagFile) (k : Bytes × Bytes × LineNumber) :
    t.ordered.filter (·.key = k) = t.entries.filter (·.key = k) := by
  rw [ordered]
  split
  · exact Entry.filter_key_mergeSort t.entries k
  · rfl

lemma ordered_eq_of_filter_key (hsorted : t.sorted = true) (hsorted' : t'.sorted = true)
    (h : ∀ k, t.entries.filter (·.key = k) = t'.entries.filter (·.key = k)) :
    t.ordered = t'.ordered := by
  refine Entry.eq_of_pairwise_of_filter_key (pairwise_ordered hsorted)
    (pairwise_ordered hsorted') ?_
  intro k
  rw [filter_key_ordered, filter_key_ordered, h]

/-- Entries in another order are sorted to the same file, if their order by name, file and line is
strict. -/
lemma render_eq_of_perm {t t' : TagFile} (hsorted : t.sorted = true) (hsorted' : t'.sorted = true)
    (hperm : t.entries.Perm t'.entries)
    (hstrict : ∀ a ∈ t'.entries, ∀ b ∈ t'.entries, compare a b = .eq → a = b) :
    t.render = t'.render := by
  apply render_eq_of_ordered_eq (hsorted.trans hsorted'.symm)
  refine List.Perm.eq_of_pairwise ?_ (pairwise_ordered hsorted) (pairwise_ordered hsorted') ?_
  · intro a b ha hb hab hba
    rw [t.ordered_perm.mem_iff] at ha
    rw [t'.ordered_perm.mem_iff] at hb
    exact hstrict a (hperm.mem_iff.1 ha) b hb
      (Entry.compare_eq_eq_iff.2 (Entry.key_eq_of_le_of_le hab hba))
  · exact t.ordered_perm.trans (hperm.trans t'.ordered_perm.symm)

/-! ## Sorted and unsorted tag files -/

/-- The entries that an edit brings, in the order in which it brings them. -/
def Edit.entries : Edit → List Entry
  | retain text replaced => (existingEntries text).filter fun e => !replaced.contains e.file
  | add f => f.entries

/-- Entries as they are written. -/
def body (entries : List Entry) : Bytes := entries.flatMap fun e => e.text ++ [Byte.newline]

lemma render_eq_header_append_body (t : TagFile) :
    t.render = header t.sorted ++ body t.ordered := rfl

/-- One edit brings its entries and changes nothing else. -/
lemma edit_eq (t : TagFile) (e : Edit) :
    t.edit e = { t with entries := t.entries ++ e.entries } := by
  cases e with
  | retain text replaced => simp [edit, TagFile.retain, Edit.entries]
  | add f => rfl

lemma foldl_edit (edits : List Edit) (t : TagFile) :
    edits.foldl edit t = { t with entries := t.entries ++ edits.flatMap Edit.entries } := by
  induction edits generalizing t with
  | nil => simp
  | cons e edits ih => rw [List.foldl_cons, ih, edit_eq, List.flatMap_cons, List.append_assoc]

/-- Every entry is written as lines of its own, even if its text holds newlines. -/
lemma lines_body (entries : List Entry) :
    Text.lines (body entries) =
      entries.flatMap fun e => Text.endedLines (e.text ++ [Byte.newline]) := by
  induction entries with
  | nil => rfl
  | cons e entries ih =>
      have hended : Text.unended (e.text ++ [Byte.newline]) = [] := Text.unended_append_newline _ _
      have hbody : body (e :: entries) = (e.text ++ [Byte.newline]) ++ body entries := rfl
      rw [hbody, Text.lines_append, hended, List.nil_append, ih, List.flatMap_cons]

/-- **Sorting only reorders.**  After the same edits, an unsorted tag file has its entries in the
order in which they came, and the sorted one has the same entries in the order of name, file and
line, where entries that are equal in all three stay as they came.  So below the header the sorted
file has the lines of the unsorted one in another order.  The size of either is the number of the
entries in it. -/
theorem render_sorted (edits : List Edit) :
    let added := edits.flatMap Edit.entries
    let sorted := edits.foldl edit { sorted := true }
    let unsorted := edits.foldl edit { sorted := false }
    unsorted.render = header false ++ body added ∧ unsorted.size = added.length ∧
      ∃ entries, sorted.render = header true ++ body entries ∧ sorted.size = entries.length ∧
        entries.Perm added ∧ (Text.lines (body entries)).Perm (Text.lines (body added)) ∧
        entries.Pairwise Entry.Precedes ∧
        ∀ key, entries.filter (·.key = key) = added.filter (·.key = key) := by
  intro added sorted unsorted
  have hsorted : sorted = { sorted := true, entries := added } := foldl_edit edits _
  have hunsorted : unsorted = { sorted := false, entries := added } := foldl_edit edits _
  have hperm : sorted.ordered.Perm added := by
    rw [hsorted]
    exact ordered_perm _
  refine ⟨?_, ?_, sorted.ordered, ?_, ?_, hperm, ?_, ?_, fun key => ?_⟩
  · rw [hunsorted]
    rfl
  · rw [hunsorted]
    rfl
  · rw [render_eq_header_append_body, hsorted]
  · rw [hperm.length_eq, hsorted]
    rfl
  · rw [lines_body, lines_body]
    exact hperm.flatMap_right _
  · refine List.Pairwise.imp Entry.le_iff_precedes.1 (pairwise_ordered ?_)
    rw [hsorted]
  · rw [filter_key_ordered, hsorted]

end TagFile

end ElixirTags
