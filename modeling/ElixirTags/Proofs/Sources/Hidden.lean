import ElixirTags.Proofs.Sources.Walk

/-!
# Hidden entries

A walk passes over entries whose names start with a dot, if it can read the names.  It reads names
as UTF-8, so an entry with a name that is not is never taken for a hidden one.

Below a directory that is walked, the names on the way to a source therefore start with a dot only
if they are not UTF-8, and of the files in the directory whose names start with a dot, those with
such names are found (`Sources.not_utf8_of_hidden`).
-/

namespace ElixirTags

namespace Sources

variable {fs : FileSystem} {inputs files : List Path} {d p : Path} {n : Name}

lemma not_isHidden_iff (hdot : n.head? = some Byte.dot) :
    ¬ isHidden n = true ↔ ¬ Utf8.Valid n := by
  simp [isHidden, hdot]

lemma foundAt_iff_of_isDirectory (hfs : fs.WellFormed) (hd : fs.isDirectory d = true) :
    FoundAt fs true d p ↔ Qualifies fs (isHidden · = true) d p := by
  rw [foundAt_iff hfs, hd]
  simp

/-- What is found in a directory is below it, and on the way down names start with a dot only if
they are not UTF-8. -/
lemma exists_names_of_foundAt (hfs : fs.WellFormed) (hd : fs.isDirectory d = true)
    (h : FoundAt fs true d p) :
    ∃ names : List Name, p.components = d.components ++ names.map .name ∧
      ∀ n ∈ names, n.head? = some Byte.dot → ¬ Utf8.Valid n := by
  have hqualifies := (foundAt_iff_of_isDirectory hfs hd).1 h
  obtain ⟨names, hnames, rfl⟩ := hqualifies.exists_below hfs
  refine ⟨names, Path.components_below hqualifies.ne_nil fun c hc => (hnames c hc).1, ?_⟩
  exact fun n hn hdot => (not_isHidden_iff hdot).1 (hnames n hn).2

/-- A file in a directory that is named like a source is found, unless it is hidden. -/
lemma foundAt_join_iff (hfs : fs.WellFormed) {content : Bytes}
    (hentry : fs.listed? d n = some (.file content)) (hname : IsSourceName n) :
    FoundAt fs true d (d.join n) ↔ ¬ isHidden n = true := by
  obtain ⟨entries, hfind, -⟩ := FileSystem.listed?_eq_some_iff.1 hentry
  have hd := FileSystem.isDirectory_iff.2 ⟨entries, hfind⟩
  rw [foundAt_iff_of_isDirectory hfs hd]
  constructor
  · intro h
    -- the path of the file has only one name below the directory
    obtain ⟨names, hnames, heq⟩ := h.exists_below hfs
    have hcomponents := Path.components_below h.ne_nil fun c hc => (hnames c hc).1
    rw [← heq, Path.components_join h.ne_nil (FileSystem.isName_of_listed? hfs hentry),
      List.append_cancel_left_eq] at hcomponents
    obtain ⟨m, hm, hsame⟩ := List.mem_map.1 (hcomponents ▸ List.mem_singleton_self _)
    cases hsame
    exact (hnames n hm).2
  · intro hvisible
    exact ⟨d, n, _, .entry hentry hvisible, rfl, FileSystem.isDirectory_join hfs hentry, hname⟩

/-- **Hidden entries are found only if their names are not UTF-8.**  What is found is found at an
input.  Below an input that is a directory, the names that start with a dot are not UTF-8; and of
the files listed there that are named like sources, with a dot first, just those are found. -/
theorem not_utf8_of_hidden (hfs : fs.WellFormed) (h : find fs true inputs = .ok files) :
    (∀ p ∈ files, ∃ d ∈ inputs, FoundAt fs true d p) ∧
    ∀ d, fs.isDirectory d = true →
      (∀ p, FoundAt fs true d p →
        ∃ names : List Name, p.components = d.components ++ names.map .name ∧
          ∀ n ∈ names, n.head? = some Byte.dot → ¬ Utf8.Valid n) ∧
      ∀ n content, fs.listed? d n = some (.file content) → IsSourceName n →
        n.head? = some Byte.dot → (FoundAt fs true d (d.join n) ↔ ¬ Utf8.Valid n) := by
  obtain ⟨paths, rfl, hpaths⟩ := exists_of_find h
  refine ⟨fun p hp => (hpaths p).1 ((distinct_sublist fs [] paths).subset hp), fun d hd => ⟨?_, ?_⟩⟩
  · exact fun p => exists_names_of_foundAt hfs hd
  · intro n content hentry hname hdot
    rw [foundAt_join_iff hfs hentry hname, not_isHidden_iff hdot]

end Sources

/-! ## A name that is not read -/

namespace Sources.Unread

/-- A dot, a byte that is in no UTF-8 text, and an extension. -/
def name : Name := Byte.dot :: 0xff :: Bytes.ofString ".ex"

def fileSystem : FileSystem where
  root := [(Bytes.ofString "d", .directory
    [(name, .file []), (Bytes.ofString ".e.ex", .file []), (Bytes.ofString "f.ex", .file [])])]
  workingDirectory := []

def d : Path := Bytes.ofString "d"

def found : List Path := [d.join name, d.join (Bytes.ofString "f.ex")]

lemma find_d : find fileSystem true [d] = .ok found := by
  have hd : fileSystem.find d = .ok (.directory _) := rfl
  rw [find_directory hd, List.mergeSort_of_pairwise (by decide)]
  decide

end Sources.Unread

/-- Of two hidden files the one is found whose name is not UTF-8. -/
theorem Sources.not_utf8_of_hidden_unread :
    Unread.fileSystem.WellFormed ∧ find Unread.fileSystem true [Unread.d] = .ok Unread.found ∧
      FoundAt Unread.fileSystem true Unread.d (Unread.d.join Unread.name) ∧
      ¬ FoundAt Unread.fileSystem true Unread.d (Unread.d.join (Bytes.ofString ".e.ex")) := by
  have hfs : Unread.fileSystem.WellFormed := by decide
  obtain ⟨-, hfiles⟩ := (not_utf8_of_hidden hfs Unread.find_d).2 Unread.d rfl
  have hunread := hfiles Unread.name [] rfl
    ⟨[Byte.dot, 0xff], by decide, .inl rfl⟩ rfl
  have hhidden := hfiles (Bytes.ofString ".e.ex") [] rfl
    ⟨Bytes.ofString ".e", by decide, .inl rfl⟩ rfl
  exact ⟨hfs, Unread.find_d, hunread.2 (by decide), fun h => hhidden.1 h (by decide)⟩

/-- So a source below a directory that is walked can have a name that starts with a dot. -/
theorem Sources.find_hidden_entry :
    Unread.fileSystem.isDirectory Unread.d = true ∧
      find Unread.fileSystem true [Unread.d] = .ok Unread.found ∧
      Unread.d.join Unread.name ∈ Unread.found ∧
      (Unread.d.join Unread.name).components = Unread.d.components ++ [.name Unread.name] ∧
      Unread.name.head? = some Byte.dot :=
  ⟨rfl, Unread.find_d, List.mem_cons_self, by decide, rfl⟩

end ElixirTags
