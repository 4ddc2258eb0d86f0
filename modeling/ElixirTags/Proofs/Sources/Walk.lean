import ElixirTags.Proofs.Sources.Descent

/-!
# What a walk finds

`Sources.Meets` says which entries a walk of a directory comes upon, and `Sources.Qualifies` which
of their paths are sources.  Both look at one entry at a time and know nothing of the order of
entries or of the tree that the walk goes through; they ask where paths lead.

In a well-formed file system a walk finds what qualifies and nothing else
(`Sources.source_mem_walkEntries_iff_qualifies`), because the path of a directory that it enters
leads to that directory.  From this comes what is found at an input of a run
(`Sources.foundAt_iff`).
-/

namespace ElixirTags

namespace Sources

variable {fs : FileSystem} {hidden : Name → Prop} {d dir p : Path} {n : Name} {node : Node}

/-- A walk of the directory at `d` comes upon the entry `n` of the directory at `dir`.  It goes down
through directories, not through links to directories, and passes over hidden entries and skipped
directories. -/
inductive Meets (fs : FileSystem) (hidden : Name → Prop) : Path → Path → Name → Node → Prop
  | entry {d : Path} {n : Name} {node : Node} :
    fs.listed? d n = some node → ¬ hidden n → Meets fs hidden d d n node
  | inside {d : Path} {c : Name} {sub : List (Name × Node)} {dir : Path} {n : Name} {node : Node} :
    fs.listed? d c = some (.directory sub) → ¬ hidden c → isSkipped c = false →
    Meets fs hidden (d.join c) dir n node → Meets fs hidden d dir n node

lemma Meets.exists_find (h : Meets fs hidden d dir n node) :
    ∃ entries, fs.find d = .ok (.directory entries) := by
  cases h with
  | entry hentry _ =>
      obtain ⟨entries, hfind, -⟩ := FileSystem.listed?_eq_some_iff.1 hentry
      exact ⟨entries, hfind⟩
  | inside hentry _ _ _ =>
      obtain ⟨entries, hfind, -⟩ := FileSystem.listed?_eq_some_iff.1 hentry
      exact ⟨entries, hfind⟩

lemma Meets.listed (h : Meets fs hidden d dir n node) : fs.listed? dir n = some node := by
  induction h with
  | entry hentry _ => exact hentry
  | inside _ _ _ _ ih => exact ih

/-- The path is that of an entry that a walk of `d` comes upon, it leads to no directory, and the
entry has the name of a source. -/
def Qualifies (fs : FileSystem) (hidden : Name → Prop) (d p : Path) : Prop :=
  ∃ dir n node, Meets fs hidden d dir n node ∧ p = dir.join n ∧ fs.isDirectory p = false ∧
    IsSourceName n

lemma isDirectory_of_qualifies (h : Qualifies fs hidden d p) : fs.isDirectory d = true := by
  obtain ⟨dir, n, node, hmeets, -⟩ := h
  exact FileSystem.isDirectory_iff.2 hmeets.exists_find

lemma Qualifies.isDirectory_eq_false (h : Qualifies fs hidden d p) : fs.isDirectory p = false := by
  obtain ⟨dir, n, node, -, -, hdir, -⟩ := h
  exact hdir

/-- The walk comes upon a path at an entry: the path is that of the entry, or a candidate below
it. -/
def QualifiesAt (fs : FileSystem) (hidden : Name → Prop) (d : Path) (n : Name) (node : Node)
    (p : Path) : Prop :=
  (p = d.join n ∧ fs.isDirectory p = false ∧ IsSourceName n) ∨
    ∃ sub, node = .directory sub ∧ isSkipped n = false ∧ Qualifies fs hidden (d.join n) p

lemma qualifies_iff : Qualifies fs hidden d p ↔
    ∃ n node, fs.listed? d n = some node ∧ ¬ hidden n ∧ QualifiesAt fs hidden d n node p := by
  constructor
  · rintro ⟨dir, n, node, hmeets, rfl, hdir, hname⟩
    cases hmeets with
    | entry hentry hvisible =>
        exact ⟨n, node, hentry, hvisible, .inl ⟨rfl, hdir, hname⟩⟩
    | inside hentry hvisible hskipped hmeets =>
        exact ⟨_, _, hentry, hvisible,
          .inr ⟨_, rfl, hskipped, dir, n, node, hmeets, rfl, hdir, hname⟩⟩
  · rintro ⟨n, node, hentry, hvisible, ⟨rfl, hdir, hname⟩ | ⟨sub, rfl, hskipped, hbelow⟩⟩
    · exact ⟨d, n, node, .entry hentry hvisible, rfl, hdir, hname⟩
    · obtain ⟨dir, m, node, hmeets, hp, hdir, hname⟩ := hbelow
      exact ⟨dir, m, node, .inside hentry hvisible hskipped hmeets, hp, hdir, hname⟩

/-! ## The walk -/

lemma mem_candidate_iff {language : Language} :
    Finding.source p ∈ candidate language d ↔ p = d ∧ language.matchesPath d = true := by
  rw [candidate]
  split
  · next h => simp [h]
  · next h => simp [h]

lemma source_mem_walkEntries_iff {language : Language} {entries : List (Name × Node)} :
    Finding.source p ∈ walkEntries fs language d entries ↔
      ∃ n node, (n, node) ∈ entries ∧ isHidden n = false ∧
        Finding.source p ∈ walkEntry fs language (d.join n) n node := by
  induction entries with
  | nil => simp [walkEntries]
  | cons entry rest ih =>
      obtain ⟨m, first⟩ := entry
      rw [walkEntries, List.mem_append, ih]
      constructor
      · rintro (hfirst | ⟨n, node, hmem, hfound⟩)
        · split at hfirst
          · cases hfirst
          · next hvisible =>
            exact ⟨m, first, List.mem_cons_self, by simpa using hvisible, hfirst⟩
        · exact ⟨n, node, List.mem_cons_of_mem _ hmem, hfound⟩
      · rintro ⟨n, node, hmem, hvisible, hfound⟩
        rcases List.mem_cons.1 hmem with heq | hrest
        · cases heq
          left
          rwa [hvisible]
        · exact .inr ⟨n, node, hrest, hvisible, hfound⟩

lemma source_mem_candidate_iff (hfs : fs.WellFormed) (hentry : fs.listed? d n = some node)
    (hdir : fs.isDirectory (d.join n) = false) :
    Finding.source p ∈ candidate .elixir (d.join n) ↔
      p = d.join n ∧ fs.isDirectory p = false ∧ IsSourceName n := by
  rw [mem_candidate_iff, Language.matchesPath_join (FileSystem.ne_nil_of_listed? hentry)
    (FileSystem.isName_of_listed? hfs hentry)]
  constructor
  · rintro ⟨rfl, hsource⟩
    exact ⟨rfl, hdir, hsource⟩
  · rintro ⟨rfl, -, hsource⟩
    exact ⟨rfl, hsource⟩

/-- If a walk finds at every entry of a directory what qualifies there, it finds in the directory
what qualifies. -/
lemma source_mem_walkEntries_of_forall (hfs : fs.WellFormed) {entries : List (Name × Node)}
    (hfind : fs.find d = .ok (.directory entries))
    (h : ∀ n node, (n, node) ∈ entries → fs.listed? d n = some node →
      (Finding.source p ∈ walkEntry fs .elixir (d.join n) n node ↔
        QualifiesAt fs (isHidden · = true) d n node p)) :
    Finding.source p ∈ walkEntries fs .elixir d entries ↔
      Qualifies fs (isHidden · = true) d p := by
  rw [source_mem_walkEntries_iff, qualifies_iff]
  apply exists_congr
  intro n
  apply exists_congr
  intro node
  rw [FileSystem.listed?_eq_some_iff_mem hfs hfind, Bool.not_eq_true]
  apply and_congr_right
  intro hmem
  rw [h n node hmem ((FileSystem.listed?_eq_some_iff_mem hfs hfind).2 hmem)]

/-- What a walk finds at an entry is what qualifies there. -/
lemma source_mem_walkEntry_iff (hfs : fs.WellFormed) (hentry : fs.listed? d n = some node) :
    Finding.source p ∈ walkEntry fs .elixir (d.join n) n node ↔
      QualifiesAt fs (isHidden · = true) d n node p := by
  induction node using Node.listingInduction generalizing d n with
  | file content =>
      -- the walk need not ask whether a file is a directory
      have hdir := FileSystem.isDirectory_join hfs hentry
      rw [walkEntry, source_mem_candidate_iff hfs hentry hdir, QualifiesAt]
      simp
  | link target =>
      rw [walkEntry, QualifiesAt]
      split
      · next hdir =>
        simp only [List.mem_singleton, reduceCtorEq, false_and, exists_false, or_false, false_iff]
        rintro ⟨rfl, hnot, -⟩
        exact Bool.noConfusion (hdir.symm.trans hnot)
      · next hdir =>
        rw [source_mem_candidate_iff hfs hentry (Bool.eq_false_iff.2 hdir)]
        simp
  | directory sub ih =>
      rw [walkEntry, QualifiesAt]
      split
      · next hdir =>
        obtain ⟨entries, hfind⟩ := FileSystem.isDirectory_iff.1 hdir
        have hsub := FileSystem.eq_of_find_join hfs hentry (fun _ h => Node.noConfusion h) hfind
        have hbelow := source_mem_walkEntries_of_forall hfs (hsub ▸ hfind)
          fun m node hmem hlisted => ih m node hmem hlisted
        have hnot : ¬ (p = d.join n ∧ fs.isDirectory p = false ∧ IsSourceName n) := by
          rintro ⟨rfl, hnot, -⟩
          exact Bool.noConfusion (hdir.symm.trans hnot)
        rw [or_iff_right hnot]
        split
        · next hskipped => simp [hskipped]
        · next hskipped => simp [hskipped, hbelow]
      · next hdir =>
        rw [source_mem_candidate_iff hfs hentry (Bool.eq_false_iff.2 hdir), iff_self_or]
        rintro ⟨_, -, -, hbelow⟩
        exact absurd (isDirectory_of_qualifies hbelow) hdir

/-- **What a walk finds in a directory is what qualifies.** -/
lemma source_mem_walkEntries_iff_qualifies (hfs : fs.WellFormed) {entries : List (Name × Node)}
    (hfind : fs.find d = .ok (.directory entries)) :
    Finding.source p ∈ walkEntries fs .elixir d entries ↔
      Qualifies fs (isHidden · = true) d p :=
  source_mem_walkEntries_of_forall hfs hfind fun _ _ _ => source_mem_walkEntry_iff hfs

/-- What a walk comes upon is below the directory, at the end of names that are not hidden, in the
path and in the tree. -/
lemma Meets.exists_below (hfs : fs.WellFormed) (h : Meets fs hidden d dir n node) :
    ∃ names, (∀ c ∈ names, Path.IsName c ∧ ¬ hidden c) ∧ dir.join n = d.below names ∧
      ∀ q, fs.locate d = .ok q → fs.at? (q ++ names) = some node := by
  induction h with
  | entry hentry hvisible =>
      refine ⟨[_], ?_, rfl, fun q hlocate => FileSystem.at?_of_listed? hentry hlocate⟩
      intro c hc
      rw [List.mem_singleton.1 hc]
      exact ⟨FileSystem.isName_of_listed? hfs hentry, hvisible⟩
  | inside hentry hvisible _ hmeets ih =>
      obtain ⟨names, hnames, heq, hplace⟩ := ih
      have hc := FileSystem.isName_of_listed? hfs hentry
      refine ⟨_ :: names, List.forall_mem_cons.2 ⟨⟨hc, hvisible⟩, hnames⟩, heq, fun q hlocate => ?_⟩
      -- the path of the directory leads to it, since the walk goes on there
      obtain ⟨_, hfind⟩ := hmeets.exists_find
      obtain ⟨q', hlocate', -⟩ := FileSystem.find_eq_ok_iff.1 hfind
      have hshort := FileSystem.length_lt_of_locate hlocate'
      have hbelow := hplace _ (FileSystem.locate_join hc hlocate
        (FileSystem.at?_of_listed? hentry hlocate) (fun _ h => Node.noConfusion h) hshort)
      rwa [List.append_assoc] at hbelow

lemma Qualifies.exists_below (hfs : fs.WellFormed) (h : Qualifies fs hidden d p) :
    ∃ names, (∀ c ∈ names, Path.IsName c ∧ ¬ hidden c) ∧ p = d.below names := by
  obtain ⟨dir, n, node, hmeets, rfl, -⟩ := h
  obtain ⟨names, hnames, heq, -⟩ := hmeets.exists_below hfs
  exact ⟨names, hnames, heq⟩

lemma Qualifies.ne_nil (h : Qualifies fs hidden d p) : d ≠ [] := by
  obtain ⟨n, node, hentry, -⟩ := qualifies_iff.1 h
  exact FileSystem.ne_nil_of_listed? hentry

/-! ## What is found at the inputs -/

/-- What is found in a directory are the sources that a walk finds, in the order of paths. -/
lemma filterMap_source?_inDirectory (fs : FileSystem) (language : Language) (d : Path)
    (entries : List (Name × Node)) :
    (inDirectory fs language d entries).filterMap Finding.source? =
      ((walkEntries fs language d entries).filterMap Finding.source?).mergeSort fun p q =>
        (p.order q).isLE := by
  have hother (found : List Finding) :
      (found.filter (·.source?.isNone)).filterMap Finding.source? = [] := by
    rw [List.filterMap_eq_nil_iff]
    intro finding hfinding
    exact Option.isNone_iff_eq_none.1 (List.mem_filter.1 hfinding).2
  have hsource (paths : List Path) :
      (paths.map Finding.source).filterMap Finding.source? = paths := by
    rw [List.filterMap_map]
    exact List.filterMap_some
  rw [inDirectory, List.filterMap_append, hother, hsource, List.nil_append]

lemma mem_filterMap_source?_iff {found : List Finding} :
    p ∈ found.filterMap Finding.source? ↔ Finding.source p ∈ found := by
  rw [List.mem_filterMap]
  constructor
  · rintro ⟨finding, hmem, hsource⟩
    cases finding <;> cases hsource
    exact hmem
  · exact fun h => ⟨_, h, rfl⟩

lemma source_mem_inDirectory_iff (hfs : fs.WellFormed) {entries : List (Name × Node)}
    (hfind : fs.find d = .ok (.directory entries)) :
    Finding.source p ∈ inDirectory fs .elixir d entries ↔
      Qualifies fs (isHidden · = true) d p := by
  rw [← mem_filterMap_source?_iff, filterMap_source?_inDirectory, List.mem_mergeSort,
    mem_filterMap_source?_iff, source_mem_walkEntries_iff_qualifies hfs hfind]

/-- The path is among the sources that are found at an input. -/
def FoundAt (fs : FileSystem) (enter : Bool) (d p : Path) : Prop :=
  ∃ found, atInput fs .elixir enter d = .ok found ∧ Finding.source p ∈ found

/-- At an input one finds the input itself, if it is a source, or what qualifies in it, if it is a
directory that is entered. -/
lemma foundAt_iff (hfs : fs.WellFormed) {enter : Bool} :
    FoundAt fs enter d p ↔
      (p = d ∧ Language.elixir.matchesPath d = true ∧ fs.isDirectory d = false ∧
        ∃ node, fs.find d = .ok node) ∨
      enter = true ∧ Qualifies fs (isHidden · = true) d p := by
  have hwalk {enter : Bool} (hdir : fs.isDirectory d ≠ true) :
      ¬ (enter = true ∧ Qualifies fs (isHidden · = true) d p) :=
    fun h => hdir (isDirectory_of_qualifies h.2)
  rw [FoundAt, atInput]
  cases hfind : fs.find d with
  | error fault =>
      have hdir : fs.isDirectory d ≠ true := by
        simp [FileSystem.isDirectory, hfind]
      simp [hwalk hdir]
  | ok node =>
      cases node with
      | directory entries =>
          have hdir : fs.isDirectory d = true := FileSystem.isDirectory_iff.2 ⟨entries, hfind⟩
          cases enter with
          | true => simp [hdir, source_mem_inDirectory_iff hfs hfind]
          | false => simp [hdir]
      | _ =>
          have hdir : fs.isDirectory d = false := by
            simp [FileSystem.isDirectory, hfind]
          have hnot : fs.isDirectory d ≠ true := by simp [hdir]
          cases Language.elixir.matchesPath d <;> simp [hdir, hwalk hnot]

lemma find_eq_ok_iff {enter : Bool} {inputs files : List Path} :
    find fs enter inputs = .ok files ↔
      ∃ found, (survey fs .elixir enter inputs).result = .ok found ∧
        files = ofFindings fs found.flatten := by
  rw [find]
  cases (survey fs .elixir enter inputs).result <;> simp [Except.map, eq_comm]

/-- The sources of a directory are those that a walk finds, in the order of paths. -/
lemma find_directory {entries : List (Name × Node)} (hfind : fs.find d = .ok (.directory entries)) :
    find fs true [d] = .ok (distinct fs []
      (((walkEntries fs .elixir d entries).filterMap Finding.source?).mergeSort fun p q =>
        (p.order q).isLE)) := by
  have hsurvey : (survey fs .elixir true [d]).result = .ok [inDirectory fs .elixir d entries] := by
    rw [survey, Sweep.result_along_eq_ok_iff, List.map_singleton, List.map_singleton, atInput,
      hfind]
    rfl
  rw [find, hsurvey, ← filterMap_source?_inDirectory]
  show Except.ok (ofFindings fs [inDirectory fs .elixir d entries].flatten) = _
  rw [List.flatten_singleton, ofFindings]

/-- The sources of a run are those that are found at its inputs, each taken once. -/
lemma exists_of_find {enter : Bool} {inputs files : List Path}
    (h : find fs enter inputs = .ok files) :
    ∃ paths, files = distinct fs [] paths ∧
      ∀ p, p ∈ paths ↔ ∃ d ∈ inputs, FoundAt fs enter d p := by
  obtain ⟨found, hfound, rfl⟩ := find_eq_ok_iff.1 h
  refine ⟨_, rfl, fun p => ?_⟩
  simp only [mem_filterMap_source?_iff, List.mem_flatten, Sweep.mem_iff_of_result_along hfound]
  constructor
  · rintro ⟨findings, ⟨d, hd, hat⟩, hsource⟩
    exact ⟨d, hd, findings, hat, hsource⟩
  · rintro ⟨d, hd, findings, hat, hsource⟩
    exact ⟨findings, ⟨d, hd, hat⟩, hsource⟩

end Sources

end ElixirTags
