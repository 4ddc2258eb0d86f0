import ElixirTags.Proofs.FileSystem.Listing
import ElixirTags.Proofs.Sources.Walk

/-!
# Finding the sources of a directory, exactly

If all names are UTF-8, the sources of a directory that is entered are the paths that qualify, in
strictly increasing order, and of the paths of one file only the first
(`Sources.find_directory_exact`).  `Sources.FirstPaths` says this of a list, and says it of no other
list (`Sources.FirstPaths.unique`).  So it does not matter in which order directories list their
entries: neither what qualifies nor which paths are those of one file depends on it.

`distinct` takes the first path of every file in the order of its list, which is the order of paths
once the list is sorted (`Sources.mem_distinct_iff_of_sorted`).
-/

namespace ElixirTags

/-! ## The order of paths -/

namespace Path

variable {p q : Path}

instance : Std.TransCmp order :=
  inferInstanceAs (Std.TransCmp (compareOn components))

lemma order_eq_eq_iff : p.order q = .eq ↔ p.components = q.components := Std.compare_eq_iff_eq

lemma lt_or_components_eq_of_isLE (h : (p.order q).isLE = true) :
    p.order q = .lt ∨ p.components = q.components := by
  rw [← order_eq_eq_iff]
  exact Ordering.isLE_iff_eq_lt_or_eq_eq.1 h

lemma order_total (p q : Path) : ((p.order q).isLE || (q.order p).isLE) = true := by
  have hswap : q.order p = (p.order q).swap := Std.OrientedCmp.eq_swap
  rw [hswap]
  cases p.order q <;> rfl

lemma pairwise_mergeSort_order (paths : List Path) :
    (paths.mergeSort fun p q => (p.order q).isLE).Pairwise fun p q => (p.order q).isLE = true :=
  List.pairwise_mergeSort (fun _ _ _ => Std.TransCmp.isLE_trans) order_total paths

end Path

namespace Sources

variable {fs fs' : FileSystem} {hidden hidden' : Name → Prop} {d dir p q : Path} {n : Name}
  {node : Node} {paths files files' : List Path} {P P' : Path → Prop}

/-! ## The first path of every file -/

/-- The paths lead to one place, and all places on the way can be named. -/
def SameFile (fs : FileSystem) (p q : Path) : Prop :=
  ∃ place, fs.canonical p = .ok place ∧ fs.canonical q = .ok place

/-- The list is that of the paths with a property, in strictly increasing order, less those of files
that have a path with the property before. -/
structure FirstPaths (fs : FileSystem) (P : Path → Prop) (files : List Path) : Prop where
  increasing : files.Pairwise fun p q => p.order q = .lt
  mem_iff : ∀ p, p ∈ files ↔ P p ∧ ∀ q, P q → q.order p = .lt → ¬ SameFile fs q p

/-- There is one such list. -/
lemma FirstPaths.unique (h : FirstPaths fs P files) (h' : FirstPaths fs P files') :
    files = files' := by
  have hnodup {files : List Path} (h : FirstPaths fs P files) : files.Nodup := by
    refine h.increasing.imp ?_
    rintro p _ hlt rfl
    exact Std.OrientedCmp.not_lt_of_lt hlt hlt
  refine List.Perm.eq_of_pairwise ?_ h.increasing h'.increasing ?_
  · intro p q _ _ hpq hqp
    exact absurd hqp (Std.OrientedCmp.not_lt_of_lt hpq)
  · rw [List.perm_ext_iff_of_nodup (hnodup h) (hnodup h')]
    exact fun p => (h.mem_iff p).trans (h'.mem_iff p).symm

lemma FirstPaths.congr (hP : ∀ p, P p ↔ P' p) (h : FirstPaths fs P files) :
    FirstPaths fs P' files := by
  rwa [show P = P' from funext fun p => propext (hP p)] at h

lemma identity_eq_iff_sameFile (hlook : p.components ≠ q.components) :
    identity fs p = identity fs q ↔ SameFile fs p q := by
  rw [identity, identity, SameFile]
  cases fs.canonical p <;> cases fs.canonical q <;> simp [hlook, eq_comm]

/-- In a list in the order of paths, the paths that are taken are the first of their source. -/
lemma mem_distinct_iff_of_sorted {seen : List Identity}
    (hlook : ∀ p ∈ paths, ∀ q ∈ paths, p.components = q.components → p = q)
    (hsorted : paths.Pairwise fun p q => (p.order q).isLE = true) :
    p ∈ distinct fs seen paths ↔ p ∈ paths ∧ identity fs p ∉ seen ∧
      ∀ q ∈ paths, q.order p = .lt → identity fs q ≠ identity fs p := by
  induction paths generalizing seen with
  | nil => simp [distinct]
  | cons first rest ih =>
      obtain ⟨hfirst, hsorted⟩ := List.pairwise_cons.1 hsorted
      have ih {seen : List Identity} := @ih seen
        (fun p hp q hq => hlook p (List.mem_cons_of_mem _ hp) q (List.mem_cons_of_mem _ hq)) hsorted
      rw [distinct, List.forall_mem_cons, List.mem_cons]
      split
      · next hseen =>
        rw [ih]
        constructor
        · rintro ⟨hmem, hnew, hearlier⟩
          refine ⟨.inr hmem, hnew, fun _ heq => ?_, hearlier⟩
          rw [heq] at hseen
          exact hnew hseen
        · rintro ⟨rfl | hmem, hnew, -, hearlier⟩
          · exact absurd hseen hnew
          · exact ⟨hmem, hnew, hearlier⟩
      · next hnew =>
        rw [List.mem_cons, ih, List.mem_cons, not_or]
        constructor
        · rintro (rfl | ⟨hmem, ⟨hother, hseen⟩, hearlier⟩)
          · refine ⟨.inl rfl, hnew, fun hlt => absurd hlt (Std.OrientedCmp.not_lt_of_lt hlt), ?_⟩
            exact fun q hq hlt => absurd hlt (Std.OrientedCmp.not_lt_of_isLE (hfirst q hq))
          · exact ⟨.inr hmem, hseen, fun _ => Ne.symm hother, hearlier⟩
        · rintro ⟨rfl | hmem, hseen, hfirst', hearlier⟩
          · exact .inl rfl
          · rcases Path.lt_or_components_eq_of_isLE (hfirst p hmem) with hlt | hsame
            · exact .inr ⟨hmem, ⟨(hfirst' hlt).symm, hseen⟩, hearlier⟩
            · left
              exact (hlook first List.mem_cons_self p (List.mem_cons_of_mem _ hmem) hsame).symm

/-- Paths of different looks, once sorted, have their files' first paths taken. -/
lemma firstPaths_distinct (hlook : ∀ p ∈ paths, ∀ q ∈ paths, p.components = q.components → p = q) :
    FirstPaths fs (· ∈ paths) (distinct fs [] (paths.mergeSort fun p q => (p.order q).isLE)) := by
  have hsorted := Path.pairwise_mergeSort_order paths
  have hmem (p : Path) : p ∈ paths.mergeSort (fun p q => (p.order q).isLE) ↔ p ∈ paths :=
    List.mem_mergeSort
  generalize paths.mergeSort (fun p q => (p.order q).isLE) = sorted at hsorted hmem ⊢
  have hlook' : ∀ p ∈ sorted, ∀ q ∈ sorted, p.components = q.components → p = q :=
    fun p hp q hq => hlook p ((hmem p).1 hp) q ((hmem q).1 hq)
  have hsub := distinct_sublist fs [] sorted
  constructor
  · refine ((hsorted.sublist hsub).and (nodup_distinct fs sorted)).imp_of_mem ?_
    rintro p q hp hq ⟨hle, hne⟩
    rcases Path.lt_or_components_eq_of_isLE hle with hlt | hsame
    · exact hlt
    · exact absurd (hlook' p (hsub.subset hp) q (hsub.subset hq) hsame) hne
  · intro p
    rw [mem_distinct_iff_of_sorted hlook' hsorted, hmem]
    simp only [List.not_mem_nil, not_false_eq_true, true_and, hmem]
    apply and_congr_right
    intro hp
    apply forall₂_congr
    intro q hq
    apply forall_congr'
    intro hlt
    rw [ne_eq, identity_eq_iff_sameFile]
    intro hsame
    rw [Path.order_eq_eq_iff.2 hsame] at hlt
    cases hlt

/-! ## What qualifies, seen in another way -/

/-- A walk comes upon the same entries where directories list the same and the same is hidden. -/
lemma Meets.of_forall_listed
    (hlisted : ∀ dir n node, fs.listed? dir n = some node → ¬ hidden n →
      ¬ hidden' n ∧ ∃ node', fs'.listed? dir n = some node' ∧ node.SameSort node')
    (h : Meets fs hidden d dir n node) : ∃ node', Meets fs' hidden' d dir n node' := by
  induction h with
  | entry hentry hvisible =>
      obtain ⟨hvisible', node', hentry', -⟩ := hlisted _ _ _ hentry hvisible
      exact ⟨node', .entry hentry' hvisible'⟩
  | inside hentry hvisible hskipped _ ih =>
      obtain ⟨hvisible', node', hentry', hsort⟩ := hlisted _ _ _ hentry hvisible
      obtain ⟨below, hbelow⟩ := ih
      cases hsort
      exact ⟨below, .inside hentry' hvisible' hskipped hbelow⟩

lemma Qualifies.of_forall_listed
    (hlisted : ∀ dir n node, fs.listed? dir n = some node → ¬ hidden n →
      ¬ hidden' n ∧ ∃ node', fs'.listed? dir n = some node' ∧ node.SameSort node')
    (hdir : ∀ p, fs'.isDirectory p = fs.isDirectory p) (h : Qualifies fs hidden d p) :
    Qualifies fs' hidden' d p := by
  obtain ⟨dir, n, node, hmeets, hp, hfile, hname⟩ := h
  obtain ⟨node', hmeets'⟩ := hmeets.of_forall_listed hlisted
  exact ⟨dir, n, node', hmeets', hp, (hdir p).trans hfile, hname⟩

/-- UTF-8 names are hidden if they start with a dot. -/
lemma qualifies_isHidden_iff (hnames : fs.Utf8Names) :
    Qualifies fs (isHidden · = true) d p ↔ Qualifies fs (·.head? = some Byte.dot) d p := by
  have hhidden {dir : Path} {n : Name} {node : Node} (hentry : fs.listed? dir n = some node) :
      isHidden n = true ↔ n.head? = some Byte.dot := by
    have hvalid := FileSystem.listing_of_listed? hnames hentry
    simp [isHidden, hvalid]
  constructor
  · refine Qualifies.of_forall_listed (fun dir n node hentry hvisible => ?_) fun _ => rfl
    exact ⟨mt (hhidden hentry).2 hvisible, node, hentry, .refl node⟩
  · refine Qualifies.of_forall_listed (fun dir n node hentry hvisible => ?_) fun _ => rfl
    exact ⟨mt (hhidden hentry).1 hvisible, node, hentry, .refl node⟩

lemma exists_listed?_of_relisted (h : fs.Relisted fs') (hfs : fs.WellFormed)
    (hentry : fs.listed? dir n = some node) :
    ∃ node', fs'.listed? dir n = some node' ∧ node.Relisted node' := by
  obtain ⟨entries, hfind, hlookup⟩ := FileSystem.listed?_eq_some_iff.1 hentry
  obtain ⟨_, hfind', hsame⟩ := h.exists_find hfs hfind
  cases hsame with
  | directory hperm hbelow =>
      have hmem := Node.mem_of_lookup hlookup
      obtain ⟨⟨_, node'⟩, hmem', rfl⟩ :=
        List.mem_map.1 (hperm.mem_iff.1 (List.mem_map_of_mem (f := Prod.fst) hmem))
      refine ⟨node', ?_, hbelow _ node node' hmem hmem'⟩
      exact (FileSystem.listed?_eq_some_iff_mem (h.wellFormed hfs) hfind').2 hmem'

/-- What qualifies does not depend on the order of listings. -/
lemma qualifies_iff_of_relisted (h : fs.Relisted fs') (hfs : fs.WellFormed) :
    Qualifies fs' hidden d p ↔ Qualifies fs hidden d p := by
  have transfer {fs fs' : FileSystem} (h : fs.Relisted fs') (hfs : fs.WellFormed) :
      Qualifies fs hidden d p → Qualifies fs' hidden d p := by
    refine Qualifies.of_forall_listed (fun dir n node hentry hvisible => ?_) (h.isDirectory_eq hfs)
    obtain ⟨node', hentry', hsame⟩ := exists_listed?_of_relisted h hfs hentry
    exact ⟨hvisible, node', hentry', hsame.sameSort⟩
  exact ⟨transfer h.symm (h.wellFormed hfs), transfer h hfs⟩

/-! ## The sources of a directory -/

/-- The sources of a directory are the first paths of what qualifies. -/
lemma exists_find_directory (hfs : fs.WellFormed) (hd : fs.isDirectory d = true) :
    ∃ files, find fs true [d] = .ok files ∧
      FirstPaths fs (Qualifies fs (isHidden · = true) d) files := by
  obtain ⟨entries, hfind⟩ := FileSystem.isDirectory_iff.1 hd
  have hmem (p : Path) : p ∈ (walkEntries fs .elixir d entries).filterMap Finding.source? ↔
      Qualifies fs (isHidden · = true) d p := by
    rw [mem_filterMap_source?_iff, source_mem_walkEntries_iff_qualifies hfs hfind]
  refine ⟨_, find_directory hfind, (firstPaths_distinct ?_).congr hmem⟩
  intro p hp q hq hlook
  have hp := (hmem p).1 hp
  obtain ⟨names, hnames, rfl⟩ := hp.exists_below hfs
  obtain ⟨names', hnames', rfl⟩ := ((hmem q).1 hq).exists_below hfs
  exact Path.below_eq_of_components_eq hp.ne_nil (fun c hc => (hnames c hc).1)
    (fun c hc => (hnames' c hc).1) hlook

/-- **The sources of a directory are exactly the paths that qualify, in strictly increasing order,
and of the paths of one file only the first.**  They are found whatever links there are, and in
whatever order the directories list their entries. -/
theorem find_directory_exact (hfs : fs.WellFormed) (hnames : fs.Utf8Names)
    (hd : fs.isDirectory d = true) :
    ∃ files, find fs true [d] = .ok files ∧
      FirstPaths fs (Qualifies fs (·.head? = some Byte.dot) d) files ∧
      ∀ fs', fs.Relisted fs' → find fs' true [d] = .ok files := by
  obtain ⟨files, hfind, hfirst⟩ := exists_find_directory hfs hd
  have hfirst := hfirst.congr fun _ => qualifies_isHidden_iff hnames
  refine ⟨files, hfind, hfirst, fun fs' h => ?_⟩
  obtain ⟨files', hfind', hfirst'⟩ :=
    exists_find_directory (h.wellFormed hfs) ((h.isDirectory_eq hfs d).trans hd)
  have hfirst' := (hfirst'.congr fun _ => qualifies_isHidden_iff (h.utf8Names hnames)).congr
    fun _ => qualifies_iff_of_relisted h hfs
  have hsame (p q : Path) : SameFile fs' p q ↔ SameFile fs p q := by
    simp only [SameFile, h.canonical_eq_ok_iff hfs]
  have hfirst' : FirstPaths fs (Qualifies fs (·.head? = some Byte.dot) d) files' :=
    ⟨hfirst'.increasing, by simpa only [hsame] using hfirst'.mem_iff⟩
  rw [hfind', hfirst'.unique hfirst]

end Sources

/-! ## A directory in disorder -/

namespace Sources.Tangle

/-- A directory with all sorts of links, with a directory that is named like a source, and with
entries that are not looked at. -/
def entries : List (Name × Node) :=
  [(Bytes.ofString ".e.ex", .file []),
    (Bytes.ofString ".ex", .file []),
    (Bytes.ofString "a.ex", .link (Bytes.ofString "b.ex")),
    (Bytes.ofString "b.ex", .file []),
    (Bytes.ofString "deps", .directory [(Bytes.ofString "d.ex", .file [])]),
    (Bytes.ofString "gone.ex", .link (Bytes.ofString "nowhere")),
    (Bytes.ofString "loop.ex", .link (Bytes.ofString "loop.ex")),
    (Bytes.ofString "sub.ex", .directory [(Bytes.ofString "c.exs", .file [])]),
    (Bytes.ofString "up", .link (Bytes.ofString "..")),
    (Bytes.ofString "up.ex", .link (Bytes.ofString ".."))]

def files (entries : List (Name × Node)) : FileSystem where
  root := [(Bytes.ofString "lib", .directory entries)]
  workingDirectory := []

def sources : List Path :=
  ["lib/a.ex", "lib/gone.ex", "lib/loop.ex", "lib/sub.ex/c.exs"].map Bytes.ofString

lemma relisted : (files entries).Relisted (files entries.reverse) where
  tree := by
    have h : (files entries).tree.EveryListing fun entries => (entries.map Prod.fst).Nodup := by
      decide
    refine .directory (.refl _) ?_
    intro n node node' hnode hnode'
    cases List.mem_singleton.1 hnode
    cases List.mem_singleton.1 hnode'
    exact .of_perm (List.reverse_perm entries).symm (Node.everyListingIn_iff.1 h.2 _ hnode)
  workingDirectory := rfl

end Sources.Tangle

/-- One name of a linked file is taken, and links that lead nowhere are sources of their own. -/
theorem Sources.find_directory_exact_tangled :
    (Tangle.files Tangle.entries).WellFormed ∧ (Tangle.files Tangle.entries).Utf8Names ∧
      (Tangle.files Tangle.entries).isDirectory (Bytes.ofString "lib") = true ∧
      find (Tangle.files Tangle.entries) true [Bytes.ofString "lib"] = .ok Tangle.sources ∧
      FirstPaths (Tangle.files Tangle.entries) (Qualifies (Tangle.files Tangle.entries)
        (·.head? = some Byte.dot) (Bytes.ofString "lib")) Tangle.sources ∧
      find (Tangle.files Tangle.entries.reverse) true [Bytes.ofString "lib"] =
        .ok Tangle.sources := by
  have hfs : (Tangle.files Tangle.entries).WellFormed := by decide
  have hnames : (Tangle.files Tangle.entries).Utf8Names := by decide
  have hd : (Tangle.files Tangle.entries).isDirectory (Bytes.ofString "lib") = true := by decide
  have hlib : (Tangle.files Tangle.entries).find (Bytes.ofString "lib") =
      .ok (.directory Tangle.entries) := rfl
  have hsources : find (Tangle.files Tangle.entries) true [Bytes.ofString "lib"] =
      .ok Tangle.sources := by
    rw [find_directory hlib, List.mergeSort_of_pairwise (by decide)]
    decide
  obtain ⟨found, hfind, hfirst, hany⟩ := find_directory_exact hfs hnames hd
  cases hsources.symm.trans hfind
  exact ⟨hfs, hnames, hd, hsources, hfirst, hany _ Tangle.relisted⟩

end ElixirTags
