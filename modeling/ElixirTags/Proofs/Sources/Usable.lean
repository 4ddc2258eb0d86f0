import ElixirTags.Proofs.Program.Contents
import ElixirTags.Proofs.Sources.Walk

/-!
# Whether what is found can be read

What a walk comes upon is a directory, a file or a link, and the paths of directories and files lead
to them.  A link may lead nowhere.  A walk asks of a link only whether it leads to a directory, so
one that leads nowhere and is named like a source is taken for a source, although an input that
leads nowhere is refused.

In a tree of files, directories and links, whether all that is found can be read, and so scanned,
depends on these links and on nothing else (`Sources.find_readable_iff`).  Pipes, sockets, devices
and files that may not be read are not in such a tree.
-/

namespace ElixirTags

/-! ## Where paths lead -/

section Walk

variable {t : Node} {range : Location → Bool} {place q : Location} {segment : Path.Segment}
  {segments : List Path.Segment}

/-- At the place is a file or a directory. -/
def Node.Ends (t : Node) (place : Location) : Prop :=
  ∃ node, t.at? place = some node ∧ ∀ target, node ≠ .link target

lemma Node.ends_of_directory {entries : List (Name × Node)}
    (h : t.at? place = some (.directory entries)) : t.Ends place :=
  ⟨_, h, fun _ h => Node.noConfusion h⟩

lemma ends_of_step_next (h : step t range place segment = .next q) : t.Ends q := by
  unfold step at h
  split at h
  · next entries hplace =>
    cases segment with
    | blank =>
        cases h
        exact Node.ends_of_directory hplace
    | here =>
        cases h
        exact Node.ends_of_directory hplace
    | up =>
        cases h
        rcases List.eq_nil_or_concat place with rfl | ⟨above, n, rfl⟩
        · exact Node.ends_of_directory hplace
        · rw [List.concat_eq_append] at hplace ⊢
          obtain ⟨_, habove⟩ := Node.exists_directory_of_at?_concat hplace
          rw [List.dropLast_concat]
          exact Node.ends_of_directory habove
    | name n =>
        dsimp only at h
        split at h
        · cases h
        · split at h
          · cases h
          · next node hnode =>
            split at h
            · cases h
            · cases node with
              | link target => cases h
              | file content =>
                  cases h
                  exact ⟨_, hnode, fun _ h => Node.noConfusion h⟩
              | directory entries =>
                  cases h
                  exact Node.ends_of_directory hnode
  · cases h

lemma ends_of_walk_arrived (hne : segments ≠ []) (h : walk t range place segments = .arrived q) :
    t.Ends q := by
  induction segments generalizing place with
  | nil => exact absurd rfl hne
  | cons segment rest ih =>
      rw [walk_cons] at h
      cases hstep : step t range place segment with
      | missing n => simp [hstep, Step.stop] at h
      | link target => simp [hstep, Step.stop] at h
      | fault f => simp [hstep, Step.stop] at h
      | next p =>
          rw [hstep] at h
          cases rest with
          | nil =>
              cases h
              exact ends_of_step_next hstep
          | cons next rest => exact ih (List.cons_ne_nil next rest) h

lemma Path.segments_ne_nil (path : Path) : path.segments ≠ [] :=
  mt List.map_eq_nil_iff.1 (List.splitOn_ne_nil _ _)

lemma ends_of_resolve {links : Nat} (hne : segments ≠ [])
    (h : resolve t range links place segments = .ok q) : t.Ends q := by
  induction links using Nat.strongRecOn generalizing place segments with
  | ind links ih =>
      rcases resolve_eq_ok_iff.1 h with hw | ⟨fewer, dir, target, rest, rfl, -, hrest⟩
      · exact ends_of_walk_arrived hne hw
      · exact ih fewer fewer.lt_succ_self (by simp [target.segments_ne_nil]) hrest

end Walk

namespace FileSystem

variable {fs : FileSystem} {p : Path} {q : Location}

/-- A path that leads somewhere and to no directory leads to a file. -/
lemma exists_read_of_locate (h : fs.locate p = .ok q) (hdir : fs.isDirectory p = false) :
    ∃ content, fs.read p = .ok content := by
  obtain ⟨node, hnode, hlink⟩ := ends_of_resolve p.segments_ne_nil (locate_eq_ok_iff.1 h).2
  cases node with
  | file content => exact ⟨content, read_eq_ok_iff.2 ⟨q, h, hnode⟩⟩
  | link target => exact absurd rfl (hlink target)
  | directory entries =>
      have hfind := isDirectory_iff.2 ⟨entries, find_eq_ok_iff.2 ⟨q, h, hnode⟩⟩
      exact Bool.noConfusion (hfind.symm.trans hdir)

/-- If all places can be named, a path is identified by the place that it leads to. -/
lemma canonical_of_locate (hnameable : ∀ place ∈ fs.tree.places, nameable place = true)
    (h : fs.locate p = .ok q) : fs.canonical p = .ok q := by
  obtain ⟨hcheck, hresolve⟩ := locate_eq_ok_iff.1 h
  obtain ⟨hzero, hne, -⟩ := checkPath_eq_ok_iff.1 hcheck
  refine canonical_eq_ok_iff.2 ⟨checkBytes_eq_ok_iff.2 ⟨hzero, hne⟩,
    resolve_of_keeps (Node.keeps_refl fs.tree) ?_ hresolve⟩
  exact fun place node hnode _ => hnameable place (Node.mem_places hnode)

end FileSystem

/-! ## Paths within the limits -/

namespace Path

lemma length_join_le (dir : Path) (n : Name) :
    (dir.join n).length ≤ dir.length + (n.length + 1) := by
  rw [join]
  split
  · simp
  · simp

lemma length_below_le (dir : Path) (names : List Name) :
    (dir.below names).length ≤ dir.length + (names.flatMap (Byte.slash :: ·)).length := by
  induction names generalizing dir with
  | nil => exact Nat.le_add_right _ _
  | cons n names ih =>
      have hfirst := length_join_le dir n
      have hrest := ih (dir.join n)
      simp only [List.flatMap_cons, List.cons_append, List.length_cons, List.length_append]
      show ((dir.join n).below names).length ≤ _
      omega

end Path

lemma Location.length_flatMap_le_toPath (place : Location) :
    (place.flatMap (Byte.slash :: ·)).length ≤ place.toPath.length := by
  rw [toPath]
  split
  · next hroot => simp [hroot]
  · exact Nat.le_refl _

namespace Sources

variable {fs : FileSystem} {hidden : Name → Prop} {inputs files : List Path} {d dir p : Path}
  {n : Name} {node : Node}

lemma Meets.length_join_lt (hfs : fs.WellFormed) (hlimits : fs.WithinLimits inputs)
    (hd : d ∈ inputs) (h : Meets fs hidden d dir n node) :
    (dir.join n).length < pathLengthLimit := by
  obtain ⟨_, hfind⟩ := h.exists_find
  obtain ⟨q, hlocate, -⟩ := FileSystem.find_eq_ok_iff.1 hfind
  obtain ⟨names, -, heq, hplace⟩ := h.exists_below hfs
  have hlimit := hlimits d hd _ (Node.mem_places (hplace q hlocate))
  have hbelow := d.length_below_le names
  have hpath := Location.length_flatMap_le_toPath (q ++ names)
  rw [List.flatMap_append, List.length_append] at hpath
  rw [heq]
  omega

lemma nameable_of_withinLimits (hlimits : fs.WithinLimits inputs) (hd : d ∈ inputs) :
    ∀ place ∈ fs.tree.places, nameable place = true := by
  intro place hplace
  have hlimit := hlimits d hd place hplace
  rw [nameable, decide_eq_true_eq]
  omega

/-! ## Links -/

/-- If the links that a walk comes upon and takes for sources lead somewhere, so does all else that
qualifies. -/
lemma Qualifies.exists_locate (hfs : fs.WellFormed) (hlimits : fs.WithinLimits inputs)
    (hd : d ∈ inputs) (h : Qualifies fs hidden d p)
    (hlinks : ∀ dir n target, Meets fs hidden d dir n (.link target) → IsSourceName n →
      ∃ q, fs.locate (dir.join n) = .ok q) : ∃ q, fs.locate p = .ok q := by
  obtain ⟨dir, n, node, hmeets, rfl, -, hname⟩ := h
  cases node with
  | link target => exact hlinks dir n target hmeets hname
  | _ =>
      have hfind := FileSystem.find_join hfs hmeets.listed (fun _ h => Node.noConfusion h)
        (hmeets.length_join_lt hfs hlimits hd)
      obtain ⟨q, hlocate, -⟩ := FileSystem.find_eq_ok_iff.1 hfind
      exact ⟨q, hlocate⟩

/-- **All sources that are found can be read, and so be scanned, exactly if every link that is met
and named like a source leads somewhere.** -/
theorem find_readable_iff {enter : Bool} (hfs : fs.WellFormed) (hlimits : fs.WithinLimits inputs)
    (h : find fs enter inputs = .ok files) :
    ((∀ p ∈ files, ∃ content, fs.read p = .ok content) ∧
      ∀ config, ∃ scanned, (scanFiles fs config files).result = .ok scanned) ↔
    (enter = true → ∀ d ∈ inputs, ∀ dir n target,
      Meets fs (isHidden · = true) d dir n (.link target) → IsSourceName n →
      ∃ q, fs.locate (dir.join n) = .ok q) := by
  obtain ⟨paths, rfl, hpaths⟩ := exists_of_find h
  constructor
  · rintro ⟨hread, -⟩ rfl d hd dir n target hmeets hname
    by_cases hdir : fs.isDirectory (dir.join n) = true
    · obtain ⟨entries, hfind⟩ := FileSystem.isDirectory_iff.1 hdir
      obtain ⟨q, hlocate, -⟩ := FileSystem.find_eq_ok_iff.1 hfind
      exact ⟨q, hlocate⟩
    · -- the link is a source, which is taken by this path or another
      have hqualifies : Qualifies fs (isHidden · = true) d (dir.join n) :=
        ⟨dir, n, _, hmeets, rfl, Bool.eq_false_iff.2 hdir, hname⟩
      have hmem := (hpaths _).2 ⟨d, hd, (foundAt_iff hfs).2 (.inr ⟨rfl, hqualifies⟩)⟩
      obtain ⟨p, hp, hsame⟩ := exists_mem_distinct hmem
      obtain ⟨content, hcontent⟩ := hread p hp
      obtain ⟨q, hlocate, -⟩ := FileSystem.read_eq_ok_iff.1 hcontent
      have hcanonical :=
        FileSystem.canonical_of_locate (nameable_of_withinLimits hlimits hd) hlocate
      exact ⟨q, locate_of_canonical (hmeets.length_join_lt hfs hlimits hd)
        (canonical_of_identity_eq hsame hcanonical)⟩
  · intro hlinks
    have hread : ∀ p ∈ distinct fs [] paths, ∃ content, fs.read p = .ok content := by
      intro p hp
      obtain ⟨d, hd, hfound⟩ := (hpaths p).1 ((distinct_sublist fs [] paths).subset hp)
      rcases (foundAt_iff hfs).1 hfound with ⟨rfl, -, hdir, node, hfind⟩ | ⟨henter, hqualifies⟩
      · obtain ⟨q, hlocate, -⟩ := FileSystem.find_eq_ok_iff.1 hfind
        exact FileSystem.exists_read_of_locate hlocate hdir
      · obtain ⟨q, hlocate⟩ := hqualifies.exists_locate hfs hlimits hd (hlinks henter d hd)
        exact FileSystem.exists_read_of_locate hlocate hqualifies.isDirectory_eq_false
    exact ⟨hread, fun config => exists_scanFiles_of_read config hread⟩

end Sources

/-! ## A link in a directory -/

namespace Sources.Linked

/-- A directory with a source in it and a link that is named like one. -/
def fileSystem (target : String) : FileSystem where
  root := [(Bytes.ofString "lib", .directory
      [(Bytes.ofString "a.ex", .file (Bytes.ofString "def f\n")),
        (Bytes.ofString "b.ex", .link (Bytes.ofString target))]),
    (Bytes.ofString "main", .file (Bytes.ofString "def g\n"))]
  workingDirectory := []

def lib : Path := Bytes.ofString "lib"

def found : List Path := ["lib/a.ex", "lib/b.ex"].map Bytes.ofString

end Sources.Linked

/-- A link to a file is read like the file. -/
theorem Sources.find_readable_iff_linked :
    (Linked.fileSystem "../main").WellFormed ∧
      (Linked.fileSystem "../main").WithinLimits [Linked.lib] ∧
      find (Linked.fileSystem "../main") true [Linked.lib] = .ok Linked.found ∧
      (∀ p ∈ Linked.found, ∃ content, (Linked.fileSystem "../main").read p = .ok content) ∧
      ∀ dir n target,
        Meets (Linked.fileSystem "../main") (isHidden · = true) Linked.lib dir n (.link target) →
        IsSourceName n → ∃ q, (Linked.fileSystem "../main").locate (dir.join n) = .ok q := by
  have hfs : (Linked.fileSystem "../main").WellFormed := by decide
  have hlimits : (Linked.fileSystem "../main").WithinLimits [Linked.lib] := by decide
  have hlib : (Linked.fileSystem "../main").find Linked.lib = .ok (.directory _) := rfl
  have hfind : find (Linked.fileSystem "../main") true [Linked.lib] = .ok Linked.found := by
    rw [find_directory hlib, List.mergeSort_of_pairwise (by decide)]
    decide
  have hread : ∀ p ∈ Linked.found,
      ∃ content, (Linked.fileSystem "../main").read p = .ok content := by
    intro p hp
    simp only [Linked.found, List.map_cons, List.map_nil, List.mem_cons, List.not_mem_nil,
      or_false] at hp
    rcases hp with rfl | rfl
    · exact ⟨_, rfl⟩
    · exact ⟨_, rfl⟩
  have hlinks := (find_readable_iff hfs hlimits hfind).1
    ⟨hread, fun config => exists_scanFiles_of_read config hread⟩ rfl
  exact ⟨hfs, hlimits, hfind, hread, hlinks Linked.lib List.mem_cons_self⟩

/-- A link that leads nowhere is found as a source, and no scan of what is found ends well. -/
theorem Sources.find_dangling_unreadable :
    find (Linked.fileSystem "nowhere") true [Linked.lib] = .ok Linked.found ∧
      (Linked.fileSystem "nowhere").read (Bytes.ofString "lib/b.ex") = .error .notFound ∧
      ∀ config, (scanFiles (Linked.fileSystem "nowhere") config Linked.found).result =
        .error ⟨Bytes.ofString "lib/b.ex", .notFound⟩ := by
  have hlib : (Linked.fileSystem "nowhere").find Linked.lib = .ok (.directory _) := rfl
  refine ⟨?_, rfl, fun config => rfl⟩
  rw [find_directory hlib, List.mergeSort_of_pairwise (by decide)]
  decide

end ElixirTags
