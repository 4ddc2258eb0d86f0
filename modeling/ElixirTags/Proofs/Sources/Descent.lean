import ElixirTags.Proofs.FileSystem.WellFormed
import ElixirTags.Proofs.Sources.Identity

/-!
# Going down from a directory

A walk makes the path of an entry by joining its name to the path of the directory.  A joined path
looks as it should (`Path.components_join`), and unless it is too long it leads to the entry
(`FileSystem.locate_join`): following the links of the directory's path uses up some of the links
that may be followed, and nothing else.

`FileSystem.listed?` is what a directory lists under a name, without following it.
-/

namespace ElixirTags

/-! ## Joined paths -/

namespace Path

variable {dir : Path} {n : Name}

/-- A name is joined to the pieces of a directory's path, less a blank last one. -/
lemma pieces_join (hdir : dir ≠ []) (hn : IsName n) :
    ∃ before, before ≠ [] ∧ (dir.pieces = before ∨ dir.pieces = before ++ [[]]) ∧
      (dir.join n).pieces = before ++ [n] := by
  have hpiece : pieces n = [n] := List.splitOn_eq_singleton hn.2.1
  by_cases hslash : dir.getLast? = some Byte.slash
  · obtain ⟨init, rfl⟩ := List.getLast?_eq_some_iff.1 hslash
    refine ⟨pieces init, List.splitOn_ne_nil _ _, .inr ?_, ?_⟩
    · exact List.splitOn_append_cons_self init []
    · rw [join, if_pos (by simp [hslash]), List.append_assoc, ← hpiece]
      exact List.splitOn_append_cons_self init n
  · refine ⟨dir.pieces, List.splitOn_ne_nil _ _, .inl rfl, ?_⟩
    rw [join, if_neg (by simp [hdir, hslash]), ← hpiece]
    exact List.splitOn_append_cons_self dir n

lemma mem_of_mem_join {b : UInt8} (h : b ∈ dir.join n) : b ∈ dir ∨ b = Byte.slash ∨ b ∈ n := by
  rw [join] at h
  split at h
  · rcases List.mem_append.1 h with h | h
    · exact .inl h
    · exact .inr (.inr h)
  · simpa using h

lemma join_ne_nil (hdir : dir ≠ []) : dir.join n ≠ [] := by
  rw [join]
  split <;> simp [hdir]

lemma isAbsolute_join (hdir : dir ≠ []) : (dir.join n).isAbsolute = dir.isAbsolute := by
  obtain ⟨b, rest, rfl⟩ := List.exists_cons_of_ne_nil hdir
  rw [join]
  split <;> rfl

/-- The components of a joined path are those of the directory and the name. -/
lemma components_join (hdir : dir ≠ []) (hn : IsName n) :
    (dir.join n).components = dir.components ++ [.name n] := by
  obtain ⟨before, hbefore, hpieces, hjoin⟩ := pieces_join hdir hn
  have hfirst : (dir.join n).pieces.head? = dir.pieces.head? := by
    obtain ⟨first, rest, rfl⟩ := List.exists_cons_of_ne_nil hbefore
    rw [hjoin]
    rcases hpieces with h | h <;> rw [h] <;> rfl
  have hname : Component.ofPiece? n = some (.name n) := by
    simp [Component.ofPiece?, hn.1, hn.2.2.2.1, hn.2.2.2.2.1]
  have hbelow : dir.pieces.filterMap Component.ofPiece? = before.filterMap Component.ofPiece? := by
    rcases hpieces with h | h <;> rw [h]
    rw [List.filterMap_append]
    exact List.append_nil _
  rw [components, components, origin, origin, isAbsolute_join hdir, hfirst, hjoin, hbelow,
    List.filterMap_append, List.filterMap_cons, hname, List.append_assoc]
  rfl

/-- The path of what is below a directory, at the end of the given names. -/
def below (dir : Path) (names : List Name) : Path := names.foldl join dir

lemma components_below {names : List Name} (hdir : dir ≠ []) (hnames : ∀ n ∈ names, IsName n) :
    (dir.below names).components = dir.components ++ names.map .name := by
  induction names generalizing dir with
  | nil => exact (List.append_nil _).symm
  | cons n names ih =>
      rw [below, List.foldl_cons]
      show ((dir.join n).below names).components = _
      rw [ih (join_ne_nil hdir) fun m hm => hnames m (List.mem_cons_of_mem _ hm),
        components_join hdir (hnames n List.mem_cons_self), List.map_cons, List.append_assoc]
      rfl

/-- Paths below a directory that look alike are the same. -/
lemma below_eq_of_components_eq {names names' : List Name} (hdir : dir ≠ [])
    (hnames : ∀ n ∈ names, IsName n) (hnames' : ∀ n ∈ names', IsName n)
    (h : (dir.below names).components = (dir.below names').components) :
    dir.below names = dir.below names' := by
  rw [components_below hdir hnames, components_below hdir hnames', List.append_cancel_left_eq] at h
  rw [(List.map_inj_right fun _ _ heq => Component.name.inj heq).1 h]

/-- The steps of a joined path are those of the directory, less a blank last one, and the name. -/
lemma segments_join (hdir : dir ≠ []) (hn : IsName n) :
    ∃ before, Skips dir.segments before ∧ (dir.join n).segments = before ++ [.name n] := by
  obtain ⟨before, -, hpieces, hjoin⟩ := pieces_join hdir hn
  refine ⟨before.map Segment.ofPiece, ?_, ?_⟩
  · rw [segments]
    rcases hpieces with h | h <;> rw [h]
    · exact .refl _
    · rw [List.map_append]
      have hblank : Skips [Segment.ofPiece []] [] := .blank (.refl [])
      simpa using hblank.append_left (before.map Segment.ofPiece)
  · rw [segments, hjoin, List.map_append]
    simp [Segment.ofPiece, hn.1, hn.2.2.2.1, hn.2.2.2.2.1]

/-! ## The names of sources -/

/-- The extension of a name follows its last dot, which is not its first byte. -/
lemma nameExtension?_eq_some {e : Bytes} :
    nameExtension? n = some e ↔ ∃ stem, stem ≠ [] ∧ n = stem ++ Byte.dot :: e ∧ Byte.dot ∉ e := by
  constructor
  · intro h
    rw [nameExtension?] at h
    split at h
    · next first second rest hrest =>
      have hwhole := List.takeWhile_append_dropWhile (p := (· != Byte.dot)) (l := n.reverse)
      have hdot := List.head?_dropWhile_not (· != Byte.dot) n.reverse
      rw [hrest] at hwhole hdot
      have hfirst : first = Byte.dot := by simpa using hdot
      have he := Option.some.inj h
      have hn := congrArg List.reverse hwhole
      rw [List.reverse_append, he, List.reverse_reverse] at hn
      refine ⟨(second :: rest).reverse, by simp, ?_, ?_⟩
      · rw [← hn, hfirst]
        simp
      · rw [← he, List.mem_reverse]
        intro hmem
        have hall := List.all_eq_true.1 (List.all_takeWhile (p := (· != Byte.dot)) (l := n.reverse))
        exact absurd (hall _ hmem) (by simp)
    · cases h
  · rintro ⟨stem, hstem, rfl, he⟩
    have hrun : ∀ b ∈ e.reverse, (b != Byte.dot) = true := by
      intro b hb
      rw [bne_iff_ne]
      rintro rfl
      exact he (List.mem_reverse.1 hb)
    have hreverse : (stem ++ Byte.dot :: e).reverse = e.reverse ++ Byte.dot :: stem.reverse := by
      simp
    obtain ⟨last, rest, hlast⟩ := List.exists_cons_of_ne_nil (List.reverse_ne_nil_iff.2 hstem)
    rw [nameExtension?, hreverse, List.dropWhile_append_of_pos hrun,
      List.takeWhile_append_of_pos hrun, List.dropWhile_cons_of_neg (by simp),
      List.takeWhile_cons_of_neg (by simp), hlast]
    simp

end Path

/-- The name of a source: a stem, and the extension `ex` or `exs`. -/
def Sources.IsSourceName (n : Name) : Prop :=
  ∃ stem, stem ≠ [] ∧ (n = stem ++ Bytes.ofString ".ex" ∨ n = stem ++ Bytes.ofString ".exs")

lemma Language.matchesPath_join {dir : Path} {n : Name} (hdir : dir ≠ []) (hn : Path.IsName n) :
    elixir.matchesPath (dir.join n) = true ↔ Sources.IsSourceName n := by
  have hname : (dir.join n).fileName? = some n := by
    rw [Path.fileName?, Path.components_join hdir hn, List.getLast?_concat]
  have hmatch (e : Bytes) : elixir.matchesExtension e = true ↔
      Bytes.ofString "ex" = e ∨ Bytes.ofString "exs" = e := by
    simp only [matchesExtension, elixir, List.any_cons, List.any_nil, Bool.or_false,
      Bool.or_eq_true, beq_iff_eq]
  rw [matchesPath, Path.extension?, hname, Option.bind_some, Option.any_eq_true]
  constructor
  · rintro ⟨e, he, hex⟩
    obtain ⟨stem, hstem, rfl, -⟩ := Path.nameExtension?_eq_some.1 he
    rcases (hmatch e).1 hex with rfl | rfl
    · exact ⟨stem, hstem, .inl rfl⟩
    · exact ⟨stem, hstem, .inr rfl⟩
  · rintro ⟨stem, hstem, rfl | rfl⟩
    · refine ⟨_, Path.nameExtension?_eq_some.2 ⟨stem, hstem, rfl, ?_⟩, (hmatch _).2 (.inl rfl)⟩
      decide
    · refine ⟨_, Path.nameExtension?_eq_some.2 ⟨stem, hstem, rfl, ?_⟩, (hmatch _).2 (.inr rfl)⟩
      decide

/-! ## Walks that go on -/

/-- Where a walk stops that goes on with more segments. -/
def Stop.goOn (t : Node) (range : Location → Bool) (more : List Path.Segment) : Stop → Stop
  | arrived q => walk t range q more
  | missing dir n rest => .missing dir n (rest ++ more)
  | link dir target rest => .link dir target (rest ++ more)
  | fault f => .fault f

section Walk

variable {t : Node} {range : Location → Bool} {place q : Location} {a b : List Path.Segment}

lemma walk_append : walk t range place (a ++ b) = (walk t range place a).goOn t range b := by
  induction a generalizing place with
  | nil => rfl
  | cons segment a ih =>
      rw [List.cons_append, walk_cons, walk_cons]
      cases step t range place segment with
      | next p => exact ih
      | missing n => rfl
      | link target => rfl
      | fault f => rfl

/-- A path that leads on from where another leads is resolved from there, with the links that are
left. -/
lemma resolve_append {links : Nat} (h : resolve t range links place a = .ok q) :
    ∃ left, ∀ b, resolve t range links place (a ++ b) = resolve t range left q b := by
  induction links using Nat.strongRecOn generalizing place a with
  | ind links ih =>
      rcases resolve_eq_ok_iff.1 h with hw | ⟨fewer, dir, target, rest, rfl, hw, hrest⟩
      · refine ⟨links, fun b => ?_⟩
        rw [resolve.eq_def, walk_append, hw, Stop.goOn, ← resolve.eq_def]
      · obtain ⟨left, hleft⟩ := ih fewer fewer.lt_succ_self hrest
        refine ⟨left, fun b => ?_⟩
        rw [resolve.eq_def, walk_append, hw, Stop.goOn, ← hleft b, List.append_assoc]

end Walk

/-! ## Entries -/

namespace FileSystem

variable {fs : FileSystem} {dir p : Path} {n : Name} {node : Node}

/-- What the directory at a path lists under a name. -/
def listed? (fs : FileSystem) (dir : Path) (n : Name) : Option Node :=
  match fs.find dir with
  | .ok (.directory entries) => entries.lookup n
  | _ => none

lemma listed?_eq_some_iff : fs.listed? dir n = some node ↔
    ∃ entries, fs.find dir = .ok (.directory entries) ∧ entries.lookup n = some node := by
  rw [listed?]
  cases fs.find dir with
  | error _ => simp
  | ok found => cases found <;> simp

/-- What holds of every listing holds of that of a directory which a path leads to. -/
lemma listing_of_find {P : List (Name × Node) → Prop} (h : fs.tree.EveryListing P)
    {entries : List (Name × Node)} (hfind : fs.find dir = .ok (.directory entries)) :
    P entries := by
  obtain ⟨place, -, hplace⟩ := find_eq_ok_iff.1 hfind
  exact (Node.EveryListing.at? h hplace).1

lemma listing_of_listed? {P : Name → Prop}
    (h : fs.tree.EveryListing fun entries => ∀ n ∈ entries.map Prod.fst, P n)
    (hentry : fs.listed? dir n = some node) : P n := by
  obtain ⟨entries, hfind, hlookup⟩ := listed?_eq_some_iff.1 hentry
  exact listing_of_find h hfind n (List.mem_map_of_mem (Node.mem_of_lookup hlookup))

lemma isName_of_listed? (hfs : fs.WellFormed) (h : fs.listed? dir n = some node) :
    Path.IsName n :=
  listing_of_listed? (hfs.imp fun _ hentries => hentries.2) h

/-- A path that leads somewhere is not empty. -/
lemma ne_nil_of_find (h : fs.find p = .ok node) : p ≠ [] := by
  rintro rfl
  cases h

lemma ne_nil_of_listed? (h : fs.listed? dir n = some node) : dir ≠ [] := by
  obtain ⟨entries, hfind, -⟩ := listed?_eq_some_iff.1 h
  exact ne_nil_of_find hfind

/-- What a well-formed directory lists under a name is what it lists with the name. -/
lemma listed?_eq_some_iff_mem (hfs : fs.WellFormed) {entries : List (Name × Node)}
    (hfind : fs.find dir = .ok (.directory entries)) :
    fs.listed? dir n = some node ↔ (n, node) ∈ entries := by
  rw [listed?, hfind]
  exact ⟨Node.mem_of_lookup, Node.lookup_of_mem (listing_of_find hfs hfind).1⟩

/-- The path of an entry leads to the entry, unless it is a link or the path is too long. -/
lemma locate_join {place : Location} (hn : Path.IsName n) (hlocate : fs.locate dir = .ok place)
    (hnode : fs.at? (place ++ [n]) = some node) (hlink : ∀ target, node ≠ .link target)
    (hshort : (dir.join n).length < pathLengthLimit) :
    fs.locate (dir.join n) = .ok (place ++ [n]) := by
  obtain ⟨hcheck, hresolve⟩ := locate_eq_ok_iff.1 hlocate
  obtain ⟨hzero, hdir, -⟩ := checkPath_eq_ok_iff.1 hcheck
  obtain ⟨before, hskips, hsegments⟩ := Path.segments_join hdir hn
  refine locate_eq_ok_iff.2 ⟨checkPath_eq_ok_iff.2 ⟨?_, Path.join_ne_nil hdir, hshort⟩, ?_⟩
  · intro hmem
    rcases Path.mem_of_mem_join hmem with hmem | hmem | hmem
    · exact hzero hmem
    · cases hmem
    · exact hn.2.2.1 hmem
  · obtain ⟨left, hleft⟩ := resolve_append (resolve_of_skips hskips hresolve)
    have hstart :
        (dir.join n).startFrom fs.workingDirectory = dir.startFrom fs.workingDirectory := by
      rw [Path.startFrom, Path.isAbsolute_join hdir]
      rfl
    have hstep : step fs.tree anywhere place (.name n) = .next (place ++ [n]) := by
      obtain ⟨entries, hplace⟩ := Node.exists_directory_of_at?_concat hnode
      unfold step
      rw [hplace]
      dsimp only
      rw [if_neg (Nat.not_lt.2 hn.2.2.2.2.2),
        show fs.tree.at? (place ++ [n]) = some node from hnode]
      cases node with
      | link target => exact absurd rfl (hlink target)
      | file _ => rfl
      | directory _ => rfl
    rw [hsegments, hstart, hleft, resolve.eq_def, walk_cons, hstep]
    rfl

/-- What is listed under a name stands at its place. -/
lemma at?_of_listed? {place : Location} (h : fs.listed? dir n = some node)
    (hlocate : fs.locate dir = .ok place) : fs.at? (place ++ [n]) = some node := by
  obtain ⟨entries, hfind, hlookup⟩ := listed?_eq_some_iff.1 h
  obtain ⟨place', hlocate', hplace⟩ := find_eq_ok_iff.1 hfind
  cases hlocate.symm.trans hlocate'
  exact (Node.at?_concat hplace n).trans hlookup

lemma find_join (hfs : fs.WellFormed) (h : fs.listed? dir n = some node)
    (hlink : ∀ target, node ≠ .link target) (hshort : (dir.join n).length < pathLengthLimit) :
    fs.find (dir.join n) = .ok node := by
  obtain ⟨entries, hfind, -⟩ := listed?_eq_some_iff.1 h
  obtain ⟨place, hlocate, -⟩ := find_eq_ok_iff.1 hfind
  have hnode := at?_of_listed? h hlocate
  exact find_eq_ok_iff.2
    ⟨_, locate_join (isName_of_listed? hfs h) hlocate hnode hlink hshort, hnode⟩

/-- If the path of an entry leads anywhere, it leads to the entry, unless that is a link. -/
lemma eq_of_find_join (hfs : fs.WellFormed) (h : fs.listed? dir n = some node)
    (hlink : ∀ target, node ≠ .link target) {found : Node}
    (hfind : fs.find (dir.join n) = .ok found) : found = node := by
  obtain ⟨q, hlocate, -⟩ := find_eq_ok_iff.1 hfind
  rw [find_join hfs h hlink (length_lt_of_locate hlocate)] at hfind
  exact (Except.ok.inj hfind).symm

lemma isDirectory_join (hfs : fs.WellFormed) {content : Bytes}
    (h : fs.listed? dir n = some (.file content)) : fs.isDirectory (dir.join n) = false := by
  rw [Bool.eq_false_iff]
  intro hdir
  obtain ⟨entries, hfind⟩ := isDirectory_iff.1 hdir
  cases eq_of_find_join hfs h (fun _ h => Node.noConfusion h) hfind

end FileSystem

end ElixirTags
