import ElixirTags.Proofs.FileSystem.Frame
import ElixirTags.Proofs.FileSystem.WellFormed

/-!
# Listings in another order

In which order a directory lists its entries is no property of the files.  `FileSystem.Relisted`
relates file systems that differ in nothing else, in any of their directories.  If they are well
formed, the same stands at every place (`Node.Relisted.exists_at?`), so every path leads where it
led.
-/

namespace ElixirTags

namespace Node

/-- The trees are the same but for the order of listings. -/
inductive Relisted : Node → Node → Prop
  | file (content : Bytes) : Relisted (.file content) (.file content)
  | link (target : Path) : Relisted (.link target) (.link target)
  /-- The same names are listed, and a name stands for trees that are the same in this sense. -/
  | directory {entries entries' : List (Name × Node)} :
    (entries.map Prod.fst).Perm (entries'.map Prod.fst) →
    (∀ n node node', (n, node) ∈ entries → (n, node') ∈ entries' → Relisted node node') →
    Relisted (.directory entries) (.directory entries')

namespace Relisted

variable {t t' node : Node} {place : Location}

lemma symm (h : Relisted t t') : Relisted t' t := by
  induction h with
  | file content => exact .file content
  | link target => exact .link target
  | directory hperm _ ih =>
      exact .directory hperm.symm fun n node node' h h' => ih n node' node h' h

lemma sameSort (h : Relisted t t') : SameSort t t' := by
  cases h with
  | file content => exact .file content content
  | link target => exact .link target
  | directory _ _ => exact .directory _ _

lemma directory_of_perm {entries entries' : List (Name × Node)} (hperm : entries.Perm entries')
    (hnodup : (entries.map Prod.fst).Nodup) (hbelow : ∀ entry ∈ entries, Relisted entry.2 entry.2) :
    Relisted (.directory entries) (.directory entries') := by
  refine .directory (hperm.map Prod.fst) ?_
  intro n node node' hmem hmem'
  have hsame := (lookup_of_mem hnodup hmem).symm.trans
    (lookup_of_mem hnodup (hperm.mem_iff.2 hmem'))
  cases hsame
  exact hbelow _ hmem

lemma refl (h : t.EveryListing fun entries => (entries.map Prod.fst).Nodup) : Relisted t t := by
  induction t using listingInduction with
  | file content => exact .file content
  | link target => exact .link target
  | directory entries ih =>
      refine directory_of_perm (.refl entries) h.1 ?_
      rintro ⟨n, node⟩ hmem
      exact ih n node hmem (everyListingIn_iff.1 h.2 _ hmem)

/-- If names are listed once, a listing can be put in any other order. -/
lemma of_perm {entries entries' : List (Name × Node)} (hperm : entries.Perm entries')
    (h : (Node.directory entries).EveryListing fun entries => (entries.map Prod.fst).Nodup) :
    Relisted (.directory entries) (.directory entries') :=
  directory_of_perm hperm h.1 fun entry hmem => refl (everyListingIn_iff.1 h.2 entry hmem)

/-- What holds of all listings and does not depend on their order holds in another order. -/
lemma everyListing {P : List (Name × Node) → Prop}
    (hP : ∀ es es' : List (Name × Node), (es.map Prod.fst).Perm (es'.map Prod.fst) → P es → P es')
    (h : Relisted t t') (ht : t.EveryListing P) : t'.EveryListing P := by
  induction h with
  | file content => trivial
  | link target => trivial
  | directory hperm _ ih =>
      refine ⟨hP _ _ hperm ht.1, everyListingIn_iff.2 ?_⟩
      rintro ⟨n, node'⟩ hmem'
      obtain ⟨⟨_, node⟩, hmem, rfl⟩ :=
        List.mem_map.1 (hperm.mem_iff.2 (List.mem_map_of_mem (f := Prod.fst) hmem'))
      exact ih _ node node' hmem hmem' (everyListingIn_iff.1 ht.2 _ hmem)

/-- If names are listed once, the same stands at every place. -/
lemma exists_at? (h : Relisted t t')
    (ht : t'.EveryListing fun entries => (entries.map Prod.fst).Nodup)
    (hnode : t.at? place = some node) :
    ∃ node', t'.at? place = some node' ∧ Relisted node node' := by
  induction place generalizing t t' with
  | nil =>
      cases hnode
      exact ⟨t', rfl, h⟩
  | cons n place ih =>
      cases h with
      | file _ => cases hnode
      | link _ => cases hnode
      | directory hperm hbelow =>
          obtain ⟨next, hnext, hrest⟩ := Option.bind_eq_some_iff.1 hnode
          have hmem := mem_of_lookup hnext
          obtain ⟨⟨_, next'⟩, hmem', rfl⟩ :=
            List.mem_map.1 (hperm.mem_iff.1 (List.mem_map_of_mem (f := Prod.fst) hmem))
          obtain ⟨node', hnode', hsame⟩ := ih (hbelow _ next next' hmem hmem')
            (everyListingIn_iff.1 ht.2 _ hmem') hrest
          refine ⟨node', ?_, hsame⟩
          rw [Node.at?, lookup_of_mem ht.1 hmem']
          exact hnode'

end Relisted

end Node

namespace FileSystem

/-- The file systems are the same but for the order of listings. -/
structure Relisted (fs fs' : FileSystem) : Prop where
  tree : fs.tree.Relisted fs'.tree
  workingDirectory : fs'.workingDirectory = fs.workingDirectory

namespace Relisted

variable {fs fs' : FileSystem} {p : Path} {q : Location} {node : Node}

lemma symm (h : fs.Relisted fs') : fs'.Relisted fs :=
  ⟨h.tree.symm, h.workingDirectory.symm⟩

lemma wellFormed (h : fs.Relisted fs') (hfs : fs.WellFormed) : fs'.WellFormed := by
  refine h.tree.everyListing ?_ hfs
  rintro es es' hperm ⟨hnodup, hnames⟩
  exact ⟨hperm.nodup_iff.1 hnodup, fun n hn => hnames n (hperm.mem_iff.2 hn)⟩

lemma utf8Names (h : fs.Relisted fs') (hnames : fs.Utf8Names) : fs'.Utf8Names := by
  refine h.tree.everyListing ?_ hnames
  exact fun es es' hperm hvalid n hn => hvalid n (hperm.mem_iff.2 hn)

lemma keeps (h : fs.Relisted fs') (hfs : fs.WellFormed) : fs.tree.Keeps fs'.tree := by
  intro q node hnode
  obtain ⟨node', hnode', hsame⟩ := h.tree.exists_at? (h.wellFormed hfs).nodup hnode
  exact ⟨node', hnode', hsame.sameSort⟩

/-- A path leads to the same node, up to the order of listings. -/
lemma exists_find (h : fs.Relisted fs') (hfs : fs.WellFormed) (hfind : fs.find p = .ok node) :
    ∃ node', fs'.find p = .ok node' ∧ node.Relisted node' := by
  obtain ⟨q, hlocate, hplace⟩ := find_eq_ok_iff.1 hfind
  obtain ⟨node', hplace', hsame⟩ := h.tree.exists_at? (h.wellFormed hfs).nodup hplace
  refine ⟨node', find_eq_ok_iff.2 ⟨q, ?_, hplace'⟩, hsame⟩
  exact locate_of_keeps (h.keeps hfs) h.workingDirectory hlocate

lemma isDirectory_eq (h : fs.Relisted fs') (hfs : fs.WellFormed) (p : Path) :
    fs'.isDirectory p = fs.isDirectory p := by
  have transfer {fs fs' : FileSystem} (h : fs.Relisted fs') (hfs : fs.WellFormed)
      (hdir : fs.isDirectory p = true) : fs'.isDirectory p = true := by
    obtain ⟨entries, hfind⟩ := isDirectory_iff.1 hdir
    obtain ⟨_, hfind', hsame⟩ := h.exists_find hfs hfind
    cases hsame
    exact isDirectory_iff.2 ⟨_, hfind'⟩
  exact Bool.eq_iff_iff.2 ⟨transfer h.symm (h.wellFormed hfs), transfer h hfs⟩

lemma canonical_eq_ok_iff (h : fs.Relisted fs') (hfs : fs.WellFormed) :
    fs'.canonical p = .ok q ↔ fs.canonical p = .ok q :=
  ⟨canonical_of_keeps (h.symm.keeps (h.wellFormed hfs)) h.symm.workingDirectory,
    canonical_of_keeps (h.keeps hfs) h.workingDirectory⟩

end Relisted

end FileSystem

end ElixirTags
