import ElixirTags.FileSystem.Resolve
import Mathlib.Data.List.Basic

/-!
# Well-formed file systems

A directory lists every name once, and its names can be written as steps of a path.  No file system
that can be met is otherwise, and what a path leads to and what a directory lists agree only then.
`FileSystem.WellFormed` says so of every directory of a tree.

Conditions of this sort are about one listing at a time; `Node.EveryListing` puts them on all of
them.  `FileSystem.WithinLimits` is about places instead: how far down a tree goes, and how long its
names are.
-/

namespace ElixirTags

/-- The name can be that of an entry. -/
def Path.IsName (n : Name) : Prop :=
  n ≠ [] ∧ Byte.slash ∉ n ∧ 0 ∉ n ∧ n ≠ hereName ∧ n ≠ upName ∧ n.length ≤ maxNameLength

instance : DecidablePred Path.IsName := fun _ =>
  inferInstanceAs (Decidable (_ ∧ _ ∧ _ ∧ _ ∧ _ ∧ _))

namespace Node

/-- What holds of a directory if it holds of all that it lists holds of every tree. -/
@[elab_as_elim]
theorem listingInduction {motive : Node → Prop} (file : ∀ content, motive (.file content))
    (link : ∀ target, motive (.link target))
    (directory : ∀ entries, (∀ n node, (n, node) ∈ entries → motive node) →
      motive (.directory entries)) : ∀ node, motive node
  | .file content => file content
  | .link target => link target
  | .directory entries => by
      refine directory entries ?_
      intro n node hmem
      exact listingInduction file link directory node
termination_by node => sizeOf node
decreasing_by
  have hsize := List.sizeOf_lt_of_mem hmem
  simp only [Prod.mk.sizeOf_spec, Node.directory.sizeOf_spec] at hsize ⊢
  omega

variable (P : List (Name × Node) → Prop)

mutual

/-- The listing of every directory in the tree satisfies `P`. -/
def EveryListing : Node → Prop
  | directory entries => P entries ∧ EveryListingIn entries
  | file _ => True
  | link _ => True

/-- So it does in the trees that the entries stand for. -/
def EveryListingIn : List (Name × Node) → Prop
  | [] => True
  | (_, node) :: rest => EveryListing node ∧ EveryListingIn rest

end

mutual

/-- A condition that can be decided for one listing can be decided for all. -/
def decidableEveryListing [DecidablePred P] : (node : Node) → Decidable (node.EveryListing P)
  | directory entries =>
    @instDecidableAnd _ _ (inferInstanceAs (Decidable (P entries)))
      (decidableEveryListingIn entries)
  | file _ => .isTrue trivial
  | link _ => .isTrue trivial

/-- The same for the trees of some entries. -/
def decidableEveryListingIn [DecidablePred P] :
    (entries : List (Name × Node)) → Decidable (EveryListingIn P entries)
  | [] => .isTrue trivial
  | (_, node) :: rest =>
    @instDecidableAnd _ _ (decidableEveryListing node) (decidableEveryListingIn rest)

end

instance [DecidablePred P] (node : Node) : Decidable (node.EveryListing P) :=
  decidableEveryListing P node

variable {P} {t node : Node} {place : Location} {entries : List (Name × Node)}

lemma mem_of_lookup {n : Name} (h : entries.lookup n = some node) : (n, node) ∈ entries := by
  obtain ⟨before, after, rfl, -⟩ := List.lookup_eq_some_iff.1 h
  exact List.mem_append_right before List.mem_cons_self

/-- A name that is listed once stands for what it is listed with. -/
lemma lookup_of_mem (hnodup : (entries.map Prod.fst).Nodup) {n : Name}
    (h : (n, node) ∈ entries) : entries.lookup n = some node := by
  obtain ⟨before, after, rfl⟩ := List.append_of_mem h
  refine List.lookup_eq_some_iff.2 ⟨before, after, rfl, ?_⟩
  intro entry hentry
  rw [List.map_append, List.map_cons] at hnodup
  obtain ⟨-, -, hdisjoint⟩ := List.nodup_append.1 hnodup
  exact bne_iff_ne.2 (hdisjoint entry.1 (List.mem_map_of_mem hentry) n List.mem_cons_self).symm

lemma everyListingIn_iff :
    EveryListingIn P entries ↔ ∀ entry ∈ entries, entry.2.EveryListing P := by
  induction entries with
  | nil => simp [EveryListingIn]
  | cons first rest ih => rw [EveryListingIn, ih, List.forall_mem_cons]

lemma EveryListing.imp {Q : List (Name × Node) → Prop} (himp : ∀ entries, P entries → Q entries)
    (h : t.EveryListing P) : t.EveryListing Q := by
  induction t using listingInduction with
  | file content => trivial
  | link target => trivial
  | directory entries ih =>
      refine ⟨himp entries h.1, everyListingIn_iff.2 ?_⟩
      rintro ⟨n, node⟩ hmem
      exact ih n node hmem (everyListingIn_iff.1 h.2 _ hmem)

lemma EveryListing.at? (h : t.EveryListing P) (hnode : t.at? place = some node) :
    node.EveryListing P := by
  induction place generalizing t with
  | nil =>
      cases hnode
      exact h
  | cons n place ih =>
      cases t with
      | file _ => cases hnode
      | link _ => cases hnode
      | directory entries =>
          obtain ⟨next, hnext, hbelow⟩ := Option.bind_eq_some_iff.1 hnode
          exact ih (everyListingIn_iff.1 h.2 _ (mem_of_lookup hnext)) hbelow

/-! ## The places in a tree -/

mutual

/-- The places in a tree where there is something. -/
def places : Node → List Location
  | directory entries => [] :: placesIn entries
  | file _ => [[]]
  | link _ => [[]]

/-- Those below some entries. -/
def placesIn : List (Name × Node) → List Location
  | [] => []
  | (n, node) :: rest => (places node).map (n :: ·) ++ placesIn rest

end

lemma cons_mem_placesIn {n : Name} (h : (n, node) ∈ entries) (hplace : place ∈ node.places) :
    n :: place ∈ placesIn entries := by
  induction entries with
  | nil => cases h
  | cons first rest ih =>
      rw [placesIn, List.mem_append]
      rcases List.mem_cons.1 h with rfl | hrest
      · exact .inl (List.mem_map_of_mem hplace)
      · exact .inr (ih hrest)

lemma mem_places (h : t.at? place = some node) : place ∈ t.places := by
  induction place generalizing t with
  | nil => cases t <;> simp [places]
  | cons n place ih =>
      cases t with
      | file _ => cases h
      | link _ => cases h
      | directory entries =>
          obtain ⟨next, hnext, hbelow⟩ := Option.bind_eq_some_iff.1 h
          rw [places]
          exact List.mem_cons_of_mem _ (cons_mem_placesIn (mem_of_lookup hnext) (ih hbelow))

end Node

namespace FileSystem

/-- Every directory lists each of its names once, and all of them can be steps of a path. -/
def WellFormed (fs : FileSystem) : Prop :=
  fs.tree.EveryListing fun entries =>
    (entries.map Prod.fst).Nodup ∧ ∀ n ∈ entries.map Prod.fst, Path.IsName n

instance (fs : FileSystem) : Decidable fs.WellFormed :=
  inferInstanceAs (Decidable (Node.EveryListing _ _))

/-- All names in all directories are UTF-8. -/
def Utf8Names (fs : FileSystem) : Prop :=
  fs.tree.EveryListing fun entries => ∀ n ∈ entries.map Prod.fst, Utf8.Valid n

instance (fs : FileSystem) : Decidable fs.Utf8Names :=
  inferInstanceAs (Decidable (Node.EveryListing _ _))

/-- The inputs are so short and the tree is so small that no path which a walk of an input comes
upon is too long. -/
def WithinLimits (fs : FileSystem) (inputs : List Path) : Prop :=
  ∀ d ∈ inputs, ∀ place ∈ fs.tree.places, d.length + place.toPath.length < pathLengthLimit

instance (fs : FileSystem) (inputs : List Path) : Decidable (fs.WithinLimits inputs) :=
  inferInstanceAs (Decidable (∀ d ∈ inputs, ∀ place ∈ fs.tree.places, _))

lemma WellFormed.nodup {fs : FileSystem} (h : fs.WellFormed) :
    fs.tree.EveryListing fun entries => (entries.map Prod.fst).Nodup :=
  h.imp fun _ hentries => hentries.1

end FileSystem

end ElixirTags
