import ElixirTags.FileSystem.Edit
import Mathlib.Data.List.Basic

/-!
# What a write changes

Storing a file changes what stands at one place and nothing else.  `Stored fs after place content`
says this of two file systems by what stands at each place: `place` holds the file, and every other
place holds what it held before, seen without what is below it (`Node.surface`).

Whatever can be said about a path after a write is read off this.  A walk is taken apart into steps
(`walk_cons`), and a step looks at the sort of a node only (`step_of_keeps`), so a path that led
somewhere leads to the same place (`Stored.locate`).  A file at another place keeps its content
(`Stored.read_of_ne`).  A path that has been written to leads to the file, and can be written to
again (`FileSystem.exists_stored_of_write`).
-/

namespace ElixirTags

/-! ## Nodes at places -/

namespace Node

/-- The node without what is below it. -/
def surface : Node → Node
  | directory _ => directory []
  | node => node

lemma at?_append (t : Node) (p q : Location) : t.at? (p ++ q) = (t.at? p).bind (·.at? q) := by
  induction p generalizing t with
  | nil => rfl
  | cons n p ih =>
      cases t with
      | file _ => rfl
      | link _ => rfl
      | directory entries =>
          show (entries.lookup n).bind (·.at? (p ++ q)) = _
          cases hn : entries.lookup n with
          | none => simp [at?, hn]
          | some node => simp [at?, hn, ih]

lemma at?_concat {t : Node} {place : Location} {entries : List (Name × Node)}
    (h : t.at? place = some (directory entries)) (n : Name) :
    t.at? (place ++ [n]) = entries.lookup n := by
  rw [at?_append, h, Option.bind_some, at?]
  cases entries.lookup n with
  | none => rfl
  | some node => simp [at?]

/-- What stands in a directory has a directory above it. -/
lemma exists_directory_of_at?_concat {t node : Node} {place : Location} {n : Name}
    (h : t.at? (place ++ [n]) = some node) : ∃ entries, t.at? place = some (directory entries) := by
  rw [at?_append] at h
  obtain ⟨above, habove, hn⟩ := Option.bind_eq_some_iff.1 h
  cases above with
  | directory entries => exact ⟨entries, habove⟩
  | file _ => cases hn
  | link _ => cases hn

lemma lookup_cons_eq (k : Name) (node : Node) (rest : List (Name × Node)) (m : Name) :
    ((k, node) :: rest).lookup m = if m = k then some node else rest.lookup m := by
  rw [List.lookup_cons]
  by_cases h : m = k
  · simp [h]
  · have hb : (m == k) = false := beq_eq_false_iff_ne.2 h
    simp [h, hb]

lemma lookup_setEntry (n : Name) (node : Node) (entries : List (Name × Node)) (m : Name) :
    (setEntry n node entries).lookup m = if m = n then some node else entries.lookup m := by
  induction entries with
  | nil => exact lookup_cons_eq n node [] m
  | cons entry rest ih =>
      obtain ⟨k, old⟩ := entry
      by_cases hk : k = n
      · subst hk
        simp only [setEntry, if_true, lookup_cons_eq]
        split <;> rfl
      · simp only [setEntry, hk, if_false, lookup_cons_eq, ih]
        by_cases hm : m = k
        · rw [if_pos hm, if_neg (by rwa [hm]), if_pos hm]
        · rw [if_neg hm, if_neg hm]

lemma lookup_map_at (f : Node → Node) (d : Name) (entries : List (Name × Node)) (m : Name) :
    (entries.map fun (k, node) => if k = d then (k, f node) else (k, node)).lookup m =
      (entries.lookup m).map fun node => if m = d then f node else node := by
  induction entries with
  | nil => rfl
  | cons entry rest ih =>
      obtain ⟨k, node⟩ := entry
      have hhead : (if k = d then (k, f node) else (k, node)) =
          (k, if k = d then f node else node) := by
        split <;> rfl
      simp only [List.map_cons, hhead]
      rw [lookup_cons_eq, lookup_cons_eq, ih]
      by_cases hm : m = k
      · rw [if_pos hm, if_pos hm, hm]
        rfl
      · rw [if_neg hm, if_neg hm]

/-- Setting an entry to a file puts the file at the place of the entry, where no directory may have
been, and leaves the surface of every other place. -/
lemma surface_at?_setEntry {t : Node} {dir : Location} {n : Name} {entries : List (Name × Node)}
    (content : Bytes) (hdir : t.at? dir = some (directory entries))
    (hplace : ∀ node, t.at? (dir ++ [n]) = some node → node.entries? = none) (q : Location) :
    ((t.modifyDirectory (setEntry n (file content)) dir).at? q).map surface =
      if q = dir ++ [n] then some (file content) else (t.at? q).map surface := by
  induction dir generalizing t q with
  | nil =>
      cases hdir
      cases q with
      | nil => rfl
      | cons m rest =>
          show (((setEntry n (file content) entries).lookup m).bind (·.at? rest)).map surface = _
          rw [lookup_setEntry]
          by_cases hm : m = n
          · subst hm
            cases rest with
            | nil => simp [at?, surface]
            | cons k rest =>
                -- below the file there is nothing, and there was nothing before
                have hnone : (directory entries).at? (m :: k :: rest) = none := by
                  show (entries.lookup m).bind (·.at? (k :: rest)) = none
                  cases hl : entries.lookup m with
                  | none => rfl
                  | some node =>
                      have hnode := hplace node (by simp [at?, hl])
                      cases node with
                      | directory _ => cases hnode
                      | file _ => rfl
                      | link _ => rfl
                rw [if_pos rfl, Option.bind_some, hnone, if_neg (by simp)]
                rfl
          · simp [hm, at?]
  | cons d dir ih =>
      cases t with
      | file _ => cases hdir
      | link _ => cases hdir
      | directory siblings =>
          cases q with
          | nil => rfl
          | cons m rest =>
              show (((siblings.map fun (k, node) => if k = d then
                (k, node.modifyDirectory (setEntry n (file content)) dir) else (k, node)).lookup
                  m).bind (·.at? rest)).map surface = _
              rw [lookup_map_at]
              by_cases hm : m = d
              · subst hm
                obtain ⟨node, hnode, hbelow⟩ := Option.bind_eq_some_iff.1 hdir
                have hplace' : ∀ other, node.at? (dir ++ [n]) = some other →
                    other.entries? = none := by
                  intro other hother
                  apply hplace other
                  show (siblings.lookup m).bind _ = _
                  rw [hnode]
                  exact hother
                have := ih hbelow hplace' rest
                simpa [hnode, at?] using this
              · simp [hm, at?]

/-! ## Trees that keep what another has -/

/-- Nodes that a walk cannot tell apart. -/
inductive SameSort : Node → Node → Prop
  | file (c d : Bytes) : SameSort (.file c) (.file d)
  | link (target : Path) : SameSort (.link target) (.link target)
  | directory (es fs : List (Name × Node)) : SameSort (.directory es) (.directory fs)

lemma SameSort.refl (node : Node) : SameSort node node := by
  cases node <;> constructor

/-- At every place where `t` has a node, `t'` has one of the same sort. -/
def Keeps (t t' : Node) : Prop :=
  ∀ q node, t.at? q = some node → ∃ node', t'.at? q = some node' ∧ SameSort node node'

lemma keeps_refl (t : Node) : t.Keeps t :=
  fun _ node hnode => ⟨node, hnode, .refl node⟩

lemma sameSort_of_surface_eq {a b : Node} (h : a.surface = b.surface) : SameSort a b := by
  cases a <;> cases b <;> cases h <;> constructor

end Node

/-! ## Walks, step by step -/

/-- What a walk does at one segment. -/
inductive Step where
  | next (place : Location)
  | missing (n : Name)
  | link (target : Path)
  | fault (fault : AccessFault)

/-- The step from a place, which is taken if a directory is there. -/
def step (t : Node) (range : Location → Bool) (place : Location) (segment : Path.Segment) : Step :=
  match t.at? place with
  | some (.directory _) =>
    match segment with
    | .blank | .here => .next place
    | .up => .next place.dropLast
    | .name n =>
      if maxNameLength < n.length then .fault .nameTooLong
      else match t.at? (place ++ [n]) with
        | none => .missing n
        | some node =>
          if !range (place ++ [n]) then .fault .nameTooLong
          else match node with
            | .link target => .link target
            | _ => .next (place ++ [n])
  | _ => .fault .notDirectory

/-- Where a walk stops that begins with a step, if `rest` is left of the path. -/
def Step.stop (t : Node) (range : Location → Bool) (place : Location) (rest : List Path.Segment) :
    Step → Stop
  | next q => walk t range q rest
  | missing n => .missing place n rest
  | link target => .link place target rest
  | fault f => .fault f

/-- The step goes on or comes to a link. -/
def Step.LeadsOn : Step → Prop
  | next _ | link _ => True
  | missing _ | fault _ => False

/-- The walk has come to the end of the path or to a link. -/
def Stop.LeadsOn : Stop → Prop
  | arrived _ | link .. => True
  | missing .. | fault _ => False

section Walk

variable {t t' : Node} {range range' : Location → Bool} {place : Location}
  {segment : Path.Segment} {segments : List Path.Segment}

lemma walk_cons : walk t range place (segment :: segments) =
    (step t range place segment).stop t range place segments := by
  rw [walk]
  unfold step
  cases hplace : t.at? place with
  | none => rfl
  | some node =>
      cases node with
      | file _ => rfl
      | link _ => rfl
      | directory entries =>
          cases segment with
          | blank => rfl
          | here => rfl
          | up => rfl
          | name n =>
              dsimp only [Option.bind_some, Node.entries?]
              rw [Node.at?_concat hplace]
              split
              · rfl
              · cases entries.lookup n with
                | none => rfl
                | some node =>
                    dsimp only
                    split
                    · rfl
                    · cases node <;> rfl

lemma leadsOn_of_stop {s : Step} (h : (s.stop t range place segments).LeadsOn) : s.LeadsOn := by
  cases s with
  | next _ => trivial
  | link _ => trivial
  | missing _ => exact h
  | fault _ => exact h

/-- Blanks and dots stay where they are. -/
lemma walk_stay (hs : segment = .blank ∨ segment = .here)
    (hon : (walk t range place (segment :: segments)).LeadsOn) :
    walk t range place (segment :: segments) = walk t range place segments := by
  rw [walk_cons] at hon ⊢
  have hstep : step t range place segment = .next place ∨
      step t range place segment = .fault .notDirectory := by
    unfold step
    split
    · rcases hs with rfl | rfl <;> exact .inl rfl
    · exact .inr rfl
  rcases hstep with hnext | hfault
  · rw [hnext]
    rfl
  · rw [hfault] at hon
    exact hon.elim

/-- What is missing is not in the directory that the step is taken from. -/
lemma at?_of_step_missing {n : Name} (h : step t range place segment = .missing n) :
    segment = .name n ∧ (∃ entries, t.at? place = some (.directory entries)) ∧
      t.at? (place ++ [n]) = none := by
  unfold step at h
  split at h
  · next entries hplace =>
    split at h
    · cases h
    · cases h
    · cases h
    · next m =>
      split at h
      · cases h
      · split at h
        · next hm =>
          cases h
          exact ⟨rfl, ⟨entries, hplace⟩, hm⟩
        · split at h
          · cases h
          · split at h <;> cases h
  · cases h

/-- A step that leads on is the same in a tree that keeps the nodes. -/
lemma step_of_keeps (h : t.Keeps t')
    (hrange : ∀ q node, t.at? q = some node → range q = true → range' q = true)
    (hon : (step t range place segment).LeadsOn) :
    step t' range' place segment = step t range place segment := by
  unfold step at hon
  split at hon
  · next entries hplace =>
    obtain ⟨_, hplace', ⟨_, entries'⟩⟩ := h place _ hplace
    unfold step
    rw [hplace, hplace']
    cases segment with
    | blank => rfl
    | here => rfl
    | up => rfl
    | name n =>
        dsimp only at hon ⊢
        split at hon
        · exact hon.elim
        · next hlength =>
          rw [if_neg hlength, if_neg hlength]
          split at hon
          · exact hon.elim
          · next node hn =>
            obtain ⟨node', hn', hsort⟩ := h _ _ hn
            rw [hn']
            split at hon
            · exact hon.elim
            · next hin =>
              have hin' : range' (place ++ [n]) = true := hrange _ node hn (by simpa using hin)
              dsimp only
              rw [if_neg hin, if_neg (by simp [hin'])]
              cases hsort <;> rfl
  · exact hon.elim

/-- If the missing file is there later, the step goes on to it. -/
lemma step_of_missing (h : t.Keeps t') {n : Name} {content : Bytes}
    (hfile : t'.at? (place ++ [n]) = some (.file content))
    (hstep : step t range place segment = .missing n) :
    step t' anywhere place segment = .next (place ++ [n]) := by
  obtain ⟨rfl, ⟨entries, hplace⟩, hn⟩ := at?_of_step_missing hstep
  obtain ⟨_, hplace', ⟨_, entries'⟩⟩ := h place _ hplace
  have hlength : ¬ maxNameLength < n.length := by
    intro hlong
    unfold step at hstep
    rw [hplace] at hstep
    dsimp only at hstep
    rw [if_pos hlong] at hstep
    cases hstep
  unfold step
  rw [hplace']
  dsimp only
  rw [if_neg hlength, hfile]
  rfl

/-! ## Walks in trees that keep the nodes -/

lemma walk_of_keeps (h : t.Keeps t')
    (hrange : ∀ q node, t.at? q = some node → range q = true → range' q = true)
    (hon : (walk t range place segments).LeadsOn) :
    walk t' range' place segments = walk t range place segments := by
  induction segments generalizing place with
  | nil => rfl
  | cons segment rest ih =>
      rw [walk_cons] at hon ⊢
      rw [walk_cons, step_of_keeps h hrange (leadsOn_of_stop hon)]
      cases hstep : step t range place segment with
      | next q =>
          rw [hstep] at hon
          exact ih hon
      | link target => rfl
      | missing n => rfl
      | fault f => rfl

/-- A path is resolved when its walk arrives, or when it comes to a link that may be followed and
what the link stands for is resolved. -/
lemma resolve_eq_ok_iff {links : Nat} {q : Location} :
    resolve t range links place segments = .ok q ↔
      walk t range place segments = .arrived q ∨
        ∃ fewer dir target rest, links = fewer + 1 ∧
          walk t range place segments = .link dir target rest ∧
          resolve t range fewer (target.startFrom dir) (target.segments ++ rest) = .ok q := by
  rw [resolve.eq_def]
  cases walk t range place segments with
  | arrived _ => simp
  | missing _ _ _ => simp
  | fault _ => simp
  | link dir target rest =>
      cases links with
      | zero => simp
      | succ fewer => simp

lemma resolve_of_keeps (h : t.Keeps t')
    (hrange : ∀ q node, t.at? q = some node → range q = true → range' q = true)
    {links : Nat} {q : Location} (hq : resolve t range links place segments = .ok q) :
    resolve t' range' links place segments = .ok q := by
  induction links using Nat.strongRecOn generalizing place segments with
  | ind links ih =>
      rcases resolve_eq_ok_iff.1 hq with hw | ⟨fewer, dir, target, rest, rfl, hw, hrest⟩
      · refine resolve_eq_ok_iff.2 (.inl ?_)
        rw [walk_of_keeps h hrange (by rw [hw]; trivial), hw]
      · have hrest' := ih fewer fewer.lt_succ_self hrest
        refine resolve_eq_ok_iff.2 (.inr ⟨fewer, dir, target, rest, rfl, ?_, hrest'⟩)
        rw [walk_of_keeps h hrange (by rw [hw]; trivial), hw]

/-- A walk misses only names that are not there. -/
lemma at?_of_walk_missing {dir : Location} {n : Name} {rest : List Path.Segment}
    (h : walk t range place segments = .missing dir n rest) :
    (∃ entries, t.at? dir = some (.directory entries)) ∧ t.at? (dir ++ [n]) = none := by
  induction segments generalizing place with
  | nil => cases h
  | cons segment segments ih =>
      rw [walk_cons] at h
      cases hstep : step t range place segment with
      | next q =>
          rw [hstep] at h
          exact ih h
      | missing m =>
          rw [hstep] at h
          cases h
          exact (at?_of_step_missing hstep).2
      | link target =>
          rw [hstep] at h
          cases h
      | fault f =>
          rw [hstep] at h
          cases h

/-- If what a walk missed at the end of the path is there later, the walk arrives. -/
lemma walk_arrived_of_missing (h : t.Keeps t') {dir : Location} {n : Name} {content : Bytes}
    (hfile : t'.at? (dir ++ [n]) = some (.file content))
    (hw : walk t anywhere place segments = .missing dir n []) :
    walk t' anywhere place segments = .arrived (dir ++ [n]) := by
  induction segments generalizing place with
  | nil => cases hw
  | cons segment segments ih =>
      rw [walk_cons] at hw ⊢
      cases hstep : step t anywhere place segment with
      | next q =>
          rw [hstep] at hw
          rw [step_of_keeps h (fun _ _ _ => id) (by rw [hstep]; trivial), hstep]
          exact ih hw
      | missing m =>
          rw [hstep] at hw
          cases hw
          rw [step_of_missing h hfile hstep]
          rfl
      | link target =>
          rw [hstep] at hw
          cases hw
      | fault f =>
          rw [hstep] at hw
          cases hw

end Walk

/-! ## Places for files in such trees -/

/-- The place of the file, once it is written. -/
def FilePlace.location : FilePlace → Location
  | existing place => place
  | new dir n => dir ++ [n]

section FilePlace

variable {t t' : Node} {links : Nat} {place : Location} {segments : List Path.Segment}
  {spot : FilePlace}

lemma resolveFilePlace_eq_ok_iff :
    resolveFilePlace t links place segments = .ok spot ↔
      Path.beforeSlashedName? segments = none ∧
        ((∃ q, walk t anywhere place segments = .arrived q ∧ spot = .existing q) ∨
          (∃ dir n, walk t anywhere place segments = .missing dir n [] ∧ spot = .new dir n) ∨
          ∃ fewer dir target rest, links = fewer + 1 ∧
            walk t anywhere place segments = .link dir target rest ∧
            resolveFilePlace t fewer (target.startFrom dir) (target.segments ++ rest) =
              .ok spot) := by
  rw [resolveFilePlace.eq_def]
  cases Path.beforeSlashedName? segments with
  | some before =>
      simp only [reduceCtorEq, false_and, iff_false]
      cases resolve t anywhere links place (before ++ [.blank]) <;> rintro ⟨⟩
  | none =>
      cases hw : walk t anywhere place segments with
      | arrived q => simp [eq_comm]
      | fault _ => simp
      | missing dir n rest =>
          cases rest with
          | nil => simp [eq_comm]
          | cons _ _ => simp
      | link dir target rest =>
          cases links with
          | zero => simp
          | succ fewer => simp

/-- A file that is there is where its path leads. -/
lemma resolve_of_resolveFilePlace {q : Location}
    (h : resolveFilePlace t links place segments = .ok (.existing q)) :
    resolve t anywhere links place segments = .ok q := by
  induction links using Nat.strongRecOn generalizing place segments with
  | ind links ih =>
      obtain ⟨_, ⟨_, hw, hq⟩ | ⟨_, _, _, hq⟩ | ⟨fewer, dir, target, rest, rfl, hw, hrest⟩⟩ :=
        resolveFilePlace_eq_ok_iff.1 h
      · cases hq
        exact resolve_eq_ok_iff.2 (.inl hw)
      · cases hq
      · have hrest' := ih fewer fewer.lt_succ_self hrest
        exact resolve_eq_ok_iff.2 (.inr ⟨fewer, dir, target, rest, rfl, hw, hrest'⟩)

/-- A new file is where nothing is, and where its path does not lead yet. -/
lemma at?_of_resolveFilePlace {dir : Location} {n : Name}
    (h : resolveFilePlace t links place segments = .ok (.new dir n)) :
    (∃ entries, t.at? dir = some (.directory entries)) ∧ t.at? (dir ++ [n]) = none ∧
      resolve t anywhere links place segments = .error .notFound := by
  induction links using Nat.strongRecOn generalizing place segments with
  | ind links ih =>
      obtain ⟨_, ⟨_, _, hq⟩ | ⟨_, _, hw, hq⟩ | ⟨fewer, _, _, _, rfl, hw, hrest⟩⟩ :=
        resolveFilePlace_eq_ok_iff.1 h
      · cases hq
      · cases hq
        obtain ⟨hdir, hn⟩ := at?_of_walk_missing hw
        exact ⟨hdir, hn, by rw [resolve.eq_def, hw]⟩
      · obtain ⟨hdir, hn, hnot⟩ := ih fewer fewer.lt_succ_self hrest
        exact ⟨hdir, hn, by rw [resolve.eq_def, hw]; exact hnot⟩

/-- Once a file is at the place for it, it is there to be written over. -/
lemma resolveFilePlace_of_keeps (h : t.Keeps t') {content : Bytes}
    (hfile : t'.at? spot.location = some (.file content))
    (hspot : resolveFilePlace t links place segments = .ok spot) :
    resolveFilePlace t' links place segments = .ok (.existing spot.location) := by
  induction links using Nat.strongRecOn generalizing place segments with
  | ind links ih =>
      obtain ⟨hslash,
          ⟨q, hw, hq⟩ | ⟨dir, n, hw, hq⟩ | ⟨fewer, dir, target, rest, rfl, hw, hrest⟩⟩ :=
        resolveFilePlace_eq_ok_iff.1 hspot
      · cases hq
        refine resolveFilePlace_eq_ok_iff.2 ⟨hslash, .inl ⟨q, ?_, rfl⟩⟩
        rw [walk_of_keeps h (fun _ _ _ => id) (by rw [hw]; trivial), hw]
      · cases hq
        exact resolveFilePlace_eq_ok_iff.2
          ⟨hslash, .inl ⟨dir ++ [n], walk_arrived_of_missing h hfile hw, rfl⟩⟩
      · have hrest' := ih fewer fewer.lt_succ_self hrest
        refine resolveFilePlace_eq_ok_iff.2
          ⟨hslash, .inr (.inr ⟨fewer, dir, target, rest, rfl, ?_, hrest'⟩)⟩
        rw [walk_of_keeps h (fun _ _ _ => id) (by rw [hw]; trivial), hw]

end FilePlace

/-! ## What stands where after a write -/

namespace FileSystem

lemma checkBytes_eq_ok_iff {p : Path} : checkBytes p = .ok () ↔ 0 ∉ p ∧ p ≠ [] := by
  rw [checkBytes]
  split
  · next h => simp [h]
  · next h =>
    split
    · next hempty => simp [hempty]
    · next hempty => simp [h, hempty]

lemma checkPath_eq_ok_iff {p : Path} :
    checkPath p = .ok () ↔ 0 ∉ p ∧ p ≠ [] ∧ p.length < pathLengthLimit := by
  rw [← and_assoc, ← checkBytes_eq_ok_iff, checkPath]
  cases checkBytes p with
  | error _ => simp [bind, Except.bind]
  | ok _ =>
      simp only [bind, Except.bind, true_and]
      split
      · next hlong => simp [Nat.not_lt.2 hlong]
      · next hlong => simp [Nat.not_le.1 hlong]

lemma locate_eq_ok_iff {fs : FileSystem} {path : Path} {q : Location} :
    fs.locate path = .ok q ↔ checkPath path = .ok () ∧
      resolve fs.tree anywhere maxLinks (path.startFrom fs.workingDirectory) path.segments =
        .ok q := by
  rw [locate]
  cases checkPath path <;> simp [bind, Except.bind]

/-- A path that leads somewhere is short enough to be used. -/
lemma length_lt_of_locate {fs : FileSystem} {path : Path} {q : Location}
    (h : fs.locate path = .ok q) : path.length < pathLengthLimit :=
  (checkPath_eq_ok_iff.1 (locate_eq_ok_iff.1 h).1).2.2

lemma canonical_eq_ok_iff {fs : FileSystem} {path : Path} {q : Location} :
    fs.canonical path = .ok q ↔ checkBytes path = .ok () ∧
      resolve fs.tree nameable maxLinks (path.startFrom fs.workingDirectory) path.segments =
        .ok q := by
  rw [canonical]
  cases checkBytes path <;> simp [bind, Except.bind]

/-- A path that leads somewhere leads there wherever the nodes are kept. -/
lemma locate_of_keeps {fs fs' : FileSystem} (h : fs.tree.Keeps fs'.tree)
    (hdir : fs'.workingDirectory = fs.workingDirectory) {p : Path} {q : Location}
    (hp : fs.locate p = .ok q) : fs'.locate p = .ok q := by
  obtain ⟨hcheck, hresolve⟩ := locate_eq_ok_iff.1 hp
  refine locate_eq_ok_iff.2 ⟨hcheck, ?_⟩
  rw [hdir]
  exact resolve_of_keeps h (fun _ _ _ => id) hresolve

lemma canonical_of_keeps {fs fs' : FileSystem} (h : fs.tree.Keeps fs'.tree)
    (hdir : fs'.workingDirectory = fs.workingDirectory) {p : Path} {q : Location}
    (hp : fs.canonical p = .ok q) : fs'.canonical p = .ok q := by
  obtain ⟨hcheck, hresolve⟩ := canonical_eq_ok_iff.1 hp
  refine canonical_eq_ok_iff.2 ⟨hcheck, ?_⟩
  rw [hdir]
  exact resolve_of_keeps h (fun _ _ _ => id) hresolve

lemma placeFor_eq_ok_iff {fs : FileSystem} {path : Path} {spot : FilePlace} :
    fs.placeFor path = .ok spot ↔ checkPath path = .ok () ∧
      resolveFilePlace fs.tree maxLinks (path.startFrom fs.workingDirectory) path.segments =
        .ok spot := by
  rw [placeFor]
  cases checkPath path <;> simp [bind, Except.bind]

lemma find_eq_ok_iff {fs : FileSystem} {p : Path} {node : Node} : fs.find p = .ok node ↔
    ∃ q, fs.locate p = .ok q ∧ fs.at? q = some node := by
  rw [find]
  cases fs.locate p with
  | error _ => simp [bind, Except.bind]
  | ok q => cases hnode : fs.at? q <;> simp [bind, Except.bind, hnode]

lemma isDirectory_iff {fs : FileSystem} {p : Path} :
    fs.isDirectory p = true ↔ ∃ entries, fs.find p = .ok (.directory entries) := by
  rw [isDirectory]
  cases fs.find p with
  | error _ => simp
  | ok found => cases found <;> simp

lemma read_eq_ok_iff {fs : FileSystem} {p : Path} {c : Bytes} :
    fs.read p = .ok c ↔ ∃ q, fs.locate p = .ok q ∧ fs.at? q = some (.file c) := by
  rw [read, find]
  cases fs.locate p with
  | error _ => simp [bind, Except.bind]
  | ok q =>
      cases hnode : fs.at? q with
      | none => simp [bind, Except.bind, hnode]
      | some node => cases node <;> simp [bind, Except.bind, hnode]

lemma readText_of_read {fs : FileSystem} {p : Path} {c : Bytes} (h : fs.read p = .ok c)
    (hvalid : Utf8.Valid c) : fs.readText p = .ok c := by
  rw [readText, h]
  exact if_pos hvalid

lemma readText_of_not_valid {fs : FileSystem} {p : Path} {c : Bytes} (h : fs.read p = .ok c)
    (hvalid : ¬ Utf8.Valid c) : fs.readText p = .error .notUtf8 := by
  rw [readText, h]
  exact if_neg hvalid

lemma read_of_readText {fs : FileSystem} {p : Path} {c : Bytes} (h : fs.readText p = .ok c) :
    fs.read p = .ok c := by
  rw [readText] at h
  cases hread : fs.read p with
  | error _ => simp [hread, bind, Except.bind] at h
  | ok content =>
      simp only [hread, bind, Except.bind] at h
      split at h
      · exact h
      · cases h

/-- The file system `after` is `fs` with a file stored at a place where no directory or link is. -/
structure Stored (fs after : FileSystem) (place : Location) (content : Bytes) : Prop where
  surface (q : Location) : (after.at? q).map Node.surface =
    if q = place then some (.file content) else (fs.at? q).map Node.surface
  replaced (node : Node) : fs.at? place = some node → ∃ old, node = .file old
  workingDirectory : after.workingDirectory = fs.workingDirectory

lemma tree_setEntry (fs : FileSystem) (dir : Location) (n : Name) (node : Node) :
    (fs.setEntry dir n node).tree = fs.tree.modifyDirectory (Node.setEntry n node) dir := by
  cases dir <;> rfl

lemma stored_setEntry {fs : FileSystem} {dir : Location} {n : Name}
    {entries : List (Name × Node)} (content : Bytes)
    (hdir : fs.at? dir = some (.directory entries))
    (hplace : ∀ node, fs.at? (dir ++ [n]) = some node → ∃ old, node = .file old) :
    Stored fs (fs.setEntry dir n (.file content)) (dir ++ [n]) content where
  surface q := by
    rw [at?, tree_setEntry]
    refine Node.surface_at?_setEntry content hdir ?_ q
    intro node hnode
    obtain ⟨old, rfl⟩ := hplace node hnode
    rfl
  replaced := hplace
  workingDirectory := by cases dir <;> rfl

namespace Stored

variable {fs after : FileSystem} {place : Location} {content : Bytes}

lemma at?_place (h : Stored fs after place content) : after.at? place = some (.file content) := by
  have hplace := h.surface place
  rw [if_pos rfl] at hplace
  obtain ⟨node, hnode, hfile⟩ := Option.map_eq_some_iff.1 hplace
  cases node <;> cases hfile
  exact hnode

lemma at?_file_iff (h : Stored fs after place content) {q : Location} (hq : q ≠ place)
    (c : Bytes) : after.at? q = some (.file c) ↔ fs.at? q = some (.file c) := by
  have key : ∀ o : Option Node, o = some (.file c) ↔ o.map Node.surface = some (.file c) := by
    rintro (_ | _ | _ | _) <;> simp [Node.surface]
  rw [key, h.surface, if_neg hq, ← key]

lemma keeps (h : Stored fs after place content) : fs.tree.Keeps after.tree := by
  intro q node hnode
  have hq := h.surface q
  by_cases hplace : q = place
  · subst hplace
    obtain ⟨old, rfl⟩ := h.replaced node hnode
    exact ⟨_, h.at?_place, .file old content⟩
  · rw [if_neg hplace, show fs.at? q = some node from hnode] at hq
    obtain ⟨node', hnode', hsurface⟩ := Option.map_eq_some_iff.1 hq
    exact ⟨node', hnode', Node.sameSort_of_surface_eq hsurface.symm⟩

/-- A path that leads somewhere leads there afterwards. -/
lemma locate (h : Stored fs after place content) {p : Path} {q : Location}
    (hp : fs.locate p = .ok q) : after.locate p = .ok q :=
  locate_of_keeps h.keeps h.workingDirectory hp

lemma read_of_ne (h : Stored fs after place content) {p : Path} {c : Bytes}
    (hp : fs.locate p ≠ .ok place) (hc : fs.read p = .ok c) : after.read p = .ok c := by
  obtain ⟨q, hq, hfile⟩ := read_eq_ok_iff.1 hc
  have hne : q ≠ place := by
    rintro rfl
    exact hp hq
  exact read_eq_ok_iff.2 ⟨q, h.locate hq, (h.at?_file_iff hne c).2 hfile⟩

/-- A file stored over another leaves every path where it led. -/
lemma locate_eq_ok_iff (h : Stored fs after place content) {old : Bytes}
    (hold : fs.at? place = some (.file old)) {p : Path} {q : Location} :
    after.locate p = .ok q ↔ fs.locate p = .ok q := by
  have hback : Stored after fs place old := by
    refine ⟨fun q => ?_, ?_, h.workingDirectory.symm⟩
    · by_cases hq : q = place
      · rw [if_pos hq, hq, hold]
        rfl
      · rw [if_neg hq, h.surface, if_neg hq]
    · intro node hnode
      rw [h.at?_place] at hnode
      cases hnode
      exact ⟨content, rfl⟩
  exact ⟨hback.locate, h.locate⟩

end Stored

/-- A write stores the file at the place for it, which is where the path led before, if it led
anywhere. -/
lemma exists_stored_of_write {fs after : FileSystem} {path : Path} {content : Bytes}
    (h : fs.write path content = .ok after) :
    ∃ spot, fs.placeFor path = .ok spot ∧ Stored fs after spot.location content ∧
      ((∃ old, fs.locate path = .ok spot.location ∧
          fs.at? spot.location = some (.file old)) ∨
        fs.locate path = .error .notFound ∧ fs.at? spot.location = none) := by
  rw [write] at h
  cases hspot : fs.placeFor path with
  | error _ => simp [hspot, bind, Except.bind] at h
  | ok spot =>
      refine ⟨spot, rfl, ?_⟩
      obtain ⟨hcheck, hresolve⟩ := placeFor_eq_ok_iff.1 hspot
      simp only [hspot, bind, Except.bind] at h
      cases spot with
      | new dir n =>
          obtain ⟨⟨entries, hdir⟩, hn, hnot⟩ := at?_of_resolveFilePlace hresolve
          cases h
          refine ⟨stored_setEntry content hdir ?_, .inr ⟨?_, hn⟩⟩
          · intro node hnode
            rw [at?, hn] at hnode
            cases hnode
          · rw [locate, hcheck]
            exact hnot
      | existing place =>
          dsimp only at h
          split at h
          · next n old hlast hfile =>
            cases h
            obtain ⟨dir, rfl⟩ := List.getLast?_eq_some_iff.1 hlast
            obtain ⟨entries, hdir⟩ := Node.exists_directory_of_at?_concat hfile
            rw [List.dropLast_concat]
            refine ⟨stored_setEntry content hdir ?_, .inl ⟨old, ?_, hfile⟩⟩
            · intro node hnode
              rw [hfile] at hnode
              cases hnode
              exact ⟨old, rfl⟩
            · exact locate_eq_ok_iff.2 ⟨hcheck, resolve_of_resolveFilePlace hresolve⟩
          · cases h

namespace Stored

variable {fs after : FileSystem} {spot : FilePlace} {content : Bytes} {path : Path}

lemma placeFor_eq (h : Stored fs after spot.location content)
    (hspot : fs.placeFor path = .ok spot) :
    after.placeFor path = .ok (.existing spot.location) := by
  obtain ⟨hcheck, hresolve⟩ := placeFor_eq_ok_iff.1 hspot
  refine placeFor_eq_ok_iff.2 ⟨hcheck, ?_⟩
  rw [h.workingDirectory]
  exact resolveFilePlace_of_keeps h.keeps h.at?_place hresolve

lemma locate_path (h : Stored fs after spot.location content)
    (hspot : fs.placeFor path = .ok spot) : after.locate path = .ok spot.location := by
  obtain ⟨hcheck, hresolve⟩ := placeFor_eq_ok_iff.1 (h.placeFor_eq hspot)
  exact FileSystem.locate_eq_ok_iff.2 ⟨hcheck, resolve_of_resolveFilePlace hresolve⟩

end Stored

/-- What has been written can be read. -/
lemma read_of_write {fs after : FileSystem} {path : Path} {content : Bytes}
    (h : fs.write path content = .ok after) : after.read path = .ok content := by
  obtain ⟨spot, hspot, hstored, -⟩ := exists_stored_of_write h
  exact read_eq_ok_iff.2 ⟨_, hstored.locate_path hspot, hstored.at?_place⟩

lemma locate_of_write {fs after : FileSystem} {path p : Path} {content : Bytes} {q : Location}
    (h : fs.write path content = .ok after) (hp : fs.locate p = .ok q) :
    after.locate p = .ok q := by
  obtain ⟨spot, -, hstored, -⟩ := exists_stored_of_write h
  exact hstored.locate hp

/-- A file that is written over leaves every path where it led. -/
lemma locate_iff_of_write {fs after : FileSystem} {path : Path} {content old : Bytes}
    (h : fs.write path content = .ok after) (hold : fs.read path = .ok old) (p : Path)
    (q : Location) : after.locate p = .ok q ↔ fs.locate p = .ok q := by
  obtain ⟨spot, -, hstored, ⟨old', -, hfile⟩ | ⟨hnot, -⟩⟩ := exists_stored_of_write h
  · exact hstored.locate_eq_ok_iff hfile
  · obtain ⟨place, hplace, -⟩ := read_eq_ok_iff.1 hold
    rw [hplace] at hnot
    cases hnot

/-- A file at another place is not written to. -/
lemma read_of_write_of_ne {fs after : FileSystem} {path p : Path} {content c : Bytes}
    (h : fs.write path content = .ok after) (hne : fs.locate p ≠ fs.locate path)
    (hp : fs.read p = .ok c) : after.read p = .ok c := by
  obtain ⟨spot, -, hstored, hspot⟩ := exists_stored_of_write h
  refine hstored.read_of_ne ?_ hp
  intro hplace
  rcases hspot with ⟨old, hlocate, -⟩ | ⟨-, hnone⟩
  · exact hne (hplace.trans hlocate.symm)
  · obtain ⟨q, hq, hfile⟩ := read_eq_ok_iff.1 hp
    rw [hplace] at hq
    cases hq
    rw [hnone] at hfile
    cases hfile

/-- Whether a path can be written to does not depend on the content. -/
lemma exists_write_of_write {fs after : FileSystem} {path : Path} {content : Bytes}
    (h : fs.write path content = .ok after) (other : Bytes) :
    ∃ after', fs.write path other = .ok after' := by
  rw [write] at h ⊢
  cases hspot : fs.placeFor path with
  | error _ => simp [hspot, bind, Except.bind] at h
  | ok spot =>
      simp only [hspot, bind, Except.bind] at h ⊢
      cases spot with
      | new dir n => exact ⟨_, rfl⟩
      | existing place =>
          dsimp only at h ⊢
          split at h
          · exact ⟨_, rfl⟩
          · cases h

/-- What has been written can be written over. -/
lemma exists_write_after_write {fs after : FileSystem} {path : Path} {content : Bytes}
    (h : fs.write path content = .ok after) (other : Bytes) :
    ∃ after', after.write path other = .ok after' := by
  obtain ⟨spot, hspot, hstored, -⟩ := exists_stored_of_write h
  rw [write, hstored.placeFor_eq hspot]
  have hfile := hstored.at?_place
  rcases List.eq_nil_or_concat spot.location with hroot | ⟨dir, n, hconcat⟩
  · rw [hroot] at hfile
    cases hfile
  · have hlast : spot.location.getLast? = some n := by
      rw [hconcat, List.concat_eq_append, List.getLast?_concat]
    simp only [bind, Except.bind, hlast, hfile]
    exact ⟨_, rfl⟩

end FileSystem

end ElixirTags
