import ElixirTags.Proofs.FileSystem.Frame
import ElixirTags.Sources
import Mathlib.Data.List.Nodup

/-!
# When paths name the same source

Sources are compared by their `Identity`, which is the place of a path if its whole way can be
named, and otherwise the look of the path.  Two paths of one identity that lead somewhere lead to
the same place (`Sources.locate_eq_of_identity_eq`): paths that look alike differ only in blanks and
dots, and these steps can be left out of a walk that arrives (`resolve_of_skips`).

So if the paths of a list are spelled the same whenever they lead to the same place, `distinct`
takes every path of the list once (`Sources.mem_distinct_iff`, `Sources.nodup_distinct`).
-/

namespace ElixirTags

/-! ## Steps that can be left out -/

namespace Path

/-- The second row is the first with some blanks and dots left out. -/
inductive Skips : List Segment → List Segment → Prop
  | refl (segments : List Segment) : Skips segments segments
  | step (segment : Segment) {a b : List Segment} : Skips a b → Skips (segment :: a) (segment :: b)
  | blank {a b : List Segment} : Skips a b → Skips (.blank :: a) b
  | here {a b : List Segment} : Skips a b → Skips (.here :: a) b

lemma Skips.append_left {a b : List Segment} (h : Skips a b) (before : List Segment) :
    Skips (before ++ a) (before ++ b) := by
  induction before with
  | nil => exact h
  | cons segment before ih => exact .step segment ih

/-- The step to a component that stands for one. -/
def Component.segment? : Component → Option Segment
  | .up => some .up
  | .name n => some (.name n)
  | _ => none

/-- A path can be walked by its components. -/
lemma skips_segments (path : Path) :
    Skips path.segments (path.components.filterMap Component.segment?) := by
  have horigin : path.origin.filterMap Component.segment? = [] := by
    rw [origin]
    split
    · rfl
    · split <;> rfl
  rw [components, List.filterMap_append, horigin, List.nil_append, segments]
  induction path.pieces with
  | nil => exact .refl []
  | cons piece rest ih =>
      rw [List.map_cons, List.filterMap_cons, Segment.ofPiece, Component.ofPiece?]
      by_cases hblank : piece = []
      · simpa [hblank] using .blank ih
      · by_cases hhere : piece = hereName
        · simpa [hblank, hhere] using .here ih
        · by_cases hup : piece = upName
          · simpa [hblank, hhere, hup, Component.segment?] using .step .up ih
          · simpa [hblank, hhere, hup, Component.segment?] using .step (.name piece) ih

lemma root_mem_components_iff (path : Path) :
    .root ∈ path.components ↔ path.isAbsolute = true := by
  have hpieces : .root ∉ path.pieces.filterMap Component.ofPiece? := by
    intro h
    obtain ⟨piece, _, hpiece⟩ := List.mem_filterMap.1 h
    rw [Component.ofPiece?] at hpiece
    split at hpiece
    · cases hpiece
    · split at hpiece <;> cases hpiece
  rw [components, List.mem_append, or_iff_left hpieces, origin]
  split
  · next habs => simp [habs]
  · next habs => split <;> simp [habs]

end Path

/-! ## Walks that leave them out -/

/-- The walks stop in the same way, and what is left of the second path is what is left of the
first with some blanks and dots left out. -/
inductive Stop.Skips : Stop → Stop → Prop
  | arrived (place : Location) : Skips (.arrived place) (.arrived place)
  | link (dir : Location) (target : Path) {rest rest' : List Path.Segment} :
    Path.Skips rest rest' → Skips (.link dir target rest) (.link dir target rest')

section Walk

variable {t : Node} {range : Location → Bool} {place : Location} {a b : List Path.Segment}

lemma Stop.Skips.refl {stop : Stop} (h : stop.LeadsOn) : stop.Skips stop := by
  cases stop with
  | arrived place => exact .arrived place
  | link dir target rest => exact .link dir target (.refl rest)
  | missing _ _ _ => exact h.elim
  | fault _ => exact h.elim

lemma walk_of_skips (h : Path.Skips a b) (hon : (walk t range place a).LeadsOn) :
    (walk t range place a).Skips (walk t range place b) := by
  induction h generalizing place with
  | refl => exact .refl hon
  | blank _ ih =>
      have hstay := walk_stay (.inl rfl) hon
      rw [hstay] at hon ⊢
      exact ih hon
  | here _ ih =>
      have hstay := walk_stay (.inr rfl) hon
      rw [hstay] at hon ⊢
      exact ih hon
  | step segment hskips ih =>
      -- both walks take the same step, and go on from the same place
      rw [walk_cons] at hon ⊢
      rw [walk_cons]
      cases hstep : step t range place segment with
      | next q =>
          rw [hstep] at hon
          exact ih hon
      | link target => exact .link place target hskips
      | missing n =>
          rw [hstep] at hon
          exact hon.elim
      | fault f =>
          rw [hstep] at hon
          exact hon.elim

/-- A path that leads somewhere leads there without its blanks and dots. -/
lemma resolve_of_skips (h : Path.Skips a b) {links : Nat} {q : Location}
    (hq : resolve t range links place a = .ok q) : resolve t range links place b = .ok q := by
  induction links using Nat.strongRecOn generalizing place a b with
  | ind links ih =>
      rcases resolve_eq_ok_iff.1 hq with hw | ⟨fewer, dir, target, rest, rfl, hw, hrest⟩
      · have hon : (walk t range place a).LeadsOn := by
          rw [hw]
          trivial
        have hskips := walk_of_skips h hon
        generalize hb : walk t range place b = stop at hskips
        rw [hw] at hskips
        cases hskips
        exact resolve_eq_ok_iff.2 (.inl hb)
      · have hon : (walk t range place a).LeadsOn := by
          rw [hw]
          trivial
        have hskips := walk_of_skips h hon
        generalize hb : walk t range place b = stop at hskips
        rw [hw] at hskips
        cases hskips with
        | link _ _ hrests =>
            have hrest' := ih fewer fewer.lt_succ_self (hrests.append_left target.segments) hrest
            exact resolve_eq_ok_iff.2 (.inr ⟨fewer, dir, target, _, rfl, hb, hrest'⟩)

end Walk

namespace Sources

variable {fs : FileSystem} {p p' : Path} {q q' : Location}

/-- Paths that look alike lead to the same place, if they lead anywhere. -/
lemma locate_eq_of_components_eq (h : p.components = p'.components)
    (hp : fs.locate p = .ok q) (hp' : fs.locate p' = .ok q') : q = q' := by
  have habs : p.isAbsolute = p'.isAbsolute := by
    rw [Bool.eq_iff_iff, ← Path.root_mem_components_iff, h, Path.root_mem_components_iff]
  have hwalk := resolve_of_skips p.skips_segments (FileSystem.locate_eq_ok_iff.1 hp).2
  have hwalk' := resolve_of_skips p'.skips_segments (FileSystem.locate_eq_ok_iff.1 hp').2
  rw [Path.startFrom, habs, h] at hwalk
  rw [Path.startFrom, hwalk] at hwalk'
  exact Except.ok.inj hwalk'

/-- The place that identifies a path is where it leads, if the path is short enough to be used. -/
lemma locate_of_canonical (hlength : p.length < pathLengthLimit) (h : fs.canonical p = .ok q) :
    fs.locate p = .ok q := by
  obtain ⟨hbytes, hresolve⟩ := FileSystem.canonical_eq_ok_iff.1 h
  obtain ⟨hzero, hne⟩ := FileSystem.checkBytes_eq_ok_iff.1 hbytes
  exact FileSystem.locate_eq_ok_iff.2 ⟨FileSystem.checkPath_eq_ok_iff.2 ⟨hzero, hne, hlength⟩,
    resolve_of_keeps (Node.keeps_refl fs.tree) (fun _ _ _ _ => rfl) hresolve⟩

/-- A path that is identified by a place shares it with the paths of its source. -/
lemma canonical_of_identity_eq (h : identity fs p = identity fs p')
    (hp : fs.canonical p = .ok q) : fs.canonical p' = .ok q := by
  rw [identity, identity, hp] at h
  cases hp' : fs.canonical p' with
  | ok q' => simpa [hp', eq_comm] using h
  | error _ => simp [hp'] at h

/-- Paths that are taken for the same source lead to the same place, if they lead anywhere. -/
lemma locate_eq_of_identity_eq (h : identity fs p = identity fs p')
    (hp : fs.locate p = .ok q) (hp' : fs.locate p' = .ok q') : q = q' := by
  cases hc : fs.canonical p with
  | ok place =>
      have hc' := canonical_of_identity_eq h hc
      rw [locate_of_canonical (FileSystem.length_lt_of_locate hp) hc] at hp
      rw [locate_of_canonical (FileSystem.length_lt_of_locate hp') hc'] at hp'
      exact Except.ok.inj (hp.symm.trans hp')
  | error _ =>
      cases hc' : fs.canonical p' with
      | ok _ => simp [canonical_of_identity_eq h.symm hc'] at hc
      | error _ =>
          have hlook : p.components = p'.components := by simpa [identity, hc, hc'] using h
          exact locate_eq_of_components_eq hlook hp hp'

/-! ## The distinct sources of a list -/

lemma distinct_sublist (fs : FileSystem) (seen : List Identity) (paths : List Path) :
    (distinct fs seen paths).Sublist paths := by
  induction paths generalizing seen with
  | nil => exact .slnil
  | cons p rest ih =>
      rw [distinct]
      split
      · exact (ih seen).cons p
      · exact (ih _).cons_cons p

/-- Every source is seen before or taken by one of its paths. -/
lemma identity_mem_distinct {seen : List Identity} {paths : List Path} (hp : p ∈ paths) :
    identity fs p ∈ seen ∨ ∃ p' ∈ distinct fs seen paths, identity fs p' = identity fs p := by
  induction paths generalizing seen with
  | nil => cases hp
  | cons first rest ih =>
      rw [distinct]
      split
      · next hseen =>
        rcases List.mem_cons.1 hp with rfl | hrest
        · exact .inl hseen
        · exact ih hrest
      · rcases List.mem_cons.1 hp with rfl | hrest
        · exact .inr ⟨p, List.mem_cons_self, rfl⟩
        · rcases @ih (identity fs first :: seen) hrest with hseen | ⟨p', hp', heq⟩
          · rcases List.mem_cons.1 hseen with hfirst | hseen
            · exact .inr ⟨first, List.mem_cons_self, hfirst.symm⟩
            · exact .inl hseen
          · exact .inr ⟨p', List.mem_cons_of_mem _ hp', heq⟩

lemma exists_mem_distinct {paths : List Path} (hp : p ∈ paths) :
    ∃ p' ∈ distinct fs [] paths, identity fs p' = identity fs p := by
  have hcover : identity fs p ∈ [] ∨ ∃ p' ∈ distinct fs [] paths, identity fs p' = identity fs p :=
    identity_mem_distinct hp
  exact hcover.resolve_left List.not_mem_nil

/-- No source is taken twice, and none that was seen before. -/
lemma nodup_map_identity_distinct (fs : FileSystem) (seen : List Identity) (paths : List Path) :
    ((distinct fs seen paths).map (identity fs)).Nodup ∧
      ∀ p ∈ distinct fs seen paths, identity fs p ∉ seen := by
  induction paths generalizing seen with
  | nil => simp [distinct]
  | cons first rest ih =>
      rw [distinct]
      split
      · exact ih seen
      · next hseen =>
        obtain ⟨hnodup, hnew⟩ := ih (identity fs first :: seen)
        constructor
        · rw [List.map_cons, List.nodup_cons]
          refine ⟨?_, hnodup⟩
          intro hmem
          obtain ⟨p, hp, heq⟩ := List.mem_map.1 hmem
          exact hnew p hp (by rw [heq]; exact List.mem_cons_self)
        · intro p hp
          rcases List.mem_cons.1 hp with rfl | hrest
          · exact hseen
          · exact fun h => hnew p hrest (List.mem_cons_of_mem _ h)

lemma nodup_distinct (fs : FileSystem) (paths : List Path) : (distinct fs [] paths).Nodup :=
  (nodup_map_identity_distinct fs [] paths).1.of_map _

/-- Every path leads somewhere, and no two lead to the same place. -/
def SpelledOnce (fs : FileSystem) (paths : List Path) : Prop :=
  (∀ p ∈ paths, ∃ q, fs.locate p = .ok q) ∧
    ∀ p ∈ paths, ∀ p' ∈ paths, fs.locate p = fs.locate p' → p = p'

lemma SpelledOnce.mono {paths paths' : List Path} (h : SpelledOnce fs paths)
    (hsub : ∀ p ∈ paths', p ∈ paths) : SpelledOnce fs paths' :=
  ⟨fun p hp => h.1 p (hsub p hp), fun p hp p' hp' => h.2 p (hsub p hp) p' (hsub p' hp')⟩

/-- Of paths that are spelled once every one is taken. -/
lemma mem_distinct_iff {paths : List Path} (h : SpelledOnce fs paths) :
    p ∈ distinct fs [] paths ↔ p ∈ paths := by
  refine ⟨fun hp => (distinct_sublist fs [] paths).subset hp, fun hp => ?_⟩
  obtain ⟨p', hp', heq⟩ := exists_mem_distinct hp
  have hmem := (distinct_sublist fs [] paths).subset hp'
  obtain ⟨q, hq⟩ := h.1 p hp
  obtain ⟨q', hq'⟩ := h.1 p' hmem
  have hplace := locate_eq_of_identity_eq heq hq' hq
  have hsame : p' = p := h.2 p' hmem p hp (by rw [hq, hq', hplace])
  rwa [← hsame]

/-! ## Inputs that are sources -/

/-- Files of the language that are given as inputs are the sources of the run. -/
lemma find_of_forall_read (enter : Bool) {inputs : List Path}
    (h : ∀ p ∈ inputs, Language.elixir.matchesPath p = true ∧ ∃ content, fs.read p = .ok content) :
    find fs enter inputs = .ok (distinct fs [] inputs) := by
  have hsurvey : (survey fs .elixir enter inputs).result =
      .ok (inputs.map fun p => [.source p]) := by
    rw [survey, Sweep.result_along_eq_ok_iff, List.map_map]
    apply List.map_congr_left
    intro p hp
    obtain ⟨hlanguage, content, hread⟩ := h p hp
    obtain ⟨q, hq, hfile⟩ := FileSystem.read_eq_ok_iff.1 hread
    have hfind : fs.find p = .ok (.file content) := by
      rw [FileSystem.find, hq]
      simp only [bind, Except.bind, hfile]
    rw [atInput, hfind]
    show Except.ok (if _ then _ else _) = _
    rw [if_pos hlanguage]
    rfl
  rw [find, hsurvey]
  show Except.ok (ofFindings fs (inputs.map fun p => [.source p]).flatten) = _
  have hsources : (inputs.map fun p => [Finding.source p]).flatten.filterMap Finding.source? =
      inputs := by
    rw [← List.flatMap_def, List.filterMap_flatMap]
    exact List.flatMap_singleton' inputs
  rw [ofFindings, hsources]

end Sources

end ElixirTags
