import ElixirTags.Proofs.Sources.Exact

/-!
# The sources of several inputs

A search takes every source once, by the first path that reaches it.  So a longer list of inputs
gives the sources of its beginning, and then those of its rest that are new (`Sources.find_append`).
The reason is that `distinct` looks at the sources that were seen, and at nothing else of the past:
what it takes with more sources seen is what it takes with fewer, less what those more are
(`Sources.distinct_eq_filter`).

`Sources.Reached` says which paths are reached, and in which order: input by input, and at every
input in the order of paths.
-/

namespace ElixirTags

namespace Sources

variable {fs : FileSystem} {enter : Bool} {seen known both : List Identity}
  {paths files files' inputs others : List Path} {p : Path}

/-! ## Sources that are new -/

/-- With more sources seen, the paths are taken whose sources are not among those more. -/
lemma distinct_eq_filter (h : ∀ i, i ∈ both ↔ i ∈ known ∨ i ∈ seen) (paths : List Path) :
    distinct fs both paths = (distinct fs seen paths).filter (identity fs · ∉ known) := by
  induction paths generalizing seen both with
  | nil => rfl
  | cons first rest ih =>
      have hnext (i : Identity) :
          i ∈ identity fs first :: both ↔ i ∈ known ∨ i ∈ identity fs first :: seen := by
        rw [List.mem_cons, h, List.mem_cons]
        tauto
      by_cases hseen : identity fs first ∈ seen
      · rw [distinct, distinct, if_pos hseen, if_pos ((h _).2 (.inr hseen)), ih h]
      · rw [distinct, distinct, if_neg hseen]
        by_cases hknown : identity fs first ∈ known
        · have hboth (i : Identity) : i ∈ both ↔ i ∈ known ∨ i ∈ identity fs first :: seen := by
            rw [← hnext, List.mem_cons, iff_or_self]
            rintro rfl
            exact (h _).2 (.inl hknown)
          rw [if_pos ((h _).2 (.inl hknown)), ih hboth, List.filter_cons_of_neg (by simpa)]
        · rw [if_neg (by simp [h, hknown, hseen]), ih hnext, List.filter_cons_of_pos (by simpa)]

lemma distinct_congr (h : ∀ i, i ∈ both ↔ i ∈ seen) (paths : List Path) :
    distinct fs both paths = distinct fs seen paths := by
  have hnone (i : Identity) : i ∈ both ↔ i ∈ [] ∨ i ∈ seen := by
    rw [h, or_iff_right List.not_mem_nil]
  rw [distinct_eq_filter hnone, List.filter_eq_self]
  simp

/-- The paths at the end are taken with the sources seen whose paths were taken before. -/
lemma distinct_append_eq (h : ∀ i, i ∈ both ↔ i ∈ (distinct fs seen paths).map (identity fs) ∨
      i ∈ seen) (more : List Path) :
    distinct fs seen (paths ++ more) = distinct fs seen paths ++ distinct fs both more := by
  induction paths generalizing seen with
  | nil =>
      rw [List.nil_append, distinct, List.nil_append]
      exact (distinct_congr (by simpa [distinct] using h) more).symm
  | cons first rest ih =>
      rw [List.cons_append, distinct]
      rw [distinct] at h ⊢
      split
      · next hseen =>
        rw [if_pos hseen] at h
        exact ih h
      · next hseen =>
        rw [if_neg hseen] at h
        rw [List.cons_append, ih fun i => ?_]
        rw [h, List.map_cons, List.mem_cons, List.mem_cons]
        tauto

/-- More paths add those whose sources are not among the ones before. -/
lemma distinct_append (paths more : List Path) :
    distinct fs [] (paths ++ more) = distinct fs [] paths ++ (distinct fs [] more).filter
      (identity fs · ∉ (distinct fs [] paths).map (identity fs)) := by
  have hseen (i : Identity) : i ∈ (distinct fs [] paths).map (identity fs) ↔
      i ∈ (distinct fs [] paths).map (identity fs) ∨ i ∈ [] :=
    (or_iff_left List.not_mem_nil).symm
  rw [distinct_append_eq hseen, distinct_eq_filter hseen]

/-- The paths that are taken are those before which there is none of their source. -/
lemma mem_distinct_iff_find? : p ∈ distinct fs seen paths ↔
    identity fs p ∉ seen ∧ paths.find? (identity fs · = identity fs p) = some p := by
  induction paths generalizing seen with
  | nil => simp [distinct]
  | cons first rest ih =>
      rw [distinct]
      by_cases hsame : identity fs first = identity fs p
      · rw [List.find?_cons_of_pos (by simpa), hsame]
        split
        · next hseen => simp [ih, hseen]
        · next hseen => simp [ih, hseen, eq_comm]
      · have hne : p ≠ first := by
          rintro rfl
          exact hsame rfl
        rw [List.find?_cons_of_neg (by simpa)]
        split
        · exact ih
        · simp [ih, hne, Ne.symm hsame]

/-! ## What is reached -/

/-- The paths are those that are found at the inputs, one input after the other, and at every input
in the order of paths. -/
inductive Reached (fs : FileSystem) (enter : Bool) : List Path → List Path → Prop
  | nil : Reached fs enter [] []
  | cons {d : Path} {inputs here later : List Path} :
    here.Pairwise (fun p q => (p.order q).isLE = true) → (∀ p, p ∈ here ↔ FoundAt fs enter d p) →
    Reached fs enter inputs later → Reached fs enter (d :: inputs) (here ++ later)

lemma atInput_eq_error_iff {d : Path} {failure : AccessFailure} :
    atInput fs .elixir enter d = .error failure ↔
      ∃ fault, fs.find d = .error fault ∧ failure = ⟨d, fault⟩ := by
  rw [atInput]
  cases hfind : fs.find d with
  | error fault => simp [eq_comm]
  | ok node => cases node <;> simp

lemma exists_atInput_eq_ok_iff {d : Path} :
    (∃ found, atInput fs .elixir enter d = .ok found) ↔ ∃ node, fs.find d = .ok node := by
  rw [atInput]
  cases hfind : fs.find d with
  | error fault => simp
  | ok node => cases node <;> simp

/-- The sources that are found at an input are in the order of paths. -/
lemma pairwise_of_atInput {d : Path} {found : List Finding}
    (h : atInput fs .elixir enter d = .ok found) :
    (found.filterMap Finding.source?).Pairwise fun p q => (p.order q).isLE = true := by
  have hsingle (finding : Finding) :
      ([finding].filterMap Finding.source?).Pairwise fun p q => (p.order q).isLE = true := by
    cases finding <;> simp [List.filterMap_cons, Finding.source?]
  rw [atInput] at h
  split at h
  · cases h
  · next entries _ =>
    cases enter with
    | true =>
        cases h
        rw [if_pos rfl, filterMap_source?_inDirectory]
        exact Path.pairwise_mergeSort_order _
    | false =>
        cases h
        exact hsingle _
  · cases h
    split
    · exact hsingle _
    · exact hsingle _

lemma find_eq_error_iff {failure : AccessFailure} : find fs enter inputs = .error failure ↔
    (survey fs .elixir enter inputs).result = .error failure := by
  rw [find]
  cases (survey fs .elixir enter inputs).result <;> simp [Except.map]

lemma exists_survey (enter : Bool) (h : ∀ d ∈ inputs, ∃ node, fs.find d = .ok node) :
    ∃ found, (survey fs .elixir enter inputs).result = .ok found :=
  Sweep.exists_result_along fun d hd => exists_atInput_eq_ok_iff.2 (h d hd)

/-- A search that ends well has had access to all inputs. -/
lemma forall_find_of_find (h : find fs enter inputs = .ok files) :
    ∀ d ∈ inputs, ∃ node, fs.find d = .ok node := by
  intro d hd
  obtain ⟨found, hfound, -⟩ := find_eq_ok_iff.1 h
  exact exists_atInput_eq_ok_iff.1 (Sweep.exists_of_result_along hfound hd)

lemma exists_find_of_forall (enter : Bool) (h : ∀ d ∈ inputs, ∃ node, fs.find d = .ok node) :
    ∃ files, find fs enter inputs = .ok files := by
  obtain ⟨found, hfound⟩ := exists_survey enter h
  exact ⟨_, find_eq_ok_iff.2 ⟨found, hfound, rfl⟩⟩

/-- What is found, whatever the paths, is what the paths that are found at the inputs name. -/
lemma mem_map_identity_iff (h : find fs enter inputs = .ok files) (i : Identity) :
    i ∈ files.map (identity fs) ↔
      ∃ p, (∃ d ∈ inputs, FoundAt fs enter d p) ∧ identity fs p = i := by
  obtain ⟨paths, rfl, hpaths⟩ := exists_of_find h
  simp only [List.mem_map, ← hpaths]
  constructor
  · rintro ⟨p, hp, rfl⟩
    exact ⟨p, (distinct_sublist fs [] paths).subset hp, rfl⟩
  · rintro ⟨p, hp, rfl⟩
    exact exists_mem_distinct hp

lemma nodup_map_identity_of_find (h : find fs enter inputs = .ok files) :
    (files.map (identity fs)).Nodup := by
  obtain ⟨paths, rfl, -⟩ := exists_of_find h
  exact (nodup_map_identity_distinct fs [] paths).1

lemma reached_of_survey {found : List (List Finding)}
    (h : inputs.map (atInput fs .elixir enter) = found.map .ok) :
    Reached fs enter inputs (found.flatten.filterMap Finding.source?) := by
  induction inputs generalizing found with
  | nil =>
      obtain rfl : found = [] := by simpa using h.symm
      exact .nil
  | cons d inputs ih =>
      cases found with
      | nil => cases h
      | cons here later =>
          obtain ⟨hhere, hlater⟩ := List.cons.inj h
          rw [List.flatten_cons, List.filterMap_append]
          refine .cons (pairwise_of_atInput hhere) (fun p => ?_) (ih hlater)
          rw [mem_filterMap_source?_iff, FoundAt, hhere]
          simp

/-! ## One input after the other -/

/-- **Sources are found one input after the other.**  A search fails with the first input that
cannot be accessed, and only so.  Otherwise the sources of two lists of inputs are those of the
first list and then those of the second that are not the same as one of the first.  So no two
sources are the same, every source is listed by the first path that reaches it, and what is found is
the same, if under other paths, in whatever order the inputs stand. -/
theorem find_append (fs : FileSystem) (enter : Bool) (inputs others : List Path) :
    (∀ failure, find fs enter (inputs ++ others) = .error failure ↔
      ∃ before d after fault, inputs ++ others = before ++ d :: after ∧
        (∀ d' ∈ before, ∃ node, fs.find d' = .ok node) ∧ fs.find d = .error fault ∧
        failure = ⟨d, fault⟩) ∧
    ((∀ d ∈ inputs ++ others, ∃ node, fs.find d = .ok node) → ∃ files files',
      find fs enter inputs = .ok files ∧ find fs enter others = .ok files' ∧
      find fs enter (inputs ++ others) =
        .ok (files ++ files'.filter (identity fs · ∉ files.map (identity fs)))) ∧
    ∀ files, find fs enter inputs = .ok files →
      (files.map (identity fs)).Nodup ∧
      (∃ paths, Reached fs enter inputs paths ∧ files.Sublist paths ∧
        ∀ p, p ∈ files ↔ paths.find? (identity fs · = identity fs p) = some p) ∧
      ∀ reordered, inputs.Perm reordered → ∃ files', find fs enter reordered = .ok files' ∧
        (files.map (identity fs)).Perm (files'.map (identity fs)) := by
  refine ⟨fun failure => ?_, fun h => ?_, fun files h => ?_⟩
  · rw [find_eq_error_iff, survey, Sweep.result_along_eq_error_iff]
    simp only [exists_atInput_eq_ok_iff, atInput_eq_error_iff, ← exists_and_left]
  · obtain ⟨hinputs, hothers⟩ := List.forall_mem_append.1 h
    obtain ⟨found, hfound⟩ := exists_survey enter hinputs
    obtain ⟨found', hfound'⟩ := exists_survey enter hothers
    refine ⟨_, _, find_eq_ok_iff.2 ⟨_, hfound, rfl⟩, find_eq_ok_iff.2 ⟨_, hfound', rfl⟩,
      find_eq_ok_iff.2 ⟨_, Sweep.result_along_append hfound hfound', ?_⟩⟩
    rw [ofFindings, ofFindings, ofFindings, List.flatten_append, List.filterMap_append,
      distinct_append]
  · refine ⟨nodup_map_identity_of_find h, ?_, fun reordered hperm => ?_⟩
    · obtain ⟨found, hfound, rfl⟩ := find_eq_ok_iff.1 h
      refine ⟨_, reached_of_survey (Sweep.result_along_eq_ok_iff.1 hfound),
        distinct_sublist fs [] _, fun p => ?_⟩
      rw [ofFindings, mem_distinct_iff_find?, and_iff_right List.not_mem_nil]
    · obtain ⟨files', h'⟩ := exists_find_of_forall enter
        fun d hd => forall_find_of_find h d (hperm.mem_iff.2 hd)
      refine ⟨files', h', ?_⟩
      rw [List.perm_ext_iff_of_nodup (nodup_map_identity_of_find h) (nodup_map_identity_of_find h')]
      intro i
      simp only [mem_map_identity_iff h, mem_map_identity_iff h', hperm.mem_iff]

end Sources

end ElixirTags
