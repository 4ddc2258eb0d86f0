/-!
# Going through a list up to the first failure

A `Sweep` keeps both what was done and what stopped it, because a run reports its steps even if a
later one fails.  Its `result` is that of doing all or nothing (`result_along_cons`): the results of
all steps (`result_along_eq_ok_iff`), or the failure of the first step that fails
(`result_along_eq_error_iff`).
-/

namespace ElixirTags

/-- What was done before the first failure, and that failure. -/
structure Sweep (ε α : Type) where
  /-- The results before the first failure, in order. -/
  done : List α
  stopped : Option ε

namespace Sweep

variable {ε α β : Type}

/-- Applies `f` to each element until it fails. -/
def along (f : β → Except ε α) : List β → Sweep ε α
  | [] => ⟨[], none⟩
  | b :: rest =>
    match f b with
    | .error e => ⟨[], some e⟩
    | .ok a => { along f rest with done := a :: (along f rest).done }

/-- All results, or the first failure. -/
def result (s : Sweep ε α) : Except ε (List α) :=
  match s.stopped with
  | some e => .error e
  | none => .ok s.done

theorem result_along_cons (f : β → Except ε α) (b : β) (rest : List β) :
    (along f (b :: rest)).result = (f b).bind fun a => (along f rest).result.map (a :: ·) := by
  rw [along]
  cases f b with
  | error e => rfl
  | ok a =>
    simp only [result, Except.bind]
    cases (along f rest).stopped <;> rfl

/-- A sweep ends well with the results of all its steps. -/
theorem result_along_eq_ok_iff {f : β → Except ε α} {bs : List β}
    {as : List α} : (along f bs).result = .ok as ↔ bs.map f = as.map .ok := by
  induction bs generalizing as with
  | nil =>
      show Except.ok [] = Except.ok as ↔ _
      cases as <;> simp
  | cons b bs ih =>
      rw [result_along_cons]
      cases hb : f b with
      | error _ => cases as <;> simp [Except.bind, hb]
      | ok a =>
          cases hrest : (along f bs).result with
          | error _ =>
              have hnone : ∀ as : List α, bs.map f ≠ as.map .ok := by
                intro as h
                rw [ih.2 h] at hrest
                cases hrest
              cases as with
              | nil => simp [Except.bind, Except.map]
              | cons a' as => simp [Except.bind, Except.map, hnone as]
          | ok rest =>
              have hall := ih.1 hrest
              cases as with
              | nil => simp [Except.bind, Except.map]
              | cons a' as =>
                  have hinj : rest.map (Except.ok : α → Except ε α) = as.map .ok ↔ rest = as :=
                    List.map_inj_right fun _ _ h => Except.ok.inj h
                  simp [Except.bind, Except.map, hb, hall, hinj]

/-- A sweep ends well if all its steps do. -/
theorem exists_result_along {f : β → Except ε α} {bs : List β}
    (h : ∀ b ∈ bs, ∃ a, f b = .ok a) : ∃ as, (along f bs).result = .ok as := by
  induction bs with
  | nil => exact ⟨[], rfl⟩
  | cons b bs ih =>
      obtain ⟨a, ha⟩ := h b List.mem_cons_self
      obtain ⟨as, has⟩ := ih fun c hc => h c (List.mem_cons_of_mem _ hc)
      refine ⟨a :: as, ?_⟩
      rw [result_along_cons, ha, has]
      rfl

section Results

variable {f : β → Except ε α} {bs cs : List β} {as as' : List α} {a : α} {b : β} {e : ε}

theorem result_along_append (hbs : (along f bs).result = .ok as)
    (hcs : (along f cs).result = .ok as') : (along f (bs ++ cs)).result = .ok (as ++ as') := by
  rw [result_along_eq_ok_iff] at *
  rw [List.map_append, hbs, hcs, List.map_append]

theorem mem_iff_of_result_along (h : (along f bs).result = .ok as) :
    a ∈ as ↔ ∃ b ∈ bs, f b = .ok a := by
  have hmem : .ok a ∈ as.map (Except.ok : α → Except ε α) ↔ a ∈ as := by simp
  rw [← hmem, ← result_along_eq_ok_iff.1 h, List.mem_map]

theorem exists_of_result_along (h : (along f bs).result = .ok as) (hb : b ∈ bs) :
    ∃ a, f b = .ok a := by
  have hmem : f b ∈ as.map .ok := by
    rw [← result_along_eq_ok_iff.1 h]
    exact List.mem_map_of_mem hb
  obtain ⟨a, -, ha⟩ := List.mem_map.1 hmem
  exact ⟨a, ha.symm⟩

/-- What a step fails with. -/
def failure? : Except ε α → Option ε
  | .error e => some e
  | .ok _ => none

theorem failure?_eq_some_iff {step : Except ε α} : failure? step = some e ↔ step = .error e := by
  cases step <;> simp [failure?]

theorem failure?_eq_none_iff {step : Except ε α} : failure? step = none ↔ ∃ a, step = .ok a := by
  cases step <;> simp [failure?]

theorem stopped_along (f : β → Except ε α) (bs : List β) :
    (along f bs).stopped = bs.findSome? fun b => failure? (f b) := by
  induction bs with
  | nil => rfl
  | cons b bs ih =>
      rw [along, List.findSome?_cons]
      cases f b with
      | error e => rfl
      | ok a => exact ih

/-- A sweep fails with the first of its steps that fails. -/
theorem result_along_eq_error_iff : (along f bs).result = .error e ↔
    ∃ before b after, bs = before ++ b :: after ∧ (∀ c ∈ before, ∃ a, f c = .ok a) ∧
      f b = .error e := by
  have hresult : (along f bs).result = .error e ↔ (along f bs).stopped = some e := by
    rw [result]
    cases (along f bs).stopped <;> simp
  rw [hresult, stopped_along, List.findSome?_eq_some_iff]
  simp only [failure?_eq_some_iff, failure?_eq_none_iff, and_comm]

end Results

end Sweep

end ElixirTags
