set_option autoImplicit false

/-!
# Outcomes

A computation that may fail is taken apart at its steps: it succeeds exactly when each of its steps
does.

## Main definitions

* `error?` — the error of an outcome.
* `FailsFirst` — the error of the first item that a step fails on.
* `collect` — the lists that a step makes of some items, put together.

## Main results

* `bind_eq_ok` — when a step followed by another succeeds.
* `map_eq_ok`, `mapError_eq_ok` — when a step with its outcome or its failure changed succeeds.
* `error?_bind`, `error?_mapM` — the first of several steps that fails gives the error.
* `map_eq_map_iff` — outcomes changed by an injection are equal exactly when they were.
* `mapM_eq_ok_map` — a step that succeeds on each item.
* `mapM_congr` — steps that do the same with each item.
* `forall_of_mapM` — what holds of the outcome of a step on each item.
* `collect_flatMap` — collecting in stages is collecting at once.
* `collect_succeeds_iff`, `collect_eq_error_iff` — when collecting succeeds, and how it fails.
-/

namespace SymbolDocs

variable {ε α β γ : Type}

/-! ### Single steps -/

/-- A step followed by another succeeds when both do. -/
theorem bind_eq_ok {step : Except ε α} {next : α → Except ε β} {b : β} :
    (step >>= next) = .ok b ↔ ∃ a, step = .ok a ∧ next a = .ok b := by
  cases step <;> simp [bind, Except.bind]

/-- A changed outcome is a success where the outcome is one. -/
theorem map_eq_ok {step : Except ε α} {f : α → β} {b : β} :
    step.map f = .ok b ↔ ∃ a, step = .ok a ∧ f a = b := by
  cases step <;> simp [Except.map]

/-- An outcome with its failure changed is a success where the outcome is the same one. -/
theorem mapError_eq_ok {step : Except ε α} {f : ε → β} {a : α} :
    step.mapError f = .ok a ↔ step = .ok a := by
  cases step with
  | error error => exact ⟨nofun, nofun⟩
  | ok b => exact ⟨fun h => congrArg _ (Except.ok.inj h), fun h => congrArg _ (Except.ok.inj h)⟩

/-- An outcome with its failure changed is a failure where the outcome is one. -/
theorem mapError_eq_error {step : Except ε α} {f : ε → β} {b : β} :
    step.mapError f = .error b ↔ ∃ error, b = f error ∧ step = .error error := by
  cases step with
  | error error =>
    refine ⟨fun h => ⟨error, (Except.error.inj h).symm, rfl⟩, ?_⟩
    rintro ⟨_, rfl, hsame⟩
    exact congrArg (fun fault => Except.error (f fault)) (Except.error.inj hsame)
  | ok a => exact ⟨nofun, fun ⟨_, _, h⟩ => nomatch h⟩

/-- A step succeeds where it does not fail. -/
theorem succeeds_iff {step : Except ε α} : (∃ a, step = .ok a) ↔ ∀ error, step ≠ .error error := by
  cases step <;> simp

/-- A changed outcome is a success exactly where the outcome is one. -/
theorem isOk_map (step : Except ε α) (f : α → β) : (step.map f).isOk = step.isOk := by
  cases step <;> rfl

/-- **Outcomes changed by a function are equal exactly when they were**, where the function is
injective on what they can succeed with. -/
theorem map_eq_map_iff {step₁ step₂ : Except ε α} {f : α → β}
    (h : ∀ a₁ a₂, step₁ = .ok a₁ → step₂ = .ok a₂ → f a₁ = f a₂ → a₁ = a₂) :
    step₁.map f = step₂.map f ↔ step₁ = step₂ := by
  refine ⟨fun heq => ?_, fun heq => by rw [heq]⟩
  cases step₁ with
  | error error₁ =>
    cases step₂ with
    | error error₂ => simpa [Except.map] using heq
    | ok a₂ => simp [Except.map] at heq
  | ok a₁ =>
    cases step₂ with
    | error error₂ => simp [Except.map] at heq
    | ok a₂ => rw [h a₁ a₂ rfl rfl (Except.ok.inj heq)]

/-! ### Errors -/

/-- The error of an outcome that is a failure. -/
def error? : Except ε α → Option ε
  | .ok _ => none
  | .error error => some error

/-- **The first of two steps that fails gives the error**, where that of the second does not depend
on the result of the first. -/
theorem error?_bind {step : Except ε α} {next : α → Except ε β} {later : Option ε}
    (h : ∀ a, error? (next a) = later) : error? (step >>= next) = (error? step).or later := by
  cases step with
  | error error => rfl
  | ok a => exact h a

/-- The first of some items that a step fails on gives the error. -/
theorem error?_mapM (step : α → Except ε β) (items : List α) :
    error? (items.mapM step) = items.findSome? fun item => error? (step item) := by
  induction items with
  | nil => rfl
  | cons item items ih =>
    have hlater : ∀ result, error? (do let results ← items.mapM step; pure (result :: results)) =
        error? (items.mapM step) := by
      intro result
      cases items.mapM step <;> rfl
    rw [List.mapM_cons, error?_bind hlater, ih]
    cases hitem : error? (step item) <;> simp [hitem]

/-! ### A step for each of some items -/

/-- A step that succeeds on each of some items succeeds on all of them. -/
theorem mapM_eq_ok_map {step : α → Except ε β} {result : α → β} {items : List α}
    (h : ∀ item ∈ items, step item = .ok (result item)) :
    items.mapM step = .ok (items.map result) := by
  induction items with
  | nil => rfl
  | cons item items ih =>
    obtain ⟨hitem, hitems⟩ := List.forall_mem_cons.mp h
    rw [List.mapM_cons, hitem, ih hitems]
    rfl

/-- Steps that agree on each of some items agree on all of them. -/
theorem mapM_congr {step other : α → Except ε β} {items : List α}
    (h : ∀ item ∈ items, step item = other item) : items.mapM step = items.mapM other := by
  induction items with
  | nil => rfl
  | cons item items ih =>
    obtain ⟨hitem, hitems⟩ := List.forall_mem_cons.mp h
    rw [List.mapM_cons, List.mapM_cons, hitem, ih hitems]

/-- One more item at the end is taken up last. -/
theorem mapM_append_singleton (step : α → Except ε β) (items : List α) (last : α) :
    (items ++ [last]).mapM step =
      items.mapM step >>= fun results => (step last).map fun result => results ++ [result] := by
  rw [List.mapM_append]
  cases items.mapM step with
  | error error => rfl
  | ok results =>
    rw [List.mapM_cons, List.mapM_nil]
    cases step last <;> rfl

/-- A step that succeeds on all of some items, of which there is one, has a result. -/
theorem mapM_ne_nil {step : α → Except ε β} {items : List α} {results : List β} (h : items ≠ [])
    (hresults : items.mapM step = .ok results) : results ≠ [] := by
  obtain ⟨item, rest, rfl⟩ := List.exists_cons_of_ne_nil h
  rw [List.mapM_cons] at hresults
  obtain ⟨result, -, hresults⟩ := bind_eq_ok.mp hresults
  obtain ⟨others, -, hresults⟩ := bind_eq_ok.mp hresults
  obtain rfl : result :: others = results := Except.ok.inj hresults
  exact List.cons_ne_nil result others

/-- What holds of every result of a step holds of all its results on some items. -/
theorem forall_of_mapM {P : β → Prop} {step : α → Except ε β} {items : List α} {results : List β}
    (hresults : items.mapM step = .ok results)
    (h : ∀ item ∈ items, ∀ result, step item = .ok result → P result) :
    ∀ result ∈ results, P result := by
  induction items generalizing results with
  | nil =>
    obtain rfl : [] = results := Except.ok.inj hresults
    exact nofun
  | cons item items ih =>
    obtain ⟨hitem, hitems⟩ := List.forall_mem_cons.mp h
    rw [List.mapM_cons] at hresults
    obtain ⟨result, hresult, hresults⟩ := bind_eq_ok.mp hresults
    obtain ⟨others, hothers, hresults⟩ := bind_eq_ok.mp hresults
    obtain rfl : result :: others = results := Except.ok.inj hresults
    exact List.forall_mem_cons.mpr ⟨hitem result hresult, ih hothers hitems⟩

/-- The error of the first item that a step fails on. -/
def FailsFirst (step : α → Except ε β) (items : List α) (error : ε) : Prop :=
  ∃ before item after, items = before ++ item :: after ∧
    (∀ earlier ∈ before, ∃ result, step earlier = .ok result) ∧ step item = .error error

/-- Where there is nothing to do, nothing fails. -/
theorem not_failsFirst_nil {step : α → Except ε β} {error : ε} : ¬ FailsFirst step [] error := by
  rintro ⟨before, item, after, hitems, -⟩
  simp at hitems

/-- The first item is the one that fails, or it does not and one of the others does. -/
theorem failsFirst_cons_iff {step : α → Except ε β} {item : α} {items : List α} {error : ε} :
    FailsFirst step (item :: items) error ↔
      step item = .error error ∨
        (∃ result, step item = .ok result) ∧ FailsFirst step items error := by
  constructor
  · rintro ⟨before, failing, after, hitems, hbefore, hfailing⟩
    cases before with
    | nil =>
      obtain ⟨rfl, -⟩ := List.cons_eq_cons.mp hitems
      exact .inl hfailing
    | cons first before =>
      obtain ⟨rfl, hrest⟩ := List.cons_eq_cons.mp hitems
      obtain ⟨hfirst, hbefore⟩ := List.forall_mem_cons.mp hbefore
      exact .inr ⟨hfirst, before, failing, after, hrest, hbefore, hfailing⟩
  · rintro (hitem | ⟨hitem, before, failing, after, hitems, hbefore, hfailing⟩)
    · exact ⟨[], item, items, rfl, nofun, hitem⟩
    · exact ⟨item :: before, failing, after, congrArg (item :: ·) hitems,
        List.forall_mem_cons.mpr ⟨hitem, hbefore⟩, hfailing⟩

/-- Two steps that fail alike fail alike on the first of some items. -/
theorem failsFirst_congr {step : α → Except ε β} {other : α → Except ε γ} {items : List α}
    {error : ε} (h : ∀ item fault, step item = .error fault ↔ other item = .error fault) :
    FailsFirst step items error ↔ FailsFirst other items error := by
  simp only [FailsFirst, succeeds_iff, ne_eq, h]

/-- The lists that a step makes of some items, put together. -/
def collect (step : α → Except ε (List β)) (items : List α) : Except ε (List β) :=
  (items.mapM step).map List.flatten

section Collect

variable (step : α → Except ε (List β))

/-- Nothing collects nothing. -/
theorem collect_nil : collect step [] = .ok [] := rfl

/-- The first item is collected before the others. -/
theorem collect_cons (item : α) (items : List α) :
    collect step (item :: items) =
      step item >>= fun results => (collect step items).map (results ++ ·) := by
  rw [collect, List.mapM_cons, collect]
  cases step item with
  | error error => rfl
  | ok results => cases items.mapM step <;> rfl

/-- Items behind others are collected after them. -/
theorem collect_append (first second : List α) :
    collect step (first ++ second) =
      collect step first >>= fun results => (collect step second).map (results ++ ·) := by
  induction first with
  | nil =>
    rw [List.nil_append, collect_nil]
    cases collect step second <;> rfl
  | cons item items ih =>
    rw [List.cons_append, collect_cons, collect_cons, ih]
    cases step item <;> cases collect step items <;> cases collect step second <;>
      simp [bind, Except.bind, Except.map]

/-- **Collecting in stages is collecting at once.** -/
theorem collect_flatMap (parts : γ → List α) (items : List γ) :
    collect step (items.flatMap parts) = collect (fun item => collect step (parts item)) items := by
  induction items with
  | nil => rfl
  | cons item items ih => rw [List.flatMap_cons, collect_append, ih, collect_cons]

variable {step} {items : List α}

/-- **Collecting succeeds exactly where the step does on every item.** -/
theorem collect_succeeds_iff :
    (∃ results, collect step items = .ok results) ↔
      ∀ item ∈ items, ∃ results, step item = .ok results := by
  induction items with
  | nil => simp [collect_nil]
  | cons item items ih =>
    rw [List.forall_mem_cons, ← ih, collect_cons]
    cases step item <;> cases collect step items <;> simp [bind, Except.bind, Except.map]

/-- **Collecting fails as the step does on the first item it fails on.** -/
theorem collect_eq_error_iff {error : ε} :
    collect step items = .error error ↔ FailsFirst step items error := by
  induction items with
  | nil => simp [collect_nil, not_failsFirst_nil]
  | cons item items ih =>
    rw [failsFirst_cons_iff, ← ih, collect_cons]
    cases step item <;> cases collect step items <;> simp [bind, Except.bind, Except.map]

end Collect

end SymbolDocs
