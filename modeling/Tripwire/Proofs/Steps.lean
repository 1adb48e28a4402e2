/-!
# Steps that may fail

What gave a result came through steps that each gave one, and a step that is taken under a condition
was taken under it. What every step preserves holds after all.
-/

namespace Tripwire

section

variable {ε α β : Type}

theorem bind_eq_ok {first : Except ε α} {next : α → Except ε β} {result : β} :
    first >>= next = .ok result ↔ ∃ value, first = .ok value ∧ next value = .ok result := by
  cases first <;> simp [bind, Except.bind]

theorem bind_eq_error {first : Except ε α} {next : α → Except ε β} {error : ε} :
    first >>= next = .error error ↔
      first = .error error ∨ ∃ value, first = .ok value ∧ next value = .error error := by
  cases first <;> simp [bind, Except.bind]

theorem map_eq_ok {first : Except ε α} {change : α → β} {result : β} :
    first.map change = .ok result ↔ ∃ value, first = .ok value ∧ result = change value := by
  cases first <;> simp [Except.map, eq_comm]

theorem map_eq_error {first : Except ε α} {change : α → β} {error : ε} :
    first.map change = .error error ↔ first = .error error := by
  cases first <;> simp [Except.map]

theorem exists_map_eq_ok {first : Except ε α} {change : α → β} :
    (∃ result, first.map change = .ok result) ↔ ∃ value, first = .ok value := by
  cases first <;> simp [Except.map]

theorem ite_eq_ok {condition : Prop} [Decidable condition] {value result : α} {error : ε} :
    (if condition then Except.ok value else .error error) = .ok result ↔
      condition ∧ result = value := by
  split <;> simp [*, eq_comm]

theorem ite_error_eq_ok {condition : Prop} [Decidable condition] {error : ε}
    {next : Except ε α} {result : α} :
    (if condition then .error error else next) = .ok result ↔
      ¬condition ∧ next = .ok result := by
  split <;> simp [*]

end

/-! ## Steps for each item of a list -/

section

variable {ε α β : Type} {step : α → Except ε β}

theorem mapM_cons_of_ok {item : α} {rest : List α} {result : β} (here : step item = .ok result) :
    (item :: rest).mapM step = (rest.mapM step).map (result :: ·) := by
  rw [List.mapM_cons, here]
  rfl

theorem mapM_cons_of_error {item : α} {rest : List α} {error : ε}
    (here : step item = .error error) : (item :: rest).mapM step = .error error := by
  rw [List.mapM_cons, here]
  rfl

/-- All items have results if each has one. -/
theorem exists_mapM_eq_ok {items : List α} :
    (∃ results, items.mapM step = .ok results) ↔
      ∀ item ∈ items, ∃ result, step item = .ok result := by
  induction items with
  | nil => simp [pure, Except.pure]
  | cons first rest ih =>
      rw [List.forall_mem_cons, ← ih]
      cases here : step first with
      | error error => simp [mapM_cons_of_error here]
      | ok result =>
          rw [mapM_cons_of_ok here, exists_map_eq_ok]
          simp

/-- The error of all items is that of the first which has one. -/
theorem mapM_eq_error {items : List α} {error : ε} :
    items.mapM step = .error error ↔
      ∃ before item after, items = before ++ item :: after ∧
        (∀ earlier ∈ before, ∃ result, step earlier = .ok result) ∧ step item = .error error := by
  induction items with
  | nil => simp [pure, Except.pure]
  | cons first rest ih =>
      cases here : step first with
      | error found =>
          rw [mapM_cons_of_error here]
          constructor
          · rintro ⟨⟩
            exact ⟨[], first, rest, rfl, by simp, here⟩
          · rintro ⟨before, item, after, split, fine, fails⟩
            rcases List.cons_eq_append_iff.1 split with ⟨rfl, same⟩ | ⟨tail, rfl, _⟩
            · cases same
              rw [here, Except.error.injEq] at fails
              rw [fails]
            · obtain ⟨result, passes⟩ := fine first List.mem_cons_self
              rw [here] at passes
              cases passes
      | ok result =>
          rw [mapM_cons_of_ok here, map_eq_error, ih]
          constructor
          · rintro ⟨before, item, after, rfl, fine, fails⟩
            exact ⟨first :: before, item, after, rfl,
              List.forall_mem_cons.2 ⟨⟨result, here⟩, fine⟩, fails⟩
          · rintro ⟨before, item, after, split, fine, fails⟩
            rcases List.cons_eq_append_iff.1 split with ⟨rfl, same⟩ | ⟨tail, rfl, remaining⟩
            · cases same
              rw [here] at fails
              cases fails
            · exact ⟨tail, item, after, remaining, (List.forall_mem_cons.1 fine).2, fails⟩

end

/-- Steps in turn fail with the error of the first that does. -/
theorem foldlM_eq_error {σ ι ε : Type} {step : σ → ι → Except ε σ} {items : List ι} {state : σ}
    {error : ε} : items.foldlM step state = .error error ↔
      ∃ before item after reached, items = before ++ item :: after ∧
        before.foldlM step state = .ok reached ∧ step reached item = .error error := by
  induction items generalizing state with
  | nil => simp [pure, Except.pure]
  | cons first rest ih =>
      rw [List.foldlM_cons, bind_eq_error]
      constructor
      · rintro (here | ⟨next, done, later⟩)
        · exact ⟨[], first, rest, state, rfl, rfl, here⟩
        · obtain ⟨before, item, after, reached, rfl, earlier, fails⟩ := ih.1 later
          refine ⟨first :: before, item, after, reached, rfl, ?_, fails⟩
          exact bind_eq_ok.2 ⟨next, done, earlier⟩
      · rintro ⟨before, item, after, reached, split, earlier, fails⟩
        rcases List.cons_eq_append_iff.1 split with ⟨rfl, same⟩ | ⟨tail, rfl, remaining⟩
        · cases same
          cases earlier
          exact .inl fails
        · obtain ⟨next, done, others⟩ := bind_eq_ok.1 earlier
          exact .inr ⟨next, done, ih.2 ⟨tail, item, after, reached, remaining, others, fails⟩⟩

/-- What every step that succeeds preserves holds after all steps. -/
theorem foldlM_ok_invariant {σ ι ε : Type} {step : σ → ι → Except ε σ} {holds : σ → Prop}
    (kept : ∀ {state item next}, holds state → step state item = .ok next → holds next)
    (items : List ι) {state last : σ} (start : holds state)
    (done : items.foldlM step state = .ok last) : holds last := by
  induction items generalizing state with
  | nil =>
      cases done
      exact start
  | cons item items ih =>
      rw [List.foldlM_cons] at done
      obtain ⟨middle, next, rest⟩ := bind_eq_ok.1 done
      exact ih (kept start next) rest

/-! ## Steps that may give nothing -/

theorem mapM_eq_some_iff {α β : Type} {f : α → Option β} {items : List α} {results : List β} :
    items.mapM f = some results ↔ items.map f = results.map some := by
  induction items generalizing results with
  | nil => cases results <;> simp
  | cons item items ih =>
      cases results with
      | nil => simp [Option.bind_eq_some_iff]
      | cons first rest =>
          simp only [List.mapM_cons, Option.bind_eq_bind, Option.bind_eq_some_iff, List.map_cons,
            List.cons.injEq]
          constructor
          · rintro ⟨result, here, found, others, same⟩
            cases same
            exact ⟨here, ih.1 others⟩
          · rintro ⟨here, others⟩
            exact ⟨first, here, rest, ih.2 others, rfl⟩

/-- Where each item has a result, the results are found in turn. -/
theorem mapM_eq_some_map {α β γ : Type} {f : β → Option γ} {g : α → β} {h : α → γ}
    {items : List α} (each : ∀ item ∈ items, f (g item) = some (h item)) :
    (items.map g).mapM f = some (items.map h) := by
  rw [mapM_eq_some_iff, List.map_map, List.map_map]
  exact List.map_congr_left each

end Tripwire
