/-!
# Computations that succeed

What follows for the parts of a computation that may fail when the whole of it succeeds.
-/
namespace Highlighter.Success

variable {α β ε : Type}

variable {first : Except ε α} {action next : α → Except ε β} {result : β}

/-- What follows a success goes on with its value. -/
theorem ok_bind (value : α) (next : α → Except ε β) : (Except.ok value >>= next) = next value :=
  rfl

/-- Both parts of a sequence succeed. -/
theorem bind_eq_ok :
    (first >>= next) = .ok result ↔ ∃ value, first = .ok value ∧ next value = .ok result := by
  constructor
  · intro success
    cases first with
    | error cause => cases success
    | ok value => exact ⟨value, rfl, success⟩
  · rintro ⟨value, rfl, success⟩
    exact success

/-- A sequence fails where one of its parts does. -/
theorem bind_eq_error {cause : ε} :
    (first >>= next) = .error cause ↔
      first = .error cause ∨ ∃ value, first = .ok value ∧ next value = .error cause := by
  cases first with
  | error other =>
    simp only [reduceCtorEq, false_and, exists_false, or_false, Except.error.injEq]
    exact ⟨fun fails => Except.error.inj fails, fun same => congrArg Except.error same⟩
  | ok value => simp [ok_bind]

theorem toOption_eq_some {value : α} :
    first.toOption = some value ↔ first = .ok value := by
  cases first <;> simp [Except.toOption]

section State

variable {σ : Type} {before after : σ}

/-- Both parts of a sequence succeed, the second one in the state that the first leaves. -/
theorem run_bind_eq_ok {first : StateT σ (Except ε) α} {next : α → StateT σ (Except ε) β} :
    (first >>= next).run before = .ok (result, after) ↔
      ∃ value middle, first.run before = .ok (value, middle) ∧
        (next value).run middle = .ok (result, after) := by
  rw [StateT.run_bind, bind_eq_ok, Prod.exists]

theorem run_lift_eq_ok {action : Except ε α} {result : α} :
    (liftM action : StateT σ (Except ε) α).run before = .ok (result, after) ↔
      action = .ok result ∧ after = before := by
  have run : (liftM action : StateT σ (Except ε) α).run before =
      (action >>= fun value => pure (value, before)) := rfl
  rw [run, bind_eq_ok]
  constructor
  · rintro ⟨value, success, isResult⟩
    cases isResult
    exact ⟨success, rfl⟩
  · rintro ⟨success, rfl⟩
    exact ⟨result, success, rfl⟩

end State

theorem list_mapM {items : List α} {results : List β} (success : items.mapM action = .ok results) :
    results.length = items.length ∧
      ∀ (position : Nat) (result : β), results[position]? = some result →
        ∃ item, items[position]? = some item ∧ action item = .ok result := by
  induction items generalizing results with
  | nil =>
    cases success
    simp
  | cons item items ih =>
    rw [List.mapM_cons] at success
    obtain ⟨result, first, success⟩ := bind_eq_ok.mp success
    obtain ⟨others, rest, success⟩ := bind_eq_ok.mp success
    cases success
    obtain ⟨sameLength, each⟩ := ih rest
    refine ⟨by simp [sameLength], ?_⟩
    intro position found listed
    cases position with
    | zero =>
      simp only [List.getElem?_cons_zero, Option.some.injEq] at listed
      subst listed
      exact ⟨item, by simp, first⟩
    | succ position =>
      simp only [List.getElem?_cons_succ] at listed ⊢
      exact each position found listed

theorem array_mapM {items : Array α} {results : Array β}
    (success : items.mapM action = .ok results) :
    results.size = items.size ∧
      ∀ (position : Nat) (result : β), results[position]? = some result →
        ∃ item, items[position]? = some item ∧ action item = .ok result := by
  rw [Array.mapM_eq_mapM_toList] at success
  cases each : items.toList.mapM action with
  | error cause =>
    rw [each] at success
    cases success
  | ok listed =>
    rw [each] at success
    cases success
    simpa using list_mapM each

end Highlighter.Success
