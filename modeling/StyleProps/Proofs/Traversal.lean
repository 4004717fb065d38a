import Mathlib.Data.List.Forall2

/-!
# Traversals that can fail

What running a function that can fail over a list comes to: the results of all elements
(`mapM_eq_ok_iff`), or the failure of the first element that fails (`mapM_eq_error_iff`).
-/

namespace StyleProps

variable {α β ε : Type} {f : α → Except ε β}

/-- With another failure, the same succeeds. -/
theorem mapError_eq_ok_iff {δ : Type} {result : Except ε α} {wrap : ε → δ} {x : α} :
    result.mapError wrap = .ok x ↔ result = .ok x := by
  cases result <;> simp [Except.mapError]

/-- With another failure, the same fails. -/
theorem mapError_eq_error_iff {δ : Type} {result : Except ε α} {wrap : ε → δ} {e : δ} :
    result.mapError wrap = .error e ↔ ∃ fault, result = .error fault ∧ wrap fault = e := by
  cases result <;> simp [Except.mapError]

/-- A run over a list succeeds exactly with the results of its elements in order. -/
theorem mapM_eq_ok_iff {xs : List α} {ys : List β} :
    xs.mapM f = .ok ys ↔ List.Forall₂ (fun x y => f x = .ok y) xs ys := by
  induction xs generalizing ys with
  | nil => simp [pure, Except.pure, eq_comm]
  | cons x rest ih =>
      rw [List.mapM_cons, List.forall₂_cons_left_iff]
      cases hx : f x with
      | error e => simp [bind, Except.bind]
      | ok first =>
          simp only [← ih]
          cases rest.mapM f <;> simp [bind, Except.bind, pure, Except.pure, eq_comm]

/-- What comes out of a successful run over a list comes of an element of the list. -/
theorem exists_of_mem_mapM {xs : List α} {ys : List β} (h : xs.mapM f = .ok ys) {y : β}
    (hy : y ∈ ys) : ∃ x ∈ xs, f x = .ok y := by
  have hresults := mapM_eq_ok_iff.mp h
  clear h
  induction hresults with
  | nil => cases hy
  | cons hfirst _ ih =>
      rcases List.mem_cons.mp hy with rfl | hmem
      · exact ⟨_, List.mem_cons_self, hfirst⟩
      · obtain ⟨x, hx, hfx⟩ := ih hmem
        exact ⟨x, List.mem_cons_of_mem _ hx, hfx⟩

/-- Whether an element of a list fails in a given way, behind elements that do not fail. -/
def FailsFirst (f : α → Except ε β) (xs : List α) (e : ε) : Prop :=
  ∃ front x back, xs = front ++ x :: back ∧ (∀ other ∈ front, ∃ y, f other = .ok y) ∧
    f x = .error e

/-- The first element of a list fails, or one of the others does first. -/
theorem failsFirst_cons {first : α} {rest : List α} {e : ε} :
    FailsFirst f (first :: rest) e ↔
      f first = .error e ∨ (∃ y, f first = .ok y) ∧ FailsFirst f rest e := by
  constructor
  · rintro ⟨front, x, back, heq, hfront, hx⟩
    cases front with
    | nil =>
        obtain ⟨rfl, rfl⟩ := List.cons.inj heq
        exact .inl hx
    | cons other front =>
        obtain ⟨rfl, rfl⟩ := List.cons.inj heq
        rw [List.forall_mem_cons] at hfront
        exact .inr ⟨hfront.1, front, x, back, rfl, hfront.2, hx⟩
  · rintro (hfirst | ⟨hfirst, front, x, back, rfl, hfront, hx⟩)
    · exact ⟨[], first, rest, rfl, nofun, hfirst⟩
    · exact ⟨first :: front, x, back, rfl, List.forall_mem_cons.mpr ⟨hfirst, hfront⟩, hx⟩

/-- A run over a list fails exactly as the first element that fails. -/
theorem mapM_eq_error_iff {xs : List α} {e : ε} :
    xs.mapM f = .error e ↔ FailsFirst f xs e := by
  induction xs with
  | nil => simp [FailsFirst, pure, Except.pure]
  | cons first rest ih =>
      rw [List.mapM_cons, failsFirst_cons, ← ih]
      cases hfirst : f first with
      | error fault => simp [bind, Except.bind]
      | ok y => cases rest.mapM f <;> simp [bind, Except.bind, pure, Except.pure]

end StyleProps
