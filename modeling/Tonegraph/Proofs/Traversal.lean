import Mathlib.Data.List.Basic
/-!
# Going through a list until something fails

What `List.mapM` does with a function that can fail: it gives all values, or the error of the first
element that fails. `visited` are the elements that are tried on the way, so all but the last of
them succeed; that they are tried in this order and no others are is `run_mapM_noted`, where each
is noted as it is tried.
-/

set_option autoImplicit false

namespace Tonegraph

variable {α β ε : Type} {f : α → Except ε β}

/-- One thing after another succeeds when both do. -/
theorem bind_eq_ok_iff {x : Except ε α} {y : β} :
    (x >>= f) = .ok y ↔ ∃ a, x = .ok a ∧ f a = .ok y := by
  cases x <;> simp [bind, Except.bind]

theorem mapM_cons_of_ok {x : α} {y : β} (succeeds : f x = .ok y) (xs : List α) :
    (x :: xs).mapM f = (xs.mapM f).map (y :: ·) := by
  rw [List.mapM_cons, succeeds]
  cases xs.mapM f <;> rfl

theorem mapM_cons_of_error {x : α} {e : ε} (fails : f x = .error e) (xs : List α) :
    (x :: xs).mapM f = .error e := by
  rw [List.mapM_cons, fails]
  rfl

/-- All succeed, and these are their values. -/
theorem mapM_eq_ok_iff {xs : List α} {ys : List β} :
    xs.mapM f = .ok ys ↔ xs.map f = ys.map .ok := by
  induction xs generalizing ys with
  | nil => cases ys <;> simp [pure, Except.pure]
  | cons x xs ih =>
      cases tried : f x with
      | error e =>
          rw [mapM_cons_of_error tried]
          cases ys <;> simp [tried]
      | ok y =>
          rw [mapM_cons_of_ok tried]
          cases ys with
          | nil => cases xs.mapM f <;> simp [Except.map]
          | cons z ys =>
              rw [List.map_cons, List.map_cons, List.cons.injEq, tried, ← ih]
              cases xs.mapM f <;> simp [Except.map]

theorem exists_mapM_eq_ok_iff {xs : List α} :
    (∃ ys, xs.mapM f = .ok ys) ↔ ∀ x ∈ xs, ∃ y, f x = .ok y := by
  induction xs with
  | nil => simp [pure, Except.pure]
  | cons x xs ih =>
      rw [List.forall_mem_cons, ← ih]
      cases tried : f x with
      | error e => simp [mapM_cons_of_error tried]
      | ok y =>
          rw [mapM_cons_of_ok tried]
          cases xs.mapM f <;> simp [Except.map]

/-- The first that fails has all before it succeed. -/
theorem mapM_eq_error_iff {xs : List α} {e : ε} :
    xs.mapM f = .error e ↔
      ∃ (i : Nat) (x : α), xs[i]? = some x ∧ f x = .error e ∧
        ∀ j < i, ∀ y, xs[j]? = some y → ∃ z, f y = .ok z := by
  induction xs with
  | nil => simp [pure, Except.pure]
  | cons x xs ih =>
      cases tried : f x with
      | error e' =>
          rw [mapM_cons_of_error tried]
          constructor
          · rintro ⟨⟩
            exact ⟨0, x, rfl, tried, fun j before => absurd before (Nat.not_lt_zero j)⟩
          · rintro ⟨i, y, at_i, fails, before⟩
            cases i with
            | zero =>
                cases at_i
                rw [tried, Except.error.injEq] at fails
                rw [fails]
            | succ i =>
                obtain ⟨z, succeeds⟩ := before 0 (Nat.succ_pos i) x rfl
                rw [tried] at succeeds
                cases succeeds
      | ok y =>
          have shift : (x :: xs).mapM f = .error e ↔ xs.mapM f = .error e := by
            rw [mapM_cons_of_ok tried]
            cases xs.mapM f <;> simp [Except.map]
          rw [shift, ih]
          constructor
          · rintro ⟨i, z, at_i, fails, before⟩
            refine ⟨i + 1, z, at_i, fails, fun j earlier w at_j => ?_⟩
            cases j with
            | zero =>
                cases at_j
                exact ⟨y, tried⟩
            | succ j => exact before j (Nat.lt_of_succ_lt_succ earlier) w at_j
          · rintro ⟨i, z, at_i, fails, before⟩
            cases i with
            | zero =>
                cases at_i
                rw [tried] at fails
                cases fails
            | succ i =>
                exact ⟨i, z, at_i, fails, fun j earlier =>
                  before (j + 1) (Nat.succ_lt_succ earlier)⟩

/-! ## What is tried -/

/-- The elements of a list that are tried, up to the first that fails. -/
def visited (f : α → Except ε β) : List α → List α
  | [] => []
  | x :: xs =>
    match f x with
    | .ok _ => x :: visited f xs
    | .error _ => [x]

theorem visited_prefix (xs : List α) : visited f xs <+: xs := by
  induction xs with
  | nil => exact List.prefix_refl []
  | cons x xs ih =>
      rw [visited]
      split
      · exact List.prefix_cons_inj x |>.mpr ih
      · exact ⟨xs, rfl⟩

/-- All but the last that is tried succeed. -/
theorem succeeds_of_mem_dropLast {xs : List α} {x : α} (member : x ∈ (visited f xs).dropLast) :
    ∃ y, f x = .ok y := by
  induction xs with
  | nil => cases member
  | cons first xs ih =>
      rw [visited] at member
      split at member
      · rename_i y succeeds
        cases later : visited f xs with
        | nil =>
            rw [later] at member
            cases member
        | cons second others =>
            rw [later, List.dropLast_cons_cons, ← later] at member
            rcases List.mem_cons.mp member with rfl | behind
            · exact ⟨y, succeeds⟩
            · exact ih behind
      · cases member

/-- Tries a function on an element, which is noted. -/
def noted (f : α → Except ε β) (x : α) : ExceptT ε (StateM (List α)) β := do
  modify (· ++ [x])
  ExceptT.mk (pure (f x))

theorem run_noted_bind {γ : Type} (x : α) (next : β → ExceptT ε (StateM (List α)) γ)
    (before : List α) :
    (noted f x >>= next).run.run before =
      match f x with
      | .ok y => (next y).run.run (before ++ [x])
      | .error e => (.error e, before ++ [x]) := by
  show (ExceptT.bindCont next (f x)).run (before ++ [x]) = _
  cases f x <;> rfl

theorem run_map {σ γ δ : Type} (g : γ → δ) (part : ExceptT ε (StateM σ) γ) (before : σ) :
    (g <$> part).run.run before = ((part.run.run before).1.map g, (part.run.run before).2) := by
  have unfolded : (g <$> part).run.run before =
      (match (part.run.run before).1 with
        | .ok c => (pure (.ok (g c)) : StateM σ (Except ε δ))
        | .error e => pure (.error e)).run (part.run.run before).2 := rfl
  rw [unfolded]
  cases (part.run.run before).1 <;> rfl

/-- Noting what is tried changes nothing, and what is noted is visited. -/
theorem run_mapM_noted (xs : List α) (before : List α) :
    (xs.mapM (noted f)).run.run before = (xs.mapM f, before ++ visited f xs) := by
  induction xs generalizing before with
  | nil =>
      rw [visited, List.append_nil]
      rfl
  | cons x xs ih =>
      rw [visited, List.mapM_cons, run_noted_bind]
      cases tried : f x with
      | error e => rw [mapM_cons_of_error tried]
      | ok y =>
          dsimp only
          rw [mapM_cons_of_ok tried, bind_pure_comp, run_map, ih, List.append_assoc]
          rfl

end Tonegraph
