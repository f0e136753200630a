import FabricEpoch.Lib.Machine

/-!
# Accounts

A machine accounts for another one when every run of the second can be told as a
run of the first: each step stands for a few steps of the other machine, possibly
none, and what was put out is told by what they put out.

- `Machine.history`: the inputs of a run with their outputs (`allows_history`);
- `Accounts`: a history, step by step, as another one;
- `Simulation`: what one step has to show;
- `Simulation.run`: what follows of every run.
-/

universe u v

namespace Machine

variable {σ τ : Type u} {ι κ ο π : Type v}

/-- The inputs, each with what it was answered. -/
def history (M : Machine σ ι ο) (s : σ) : List ι → List (ι × ο)
  | [] => []
  | i :: is => (i, (M.step s i).2) :: history M (M.step s i).1 is

theorem history_append (M : Machine σ ι ο) (s : σ) (is js : List ι) :
    M.history s (is ++ js) = M.history s is ++ M.history (M.run s is) js := by
  induction is generalizing s with
  | nil => rfl
  | cons i is ih => exact congrArg (_ :: ·) (ih _)

theorem run_append (M : Machine σ ι ο) (s : σ) (is js : List ι) :
    M.run s (is ++ js) = M.run (M.run s is) js := by
  induction is generalizing s with
  | nil => rfl
  | cons i is ih => exact ih _

/-- A condition on the inputs and their answers, along a run. -/
theorem allows_history {M : Machine σ ι ο} {P : ι × ο → Prop} {s : σ} {is : List ι} :
    M.Allows (fun s i => P (i, (M.step s i).2)) s is ↔ ∀ x ∈ M.history s is, P x := by
  induction is generalizing s with
  | nil =>
    constructor
    · intro _ x hx
      cases hx
    · intro _
      trivial
  | cons i is ih =>
    show P _ ∧ M.Allows _ _ is ↔ ∀ x ∈ (i, (M.step s i).2) :: M.history (M.step s i).1 is, P x
    rw [ih, List.forall_mem_cons]

end Machine

section Accounts

variable {ι κ ο π : Type v}

/-- A history told as another one: each of its steps stands for a few steps of
the other. -/
inductive Accounts (Told : ι → ο → List (κ × π) → Prop) : List (ι × ο) → List (κ × π) → Prop
  | nil : Accounts Told [] []
  | cons {i : ι} {o : ο} {steps : List (κ × π)} {events : List (ι × ο)} {rest : List (κ × π)}
      (told : Told i o steps) (others : Accounts Told events rest) :
      Accounts Told ((i, o) :: events) (steps ++ rest)

variable {Told : ι → ο → List (κ × π) → Prop} {events : List (ι × ο)} {steps : List (κ × π)}

/-- What every event tells of its own steps in order, the whole history tells in
order. -/
theorem Accounts.sublist {α : Type v} {f : ι × ο → List α} {g : κ × π → List α}
    (htold : ∀ i o steps, Told i o steps → (f (i, o)).Sublist (steps.flatMap g))
    (h : Accounts Told events steps) : (events.flatMap f).Sublist (steps.flatMap g) := by
  induction h with
  | nil => exact List.Sublist.refl _
  | @cons i o steps events rest told others ih =>
    rw [List.flatMap_cons, List.flatMap_append]
    exact (htold i o steps told).append ih

/-- A step that is part of an account is part of what one event stands for. -/
theorem Accounts.mem (h : Accounts Told events steps) {step : κ × π} (hmem : step ∈ steps) :
    ∃ i o told, (i, o) ∈ events ∧ Told i o told ∧ step ∈ told := by
  induction h with
  | nil => cases hmem
  | @cons i o steps events rest told others ih =>
    rcases List.mem_append.mp hmem with hfirst | hrest
    · exact ⟨i, o, steps, List.mem_cons_self .., told, hfirst⟩
    · obtain ⟨j, p, list, hin, htold, hstep⟩ := ih hrest
      exact ⟨j, p, list, List.mem_cons_of_mem _ hin, htold, hstep⟩

end Accounts

namespace Machine

variable {σ τ : Type u} {ι κ ο π : Type v}

/-- `N` accounts for `M`: from related states, a step of `M` stands for inputs of
`N` that lead to related states again. -/
structure Simulation (M : Machine σ ι ο) (N : Machine τ κ π) (R : σ → τ → Prop)
    (ok : κ → Prop) (Told : ι → ο → List (κ × π) → Prop) : Prop where
  step : ∀ s t i, R s t → ∃ js, (∀ j ∈ js, ok j) ∧ R (M.step s i).1 (N.run t js) ∧
    Told i (M.step s i).2 (N.history t js)

/-- **Every run is accounted for.** -/
theorem Simulation.run {M : Machine σ ι ο} {N : Machine τ κ π} {R : σ → τ → Prop} {ok : κ → Prop}
    {Told : ι → ο → List (κ × π) → Prop} (h : Simulation M N R ok Told) {s : σ} {t : τ}
    (hR : R s t) (is : List ι) : ∃ js, (∀ j ∈ js, ok j) ∧ R (M.run s is) (N.run t js) ∧
      Accounts Told (M.history s is) (N.history t js) := by
  induction is generalizing s t with
  | nil => exact ⟨[], by simp, hR, .nil⟩
  | cons i is ih =>
    obtain ⟨js, hjs, hfirst, htold⟩ := h.step s t i hR
    obtain ⟨ks, hks, hrest, hothers⟩ := ih hfirst
    refine ⟨js ++ ks, ?_, ?_, ?_⟩
    · intro j hj
      rcases List.mem_append.mp hj with hj | hj
      · exact hjs j hj
      · exact hks j hj
    · rw [run_append]
      exact hrest
    · rw [history_append]
      exact .cons htold hothers

end Machine
