import Mathlib.Logic.Relation

/-!
# Machines and their runs

A deterministic machine takes an input and gives an output. A *run* is a chain
of steps whose inputs all meet a condition on the state they are taken in; the
condition says which inputs the environment may offer (no failing device, no
output that is an exception, ...), so a theorem about all runs can name it.

- `Machine.Leads ok s s'`: a run from `s` to `s'`;
- `Machine.Reaches ok s`: a run from the initial state;
- `Machine.run s is`: the state the inputs `is` lead to (`leads_run`,
  `reaches_run`);
- `Machine.trace s is`: the steps on the way, and `traced`, the invariant rule for
  what they add up to;
- `Reaches.invariant`, `Leads.invariant`: what one step preserves, a run
  preserves;
- `Leads.monotone`: what one step only increases, a run only increases.
-/

universe u v w

/-- A deterministic machine with outputs. -/
structure Machine (σ : Type u) (ι : Type v) (ο : Type w) where
  init : σ
  step : σ → ι → σ × ο

namespace Machine

variable {σ : Type u} {ι : Type v} {ο : Type w}

section Runs

variable (M : Machine σ ι ο) (ok : σ → ι → Prop)

/-- A run from `s` whose steps all meet `ok`. -/
inductive Leads (s : σ) : σ → Prop
  | refl : Leads s s
  | tail {t : σ} (i : ι) : Leads s t → ok t i → Leads s (M.step t i).1

/-- A run from the initial state. -/
def Reaches (s : σ) : Prop := M.Leads ok M.init s

/-- The state a sequence of inputs leads to. -/
def run (s : σ) : List ι → σ
  | [] => s
  | i :: is => run (M.step s i).1 is

/-- The steps on the way: the state in front, the input, and the output. -/
def trace (s : σ) : List ι → List (σ × ι × ο)
  | [] => []
  | i :: is => (s, i, (M.step s i).2) :: trace (M.step s i).1 is

/-- Each input of the sequence is allowed where it is taken. -/
def Allows (s : σ) : List ι → Prop
  | [] => True
  | i :: is => ok s i ∧ Allows (M.step s i).1 is

/-- What is allowed can be evaluated. -/
def decideAllows [∀ s i, Decidable (ok s i)] : (s : σ) → (is : List ι) → Decidable (Allows M ok s is)
  | _, [] => isTrue trivial
  | s, i :: is =>
    have := decideAllows (M.step s i).1 is
    inferInstanceAs (Decidable (ok s i ∧ Allows M ok (M.step s i).1 is))

instance [∀ s i, Decidable (ok s i)] (s : σ) (is : List ι) : Decidable (Allows M ok s is) :=
  decideAllows M ok s is

end Runs

variable {M : Machine σ ι ο} {ok ok' : σ → ι → Prop}

theorem Leads.trans {s t u : σ} (h₁ : M.Leads ok s t) (h₂ : M.Leads ok t u) :
    M.Leads ok s u := by
  induction h₂ with
  | refl => exact h₁
  | tail i _ hok ih => exact ih.tail i hok

theorem Reaches.trans {s t : σ} (h₁ : M.Reaches ok s) (h₂ : M.Leads ok s t) : M.Reaches ok t :=
  Leads.trans h₁ h₂

theorem leads_run {s : σ} {is : List ι} (h : M.Allows ok s is) : M.Leads ok s (M.run s is) := by
  induction is generalizing s with
  | nil => exact .refl
  | cons i is ih => exact Leads.trans (.tail i .refl h.1) (ih h.2)

/-- Without a condition every sequence of inputs is a run. -/
theorem reaches_run (is : List ι) : M.Reaches (fun _ _ => True) (M.run M.init is) := by
  refine leads_run ?_
  generalize M.init = s
  induction is generalizing s with
  | nil => trivial
  | cons i is ih => exact ⟨trivial, ih _⟩

/-- A weaker condition allows more runs. -/
theorem Leads.mono (h : ∀ s i, ok s i → ok' s i) {s t : σ} (hr : M.Leads ok s t) :
    M.Leads ok' s t := by
  induction hr with
  | refl => exact .refl
  | tail i _ hok ih => exact ih.tail i (h _ _ hok)

/-- **Invariant rule** along a run. -/
theorem Leads.invariant {I : σ → Prop} (hstep : ∀ s i, I s → ok s i → I (M.step s i).1)
    {s t : σ} (h : M.Leads ok s t) (hs : I s) : I t := by
  induction h with
  | refl => exact hs
  | tail i _ hok ih => exact hstep _ i ih hok

/-- **Invariant rule** from the initial state. -/
theorem Reaches.invariant {I : σ → Prop} (hinit : I M.init)
    (hstep : ∀ s i, I s → ok s i → I (M.step s i).1) {s : σ} (h : M.Reaches ok s) : I s :=
  Leads.invariant hstep h hinit

/-- An invariant may be used to establish the next one. -/
theorem Leads.invariant_of {I J : σ → Prop} (hI : ∀ s i, I s → ok s i → I (M.step s i).1)
    (hJ : ∀ s i, I s → J s → ok s i → J (M.step s i).1) {s t : σ} (h : M.Leads ok s t)
    (hIs : I s) (hJs : J s) : J t :=
  (h.invariant (I := fun s => I s ∧ J s)
    (fun s i hs hok => ⟨hI s i hs.1 hok, hJ s i hs.1 hs.2 hok⟩) ⟨hIs, hJs⟩).2

/-- What one step only increases, a run only increases. -/
theorem Leads.monotone {I : σ → Prop} {R : σ → σ → Prop} (hrefl : ∀ s, R s s)
    (htrans : ∀ {s t u}, R s t → R t u → R s u)
    (hI : ∀ s i, I s → ok s i → I (M.step s i).1)
    (hR : ∀ s i, I s → ok s i → R s (M.step s i).1) {s t : σ} (h : M.Leads ok s t) (hs : I s) :
    R s t := by
  induction h with
  | refl => exact hrefl s
  | tail i hst hok ih => exact htrans ih (hR _ i (hst.invariant hI hs) hok)

/-! ## Histories -/

/-- **Invariant rule** for the steps of a run and the state they lead to: each
step adds itself to a history that is fit for its state. -/
theorem traced_of {H : List (σ × ι × ο) → σ → Prop}
    (hstep : ∀ T s i, H T s → ok s i → H (T ++ [(s, i, (M.step s i).2)]) (M.step s i).1)
    {T : List (σ × ι × ο)} {s : σ} (hs : H T s) {is : List ι} (h : M.Allows ok s is) :
    H (T ++ M.trace s is) (M.run s is) := by
  induction is generalizing T s with
  | nil =>
    rw [trace, List.append_nil]
    exact hs
  | cons i is ih =>
    have hrest := ih (hstep T s i hs h.1) h.2
    rw [List.append_assoc] at hrest
    exact hrest

theorem traced {H : List (σ × ι × ο) → σ → Prop}
    (hstep : ∀ T s i, H T s → ok s i → H (T ++ [(s, i, (M.step s i).2)]) (M.step s i).1)
    {s : σ} (hs : H [] s) {is : List ι} (h : M.Allows ok s is) : H (M.trace s is) (M.run s is) :=
  traced_of hstep hs h

end Machine
