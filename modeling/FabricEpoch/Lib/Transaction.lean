import Mathlib.Data.List.Basic

/-!
# Transactions with an undo log

Code that mutates a state in place and registers an undo action beside each
mutation, so that a failure later on can be rolled back. A `Txn` is the state
together with the undo actions registered so far, the latest first, and a flag
that says whether anything has to be made durable; an `Action` is a step of such
code and returns or throws.

- `Action.bind_ok`, `Action.bind_error`: sequences taken apart;
- `Keeps I x`: an action preserves `I` whether it returns or throws, with the
  rules that follow the structure of the code;
- `Txn.rollback`: run the undo actions. Whether that restores the state is up to
  the actions; `Guarded.rollback` says what survives in any case, and
  `Restores view x t` that the undo actions lead back to what looked like `x`.
-/

namespace Transaction

variable {σ ε α β : Type}

/-- A state under mutation, its undo log, latest action first, and whether the
mutation has to be made durable. -/
structure Txn (σ : Type) where
  state : σ
  undo : List (σ → σ)
  mutated : Bool

/-- A transaction that has done nothing. -/
def Txn.start (s : σ) : Txn σ := ⟨s, [], false⟩

/-- Run the undo actions, latest first. -/
def Txn.rollback (t : Txn σ) : σ := t.undo.foldl (fun s f => f s) t.state

/-- The transaction behind a mutation. -/
def Txn.apply (f : σ → σ) (t : Txn σ) : Txn σ := { t with state := f t.state }

/-- The transaction behind the registration of an undo action. -/
def Txn.onUndo (f : σ → σ) (t : Txn σ) : Txn σ := { t with undo := f :: t.undo }

/-- The transaction that has something to make durable. -/
def Txn.marked (t : Txn σ) : Txn σ := { t with mutated := true }

/-- A step of transactional code. -/
abbrev Action (σ ε α : Type) := EStateM ε (Txn σ) α

namespace Action

/-- Read the state. -/
def current : Action σ ε σ := fun t => .ok t.state t

/-- Mutate the state. -/
def modify (f : σ → σ) : Action σ ε Unit := fun t => .ok () { t with state := f t.state }

/-- Register an undo action. -/
def pushUndo (f : σ → σ) : Action σ ε Unit := fun t => .ok () { t with undo := f :: t.undo }

/-- Ask for the mutation to be made durable. -/
def markMutated : Action σ ε Unit := fun t => .ok () { t with mutated := true }

/-- Throw. -/
def fail (e : ε) : Action σ ε α := fun t => .error e t

/-- The value of an option, or throw. -/
def orFail (o : Option α) (e : ε) : Action σ ε α :=
  match o with
  | some a => pure a
  | none => fail e

/-- The value of a computation that does not touch the state, or throw. -/
def ofExcept (x : Except ε α) : Action σ ε α :=
  match x with
  | .ok a => pure a
  | .error e => fail e

/-- Whether anything has to be made durable so far. -/
def hasMutated : Action σ ε Bool := fun t => .ok t.mutated t

/-! ## Running -/

@[simp] theorem pure_run (a : α) (t : Txn σ) : (pure a : Action σ ε α) t = .ok a t := rfl

@[simp] theorem current_run (t : Txn σ) : (current : Action σ ε σ) t = .ok t.state t := rfl

@[simp] theorem modify_run (f : σ → σ) (t : Txn σ) :
    (modify f : Action σ ε Unit) t = .ok () { t with state := f t.state } := rfl

@[simp] theorem pushUndo_run (f : σ → σ) (t : Txn σ) :
    (pushUndo f : Action σ ε Unit) t = .ok () { t with undo := f :: t.undo } := rfl

@[simp] theorem markMutated_run (t : Txn σ) :
    (markMutated : Action σ ε Unit) t = .ok () { t with mutated := true } := rfl

@[simp] theorem fail_run (e : ε) (t : Txn σ) : (fail e : Action σ ε α) t = .error e t := rfl

theorem bind_run (x : Action σ ε α) (f : α → Action σ ε β) (t : Txn σ) :
    (x >>= f) t = match x t with
      | .ok a t' => f a t'
      | .error e t' => .error e t' := by
  show EStateM.bind x f t = _
  unfold EStateM.bind
  cases x t <;> rfl

@[simp] theorem bind_current (f : σ → Action σ ε β) (t : Txn σ) :
    (current >>= f) t = f t.state t := rfl

@[simp] theorem bind_modify (g : σ → σ) (f : Unit → Action σ ε β) (t : Txn σ) :
    (modify g >>= f) t = f () { t with state := g t.state } := rfl

@[simp] theorem bind_pushUndo (g : σ → σ) (f : Unit → Action σ ε β) (t : Txn σ) :
    (pushUndo g >>= f) t = f () { t with undo := g :: t.undo } := rfl

@[simp] theorem bind_markMutated (f : Unit → Action σ ε β) (t : Txn σ) :
    (markMutated >>= f) t = f () { t with mutated := true } := rfl

theorem bind_ofExcept (a : β) (f : β → Action σ ε α) (t : Txn σ) :
    (ofExcept (.ok a) >>= f) t = f a t := rfl

@[simp] theorem bind_orFail_some (a : β) (e : ε) (f : β → Action σ ε α) (t : Txn σ) :
    (orFail (some a) e >>= f) t = f a t := rfl

theorem bind_ok {x : Action σ ε α} {f : α → Action σ ε β} {t u : Txn σ} {b : β} :
    (x >>= f) t = .ok b u ↔ ∃ a t', x t = .ok a t' ∧ f a t' = .ok b u := by
  rw [bind_run]
  cases x t with
  | ok a t' => simp
  | error e t' => simp

theorem bind_error {x : Action σ ε α} {f : α → Action σ ε β} {t u : Txn σ} {e : ε} :
    (x >>= f) t = .error e u ↔
      x t = .error e u ∨ ∃ a t', x t = .ok a t' ∧ f a t' = .error e u := by
  rw [bind_run]
  cases x t with
  | ok a t' => simp
  | error e t' => simp

theorem pure_ok {a b : α} {t u : Txn σ} :
    (pure a : Action σ ε α) t = .ok b u ↔ b = a ∧ u = t := by
  simp [eq_comm]

theorem orFail_ok {o : Option α} {e : ε} {t u : Txn σ} {a : α} :
    (orFail o e : Action σ ε α) t = .ok a u ↔ o = some a ∧ u = t := by
  cases o with
  | none => simp [orFail]
  | some b => simp [orFail, eq_comm]

theorem orFail_error {o : Option α} {e e' : ε} {t u : Txn σ} :
    (orFail o e : Action σ ε α) t = .error e' u ↔ o = none ∧ e' = e ∧ u = t := by
  cases o with
  | none => simp [orFail, eq_comm]
  | some b => simp [orFail]

theorem ofExcept_ok {x : Except ε α} {t u : Txn σ} {a : α} :
    (ofExcept x : Action σ ε α) t = .ok a u ↔ x = .ok a ∧ u = t := by
  cases x with
  | error e => simp [ofExcept]
  | ok b => simp [ofExcept, eq_comm]

theorem ofExcept_error {x : Except ε α} {e : ε} {t u : Txn σ} :
    (ofExcept x : Action σ ε α) t = .error e u ↔ x = .error e ∧ u = t := by
  cases x with
  | error e => simp [ofExcept, eq_comm]
  | ok b => simp [ofExcept]

@[simp] theorem bind_hasMutated (f : Bool → Action σ ε β) (t : Txn σ) :
    (hasMutated >>= f) t = f t.mutated t := rfl

end Action

/-! ## What an action keeps -/

/-- The transaction a run of an action ends in, returned or thrown. -/
def after (r : EStateM.Result ε (Txn σ) α) : Txn σ :=
  match r with
  | .ok _ t => t
  | .error _ t => t

/-- Whether it returns or throws, the action preserves `I`. -/
def Keeps (I : Txn σ → Prop) (x : Action σ ε α) : Prop := ∀ t, I t → I (after (x t))

namespace Keeps

variable {I : Txn σ → Prop} {x : Action σ ε α} {f : α → Action σ ε β}

theorem pure (a : α) : Keeps I (Pure.pure a : Action σ ε α) := fun _ h => h

theorem fail (e : ε) : Keeps I (Action.fail e : Action σ ε α) := fun _ h => h

theorem orFail (o : Option α) (e : ε) : Keeps I (Action.orFail o e : Action σ ε α) := by
  cases o with
  | none => exact fail e
  | some a => exact pure a

theorem ofExcept (y : Except ε α) : Keeps I (Action.ofExcept y : Action σ ε α) := by
  cases y with
  | error e => exact fail e
  | ok a => exact pure a

theorem hasMutated : Keeps I (Action.hasMutated : Action σ ε Bool) := fun _ h => h

/-- The rule for a sequence, at one transaction. -/
theorem bind_at {t : Txn σ} (hx : I (after (x t))) (hf : ∀ a, Keeps I (f a)) :
    I (after ((x >>= f) t)) := by
  rw [Action.bind_run]
  cases hr : x t with
  | ok a t' =>
    rw [hr] at hx
    exact hf a t' hx
  | error e t' =>
    rw [hr] at hx
    exact hx

theorem bind (hx : Keeps I x) (hf : ∀ a, Keeps I (f a)) : Keeps I (x >>= f) :=
  fun t ht => bind_at (hx t ht) hf

/-- A pure computation in front leaves the state as it was read. -/
theorem ofExcept_bind {y : Except ε β} {g : β → Action σ ε α} {t : Txn σ} (ht : I t)
    (h : ∀ b, y = .ok b → I (after (g b t))) : I (after ((Action.ofExcept y >>= g) t)) := by
  cases y with
  | error e => exact ht
  | ok b => exact h b rfl

/-- The value of an option in front is there, or it throws. -/
theorem orFail_bind {o : Option β} {e : ε} {g : β → Action σ ε α}
    (h : ∀ b, o = some b → Keeps I (g b)) : Keeps I (Action.orFail o e >>= g) := by
  cases o with
  | none => exact fail e
  | some b => exact h b rfl

theorem read : Keeps I (Action.current : Action σ ε σ) := fun _ h => h

/-- The continuation may use what the state was read to be. -/
theorem current {f : σ → Action σ ε β} (h : ∀ t, I t → I (after (f t.state t))) :
    Keeps I (Action.current >>= f) :=
  h

theorem modify {g : σ → σ} (h : ∀ t, I t → I { t with state := g t.state }) :
    Keeps I (Action.modify g : Action σ ε Unit) :=
  h

theorem pushUndo {g : σ → σ} (h : ∀ t, I t → I { t with undo := g :: t.undo }) :
    Keeps I (Action.pushUndo g : Action σ ε Unit) :=
  h

theorem ite {p : Prop} [Decidable p] {y : Action σ ε α} (hx : p → Keeps I x)
    (hy : ¬ p → Keeps I y) : Keeps I (if p then x else y) := by
  by_cases h : p
  · rw [if_pos h]
    exact hx h
  · rw [if_neg h]
    exact hy h

end Keeps

/-! ## Invariants that survive a rollback -/

/-- `P` holds of the state and every registered undo action preserves it. -/
structure Guarded (P : σ → Prop) (t : Txn σ) : Prop where
  state : P t.state
  undo : ∀ f ∈ t.undo, ∀ s, P s → P (f s)

theorem Guarded.start {P : σ → Prop} {s : σ} (h : P s) : Guarded P (Txn.start s) :=
  ⟨h, fun _ hf => nomatch hf⟩

/-- **A guarded invariant survives the rollback.** -/
theorem Guarded.rollback {P : σ → Prop} {t : Txn σ} (h : Guarded P t) : P t.rollback := by
  obtain ⟨s, undo⟩ := t
  obtain ⟨hs, hundo⟩ := h
  unfold Txn.rollback
  simp only at hs hundo ⊢
  induction undo generalizing s with
  | nil => exact hs
  | cons f fs ih =>
    exact ih (f s) (hundo f (List.mem_cons_self ..) s hs)
      fun g hg => hundo g (List.mem_cons_of_mem _ hg)

theorem Guarded.apply {P : σ → Prop} {t : Txn σ} {f : σ → σ} (h : Guarded P t)
    (hf : P t.state → P (f t.state)) : Guarded P (t.apply f) :=
  ⟨hf h.state, h.undo⟩

theorem Guarded.onUndo {P : σ → Prop} {t : Txn σ} {f : σ → σ} (h : Guarded P t)
    (hf : ∀ s, P s → P (f s)) : Guarded P (t.onUndo f) := by
  refine ⟨h.state, fun g hg => ?_⟩
  rcases List.mem_cons.mp hg with rfl | hg
  · exact hf
  · exact h.undo g hg

theorem Guarded.modify {P : σ → Prop} {g : σ → σ} (h : ∀ s, P s → P (g s)) :
    Keeps (Guarded P) (Action.modify g : Action σ ε Unit) :=
  fun _ ht => ⟨h _ ht.state, ht.undo⟩

theorem Guarded.markMutated {P : σ → Prop} :
    Keeps (Guarded P) (Action.markMutated : Action σ ε Unit) :=
  fun _ ht => ⟨ht.state, ht.undo⟩

theorem Guarded.pushUndo {P : σ → Prop} {g : σ → σ} (h : ∀ s, P s → P (g s)) :
    Keeps (Guarded P) (Action.pushUndo g : Action σ ε Unit) :=
  fun _ ht => ht.onUndo h

/-! ## What no undo action takes back -/

/-- Every undo action registered so far preserves `P`, whether it holds or not. -/
def UndoKeeps (P : σ → Prop) (t : Txn σ) : Prop := ∀ f ∈ t.undo, ∀ s, P s → P (f s)

namespace UndoKeeps

variable {P : σ → Prop} {t : Txn σ}

theorem start (s : σ) : UndoKeeps P (Txn.start s) := fun _ hf => nomatch hf

/-- What holds in the end has been guarded all along. -/
theorem guarded (h : UndoKeeps P t) (hs : P t.state) : Guarded P t := ⟨hs, h⟩

theorem push (h : UndoKeeps P t) {g : σ → σ} (hg : ∀ s, P s → P (g s)) (s : σ) (m : Bool) :
    UndoKeeps P ⟨s, g :: t.undo, m⟩ := by
  intro f hf
  rcases List.mem_cons.mp hf with rfl | hf
  · exact hg
  · exact h f hf

theorem modify (g : σ → σ) : Keeps (UndoKeeps P) (Action.modify g : Action σ ε Unit) :=
  fun _ ht => ht

theorem markMutated : Keeps (UndoKeeps P) (Action.markMutated : Action σ ε Unit) := fun _ ht => ht

theorem pushUndo {g : σ → σ} (hg : ∀ s, P s → P (g s)) :
    Keeps (UndoKeeps P) (Action.pushUndo g : Action σ ε Unit) :=
  fun t ht => ht.push hg t.state t.mutated

/-- What an action that returns leaves behind. -/
theorem of_run {x : Action σ ε α} (hx : Keeps (UndoKeeps P) x) (ht : UndoKeeps P t) {a : α}
    {u : Txn σ} (h : x t = .ok a u) : UndoKeeps P u := by
  have hkept := hx t ht
  rw [h] at hkept
  exact hkept

end UndoKeeps

/-! ## Rollbacks that restore a view -/

section Restores

variable {view : σ → β} {x : β} {t t' : Txn σ}

/-- From any state that looks like this one, the undo actions lead back to what
looked like `x`. -/
def Restores (view : σ → β) (x : β) (t : Txn σ) : Prop :=
  ∀ s, view s = view t.state → view (t.undo.foldl (fun s f => f s) s) = x

theorem Restores.start (s : σ) : Restores view (view s) (Txn.start s) := fun _ h => h

theorem Restores.rollback (h : Restores view x t) : view t.rollback = x := h t.state rfl

/-- A mutation and the undo action that belongs to it. -/
theorem Restores.push (h : Restores view x t) {f : σ → σ}
    (hf : ∀ s, view s = view t'.state → view (f s) = view t.state)
    (hundo : t'.undo = f :: t.undo) : Restores view x t' := by
  intro s hs
  rw [hundo, List.foldl_cons]
  exact h (f s) (hf s hs)

/-- A mutation that cannot be seen needs no undo action. -/
theorem Restores.same (h : Restores view x t) (hview : view t'.state = view t.state)
    (hundo : t'.undo = t.undo) : Restores view x t' := by
  intro s hs
  rw [hundo]
  exact h s (hs.trans hview)

theorem Restores.modify {g : σ → σ} (hg : ∀ s, view (g s) = view s) :
    Keeps (Restores view x) (Action.modify g : Action σ ε Unit) :=
  fun _ ht => ht.same (hg _) rfl

theorem Restores.pushUndo {g : σ → σ} (hg : ∀ s, view (g s) = view s) :
    Keeps (Restores view x) (Action.pushUndo g : Action σ ε Unit) :=
  fun _ ht => ht.push (fun s hs => (hg s).trans hs) rfl

theorem Restores.markMutated :
    Keeps (Restores view x) (Action.markMutated : Action σ ε Unit) := fun _ ht => ht.same rfl rfl

end Restores

end Transaction
