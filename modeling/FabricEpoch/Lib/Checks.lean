import Mathlib.Data.List.Basic

/-!
# Sequences of checks

Validators are written as a sequence of refusals, some of them inside loops
that collect keys to detect duplicates. This file says what such a validator
accepts:

- `bind_refuseIf`: a refusal followed by more checks accepts exactly when the
  refused condition is false and the rest accepts;
- `foldlM_insert_ok`: a loop that refuses a key it has already seen accepts
  exactly when each element passes its own checks and no key is seen twice.
-/

namespace Checks

variable {ε α σ κ : Type}

/-- Refuse with `e` when the condition holds. -/
def refuseIf (p : Prop) [Decidable p] (e : ε) : Except ε Unit :=
  if p then .error e else .ok ()

@[simp] theorem refuseIf_ok {p : Prop} [Decidable p] {e : ε} {u : Unit} :
    refuseIf p e = .ok u ↔ ¬ p := by
  unfold refuseIf
  split <;> simp_all

/-- A sequence accepts when both parts do. -/
theorem bind_ok {x : Except ε σ} {f : σ → Except ε α} {r : α} :
    (x >>= f) = .ok r ↔ ∃ s, x = .ok s ∧ f s = .ok r := by
  cases x with
  | error e => simp [bind, Except.bind]
  | ok s => simp [bind, Except.bind]

@[simp] theorem bind_refuseIf {p : Prop} [Decidable p] {e : ε} {f : Unit → Except ε α} {r : α} :
    (refuseIf p e >>= f) = .ok r ↔ ¬ p ∧ f () = .ok r := by
  rw [bind_ok]
  constructor
  · rintro ⟨u, hp, hf⟩
    exact ⟨refuseIf_ok.mp hp, hf⟩
  · rintro ⟨hp, hf⟩
    exact ⟨(), refuseIf_ok.mpr hp, hf⟩

@[simp] theorem pure_ok {x y : α} : (pure x : Except ε α) = .ok y ↔ y = x := by
  simp [pure, Except.pure, eq_comm]

theorem toOption_eq_some {x : Except ε α} {a : α} : x.toOption = some a ↔ x = .ok a := by
  cases x with
  | error e => simp [Except.toOption]
  | ok b => simp [Except.toOption]

/-- A last refusal before the result, in the form `simp` brings it to. -/
@[simp] theorem map_refuseIf {p : Prop} [Decidable p] {e : ε} {f : Unit → α} {r : α} :
    (f <$> refuseIf p e) = .ok r ↔ ¬ p ∧ r = f () := by
  unfold refuseIf
  split <;> simp_all [Functor.map, Except.map, eq_comm]

/-- A loop of checks without state. -/
def checkAll (check : α → Except ε Unit) : List α → Except ε Unit
  | [] => pure ()
  | a :: l => do
    check a
    checkAll check l

theorem checkAll_ok {check : α → Except ε Unit} {P : α → Prop}
    (h : ∀ a, check a = .ok () ↔ P a) {l : List α} :
    checkAll check l = .ok () ↔ ∀ a ∈ l, P a := by
  induction l with
  | nil => simp [checkAll]
  | cons a l ih =>
    rw [checkAll, bind_ok]
    simp [h, ih]

/-- A loop of checks that threads the keys seen so far. -/
def insertAll (step : List κ → α → Except ε (List κ)) : List κ → List α → Except ε (List κ)
  | seen, [] => pure seen
  | seen, a :: l => do
    let seen ← step seen a
    insertAll step seen l

/-- **Duplicate detection**: if each step checks its element and inserts keys
that are new, the loop accepts exactly the lists of good elements whose keys are
all different. -/
theorem insertAll_ok {step : List κ → α → Except ε (List κ)} {P : α → Prop}
    {k : α → List κ}
    (h : ∀ seen a out, seen.Nodup →
      (step seen a = .ok out ↔ P a ∧ out = seen ++ k a ∧ out.Nodup))
    {seen out : List κ} {l : List α} (hseen : seen.Nodup) :
    insertAll step seen l = .ok out ↔
      (∀ a ∈ l, P a) ∧ out = seen ++ l.flatMap k ∧ out.Nodup := by
  induction l generalizing seen with
  | nil =>
    rw [insertAll, pure_ok, List.flatMap_nil, List.append_nil]
    constructor
    · intro heq
      refine ⟨fun _ h => ?_, heq, heq ▸ hseen⟩
      cases h
    · rintro ⟨-, heq, -⟩
      exact heq
  | cons a l ih =>
    rw [insertAll, bind_ok]
    constructor
    · rintro ⟨s, hs, hl⟩
      obtain ⟨hP, rfl, hn⟩ := (h seen a s hseen).mp hs
      obtain ⟨hall, rfl, hout⟩ := (ih hn).mp hl
      refine ⟨fun b hb => ?_, by simp, hout⟩
      rcases List.mem_cons.mp hb with rfl | hb
      · exact hP
      · exact hall b hb
    · rintro ⟨hall, rfl, hout⟩
      have hcat : seen ++ (a :: l).flatMap k = (seen ++ k a) ++ l.flatMap k := by simp
      rw [hcat] at hout
      have hn : (seen ++ k a).Nodup := hout.sublist (List.sublist_append_left _ _)
      refine ⟨seen ++ k a, (h seen a _ hseen).mpr ⟨hall a (List.mem_cons_self ..), rfl, hn⟩, ?_⟩
      rw [ih hn]
      exact ⟨fun b hb => hall b (List.mem_cons_of_mem _ hb), hcat, hcat ▸ hout⟩

/-- The usual step: the element's own checks, then one key. -/
theorem insertAll_key_ok {step : List κ → α → Except ε (List κ)} {P : α → Prop} {key : α → κ}
    (h : ∀ seen a out, step seen a = .ok out ↔ P a ∧ key a ∉ seen ∧ out = seen ++ [key a])
    {out : List κ} {l : List α} :
    insertAll step [] l = .ok out ↔
      (∀ a ∈ l, P a) ∧ out = l.map key ∧ (l.map key).Nodup := by
  rw [insertAll_ok (P := P) (k := fun a => [key a]) ?_ List.nodup_nil, List.nil_append,
    ← List.map_eq_flatMap]
  · constructor
    · rintro ⟨hP, rfl, hn⟩
      exact ⟨hP, rfl, hn⟩
    · rintro ⟨hP, rfl, hn⟩
      exact ⟨hP, rfl, hn⟩
  · intro seen a out hseen
    rw [h]
    constructor
    · rintro ⟨hP, hk, rfl⟩
      refine ⟨hP, rfl, List.nodup_append.mpr ⟨hseen, by simp, ?_⟩⟩
      rintro b hb c hc rfl
      exact hk (List.mem_singleton.mp hc ▸ hb)
    · rintro ⟨hP, rfl, hn⟩
      refine ⟨hP, fun hk => ?_, rfl⟩
      exact (List.nodup_append.mp hn).2.2 _ hk _ (List.mem_singleton_self _) rfl

/-- The keys of a duplicate-detecting loop are often not looked at again. -/
theorem insertAll_key_accepts {step : List κ → α → Except ε (List κ)} {P : α → Prop}
    {key : α → κ}
    (h : ∀ seen a out, step seen a = .ok out ↔ P a ∧ key a ∉ seen ∧ out = seen ++ [key a])
    {l : List α} :
    (∃ out, insertAll step [] l = .ok out) ↔ (∀ a ∈ l, P a) ∧ (l.map key).Nodup := by
  simp only [insertAll_key_ok h]
  constructor
  · rintro ⟨out, hP, -, hn⟩
    exact ⟨hP, hn⟩
  · rintro ⟨hP, hn⟩
    exact ⟨_, hP, rfl, hn⟩

/-- A result that is not looked at again. -/
theorem bind_discard {x : Except ε σ} {y : Except ε α} {r : α} :
    (x >>= fun _ => y) = .ok r ↔ (∃ s, x = .ok s) ∧ y = .ok r := by
  rw [bind_ok, exists_and_right]

end Checks
