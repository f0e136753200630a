import Mathlib.Data.List.Nodup
import Mathlib.Logic.Function.Basic

/-!
# Numbered tokens

A service issues tokens to the sites that act for a party. The tokens of a party
are numbered in the order they are issued. A site loses its token when it is
withdrawn, and every site loses its token when a term ends.

- `Tokens`: what the service keeps; `Tokens.Act`, `Tokens.Runs`: what it does;
- `Runs.numbers`: the numbers a party is issued are consecutive, so no number is
  ever issued twice;
- `Runs.lawful`: no two sites of a party hold the same number;
- `Runs.held`: what is held was held before, or has been issued since to the
  very site that holds it;
- `Runs.spent`: a number that was issued and is not held is never held again;
- `Runs.term_spends`: a later term has spent what an earlier one issued.
-/

universe u v

/-- What a token service keeps: the term, the next number of each party, who
holds which number, and the parties that are issued no more. -/
@[ext] structure Tokens (κ : Type u) (β : Type v) where
  term : Nat
  next : κ → Nat
  holds : κ → β → Option Nat
  closed : κ → Prop

namespace Tokens

variable {κ : Type u} {β : Type v}

/-- A token, with the site it is issued to. -/
structure Token (κ : Type u) (β : Type v) where
  party : κ
  site : β
  number : Nat

/-- What a token service does. -/
inductive Act (κ : Type u) (β : Type v)
  /-- The next token of a party goes to a site that holds none. -/
  | issue (token : Token κ β)
  | withdraw (party : κ) (site : β)
  /-- No more tokens for the party. -/
  | close (party : κ)
  /-- The first term begins; nothing is lost. -/
  | found
  /-- The next term begins. -/
  | turn

/-- The tokens that a sequence of acts issues, in order. -/
def issued : List (Act κ β) → List (Token κ β)
  | [] => []
  | .issue token :: acts => token :: issued acts
  | _ :: acts => issued acts

theorem issued_append (acts acts' : List (Act κ β)) :
    issued (acts ++ acts') = issued acts ++ issued acts' := by
  induction acts with
  | nil => rfl
  | cons a acts ih =>
    cases a with
    | issue token => exact congrArg (token :: ·) ih
    | _ => exact ih

section Runs

variable [DecidableEq κ] [DecidableEq β]

/-- The service behind an act. -/
def after (s : Tokens κ β) : Act κ β → Tokens κ β
  | .issue token => { s with
      next := Function.update s.next token.party (token.number + 1)
      holds := Function.update s.holds token.party
        (Function.update (s.holds token.party) token.site (some token.number)) }
  | .withdraw party site => { s with
      holds := Function.update s.holds party (Function.update (s.holds party) site none) }
  | .close party => { s with closed := Function.update s.closed party True }
  | .found => { s with term := 1 }
  | .turn => { s with term := s.term + 1, holds := fun _ _ => none }

/-- When the service may do it. -/
def Enabled (s : Tokens κ β) : Act κ β → Prop
  | .issue token => token.number = s.next token.party ∧ ¬ s.closed token.party ∧
      s.holds token.party token.site = none
  | .withdraw party site => s.holds party site ≠ none
  | .close _ => True
  | .found => s.term = 0
  | .turn => True

/-- A run of the service. -/
inductive Runs : Tokens κ β → List (Act κ β) → Tokens κ β → Prop
  | nil (s : Tokens κ β) : Runs s [] s
  | cons {s s' : Tokens κ β} {a : Act κ β} {acts : List (Act κ β)} (enabled : s.Enabled a)
      (rest : Runs (s.after a) acts s') : Runs s (a :: acts) s'

namespace Runs

variable {s s' s'' : Tokens κ β} {acts acts' : List (Act κ β)}

theorem single {a : Act κ β} (h : s.Enabled a) : Runs s [a] (s.after a) := .cons h (.nil _)

theorem append (h : Runs s acts s') (h' : Runs s' acts' s'') : Runs s (acts ++ acts') s'' := by
  induction h with
  | nil => exact h'
  | cons enabled _ ih => exact .cons enabled (ih h')

end Runs

/-! ## Laws of one act -/

/-- The numbers that are held were issued, and no two sites of a party hold the
same one. -/
structure Lawful (s : Tokens κ β) : Prop where
  below : ∀ k b n, s.holds k b = some n → n < s.next k
  unique : ∀ k b b' n, s.holds k b = some n → s.holds k b' = some n → b = b'

/-- The number was issued, and no site holds it. -/
def Spent (s : Tokens κ β) (k : κ) (n : Nat) : Prop :=
  n < s.next k ∧ ∀ b, s.holds k b ≠ some n

variable {s s' : Tokens κ β} {a : Act κ β}

theorem next_le_after (h : s.Enabled a) (k : κ) : s.next k ≤ (s.after a).next k := by
  cases a with
  | issue token =>
    by_cases hk : k = token.party
    · subst hk
      show s.next token.party ≤ Function.update s.next token.party (token.number + 1) token.party
      rw [Function.update_self, h.1]
      omega
    · show s.next k ≤ Function.update s.next token.party (token.number + 1) k
      exact Nat.le_of_eq (Function.update_of_ne hk _ _).symm
  | _ => exact Nat.le_refl _

theorem term_le_after (s : Tokens κ β) (h : s.Enabled a) : s.term ≤ (s.after a).term := by
  cases a with
  | turn => exact Nat.le_succ _
  | found =>
    show s.term ≤ 1
    rw [show s.term = 0 from h]
    omega
  | _ => exact Nat.le_refl _

/-- What is held behind an act was held in front of it, or is what the act issued. -/
theorem holds_after {k : κ} {b : β} {n : Nat} (h : (s.after a).holds k b = some n) :
    s.holds k b = some n ∨ a = .issue ⟨k, b, n⟩ := by
  cases a with
  | issue token =>
    have h' : Function.update s.holds token.party
        (Function.update (s.holds token.party) token.site (some token.number)) k b = some n := h
    by_cases hk : k = token.party
    · subst hk
      rw [Function.update_self] at h'
      by_cases hb : b = token.site
      · subst hb
        rw [Function.update_self, Option.some.injEq] at h'
        exact .inr (by rw [← h'])
      · rw [Function.update_of_ne hb] at h'
        exact .inl h'
    · rw [Function.update_of_ne hk] at h'
      exact .inl h'
  | withdraw party site =>
    have h' : Function.update s.holds party
        (Function.update (s.holds party) site none) k b = some n := h
    by_cases hk : k = party
    · subst hk
      rw [Function.update_self] at h'
      by_cases hb : b = site
      · subst hb
        rw [Function.update_self] at h'
        cases h'
      · rw [Function.update_of_ne hb] at h'
        exact .inl h'
    · rw [Function.update_of_ne hk] at h'
      exact .inl h'
  | turn => cases h
  | close _ => exact .inl h
  | found => exact .inl h

/-- An act that issues nothing to a party leaves its next number alone. -/
theorem next_after_of_not_issue {k : κ} (h : ∀ token, a = .issue token → token.party ≠ k) :
    (s.after a).next k = s.next k := by
  cases a with
  | issue token => exact Function.update_of_ne (h token rfl).symm _ _
  | _ => rfl

theorem Lawful.after (hs : s.Lawful) (h : s.Enabled a) : (s.after a).Lawful := by
  -- the number that is issued lies above all that are held
  have hfresh : ∀ {k b n}, a = .issue ⟨k, b, n⟩ → n = s.next k ∧ n < (s.after a).next k := by
    rintro k b n rfl
    refine ⟨h.1, ?_⟩
    show n < Function.update s.next k (n + 1) k
    rw [Function.update_self]
    omega
  constructor
  · intro k b n hn
    rcases holds_after hn with hold | hnew
    · exact Nat.lt_of_lt_of_le (hs.below k b n hold) (next_le_after h k)
    · exact (hfresh hnew).2
  · intro k b b' n hn hn'
    rcases holds_after hn with hold | hnew <;> rcases holds_after hn' with hold' | hnew'
    · exact hs.unique k b b' n hold hold'
    · have := hs.below k b n hold
      have := (hfresh hnew').1
      omega
    · have := hs.below k b' n hold'
      have := (hfresh hnew).1
      omega
    · rw [hnew] at hnew'
      cases hnew'
      rfl

theorem Spent.after {k : κ} {n : Nat} (hs : s.Spent k n) (h : s.Enabled a) :
    (s.after a).Spent k n := by
  refine ⟨Nat.lt_of_lt_of_le hs.1 (next_le_after h k), fun b hb => ?_⟩
  rcases holds_after hb with hold | hnew
  · exact hs.2 b hold
  · subst hnew
    have hnumber : n = s.next k := h.1
    have := hs.1
    omega

/-! ## Laws of a run -/

namespace Runs

variable {acts : List (Act κ β)}

theorem lawful (h : Runs s acts s') (hs : s.Lawful) : s'.Lawful := by
  induction h with
  | nil => exact hs
  | cons enabled _ ih => exact ih (hs.after enabled)

/-- **What is spent stays spent.** -/
theorem spent (h : Runs s acts s') {k : κ} {n : Nat} (hs : s.Spent k n) : s'.Spent k n := by
  induction h with
  | nil => exact hs
  | cons enabled _ ih => exact ih (hs.after enabled)

theorem next_le (h : Runs s acts s') (k : κ) : s.next k ≤ s'.next k := by
  induction h with
  | nil => exact Nat.le_refl _
  | cons enabled _ ih => exact Nat.le_trans (next_le_after enabled k) ih

theorem term_le (h : Runs s acts s') : s.term ≤ s'.term := by
  induction h with
  | nil => exact Nat.le_refl _
  | @cons s s' a acts enabled _ ih => exact Nat.le_trans (s.term_le_after enabled) ih

/-- **What is held** was held before, or has been issued to its holder since. -/
theorem held (h : Runs s acts s') {k : κ} {b : β} {n : Nat} (hn : s'.holds k b = some n) :
    s.holds k b = some n ∨ (⟨k, b, n⟩ : Token κ β) ∈ issued acts := by
  induction h with
  | nil => exact .inl hn
  | @cons s s' a acts enabled _ ih =>
    rcases ih hn with hafter | hlater
    · rcases holds_after hafter with hold | rfl
      · exact .inl hold
      · exact .inr (List.mem_cons_self ..)
    · refine .inr ?_
      cases a with
      | issue token => exact List.mem_cons_of_mem _ hlater
      | _ => exact hlater

/-- **The numbers a party is issued are consecutive**, from its next number on. -/
theorem numbers (h : Runs s acts s') (k : κ) :
    s.next k + ((issued acts).filter (·.party = k)).length = s'.next k ∧
      ((issued acts).filter (·.party = k)).map (·.number) =
        List.range' (s.next k) ((issued acts).filter (·.party = k)).length := by
  induction h with
  | nil => exact ⟨rfl, rfl⟩
  | @cons s s' a acts enabled _ ih =>
    obtain ⟨hlength, hnumbers⟩ := ih
    by_cases hissue : ∃ token, a = .issue token ∧ token.party = k
    · obtain ⟨token, rfl, rfl⟩ := hissue
      have hnext : (s.after (.issue token)).next token.party = s.next token.party + 1 := by
        show Function.update s.next token.party (token.number + 1) token.party = _
        rw [Function.update_self, enabled.1]
      rw [hnext] at hlength hnumbers
      rw [issued, List.filter_cons_of_pos (by simp), List.length_cons, List.map_cons, hnumbers,
        List.range'_succ, enabled.1]
      exact ⟨by omega, rfl⟩
    · have hother : ∀ token, a = .issue token → token.party ≠ k := fun token ha hk =>
        hissue ⟨token, ha, hk⟩
      have hfilter : (issued (a :: acts)).filter (·.party = k) =
          (issued acts).filter (·.party = k) := by
        cases a with
        | issue token => exact List.filter_cons_of_neg (by simpa using hother token rfl)
        | _ => rfl
      rw [next_after_of_not_issue hother] at hlength hnumbers
      rw [hfilter]
      exact ⟨hlength, hnumbers⟩

/-- What is issued lies between the next numbers before and behind. -/
theorem issued_between (h : Runs s acts s') {token : Token κ β} (htoken : token ∈ issued acts) :
    s.next token.party ≤ token.number ∧ token.number < s'.next token.party := by
  obtain ⟨hlength, hnumbers⟩ := h.numbers token.party
  have hmem : token.number ∈ ((issued acts).filter (·.party = token.party)).map (·.number) :=
    List.mem_map_of_mem (List.mem_filter.mpr ⟨htoken, by simp⟩)
  rw [hnumbers, List.mem_range'_1] at hmem
  omega

/-- **No number is issued twice to a party.** -/
theorem issued_once (h : Runs s acts s') :
    ((issued acts).map fun token => (token.party, token.number)).Nodup := by
  induction h with
  | nil => exact List.nodup_nil
  | @cons s s' a acts enabled rest ih =>
    cases a with
    | issue token =>
      show (_ :: (issued acts).map _).Nodup
      refine List.nodup_cons.mpr ⟨fun hmem => ?_, ih⟩
      obtain ⟨later, hlater, heq⟩ := List.mem_map.mp hmem
      obtain ⟨hparty, hnumber⟩ := Prod.mk.inj heq
      have hbetween := (rest.issued_between hlater).1
      have hnext : (s.after (.issue token)).next token.party = token.number + 1 :=
        Function.update_self ..
      rw [hparty, hnext] at hbetween
      omega
    | _ => exact ih

/-- **A later term has spent what an earlier one issued.** -/
theorem term_spends (h : Runs s acts s') (hterm : s.term ≠ 0) (hlater : s.term < s'.term) {k : κ}
    {n : Nat} (hn : n < s.next k) : s'.Spent k n := by
  induction h with
  | nil => exact absurd hlater (Nat.lt_irrefl _)
  | @cons s s' a acts enabled rest ih =>
    by_cases hsame : (s.after a).term = s.term
    · rw [← hsame] at hterm hlater
      exact ih hterm hlater (Nat.lt_of_lt_of_le hn (next_le_after enabled k))
    · -- the term changes here, so the act is its end
      cases a with
      | turn => exact rest.spent ⟨hn, fun b hb => (by cases hb)⟩
      | found => exact absurd (show s.term = 0 from enabled) hterm
      | _ => exact absurd rfl hsame

/-- A run that moves no next number has issued nothing. -/
theorem issued_nil (h : Runs s acts s') (hnext : ∀ k, s'.next k = s.next k) : issued acts = [] := by
  refine List.eq_nil_iff_forall_not_mem.mpr fun token htoken => ?_
  have hlength := (h.numbers token.party).1
  have hpos : 0 < ((issued acts).filter (·.party = token.party)).length :=
    List.length_pos_of_mem (List.mem_filter.mpr ⟨htoken, by simp⟩)
  rw [hnext] at hlength
  omega

/-- A run that moves one next number by one has issued that number, to the site
that holds it. -/
theorem issued_one (h : Runs s acts s') (hs : s.Lawful) {k : κ} {b : β}
    (hnext : s'.next k = s.next k + 1) (hothers : ∀ j, j ≠ k → s'.next j = s.next j)
    (hheld : s'.holds k b = some (s.next k)) : issued acts = [⟨k, b, s.next k⟩] := by
  have hmem : (⟨k, b, s.next k⟩ : Token κ β) ∈ issued acts := by
    rcases h.held hheld with hold | hnew
    · exact absurd (hs.below k b _ hold) (Nat.lt_irrefl _)
    · exact hnew
  have hparty : ∀ token ∈ issued acts, token.party = k := by
    intro token htoken
    by_contra hne
    have hlength := (h.numbers token.party).1
    have hpos : 0 < ((issued acts).filter (·.party = token.party)).length :=
      List.length_pos_of_mem (List.mem_filter.mpr ⟨htoken, by simp⟩)
    rw [hothers _ hne] at hlength
    omega
  have hall : (issued acts).filter (·.party = k) = issued acts :=
    List.filter_eq_self.mpr fun token htoken => by simpa using hparty token htoken
  have hlength : (issued acts).length = 1 := by
    have := (h.numbers k).1
    rw [hall] at this
    omega
  obtain ⟨token, htoken⟩ := List.length_eq_one_iff.mp hlength
  rw [htoken, List.mem_singleton] at hmem
  rw [htoken, hmem]

/-- A party that is closed is issued nothing. -/
theorem closed (h : Runs s acts s') {k : κ} (hk : s.closed k) :
    s'.closed k ∧ (issued acts).filter (·.party = k) = [] := by
  induction h with
  | nil => exact ⟨hk, rfl⟩
  | @cons s s' a acts enabled _ ih =>
    have hafter : (s.after a).closed k := by
      cases a with
      | close party =>
        show Function.update s.closed party True k
        by_cases hparty : k = party
        · subst hparty
          rw [Function.update_self]
          trivial
        · rw [Function.update_of_ne hparty]
          exact hk
      | _ => exact hk
    obtain ⟨hclosed, hnone⟩ := ih hafter
    refine ⟨hclosed, ?_⟩
    cases a with
    | issue token =>
      have hne : token.party ≠ k := fun heq => enabled.2.1 (heq ▸ hk)
      rw [issued, List.filter_cons_of_neg (by simpa using hne)]
      exact hnone
    | _ => exact hnone

end Runs

end Runs

end Tokens
