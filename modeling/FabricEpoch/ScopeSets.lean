import FabricEpoch.Wire.OneEncoding

/-!
# Scope sets

A `ScopeSet` is a sorted vector that is built by `insert`, searched by
`std::lower_bound`, and written as it stands. Its vector is strictly increasing
whatever was done to it, so that a set is its elements, and the decoder, which asks
for the same order, reads back what was written.

- `mem_insert_iff`: what one call of `insert` leaves;
- `mem_insertAll`, `insertAll_unique`: any sequence of calls;
- `decodeScopeSetCanonical_iff`: exactly what the decoder accepts;
- `scopeSet_canonical`: the four laws together;
- `hugeScopes_not_read_back`: a set whose count does not fit its field.
-/

namespace FabricEpoch

open ByteCodec

namespace ScopeSet

/-- **One call of `insert`** that returns true. -/
theorem mem_insert_iff {set out : ScopeSet} {scope : AuthorityScope} {bound : Nat}
    (h : set.insert scope bound = some out) {s : AuthorityScope} :
    s ∈ out.scopes ↔ s ∈ set.scopes ∨ s = scope := by
  refine ⟨(mem_of_insert h).2 s, fun hs => ?_⟩
  unfold insert at h
  split at h
  · next hhead =>
    -- the scope is there already
    cases h
    rcases hs with hs | rfl
    · exact hs
    · exact (List.dropWhile_sublist _).subset (List.mem_of_head? hhead)
  split at h
  · cases h
  · cases h
    have hsplit : set.scopes.takeWhile (· < scope) ++ set.fromLowerBound scope = set.scopes :=
      List.takeWhile_append_dropWhile
    rcases hs with hs | rfl
    · rw [← hsplit] at hs
      rcases List.mem_append.mp hs with hs | hs
      · exact List.mem_append_left _ hs
      · exact List.mem_append_right _ (List.mem_cons_of_mem _ hs)
    · exact List.mem_append_right _ (List.mem_cons_self ..)

/-- Calls of `insert` one behind the other, each with its own bound, and what they
return. -/
def insertAll (set : ScopeSet) : List (AuthorityScope × Nat) → ScopeSet × List Bool
  | [] => (set, [])
  | (scope, bound) :: calls =>
    match set.insert scope bound with
    | some next => ((next.insertAll calls).1, true :: (next.insertAll calls).2)
    | none => ((set.insertAll calls).1, false :: (set.insertAll calls).2)

/-- The scopes whose `insert` has returned true. -/
def accepted (set : ScopeSet) (calls : List (AuthorityScope × Nat)) : List AuthorityScope :=
  ((calls.zip (set.insertAll calls).2).filter (·.2)).map (·.1.1)

theorem length_insertAll (set : ScopeSet) (calls : List (AuthorityScope × Nat)) :
    (set.insertAll calls).2.length = calls.length := by
  induction calls generalizing set with
  | nil => rfl
  | cons call calls ih =>
    obtain ⟨scope, bound⟩ := call
    unfold insertAll
    cases set.insert scope bound with
    | none => exact congrArg (· + 1) (ih set)
    | some next => exact congrArg (· + 1) (ih next)

/-- **What a sequence of calls leaves**: what was there, and what was accepted. -/
theorem mem_insertAll (set : ScopeSet) (calls : List (AuthorityScope × Nat)) {s : AuthorityScope} :
    s ∈ (set.insertAll calls).1.scopes ↔ s ∈ set.scopes ∨ s ∈ set.accepted calls := by
  induction calls generalizing set with
  | nil => simp [insertAll, accepted]
  | cons call calls ih =>
    obtain ⟨scope, bound⟩ := call
    cases hinsert : set.insert scope bound with
    | none =>
      have hsame : set.accepted ((scope, bound) :: calls) = set.accepted calls := by
        unfold accepted
        rw [insertAll, hinsert]
        rfl
      rw [hsame, insertAll, hinsert]
      exact ih set
    | some next =>
      have hmore : set.accepted ((scope, bound) :: calls) = scope :: next.accepted calls := by
        unfold accepted
        rw [insertAll, hinsert]
        rfl
      rw [hmore, insertAll, hinsert, List.mem_cons]
      exact (ih next).trans (by rw [mem_insert_iff hinsert, or_assoc])

/-- A set is its elements. -/
theorem eq_of_mem_iff {a b : ScopeSet} (h : ∀ s, s ∈ a.scopes ↔ s ∈ b.scopes) : a = b := by
  have hnodup : ∀ set : ScopeSet, set.scopes.Nodup := by
    intro set
    refine set.canonical.imp ?_
    rintro s t hlt rfl
    exact AuthorityScope.lt_irrefl s hlt
  have hperm : a.scopes.Perm b.scopes :=
    (List.perm_ext_iff_of_nodup (hnodup a) (hnodup b)).mpr h
  refine ScopeSet.ext (hperm.eq_of_pairwise (fun s s' _ _ hlt hgt => ?_) a.canonical b.canonical)
  exact absurd (AuthorityScope.lt_trans hlt hgt) (AuthorityScope.lt_irrefl s)

/-- When nothing is refused, everything is accepted. -/
theorem accepted_of_all {set : ScopeSet} {calls : List (AuthorityScope × Nat)}
    (h : ∀ answer ∈ (set.insertAll calls).2, answer = true) : set.accepted calls = calls.map (·.1) := by
  induction calls generalizing set with
  | nil => rfl
  | cons call calls ih =>
    obtain ⟨scope, bound⟩ := call
    unfold accepted
    rw [insertAll] at h ⊢
    cases hinsert : set.insert scope bound with
    | none =>
      rw [hinsert] at h
      cases h false (List.mem_cons_self ..)
    | some next =>
      rw [hinsert] at h
      have hlater : ∀ answer ∈ (next.insertAll calls).2, answer = true :=
        fun answer hanswer => h answer (List.mem_cons_of_mem _ hanswer)
      have hrest := ih hlater
      exact congrArg (scope :: ·) hrest

/-- **When nothing is refused**, the set depends on what was inserted only. -/
theorem insertAll_unique {calls calls' : List (AuthorityScope × Nat)}
    (hall : ∀ answer ∈ (blank.insertAll calls).2, answer = true)
    (hall' : ∀ answer ∈ (blank.insertAll calls').2, answer = true)
    (hsame : ∀ s, s ∈ calls.map (·.1) ↔ s ∈ calls'.map (·.1)) :
    (blank.insertAll calls).1 = (blank.insertAll calls').1 := by
  refine eq_of_mem_iff fun s => ?_
  rw [mem_insertAll, mem_insertAll, accepted_of_all hall, accepted_of_all hall', hsame s]

theorem containsAll_iff {set other : ScopeSet} :
    set.containsAll other = true ↔ ∀ s ∈ other.scopes, s ∈ set.scopes := by
  unfold containsAll
  rw [List.all_eq_true]
  exact forall₂_congr fun s _ => contains_iff

end ScopeSet

/-! ## The bytes -/

section Bytes

variable {limits : Limits}

/-- The loop returns as many scopes as were announced. -/
theorem decodeScopeSetCanonical_count {b r : Bytes} {set : ScopeSet}
    (hd : decodeScopeSetCanonical limits b = .ok (set, r)) : set.size < 2 ^ 32 := by
  obtain ⟨count, rest, hcount, hrest⟩ := bind_eq_ok hd
  obtain ⟨_, rest', hcheck, hloop⟩ := bind_eq_ok hrest
  obtain ⟨read, c, hset, hlen, -, -⟩ := Wire.decodeScopes_blank_reads limits hloop
  have hlt := Returns.leWord truncated 4 b rest count hcount
  unfold ScopeSet.size
  rw [hset, hlen]
  exact hlt

/-- A text that was read is within every limit of the reader. -/
theorem string_returns (maxLength : Nat) :
    Returns (TextFits limits maxLength) (ByteReader.string limits maxLength) := by
  refine Returns.skip fun declared => Returns.check fun hceiling => Returns.check fun hmax =>
    Returns.check fun hlimit => ?_
  intro b r text hd
  unfold takeBytes at hd
  split at hd
  · next hle =>
    have htext := (Prod.mk.inj (Except.ok.inj hd)).1
    have hlen : text.length = declared := by rw [← htext, List.length_take_of_le hle]
    exact ⟨hlen ▸ hceiling, hlen ▸ hmax, hlen ▸ hlimit⟩
  · cases hd

theorem decodeScope_fits : Returns (ScopeFits limits) (decodeScope limits) := by
  refine Returns.skip fun kind => Returns.bind (string_returns _) fun subject hsubject => ?_
  cases hparse : AuthorityScope.parse kind subject with
  | none =>
    intro b r scope hd
    cases hd
  | some scope =>
    obtain ⟨rfl, hformed⟩ := AuthorityScope.parse_eq_some hparse
    exact Returns.pure ⟨hformed, hsubject⟩

/-- **Exactly what the decoder accepts**: the encodings of the sets that fit. -/
theorem decodeScopeSetCanonical_iff {b r : Bytes} {set : ScopeSet} :
    decodeScopeSetCanonical limits b = .ok (set, r) ↔
      ScopesFit limits set ∧ set.size < 2 ^ 32 ∧
        ∃ a, (encodeScopeSetCanonical set).Yields a ∧ b = a ++ r := by
  constructor
  · intro hd
    obtain ⟨hsize, heach⟩ := decodeScopeSetCanonical_each limits decodeScope_fits b r set hd
    exact ⟨⟨hsize, heach⟩, decodeScopeSetCanonical_count hd, Wire.scopeSet_inverts limits b r set hd⟩
  · rintro ⟨hfits, hcount, a, ha, rfl⟩
    exact (decodeScopeSetCanonical_decodes limits hcount).accepts hfits r ha

/-- A set whose scopes are well formed has an encoding. -/
theorem ScopesFit.emits {set : ScopeSet} (h : ScopesFit limits set) :
    (encodeScopeSetCanonical set).Emits :=
  StorableState.emits_scopes fun s hs => (h.each s hs).1

end Bytes

/-- **Scope sets are canonical.** -/
theorem scopeSet_canonical :
    (∀ calls, (ScopeSet.blank.insertAll calls).1.scopes.Pairwise (· < ·) ∧
      (ScopeSet.blank.insertAll calls).2.length = calls.length ∧
      ∀ s, s ∈ (ScopeSet.blank.insertAll calls).1.scopes ↔ s ∈ ScopeSet.blank.accepted calls) ∧
    (∀ calls calls', (∀ answer ∈ (ScopeSet.blank.insertAll calls).2, answer = true) →
      (∀ answer ∈ (ScopeSet.blank.insertAll calls').2, answer = true) →
      (∀ s, s ∈ calls.map (·.1) ↔ s ∈ calls'.map (·.1)) →
      (ScopeSet.blank.insertAll calls).1 = (ScopeSet.blank.insertAll calls').1) ∧
    (∀ (set : ScopeSet) (scope : AuthorityScope), set.contains scope = true ↔ scope ∈ set.scopes) ∧
    (∀ set other : ScopeSet, set.containsAll other = true ↔ ∀ s ∈ other.scopes, s ∈ set.scopes) ∧
    ∀ limits : Limits,
      (∀ set, ScopesFit limits set → (encodeScopeSetCanonical set).Emits) ∧
      ∀ b set r, decodeScopeSetCanonical limits b = .ok (set, r) ↔
        ScopesFit limits set ∧ set.size < 2 ^ 32 ∧
          ∃ a, (encodeScopeSetCanonical set).Yields a ∧ b = a ++ r := by
  refine ⟨fun calls => ⟨(ScopeSet.blank.insertAll calls).1.canonical, ScopeSet.length_insertAll _ calls,
    fun s => ?_⟩, fun _ _ => ScopeSet.insertAll_unique, fun _ _ => ScopeSet.contains_iff,
    fun _ _ => ScopeSet.containsAll_iff, fun _ => ⟨fun _ => ScopesFit.emits,
      fun _ _ _ => decodeScopeSetCanonical_iff⟩⟩
  rw [ScopeSet.mem_insertAll]
  exact or_iff_right fun hs => by cases hs

/-! ### A count that does not fit -/

/-- The words of a length over two letters, in order. -/
def words : Nat → List Text
  | 0 => [[]]
  | n + 1 => (words n).map (97 :: ·) ++ (words n).map (98 :: ·)

theorem length_words (n : Nat) : (words n).length = 2 ^ n := by
  induction n with
  | zero => rfl
  | succ n ih =>
    rw [words, List.length_append, List.length_map, List.length_map, ih]
    omega

theorem mem_words {n : Nat} {text : Text} (h : text ∈ words n) :
    text.length = n ∧ ∀ c ∈ text, c = 97 ∨ c = 98 := by
  induction n generalizing text with
  | zero =>
    rw [words, List.mem_singleton] at h
    subst h
    exact ⟨rfl, fun c hc => by cases hc⟩
  | succ n ih =>
    have hcons : ∃ c front, (c = 97 ∨ c = 98) ∧ front ∈ words n ∧ c :: front = text := by
      rcases List.mem_append.mp h with h | h
      · obtain ⟨front, hfront, rfl⟩ := List.mem_map.mp h
        exact ⟨97, front, .inl rfl, hfront, rfl⟩
      · obtain ⟨front, hfront, rfl⟩ := List.mem_map.mp h
        exact ⟨98, front, .inr rfl, hfront, rfl⟩
    obtain ⟨c, front, hc, hfront, rfl⟩ := hcons
    obtain ⟨hlen, hall⟩ := ih hfront
    refine ⟨congrArg (· + 1) hlen, fun d hd => ?_⟩
    rcases List.mem_cons.mp hd with rfl | hd
    · exact hc
    · exact hall d hd

theorem words_ordered (n : Nat) : (words n).Pairwise (· < ·) := by
  induction n with
  | zero => exact List.pairwise_singleton ..
  | succ n ih =>
    have hcons : ∀ c : UInt8, ((words n).map (c :: ·)).Pairwise (· < ·) := fun c =>
      List.pairwise_map.mpr (ih.imp fun hlt => List.cons_lt_cons_iff.mpr (.inr ⟨rfl, hlt⟩))
    rw [words, List.pairwise_append]
    refine ⟨hcons 97, hcons 98, fun a ha b hb => ?_⟩
    obtain ⟨a', -, rfl⟩ := List.mem_map.mp ha
    obtain ⟨b', -, rfl⟩ := List.mem_map.mp hb
    exact List.cons_lt_cons_iff.mpr (.inl (by decide))

/-- A scope for every word. -/
def wordScopes (n : Nat) : ScopeSet where
  scopes := (words n).map fun subject => ⟨.entity, subject⟩
  canonical := List.pairwise_map.mpr ((words_ordered n).imp fun hlt => .inr ⟨rfl, hlt⟩)

theorem size_wordScopes (n : Nat) : (wordScopes n).size = 2 ^ n :=
  (List.length_map _).trans (length_words n)

theorem wordScopes_formed {n : Nat} (hpos : 0 < n) (hle : n ≤ 128) :
    ∀ s ∈ (wordScopes n).scopes, s.WellFormed ∧ s.subject.length = n := by
  intro s hs
  obtain ⟨subject, hsubject, rfl⟩ := List.mem_map.mp hs
  obtain ⟨hlen, hletters⟩ := mem_words hsubject
  refine ⟨?_, hlen⟩
  have hplain : ∀ c ∈ subject, isSeparator c = false ∧ isAsciiAlnum c = true := by
    intro c hc
    rcases hletters c hc with rfl | rfl
    · decide
    · decide
  have hempty : subject.isEmpty = false := by
    cases subject with
    | nil => exact absurd hlen (Nat.ne_of_lt hpos)
    | cons c front => rfl
  have hhead : subject.head?.any isSeparator = false := by
    cases hhead : subject.head? with
    | none => rfl
    | some c => exact (hplain c (List.mem_of_head? hhead)).1
  have hlast : subject.getLast?.any isSeparator = false := by
    cases hlast : subject.getLast? with
    | none => rfl
    | some c => exact (hplain c (List.mem_of_getLast? hlast)).1
  show isValidIdentifierText subject AuthorityScope.maxSubjectLength = true
  unfold isValidIdentifierText
  rw [hempty, hhead, hlast]
  rw [if_neg, if_neg]
  · rw [List.all_eq_true]
    intro c hc
    rw [(hplain c hc).2, Bool.true_or]
  · exact Bool.false_ne_true
  · simp [hlen, AuthorityScope.maxSubjectLength, hle]

/-- **A set whose count does not fit its field**, within viable limits, is written and
not read back. -/
theorem hugeScopes_not_read_back : ∃ limits set, isViable limits = true ∧ ScopesFit limits set ∧
    (encodeScopeSetCanonical set).Emits ∧ ∀ b r, decodeScopeSetCanonical limits b ≠ .ok (set, r) := by
  have hfits : ScopesFit { defaultLimits with maxScopesPerGrant := 2 ^ 32 } (wordScopes 32) := by
    refine ⟨Nat.le_of_eq (size_wordScopes 32), fun s hs => ?_⟩
    obtain ⟨hformed, hlen⟩ := wordScopes_formed (by decide) (by decide) s hs
    refine ⟨hformed, ?_⟩
    unfold TextFits
    rw [hlen]
    decide
  refine ⟨_, wordScopes 32, by decide, hfits, hfits.emits, fun b r hd => ?_⟩
  have hcount := decodeScopeSetCanonical_count hd
  rw [size_wordScopes] at hcount
  exact absurd hcount (Nat.lt_irrefl _)

end FabricEpoch
