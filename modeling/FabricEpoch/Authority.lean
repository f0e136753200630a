import Mathlib.Data.List.Sort
import Mathlib.Data.List.TakeWhile
import FabricEpoch.Identity

/-!
# Scopes, limits, explanations, fences and grants

The value types that requests, results and durable records share. Enumerations
carry their wire value (`toWire`) and the checked conversion back
(`fromWire`); `fromWire_toWire` is what the codecs rest on.

A `ScopeSet` is only ever built by `insert`, which keeps the vector strictly
increasing; the structure carries that fact.
-/

namespace FabricEpoch

/-! ## Limits -/

structure Limits where
  maxFramePayload : Nat
  maxParticipants : Nat
  maxActiveWorkers : Nat
  maxRecentFences : Nat
  maxAuthorityGrants : Nat
  maxScopesPerGrant : Nat
  maxTransitionHistory : Nat
  maxRequestSize : Nat
  maxStringSize : Nat
  maxSessions : Nat
  maxIdempotencyRecordsPerParticipant : Nat
  maxFencedBootsPerParticipant : Nat
  listenBacklog : Nat
deriving DecidableEq

def defaultLimits : Limits where
  maxFramePayload := 64 * 1024
  maxParticipants := 200000
  maxActiveWorkers := 200000
  maxRecentFences := 8192
  maxAuthorityGrants := 200000
  maxScopesPerGrant := 32
  maxTransitionHistory := 1024
  maxRequestSize := 16 * 1024
  maxStringSize := 256
  maxSessions := 1024
  maxIdempotencyRecordsPerParticipant := 64
  maxFencedBootsPerParticipant := 8
  listenBacklog := 128

def isViable (limits : Limits) : Bool :=
  if limits.maxFramePayload == 0 || limits.maxParticipants == 0 ||
      limits.maxActiveWorkers == 0 then false
  else if limits.maxRecentFences == 0 || limits.maxAuthorityGrants == 0 ||
      limits.maxScopesPerGrant == 0 then false
  else if limits.maxTransitionHistory == 0 || limits.maxRequestSize == 0 ||
      limits.maxStringSize == 0 then false
  else if limits.maxSessions == 0 then false
  else if limits.maxIdempotencyRecordsPerParticipant == 0 ||
      limits.maxFencedBootsPerParticipant == 0 then false
  else if limits.listenBacklog == 0 then false
  else if limits.maxRequestSize > limits.maxFramePayload then false
  else if limits.maxActiveWorkers > limits.maxParticipants then false
  else true

/-- The limits a component is configured with by default are viable. -/
theorem isViable_defaultLimits : isViable defaultLimits = true := by decide

/-! ## Scopes -/

inductive ScopeKind where
  | fabric
  | site
  | domain
  | entityClass
  | entity
  | operationFamily
deriving DecidableEq, Repr

namespace ScopeKind

def toWire : ScopeKind → Nat
  | fabric => 0
  | site => 1
  | domain => 2
  | entityClass => 3
  | entity => 4
  | operationFamily => 5

def fromWire : Nat → Option ScopeKind
  | 0 => some fabric
  | 1 => some site
  | 2 => some domain
  | 3 => some entityClass
  | 4 => some entity
  | 5 => some operationFamily
  | _ => none

def toText : ScopeKind → Text
  | fabric => str "FABRIC"
  | site => str "SITE"
  | domain => str "DOMAIN"
  | entityClass => str "ENTITY_CLASS"
  | entity => str "ENTITY"
  | operationFamily => str "OPERATION_FAMILY"

@[simp] theorem fromWire_toWire (k : ScopeKind) : fromWire k.toWire = some k := by
  cases k <;> rfl

theorem toWire_lt (k : ScopeKind) : k.toWire < 6 := by
  cases k <;> decide

theorem toWire_inj {a b : ScopeKind} (h : a.toWire = b.toWire) : a = b := by
  have := congrArg fromWire h
  simpa using this

end ScopeKind

structure AuthorityScope where
  kind : ScopeKind
  subject : Text
deriving DecidableEq

namespace AuthorityScope

def maxSubjectLength : Nat := 128

/-- The scope is one that `parse` returns. -/
def WellFormed (scope : AuthorityScope) : Prop :=
  isValidIdentifierText scope.subject maxSubjectLength = true

instance (scope : AuthorityScope) : Decidable scope.WellFormed :=
  inferInstanceAs (Decidable (_ = true))

def parse (kind : ScopeKind) (subject : Text) : Option AuthorityScope :=
  if isValidIdentifierText subject maxSubjectLength then some ⟨kind, subject⟩ else none

theorem parse_subject {scope : AuthorityScope} (h : scope.WellFormed) :
    parse scope.kind scope.subject = some scope :=
  if_pos h

theorem parse_eq_some {kind : ScopeKind} {subject : Text} {scope : AuthorityScope}
    (h : parse kind subject = some scope) :
    scope = ⟨kind, subject⟩ ∧ scope.WellFormed := by
  unfold parse at h
  split at h
  · next hv =>
    cases h
    exact ⟨rfl, hv⟩
  · cases h

def toText (scope : AuthorityScope) : Text := scope.kind.toText ++ str ":" ++ scope.subject

/-- By kind, then by subject. -/
protected def lt (a b : AuthorityScope) : Prop :=
  a.kind.toWire < b.kind.toWire ∨ a.kind = b.kind ∧ a.subject < b.subject

instance : LT AuthorityScope := ⟨AuthorityScope.lt⟩
instance (a b : AuthorityScope) : Decidable (a < b) :=
  inferInstanceAs (Decidable (_ ∨ _))

theorem lt_irrefl (a : AuthorityScope) : ¬ a < a := by
  rintro (h | ⟨-, h⟩)
  · exact Nat.lt_irrefl _ h
  · exact List.lt_irrefl _ h

theorem lt_trans {a b c : AuthorityScope} (hab : a < b) (hbc : b < c) : a < c := by
  rcases hab with h₁ | ⟨e₁, h₁⟩ <;> rcases hbc with h₂ | ⟨e₂, h₂⟩
  · exact Or.inl (Nat.lt_trans h₁ h₂)
  · exact Or.inl (e₂ ▸ h₁)
  · exact Or.inl (e₁ ▸ h₂)
  · exact Or.inr ⟨e₁.trans e₂, List.lt_trans h₁ h₂⟩

theorem lt_or_eq_of_not_lt {a b : AuthorityScope} (h : ¬ a < b) : b < a ∨ a = b := by
  by_cases hk : a.kind = b.kind
  · by_cases hs : a.subject = b.subject
    · right
      cases a
      cases b
      cases hk
      cases hs
      rfl
    · left
      refine Or.inr ⟨hk.symm, ?_⟩
      by_contra hlt
      have hle : b.subject ≤ a.subject :=
        List.not_lt.mp fun hab => h (Or.inr ⟨hk, hab⟩)
      exact hs (List.le_antisymm (List.not_lt.mp hlt) hle)
  · left
    refine Or.inl ?_
    have hne : a.kind.toWire ≠ b.kind.toWire := fun e => hk (ScopeKind.toWire_inj e)
    have hnlt : ¬ a.kind.toWire < b.kind.toWire := fun hlt => h (Or.inl hlt)
    omega

end AuthorityScope

/-- A canonical set of scopes. -/
structure ScopeSet where
  scopes : List AuthorityScope
  canonical : scopes.Pairwise (· < ·)
deriving DecidableEq

namespace ScopeSet

@[ext] theorem ext {a b : ScopeSet} (h : a.scopes = b.scopes) : a = b := by
  cases a
  cases b
  cases h
  rfl

/-- The default-constructed set. -/
def blank : ScopeSet := ⟨[], List.Pairwise.nil⟩

def empty (set : ScopeSet) : Bool := set.scopes.isEmpty
def size (set : ScopeSet) : Nat := set.scopes.length

/-- The elements from `std::lower_bound` on. -/
def fromLowerBound (set : ScopeSet) (scope : AuthorityScope) : List AuthorityScope :=
  set.scopes.dropWhile (· < scope)

theorem insert_canonical {l : List AuthorityScope} (h : l.Pairwise (· < ·))
    {scope : AuthorityScope} (hne : (l.dropWhile (· < scope)).head? ≠ some scope) :
    (l.takeWhile (· < scope) ++ scope :: l.dropWhile (· < scope)).Pairwise (· < ·) := by
  induction l with
  | nil => simp
  | cons a l ih =>
    obtain ⟨ha, hl⟩ := List.pairwise_cons.mp h
    by_cases hlt : a < scope
    · simp only [List.dropWhile_cons, List.takeWhile_cons, hlt, decide_true, if_true] at hne ⊢
      rw [List.cons_append, List.pairwise_cons]
      refine ⟨fun b hb => ?_, ih hl hne⟩
      rcases List.mem_append.mp hb with hb | hb
      · exact ha b ((List.takeWhile_sublist _).subset hb)
      · rcases List.mem_cons.mp hb with rfl | hb
        · exact hlt
        · exact ha b ((List.dropWhile_sublist _).subset hb)
    · simp only [List.dropWhile_cons, List.takeWhile_cons, hlt, decide_false] at hne ⊢
      have hne' : a ≠ scope := fun e => hne (by rw [e]; rfl)
      have hgt : scope < a :=
        (AuthorityScope.lt_or_eq_of_not_lt hlt).resolve_right hne'
      refine List.pairwise_cons.mpr ⟨fun b hb => ?_, h⟩
      rcases List.mem_cons.mp hb with rfl | hb
      · exact hgt
      · exact AuthorityScope.lt_trans hgt (ha b hb)

/-- `insert`: nothing when the set is full. -/
def insert (set : ScopeSet) (scope : AuthorityScope) (maxScopes : Nat) : Option ScopeSet :=
  if h : (set.fromLowerBound scope).head? = some scope then some set
  else if set.size ≥ maxScopes then none
  else some ⟨set.scopes.takeWhile (· < scope) ++ scope :: set.fromLowerBound scope,
    insert_canonical set.canonical h⟩

def contains (set : ScopeSet) (scope : AuthorityScope) : Bool :=
  (set.fromLowerBound scope).head? == some scope

/-- Every scope of `other` is present in the set. -/
def containsAll (set other : ScopeSet) : Bool := other.scopes.all set.contains

theorem mem_of_contains {set : ScopeSet} {scope : AuthorityScope} (h : set.contains scope = true) :
    scope ∈ set.scopes := by
  have hhead : (set.fromLowerBound scope).head? = some scope := by simpa [contains] using h
  exact (List.dropWhile_sublist _).subset (List.mem_of_head? hhead)

/-- **The binary search finds every element**, for the set is sorted. -/
theorem contains_iff {set : ScopeSet} {scope : AuthorityScope} :
    set.contains scope = true ↔ scope ∈ set.scopes := by
  refine ⟨mem_of_contains, fun hmem => ?_⟩
  have hsorted := set.canonical
  have hhead : (set.scopes.dropWhile (· < scope)).head? = some scope := by
    revert hmem hsorted
    generalize set.scopes = l
    intro hmem hsorted
    induction l with
    | nil => cases hmem
    | cons a l ih =>
      obtain ⟨ha, hl⟩ := List.pairwise_cons.mp hsorted
      rcases List.mem_cons.mp hmem with rfl | hmem
      · rw [List.dropWhile_cons, if_neg (by simpa using AuthorityScope.lt_irrefl scope),
          List.head?_cons]
      · rw [List.dropWhile_cons, if_pos (by simpa using ha scope hmem)]
        exact ih hmem hl
  simpa [contains, fromLowerBound] using hhead

/-- What covers a cover covers. -/
theorem containsAll_contains {set other : ScopeSet} {scope : AuthorityScope}
    (h : set.containsAll other = true) (hs : other.contains scope = true) :
    set.contains scope = true :=
  List.all_eq_true.mp h scope (mem_of_contains hs)

theorem containsAll_trans {a b c : ScopeSet} (h₁ : a.containsAll b = true)
    (h₂ : b.containsAll c = true) : a.containsAll c = true :=
  List.all_eq_true.mpr fun scope hs =>
    containsAll_contains h₁ (List.all_eq_true.mp h₂ scope hs)

/-- `[KIND:subject,KIND:subject,…]`. -/
def toText (set : ScopeSet) : Text :=
  str "[" ++ (str ",").intercalate (set.scopes.map AuthorityScope.toText) ++ str "]"

/-- What an insertion leaves in the set. -/
theorem mem_of_insert {set out : ScopeSet} {scope : AuthorityScope} {maxScopes : Nat}
    (h : set.insert scope maxScopes = some out) :
    (out.size ≤ set.size ∨ out.size ≤ maxScopes) ∧ ∀ s ∈ out.scopes, s ∈ set.scopes ∨ s = scope := by
  unfold insert at h
  split at h
  · cases h
    exact ⟨.inl (Nat.le_refl _), fun s hs => .inl hs⟩
  split at h
  · cases h
  next hroom =>
  cases h
  have hsplit : set.scopes.takeWhile (· < scope) ++ set.fromLowerBound scope = set.scopes :=
    List.takeWhile_append_dropWhile
  refine ⟨.inr ?_, fun s hs => ?_⟩
  · have hlen := congrArg List.length hsplit
    rw [List.length_append] at hlen
    show (set.scopes.takeWhile (· < scope) ++ scope :: set.fromLowerBound scope).length ≤ _
    rw [List.length_append, List.length_cons]
    have : set.scopes.length < maxScopes := Nat.not_le.mp hroom
    omega
  · rcases List.mem_append.mp hs with hs | hs
    · exact .inl (hsplit ▸ List.mem_append_left _ hs)
    rcases List.mem_cons.mp hs with rfl | hs
    · exact .inr rfl
    · exact .inl (hsplit ▸ List.mem_append_right _ hs)

/-- Inserting above every element appends. -/
theorem insert_of_forall_lt {set : ScopeSet} {scope : AuthorityScope} {maxScopes : Nat}
    (h : ∀ s ∈ set.scopes, s < scope) (hroom : set.size < maxScopes) :
    ∃ out, set.insert scope maxScopes = some out ∧ out.scopes = set.scopes ++ [scope] := by
  have hdrop : set.fromLowerBound scope = [] :=
    List.dropWhile_eq_nil_iff.mpr fun s hs => decide_eq_true (h s hs)
  have htake : set.scopes.takeWhile (· < scope) = set.scopes :=
    List.takeWhile_eq_self_iff.mpr fun s hs => decide_eq_true (h s hs)
  have hhead : (set.fromLowerBound scope).head? ≠ some scope := by
    rw [hdrop]
    exact fun e => nomatch e
  refine ⟨_, by rw [insert, dif_neg hhead, if_neg (Nat.not_le.mpr hroom)], ?_⟩
  simp only [hdrop, htake]

/-- What is inserted above every element is appended. -/
theorem insert_above {set out : ScopeSet} {scope : AuthorityScope} {maxScopes : Nat}
    (h : ∀ s ∈ set.scopes, s < scope) (hout : set.insert scope maxScopes = some out) :
    out.scopes = set.scopes ++ [scope] := by
  by_cases hroom : set.size < maxScopes
  · obtain ⟨out', hout', hscopes⟩ := insert_of_forall_lt h hroom
    rwa [Option.some.inj (hout.symm.trans hout')]
  · have hhead : (set.fromLowerBound scope).head? ≠ some scope := by
      intro hs
      have hmem := (List.dropWhile_sublist _).subset (List.mem_of_head? hs)
      exact AuthorityScope.lt_irrefl scope (h scope hmem)
    rw [insert, dif_neg hhead, if_pos (Nat.not_lt.mp hroom)] at hout
    cases hout

/-- The last element is the greatest. -/
theorem lt_of_getLast_lt {set : ScopeSet} {scope : AuthorityScope}
    (h : ∀ last ∈ set.scopes.getLast?, last < scope) : ∀ s ∈ set.scopes, s < scope := by
  intro s hs
  cases hlast : set.scopes.getLast? with
  | none =>
    rw [List.getLast?_eq_none_iff.mp hlast] at hs
    cases hs
  | some last =>
    have hle := h last hlast
    obtain ⟨front, hsplit⟩ := List.getLast?_eq_some_iff.mp hlast
    have hsorted : (front ++ [last]).Pairwise (· < ·) := hsplit ▸ set.canonical
    rw [hsplit] at hs
    rcases List.mem_append.mp hs with hs | hs
    · exact AuthorityScope.lt_trans
        ((List.pairwise_append.mp hsorted).2.2 s hs last (List.mem_singleton_self _)) hle
    · rwa [List.mem_singleton.mp hs]

end ScopeSet

/-! ## Explanations -/

inductive ExplanationCode where
  | authorityCurrent
  | registrationAccepted
  | registrationIdempotentReplay
  | epochStale
  | workerBootFenced
  | workerBootSuperseded
  | participantUnknown
  | participantRetired
  | scopeMissing
  | revalidationRequired
  | malformedRequest
  | resourceLimitReached
  | incarnationConflict
  | attemptConflict
  | grantRevoked
  | grantSuperseded
  | epochAdvanced
  | fenceRecorded
  | fenceIdempotent
  | sessionClosed
  | delegationRejected
  | generationMismatch
deriving DecidableEq, Repr

/-- A code with details kept sorted by key. -/
structure Explanation where
  code : ExplanationCode
  details : List (Text × Text)
deriving DecidableEq

namespace Explanation

def ofCode (code : ExplanationCode) : Explanation := ⟨code, []⟩

/-- `with`: add a detail and restore the key order. -/
def withDetail (e : Explanation) (key : String) (value : Text) : Explanation :=
  ⟨e.code, (e.details ++ [(str key, value)]).insertionSort fun a b => a.1 ≤ b.1⟩

def withCode (e : Explanation) (code : ExplanationCode) : Explanation := ⟨code, e.details⟩

theorem mem_details_withDetail {e : Explanation} {key : String} {value : Text}
    {d : Text × Text} :
    d ∈ (e.withDetail key value).details ↔ d ∈ e.details ∨ d = (str key, value) := by
  simp [withDetail, List.mem_insertionSort]

theorem length_details_withDetail (e : Explanation) (key : String) (value : Text) :
    (e.withDetail key value).details.length = e.details.length + 1 := by
  simp [withDetail, List.length_insertionSort]

end Explanation

/-! ## Enumerations of requests and records -/

inductive FenceReason where
  | processLoss
  | reincarnation
  | coordinatorEpochAdvance
  | administrativeRevoke
  | sessionProtocolViolation
  | explicitOperatorFence
  | authorityReplaced
  | shutdown
deriving DecidableEq, Repr

namespace FenceReason

def toWire : FenceReason → Nat
  | processLoss => 0
  | reincarnation => 1
  | coordinatorEpochAdvance => 2
  | administrativeRevoke => 3
  | sessionProtocolViolation => 4
  | explicitOperatorFence => 5
  | authorityReplaced => 6
  | shutdown => 7

def fromWire : Nat → Option FenceReason
  | 0 => some processLoss
  | 1 => some reincarnation
  | 2 => some coordinatorEpochAdvance
  | 3 => some administrativeRevoke
  | 4 => some sessionProtocolViolation
  | 5 => some explicitOperatorFence
  | 6 => some authorityReplaced
  | 7 => some shutdown
  | _ => none

def toText : FenceReason → Text
  | processLoss => str "PROCESS_LOSS"
  | reincarnation => str "REINCARNATION"
  | coordinatorEpochAdvance => str "COORDINATOR_EPOCH_ADVANCE"
  | administrativeRevoke => str "ADMINISTRATIVE_REVOKE"
  | sessionProtocolViolation => str "SESSION_PROTOCOL_VIOLATION"
  | explicitOperatorFence => str "EXPLICIT_OPERATOR_FENCE"
  | authorityReplaced => str "AUTHORITY_REPLACED"
  | shutdown => str "SHUTDOWN"

@[simp] theorem fromWire_toWire (r : FenceReason) : fromWire r.toWire = some r := by
  cases r <;> rfl

theorem toWire_lt (r : FenceReason) : r.toWire < 8 := by
  cases r <;> decide

end FenceReason

inductive IncarnationPolicy where
  | singleIncarnation
  | multiIncarnation
deriving DecidableEq, Repr

namespace IncarnationPolicy

def toWire : IncarnationPolicy → Nat
  | singleIncarnation => 0
  | multiIncarnation => 1

def fromWire : Nat → Option IncarnationPolicy
  | 0 => some singleIncarnation
  | 1 => some multiIncarnation
  | _ => none

def toText : IncarnationPolicy → Text
  | singleIncarnation => str "SINGLE_INCARNATION"
  | multiIncarnation => str "MULTI_INCARNATION"

@[simp] theorem fromWire_toWire (p : IncarnationPolicy) : fromWire p.toWire = some p := by
  cases p <;> rfl

theorem toWire_lt (p : IncarnationPolicy) : p.toWire < 2 := by
  cases p <;> decide

end IncarnationPolicy

inductive EpochTransitionCause where
  | coordinatorStart
  | coordinatorRestart
  | explicitOperatorAdvance
  | durableRecovery
deriving DecidableEq, Repr

namespace EpochTransitionCause

def toWire : EpochTransitionCause → Nat
  | coordinatorStart => 0
  | coordinatorRestart => 1
  | explicitOperatorAdvance => 2
  | durableRecovery => 3

def fromWire : Nat → Option EpochTransitionCause
  | 0 => some coordinatorStart
  | 1 => some coordinatorRestart
  | 2 => some explicitOperatorAdvance
  | 3 => some durableRecovery
  | _ => none

def toText : EpochTransitionCause → Text
  | coordinatorStart => str "COORDINATOR_START"
  | coordinatorRestart => str "COORDINATOR_RESTART"
  | explicitOperatorAdvance => str "EXPLICIT_OPERATOR_ADVANCE"
  | durableRecovery => str "DURABLE_RECOVERY"

@[simp] theorem fromWire_toWire (c : EpochTransitionCause) : fromWire c.toWire = some c := by
  cases c <;> rfl

theorem toWire_lt (c : EpochTransitionCause) : c.toWire < 4 := by
  cases c <;> decide

end EpochTransitionCause

inductive OperationKind where
  | registerParticipant
  | grantAuthority
  | fenceWorker
  | revokeAuthority
  | advanceEpoch
  | retireParticipant
deriving DecidableEq, Repr

namespace OperationKind

def toWire : OperationKind → Nat
  | registerParticipant => 1
  | grantAuthority => 2
  | fenceWorker => 3
  | revokeAuthority => 4
  | advanceEpoch => 5
  | retireParticipant => 6

/-- The values the durable decoder lets through. -/
def fromWire : Nat → Option OperationKind
  | 1 => some registerParticipant
  | 2 => some grantAuthority
  | 3 => some fenceWorker
  | 4 => some revokeAuthority
  | 5 => some advanceEpoch
  | 6 => some retireParticipant
  | _ => none

@[simp] theorem fromWire_toWire (k : OperationKind) : fromWire k.toWire = some k := by
  cases k <;> rfl

theorem toWire_lt (k : OperationKind) : k.toWire < 7 := by
  cases k <;> decide

end OperationKind

end FabricEpoch
