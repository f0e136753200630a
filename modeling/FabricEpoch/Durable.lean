import FabricEpoch.Authority
import FabricEpoch.Lib.Checks

/-!
# The durable state and its validator

`DurableState` is everything the coordinator keeps on disk. Nothing that is
loaded or written may bypass `validateDurableState`; `ValidDurable` says, field
by field, what it accepts (`validateDurableState_ok`):

- a store whose epoch is zero carries nothing else;
- transitions advance and never exceed the current epoch;
- each participant record is consistent with the floors and with its own
  incarnation allocator (`ValidParticipant`);
- identifiers, live worker boots, fence keys, grant identifiers, control
  attempts and transition identifiers are pairwise different;
- a delegated grant names a parent that is present.
-/

namespace FabricEpoch

open Checks

/-! ## Records -/

abbrev SnapshotDigest := Block 32

structure IdempotencyRecord where
  attempt : MutationAttemptId
  operation : OperationKind
  semantic : SnapshotDigest
  outcome : UInt16 := 0
  auxiliary : UInt64 := 0
  auxiliaryHigh : UInt64 := 0
  auxiliaryId : Block 16 := Block.zero 16
deriving DecidableEq

structure ActiveIncarnation where
  boot : WorkerBootId
  sequence : IncarnationSequence
  registeredAtGeneration : RegistrationGeneration
deriving DecidableEq

structure DurableParticipant where
  id : ParticipantId
  registrationGeneration : RegistrationGeneration := .zero
  fenceGeneration : FencingGeneration := .zero
  incarnationFloor : IncarnationSequence := .zero
  policy : IncarnationPolicy := .singleIncarnation
  retired : Bool := false
  revalidationRequired : Bool := false
  hasActiveBoot : Bool := false
  activeBoot : WorkerBootId := .nil
  activeIncarnation : IncarnationSequence := .zero
  nextIncarnation : IncarnationSequence := .zero
  extraIncarnations : List ActiveIncarnation := []
  scopes : ScopeSet := .blank
  acceptedRegistrations : UInt64 := 0
  replayHits : UInt64 := 0
  fencedBoots : List WorkerBootId := []
  idempotency : List IdempotencyRecord := []
deriving DecidableEq

structure FenceRecord where
  boot : WorkerBootId
  participant : ParticipantId
  reason : FenceReason
  generation : FencingGeneration
  epoch : CoordinatorEpoch
  incarnation : IncarnationSequence
  note : BoundedText
deriving DecidableEq

structure AuthorityGrant where
  id : AuthorityGrantId
  epoch : CoordinatorEpoch
  participant : ParticipantId
  boot : WorkerBootId
  incarnation : IncarnationSequence
  scopes : ScopeSet
  generation : GrantGeneration := .zero
  parent : Option AuthorityGrantId
  delegatorBoot : Option WorkerBootId
  revoked : Bool := false
  revokedAtEpoch : CoordinatorEpoch := .zero
  provenance : BoundedText
deriving DecidableEq

structure EpochTransitionRecord where
  id : EpochTransitionId
  fromEpoch : CoordinatorEpoch
  toEpoch : CoordinatorEpoch
  cause : EpochTransitionCause
  coordinatorBoot : CoordinatorBootId
  generation : EpochGeneration
  provenance : BoundedText
deriving DecidableEq

structure DurableState where
  currentEpoch : CoordinatorEpoch := .zero
  coordinatorBoot : CoordinatorBootId := .nil
  generation : EpochGeneration := .zero
  registrationFloor : RegistrationGeneration := .zero
  fenceFloor : FencingGeneration := .zero
  participants : List DurableParticipant := []
  recentFences : List FenceRecord := []
  grants : List AuthorityGrant := []
  transitions : List EpochTransitionRecord := []
  controlAttempts : List IdempotencyRecord := []
deriving DecidableEq

/-- The default-constructed state of a store that was never established. -/
def initialState : DurableState := {}

namespace DurableParticipant

/-- The current incarnations: the active slot, then the extras. -/
def live (p : DurableParticipant) : List (WorkerBootId × IncarnationSequence) :=
  (if p.hasActiveBoot then [(p.activeBoot, p.activeIncarnation)] else []) ++
    p.extraIncarnations.map fun e => (e.boot, e.sequence)

/-- The current worker boots, active slot first. -/
def liveBoots (p : DurableParticipant) : List WorkerBootId :=
  (if p.hasActiveBoot then [p.activeBoot] else []) ++ p.extraIncarnations.map (·.boot)

theorem liveBoots_eq (p : DurableParticipant) : p.liveBoots = p.live.map Prod.fst := by
  unfold liveBoots live
  split <;> simp [Function.comp_def]

theorem mem_liveBoots {p : DurableParticipant} {b : WorkerBootId} :
    b ∈ p.liveBoots ↔ p.hasActiveBoot = true ∧ b = p.activeBoot ∨
      ∃ e ∈ p.extraIncarnations, e.boot = b := by
  unfold liveBoots
  by_cases h : p.hasActiveBoot = true <;> simp [h, eq_comm]

theorem mem_live {p : DurableParticipant} {b : WorkerBootId} {i : IncarnationSequence} :
    (b, i) ∈ p.live ↔ p.hasActiveBoot = true ∧ b = p.activeBoot ∧ i = p.activeIncarnation ∨
      ∃ e ∈ p.extraIncarnations, e.boot = b ∧ e.sequence = i := by
  unfold live
  by_cases h : p.hasActiveBoot = true <;> simp [h]

end DurableParticipant

/-! ## The validator -/

def kAbsoluteMaxRecords : Nat := 4 * 1024 * 1024
def kAbsoluteMaxScopesPerSet : Nat := 64

/-- The checks of one transition against the current epoch. -/
def validateTransition (state : DurableState) (t : EpochTransitionRecord) :
    Except EpochError Unit := do
  refuseIf (t.toEpoch > state.currentEpoch)
    (corrupt "durable image current epoch is lower than a recorded transition target epoch")
  refuseIf (t.toEpoch ≤ t.fromEpoch)
    (corrupt "durable image records a non-advancing epoch transition")

/-- The checks of one retained fenced boot against the live incarnations. -/
def validateFencedNotLive (p : DurableParticipant) (fenced : WorkerBootId) :
    Except EpochError Unit := do
  refuseIf (p.hasActiveBoot = true ∧ fenced = p.activeBoot)
    (corrupt "durable participant lists its active worker boot as fenced")
  refuseIf (∃ e ∈ p.extraIncarnations, fenced = e.boot)
    (corrupt "durable participant lists a current worker boot as fenced")

/-- The checks of one extra incarnation; `owners` is the map of the boots that
are already bound. -/
def validateExtra (p : DurableParticipant) (owners : List WorkerBootId) (e : ActiveIncarnation) :
    Except EpochError (List WorkerBootId) := do
  refuseIf (e.boot.isNil = true)
    (corrupt "durable participant declares a nil worker boot")
  refuseIf (e.boot = p.activeBoot)
    (corrupt "durable participant lists one worker boot twice as a current incarnation")
  -- another element, at a different address, with the same boot
  refuseIf (p.extraIncarnations.countP (·.boot == e.boot) > 1)
    (corrupt "durable participant lists one worker boot twice as a current incarnation")
  refuseIf (p.nextIncarnation ≤ e.sequence)
    (corrupt "durable participant incarnation allocator does not exceed an issued incarnation")
  refuseIf (e.boot ∈ owners)
    (corrupt "durable image binds one worker boot to more than one participant")
  return owners ++ [e.boot]

/-- The checks of the active slot. -/
def validateActive (p : DurableParticipant) (owners : List WorkerBootId) :
    Except EpochError (List WorkerBootId) := do
  if p.hasActiveBoot then
    refuseIf (p.activeBoot.isNil = true)
      (corrupt "durable participant declares a nil active worker boot")
    refuseIf (p.activeIncarnation ≥ p.nextIncarnation)
      (corrupt "durable active incarnation was never issued by the incarnation allocator")
    refuseIf (p.retired = true)
      (corrupt "durable participant is retired while still declaring an active incarnation")
    refuseIf (p.activeBoot ∈ owners)
      (corrupt "durable image binds one worker boot to more than one participant")
    return owners ++ [p.activeBoot]
  else
    return owners

def validateRetainedBoot (seen : List WorkerBootId) (boot : WorkerBootId) :
    Except EpochError (List WorkerBootId) := do
  refuseIf (boot.isNil = true)
    (corrupt "durable participant retains a nil fenced worker boot")
  refuseIf (boot ∈ seen)
    (corrupt "durable participant retains a duplicate fenced worker boot")
  return seen ++ [boot]

def validateAttempt (seen : List MutationAttemptId) (r : IdempotencyRecord) :
    Except EpochError (List MutationAttemptId) := do
  refuseIf (r.attempt.isNil = true)
    (corrupt "durable idempotency record has a nil attempt identifier")
  refuseIf (r.attempt ∈ seen)
    (corrupt "durable participant retains a duplicate attempt identifier")
  return seen ++ [r.attempt]

/-- The checks of one participant record before its live boots are bound. -/
def validateParticipantHeader (state : DurableState) (p : DurableParticipant) :
    Except EpochError Unit := do
  refuseIf (p.registrationGeneration > state.registrationFloor)
    (corrupt "participant registration generation exceeds the durable registration floor")
  refuseIf (p.fenceGeneration > state.fenceFloor)
    (corrupt "participant fence generation exceeds the durable fence floor")

/-- The checks between the active slot and the extra incarnations. -/
def validateParticipantBody (p : DurableParticipant) : Except EpochError Unit := do
  refuseIf (p.retired = true ∧ p.hasActiveBoot = true)
    (corrupt "durable participant is retired while still declaring an active incarnation")
  refuseIf (p.nextIncarnation ≤ p.incarnationFloor)
    (corrupt "durable participant incarnation allocator is not above the fencing floor")
  checkAll (validateFencedNotLive p) p.fencedBoots
  refuseIf (p.hasActiveBoot = true ∧ p.nextIncarnation ≤ p.activeIncarnation)
    (corrupt "durable participant incarnation allocator does not exceed the active incarnation")
  refuseIf (p.extraIncarnations.length + (if p.hasActiveBoot then 1 else 0) > kAbsoluteMaxRecords)
    (resourceLimit "durable participant active incarnation count exceeds the structural ceiling")

/-- The checks of the two bounded tables of a participant. -/
def validateParticipantTables (p : DurableParticipant) : Except EpochError Unit := do
  refuseIf (p.idempotency.length > kAbsoluteMaxRecords)
    (resourceLimit "durable idempotency record count exceeds the structural ceiling")
  refuseIf (p.fencedBoots.length > kAbsoluteMaxRecords)
    (resourceLimit "durable fenced boot count exceeds the structural ceiling")
  let _ ← insertAll validateRetainedBoot [] p.fencedBoots
  let _ ← insertAll validateAttempt [] p.idempotency
  return ()

/-- The checks of one participant record; `ids` and `owners` are the
identifiers and worker boots seen so far. -/
def validateParticipant (state : DurableState) (ids : List ParticipantId)
    (owners : List WorkerBootId) (p : DurableParticipant) :
    Except EpochError (List ParticipantId × List WorkerBootId) := do
  refuseIf (p.id.empty = true)
    (corrupt "durable participant record has an empty identifier")
  refuseIf (p.id ∈ ids)
    (corrupt "durable image contains a duplicate participant record")
  validateParticipantHeader state p
  let owners ← validateActive p owners
  validateParticipantBody p
  let owners ← insertAll (validateExtra p) owners p.extraIncarnations
  validateParticipantTables p
  return (ids ++ [p.id], owners)

def validateParticipants (state : DurableState) :
    List ParticipantId → List WorkerBootId → List DurableParticipant → Except EpochError Unit
  | _, _, [] => pure ()
  | ids, owners, p :: ps => do
    let (ids, owners) ← validateParticipant state ids owners p
    validateParticipants state ids owners ps

/-- The greatest of the values, or zero. -/
def maximum (values : List Nat) : Nat := values.foldl max 0

/-- The checks of one fence record. The key is participant and boot. -/
def validateFence (state : DurableState) (seen : List (ParticipantId × WorkerBootId))
    (f : FenceRecord) : Except EpochError (List (ParticipantId × WorkerBootId)) := do
  refuseIf (f.boot.isNil = true) (corrupt "durable fence record has a nil worker boot")
  refuseIf (f.generation > state.fenceFloor)
    (corrupt "durable fence record generation exceeds the durable fence floor")
  refuseIf (f.epoch > state.currentEpoch)
    (corrupt "durable fence record epoch is newer than the current epoch")
  refuseIf ((f.participant, f.boot) ∈ seen)
    (corrupt "durable image retains a duplicate fence record for one participant and boot")
  return seen ++ [(f.participant, f.boot)]

def validateGrant (state : DurableState) (seen : List AuthorityGrantId) (g : AuthorityGrant) :
    Except EpochError (List AuthorityGrantId) := do
  refuseIf (g.id.isNil = true) (corrupt "durable grant has a nil identifier")
  refuseIf (g.id ∈ seen) (corrupt "durable image contains a duplicate grant identifier")
  refuseIf (g.epoch > state.currentEpoch)
    (corrupt "durable grant is bound to an epoch newer than the current epoch")
  refuseIf (g.scopes.empty = true) (corrupt "durable grant carries an empty scope set")
  refuseIf (g.scopes.size > kAbsoluteMaxScopesPerSet)
    (resourceLimit "durable grant scope count exceeds the structural ceiling")
  refuseIf (g.revoked = true ∧ g.revokedAtEpoch > state.currentEpoch)
    (corrupt "durable grant revocation epoch is newer than the current epoch")
  refuseIf (g.boot.isNil = true ∧ g.revoked = false)
    (corrupt "durable live grant is bound to a nil worker boot")
  return seen ++ [g.id]

def validateParent (ids : List AuthorityGrantId) (g : AuthorityGrant) : Except EpochError Unit := do
  refuseIf (∃ parent, g.parent = some parent ∧ parent ∉ ids)
    (corrupt "durable delegated grant references a parent grant that is not present")
  refuseIf (g.parent = some g.id) (corrupt "durable grant is its own delegation parent")

def validateControl (seen : List MutationAttemptId) (r : IdempotencyRecord) :
    Except EpochError (List MutationAttemptId) := do
  refuseIf (r.attempt.isNil = true)
    (corrupt "durable control attempt has a nil attempt identifier")
  refuseIf (r.operation ≠ .advanceEpoch ∧ r.operation ≠ .revokeAuthority)
    (corrupt "durable control attempt records an operation that is not control-plane")
  refuseIf (r.attempt ∈ seen)
    (corrupt "durable image retains a duplicate control attempt identifier")
  return seen ++ [r.attempt]

def validateTransitionId (seen : List EpochTransitionId) (t : EpochTransitionRecord) :
    Except EpochError (List EpochTransitionId) := do
  refuseIf (t.id.isNil = true) (corrupt "durable transition record has a nil identifier")
  refuseIf (t.id ∈ seen) (corrupt "durable image contains a duplicate transition identifier")
  return seen ++ [t.id]

/-- The structural ceilings. -/
def validateCeilings (state : DurableState) : Except EpochError Unit := do
  refuseIf (state.participants.length > kAbsoluteMaxRecords)
    (resourceLimit "durable participant count exceeds the structural ceiling")
  refuseIf (state.recentFences.length > kAbsoluteMaxRecords)
    (resourceLimit "durable fence count exceeds the structural ceiling")
  refuseIf (state.grants.length > kAbsoluteMaxRecords)
    (resourceLimit "durable grant count exceeds the structural ceiling")
  refuseIf (state.transitions.length > kAbsoluteMaxRecords)
    (resourceLimit "durable transition count exceeds the structural ceiling")

/-- The state of a store that was never established. The control attempts are
not looked at. -/
def Pristine (state : DurableState) : Prop :=
  state.participants = [] ∧ state.grants = [] ∧ state.recentFences = [] ∧
    state.transitions = [] ∧ state.coordinatorBoot.isNil = true ∧
    state.generation.isZero = true ∧ state.registrationFloor.isZero = true ∧
    state.fenceFloor.isZero = true

instance (state : DurableState) : Decidable (Pristine state) :=
  inferInstanceAs (Decidable (_ ∧ _))

/-- The checks of an established store. -/
def validateEstablished (state : DurableState) : Except EpochError Unit := do
  checkAll (validateTransition state) state.transitions
  refuseIf (state.generation.value < state.transitions.length)
    (corrupt "durable generation is lower than the number of committed transitions")
  validateParticipants state [] [] state.participants
  refuseIf (maximum (state.participants.map (·.registrationGeneration.value)) >
      state.registrationFloor.value)
    (corrupt "registration floor is lower than a participant registration generation")
  refuseIf (maximum (state.participants.map (·.fenceGeneration.value)) > state.fenceFloor.value)
    (corrupt "fence floor is lower than a participant fence generation")
  let _ ← insertAll (validateFence state) [] state.recentFences
  let ids ← insertAll (validateGrant state) [] state.grants
  checkAll (validateParent ids) state.grants
  refuseIf (state.controlAttempts.length > kAbsoluteMaxRecords)
    (resourceLimit "durable control attempt count exceeds the structural ceiling")
  let _ ← insertAll validateControl [] state.controlAttempts
  let _ ← insertAll validateTransitionId [] state.transitions
  return ()

def validateDurableState (state : DurableState) : Except EpochError Unit := do
  validateCeilings state
  if state.currentEpoch.isZero then
    refuseIf (¬ Pristine state)
      (corrupt "durable image declares an unestablished epoch while carrying authority state")
  else
    validateEstablished state

/-! ## What the validator accepts -/

structure ValidParticipant (state : DurableState) (p : DurableParticipant) : Prop where
  idNonempty : p.id.empty = false
  registrationFloor : p.registrationGeneration ≤ state.registrationFloor
  fenceFloor : p.fenceGeneration ≤ state.fenceFloor
  active : p.hasActiveBoot = true → p.activeBoot.isNil = false ∧
    p.activeIncarnation < p.nextIncarnation ∧ p.retired = false
  allocator : p.incarnationFloor < p.nextIncarnation
  fencedNotLive : ∀ b ∈ p.fencedBoots, b ∉ p.liveBoots
  liveCount : p.live.length ≤ kAbsoluteMaxRecords
  extras : ∀ e ∈ p.extraIncarnations, e.boot.isNil = false ∧ e.boot ≠ p.activeBoot ∧
    e.sequence < p.nextIncarnation
  attemptCount : p.idempotency.length ≤ kAbsoluteMaxRecords
  fencedCount : p.fencedBoots.length ≤ kAbsoluteMaxRecords
  fencedBoots : (∀ b ∈ p.fencedBoots, b.isNil = false) ∧ p.fencedBoots.Nodup
  attempts : (∀ r ∈ p.idempotency, r.attempt.isNil = false) ∧
    (p.idempotency.map (·.attempt)).Nodup

structure ValidEstablished (state : DurableState) : Prop where
  transitions : ∀ t ∈ state.transitions, t.toEpoch ≤ state.currentEpoch ∧ t.fromEpoch < t.toEpoch
  generation : state.transitions.length ≤ state.generation.value
  participants : ∀ p ∈ state.participants, ValidParticipant state p
  participantIds : (state.participants.map (·.id)).Nodup
  liveBoots : (state.participants.flatMap (·.liveBoots)).Nodup
  fences : ∀ f ∈ state.recentFences, f.boot.isNil = false ∧ f.generation ≤ state.fenceFloor ∧
    f.epoch ≤ state.currentEpoch
  fenceKeys : (state.recentFences.map fun f => (f.participant, f.boot)).Nodup
  grants : ∀ g ∈ state.grants, g.id.isNil = false ∧ g.epoch ≤ state.currentEpoch ∧
    g.scopes.empty = false ∧ g.scopes.size ≤ kAbsoluteMaxScopesPerSet ∧
    (g.revoked = true → g.revokedAtEpoch ≤ state.currentEpoch) ∧
    (g.revoked = false → g.boot.isNil = false)
  grantIds : (state.grants.map (·.id)).Nodup
  parents : ∀ g ∈ state.grants, ∀ parent, g.parent = some parent →
    parent ∈ state.grants.map (·.id) ∧ parent ≠ g.id
  controlCount : state.controlAttempts.length ≤ kAbsoluteMaxRecords
  controls : ∀ r ∈ state.controlAttempts, r.attempt.isNil = false ∧
    (r.operation = .advanceEpoch ∨ r.operation = .revokeAuthority)
  controlAttempts : (state.controlAttempts.map (·.attempt)).Nodup
  transitionIds : (∀ t ∈ state.transitions, t.id.isNil = false) ∧
    (state.transitions.map (·.id)).Nodup

structure WithinCeilings (state : DurableState) : Prop where
  participants : state.participants.length ≤ kAbsoluteMaxRecords
  fences : state.recentFences.length ≤ kAbsoluteMaxRecords
  grants : state.grants.length ≤ kAbsoluteMaxRecords
  transitions : state.transitions.length ≤ kAbsoluteMaxRecords

/-- What `validate_durable_state` accepts. -/
structure ValidDurable (state : DurableState) : Prop where
  ceilings : WithinCeilings state
  pristine : state.currentEpoch.value = 0 → Pristine state
  established : state.currentEpoch.value ≠ 0 → ValidEstablished state

/-! ### One lemma for each part of the validator -/

section Parts

variable {state : DurableState} {p : DurableParticipant} {owners out : List WorkerBootId}

@[simp] theorem counter_gt_iff {d : CounterDomain} {a b : MonotonicCounter d} :
    ¬ (a > b) ↔ a ≤ b := Nat.not_lt

@[simp] theorem counter_not_lt_iff {d : CounterDomain} {a b : MonotonicCounter d} :
    ¬ (a < b) ↔ b ≤ a := Nat.not_lt

@[simp] theorem counter_not_le_iff {d : CounterDomain} {a b : MonotonicCounter d} :
    ¬ (a ≤ b) ↔ b < a := Nat.not_le

theorem validateTransition_ok {t : EpochTransitionRecord} :
    validateTransition state t = .ok () ↔
      t.toEpoch ≤ state.currentEpoch ∧ t.fromEpoch < t.toEpoch := by
  simp [validateTransition]

theorem validateFencedNotLive_ok {b : WorkerBootId} :
    validateFencedNotLive p b = .ok () ↔ b ∉ p.liveBoots := by
  rw [DurableParticipant.mem_liveBoots, validateFencedNotLive, bind_refuseIf, refuseIf_ok, not_or]
  refine and_congr_right fun _ => not_congr (exists_congr fun e => and_congr_right fun _ => ?_)
  exact eq_comm

theorem validateActive_ok : validateActive p owners = .ok out ↔
    (p.hasActiveBoot = true → p.activeBoot.isNil = false ∧
      p.activeIncarnation < p.nextIncarnation ∧ p.retired = false ∧ p.activeBoot ∉ owners) ∧
    out = owners ++ (if p.hasActiveBoot then [p.activeBoot] else []) := by
  unfold validateActive
  by_cases h : p.hasActiveBoot = true
  · simp [h, and_assoc]
  · simp [h]

theorem validateExtra_ok {e : ActiveIncarnation} : validateExtra p owners e = .ok out ↔
    (e.boot.isNil = false ∧ e.boot ≠ p.activeBoot ∧
      p.extraIncarnations.countP (·.boot == e.boot) ≤ 1 ∧ e.sequence < p.nextIncarnation) ∧
    e.boot ∉ owners ∧ out = owners ++ [e.boot] := by
  simp [validateExtra, and_assoc]

theorem validateParticipantBody_ok : validateParticipantBody p = .ok () ↔
    ¬ (p.retired = true ∧ p.hasActiveBoot = true) ∧ p.incarnationFloor < p.nextIncarnation ∧
      (∀ b ∈ p.fencedBoots, b ∉ p.liveBoots) ∧
      ¬ (p.hasActiveBoot = true ∧ p.nextIncarnation ≤ p.activeIncarnation) ∧
      p.live.length ≤ kAbsoluteMaxRecords := by
  have hlen : p.live.length =
      p.extraIncarnations.length + (if p.hasActiveBoot then 1 else 0) := by
    unfold DurableParticipant.live
    split <;> simp
  unfold validateParticipantBody
  rw [bind_refuseIf, bind_refuseIf, bind_ok]
  simp only [bind_refuseIf, refuseIf_ok, checkAll_ok fun b => validateFencedNotLive_ok (p := p),
    counter_not_le_iff, Nat.not_lt, gt_iff_lt, hlen]
  constructor
  · rintro ⟨h₁, h₂, u, h₃, h₄, h₅⟩
    exact ⟨h₁, h₂, h₃, h₄, h₅⟩
  · rintro ⟨h₁, h₂, h₃, h₄, h₅⟩
    exact ⟨h₁, h₂, (), h₃, h₄, h₅⟩

theorem validateRetainedBoot_ok (seen : List WorkerBootId) (b : WorkerBootId)
    (out : List WorkerBootId) :
    validateRetainedBoot seen b = .ok out ↔ b.isNil = false ∧ b ∉ seen ∧ out = seen ++ [b] := by
  simp [validateRetainedBoot]

theorem validateAttempt_ok (seen : List MutationAttemptId) (r : IdempotencyRecord)
    (out : List MutationAttemptId) :
    validateAttempt seen r = .ok out ↔
      r.attempt.isNil = false ∧ r.attempt ∉ seen ∧ out = seen ++ [r.attempt] := by
  simp [validateAttempt]

theorem validateParticipantTables_ok : validateParticipantTables p = .ok () ↔
    p.idempotency.length ≤ kAbsoluteMaxRecords ∧ p.fencedBoots.length ≤ kAbsoluteMaxRecords ∧
      ((∀ b ∈ p.fencedBoots, b.isNil = false) ∧ p.fencedBoots.Nodup) ∧
      (∀ r ∈ p.idempotency, r.attempt.isNil = false) ∧
      (p.idempotency.map (·.attempt)).Nodup := by
  unfold validateParticipantTables
  rw [bind_refuseIf, bind_refuseIf, bind_discard, bind_discard,
    insertAll_key_accepts validateRetainedBoot_ok,
    insertAll_key_accepts validateAttempt_ok, Nat.not_lt, Nat.not_lt, List.map_id',
    pure_ok, eq_self_iff_true, and_true]

/-- The extra incarnations bind boots that are new and pairwise different. -/
theorem validateExtras_ok (howners : owners.Nodup) :
    insertAll (validateExtra p) owners p.extraIncarnations = .ok out ↔
      (∀ e ∈ p.extraIncarnations, e.boot.isNil = false ∧ e.boot ≠ p.activeBoot ∧
        e.sequence < p.nextIncarnation) ∧
      out = owners ++ p.extraIncarnations.map (·.boot) ∧ out.Nodup := by
  have hstep : ∀ (seen : List WorkerBootId) (e : ActiveIncarnation) (out : List WorkerBootId),
      seen.Nodup → (validateExtra p seen e = .ok out ↔
        (e.boot.isNil = false ∧ e.boot ≠ p.activeBoot ∧
          p.extraIncarnations.countP (·.boot == e.boot) ≤ 1 ∧ e.sequence < p.nextIncarnation) ∧
        out = seen ++ [e.boot] ∧ out.Nodup) := by
    intro seen e out hseen
    rw [validateExtra_ok]
    refine and_congr_right fun _ => ?_
    constructor
    · rintro ⟨hnew, rfl⟩
      refine ⟨rfl, List.nodup_append.mpr ⟨hseen, by simp, ?_⟩⟩
      rintro b hb c hc rfl
      exact hnew (List.mem_singleton.mp hc ▸ hb)
    · rintro ⟨rfl, hn⟩
      exact ⟨fun hb => (List.nodup_append.mp hn).2.2 _ hb _ (List.mem_singleton_self _) rfl, rfl⟩
  rw [insertAll_ok hstep howners, ← List.map_eq_flatMap]
  constructor
  · rintro ⟨hall, hout, hn⟩
    exact ⟨fun e he => ⟨(hall e he).1, (hall e he).2.1, (hall e he).2.2.2⟩, hout, hn⟩
  · rintro ⟨hall, hout, hn⟩
    refine ⟨fun e he => ⟨(hall e he).1, (hall e he).2.1, ?_, (hall e he).2.2⟩, hout, hn⟩
    -- the boots are pairwise different, so no other element carries this one
    have hboots : (p.extraIncarnations.map (·.boot)).Nodup := by
      rw [hout] at hn
      exact (List.nodup_append.mp hn).2.1
    have hcount := List.nodup_iff_count_le_one.mp hboots e.boot
    rwa [List.count, List.countP_map] at hcount

/-- **One participant record.** -/
theorem validateParticipant_ok {ids ids' : List ParticipantId} (howners : owners.Nodup) :
    validateParticipant state ids owners p = .ok (ids', out) ↔
      ValidParticipant state p ∧ p.id ∉ ids ∧ ids' = ids ++ [p.id] ∧
      out = owners ++ p.liveBoots ∧ out.Nodup := by
  unfold validateParticipant validateParticipantHeader
  rw [bind_refuseIf, bind_refuseIf, bind_discard, bind_ok]
  simp only [validateActive_ok]
  constructor
  · rintro ⟨hid, hnew, ⟨u, hheader⟩, owners', ⟨hactive, rfl⟩, hrest⟩
    rw [bind_refuseIf, refuseIf_ok, counter_gt_iff, counter_gt_iff] at hheader
    obtain ⟨⟨u', hbody⟩, hrest⟩ := bind_discard.mp hrest
    obtain ⟨-, halloc, hfenced, -, hcount⟩ := validateParticipantBody_ok.mp hbody
    obtain ⟨owners'', hextra, hrest⟩ := bind_ok.mp hrest
    obtain ⟨⟨u'', htables⟩, hrest⟩ := bind_discard.mp hrest
    obtain ⟨ha₁, hf₁, hf₂, ha₂, ha₃⟩ := validateParticipantTables_ok.mp htables
    rw [pure_ok] at hrest
    obtain ⟨rfl, rfl⟩ := Prod.mk.inj hrest
    have hactiveOwners : (owners ++ if p.hasActiveBoot then [p.activeBoot] else []).Nodup := by
      by_cases h : p.hasActiveBoot = true
      · have hb := (hactive h).2.2.2
        rw [if_pos h]
        refine List.nodup_append.mpr ⟨howners, by simp, ?_⟩
        rintro b hb' c hc rfl
        exact hb (List.mem_singleton.mp hc ▸ hb')
      · simpa [h] using howners
    obtain ⟨hextras, rfl, hn⟩ := (validateExtras_ok hactiveOwners).mp hextra
    have hout : (owners ++ if p.hasActiveBoot then [p.activeBoot] else []) ++
        p.extraIncarnations.map (·.boot) = owners ++ p.liveBoots := by
      rw [List.append_assoc]
      rfl
    refine ⟨⟨by simpa using hid, hheader.1, hheader.2, fun h => ?_, halloc, hfenced, hcount,
      hextras, ha₁, hf₁, hf₂, ha₂, ha₃⟩, hnew, rfl, hout, hn⟩
    exact ⟨(hactive h).1, (hactive h).2.1, (hactive h).2.2.1⟩
  · rintro ⟨hv, hnew, rfl, rfl, hn⟩
    have hout : (owners ++ if p.hasActiveBoot then [p.activeBoot] else []) ++
        p.extraIncarnations.map (·.boot) = owners ++ p.liveBoots := by
      rw [List.append_assoc]
      rfl
    rw [← hout] at hn
    have hactiveOwners := (List.nodup_append.mp hn).1
    refine ⟨by simpa using hv.idNonempty, hnew, ⟨(), ?_⟩, _, ⟨fun h => ?_, rfl⟩, ?_⟩
    · rw [bind_refuseIf, refuseIf_ok, counter_gt_iff, counter_gt_iff]
      exact ⟨hv.registrationFloor, hv.fenceFloor⟩
    · obtain ⟨h₁, h₂, h₃⟩ := hv.active h
      refine ⟨h₁, h₂, h₃, fun hb => ?_⟩
      rw [if_pos h] at hactiveOwners
      exact (List.nodup_append.mp hactiveOwners).2.2 _ hb _ (List.mem_singleton_self _) rfl
    · refine bind_discard.mpr ⟨⟨(), validateParticipantBody_ok.mpr ⟨?_, hv.allocator,
        hv.fencedNotLive, ?_, hv.liveCount⟩⟩, ?_⟩
      · rintro ⟨hr, ha⟩
        have := (hv.active ha).2.2
        rw [hr] at this
        cases this
      · rintro ⟨ha, hle⟩
        exact Nat.lt_irrefl _ (Nat.lt_of_lt_of_le (hv.active ha).2.1 hle)
      · refine bind_ok.mpr ⟨_, (validateExtras_ok hactiveOwners).mpr ⟨hv.extras, rfl, hn⟩, ?_⟩
        refine bind_discard.mpr ⟨⟨(), validateParticipantTables_ok.mpr
          ⟨hv.attemptCount, hv.fencedCount, hv.fencedBoots, hv.attempts.1, hv.attempts.2⟩⟩, ?_⟩
        rw [pure_ok, hout]

theorem validateParticipants_ok {ids : List ParticipantId} {ps : List DurableParticipant}
    (hids : ids.Nodup) (howners : owners.Nodup) :
    validateParticipants state ids owners ps = .ok () ↔
      (∀ p ∈ ps, ValidParticipant state p) ∧ (ids ++ ps.map (·.id)).Nodup ∧
      (owners ++ ps.flatMap (·.liveBoots)).Nodup := by
  induction ps generalizing ids owners with
  | nil => simp [validateParticipants, hids, howners]
  | cons p ps ih =>
    have hcat : ids ++ (p :: ps).map (·.id) = (ids ++ [p.id]) ++ ps.map (·.id) := by simp
    have hcat' : owners ++ (p :: ps).flatMap (·.liveBoots) =
        (owners ++ p.liveBoots) ++ ps.flatMap (·.liveBoots) := by simp
    rw [validateParticipants, bind_ok, hcat, hcat']
    constructor
    · rintro ⟨⟨ids', owners'⟩, hp, hps⟩
      obtain ⟨hv, hnew, rfl, rfl, hn⟩ := (validateParticipant_ok howners).mp hp
      have hids' : (ids ++ [p.id]).Nodup := by
        refine List.nodup_append.mpr ⟨hids, by simp, ?_⟩
        rintro i hi j hj rfl
        exact hnew (List.mem_singleton.mp hj ▸ hi)
      obtain ⟨hvs, hn₁, hn₂⟩ := (ih hids' hn).mp hps
      exact ⟨List.forall_mem_cons.mpr ⟨hv, hvs⟩, hn₁, hn₂⟩
    · rintro ⟨hvs, hn₁, hn₂⟩
      obtain ⟨hv, hvs⟩ := List.forall_mem_cons.mp hvs
      have hids' := (List.nodup_append.mp hn₁).1
      have howners' := (List.nodup_append.mp hn₂).1
      refine ⟨(ids ++ [p.id], owners ++ p.liveBoots), ?_, (ih hids' howners').mpr ⟨hvs, hn₁, hn₂⟩⟩
      refine (validateParticipant_ok howners).mpr ⟨hv, fun h => ?_, rfl, rfl, howners'⟩
      exact (List.nodup_append.mp hids').2.2 _ h _ (List.mem_singleton_self _) rfl

theorem maximum_le {l : List Nat} {m : Nat} : maximum l ≤ m ↔ ∀ n ∈ l, n ≤ m := by
  have h : ∀ k, l.foldl max k ≤ m ↔ k ≤ m ∧ ∀ n ∈ l, n ≤ m := by
    induction l with
    | nil => simp
    | cons a l ih =>
      intro k
      rw [List.foldl_cons, ih, max_le_iff, List.forall_mem_cons, and_assoc]
  rw [maximum, h]
  simp

theorem validateFence_ok (state : DurableState) (seen : List (ParticipantId × WorkerBootId)) (f : FenceRecord)
    (out : List (ParticipantId × WorkerBootId)) :
    validateFence state seen f = .ok out ↔
      (f.boot.isNil = false ∧ f.generation ≤ state.fenceFloor ∧ f.epoch ≤ state.currentEpoch) ∧
      (f.participant, f.boot) ∉ seen ∧ out = seen ++ [(f.participant, f.boot)] := by
  simp [validateFence, and_assoc]

theorem validateGrant_ok (state : DurableState) (seen : List AuthorityGrantId) (g : AuthorityGrant)
    (out : List AuthorityGrantId) :
    validateGrant state seen g = .ok out ↔
      (g.id.isNil = false ∧ g.epoch ≤ state.currentEpoch ∧ g.scopes.empty = false ∧
        g.scopes.size ≤ kAbsoluteMaxScopesPerSet ∧
        (g.revoked = true → g.revokedAtEpoch ≤ state.currentEpoch) ∧
        (g.revoked = false → g.boot.isNil = false)) ∧
      g.id ∉ seen ∧ out = seen ++ [g.id] := by
  simp only [validateGrant, bind_refuseIf, pure_ok, counter_gt_iff, not_and, Nat.not_lt, gt_iff_lt,
    Bool.not_eq_true]
  constructor
  · rintro ⟨h₁, h₂, h₃, h₄, h₅, h₆, h₇, h₈⟩
    refine ⟨⟨h₁, h₃, h₄, h₅, h₆, fun hr => ?_⟩, h₂, h₈⟩
    by_contra hb
    exact h₇ (by simpa using hb) hr
  · rintro ⟨⟨h₁, h₃, h₄, h₅, h₆, h₇⟩, h₂, h₈⟩
    refine ⟨h₁, h₂, h₃, h₄, h₅, h₆, fun hb hr => ?_, h₈⟩
    rw [h₇ hr] at hb
    cases hb

theorem validateParent_ok {ids : List AuthorityGrantId} {g : AuthorityGrant} :
    validateParent ids g = .ok () ↔
      ∀ parent, g.parent = some parent → parent ∈ ids ∧ parent ≠ g.id := by
  rw [validateParent, bind_refuseIf, refuseIf_ok]
  constructor
  · rintro ⟨hpresent, hself⟩ parent hparent
    refine ⟨by_contra fun h => hpresent ⟨parent, hparent, h⟩, ?_⟩
    rintro rfl
    exact hself hparent
  · intro h
    refine ⟨fun ⟨parent, hparent, hmiss⟩ => hmiss (h parent hparent).1, fun hself => ?_⟩
    exact (h g.id hself).2 rfl

theorem validateControl_ok (seen : List MutationAttemptId) (r : IdempotencyRecord)
    (out : List MutationAttemptId) :
    validateControl seen r = .ok out ↔
      (r.attempt.isNil = false ∧ (r.operation = .advanceEpoch ∨ r.operation = .revokeAuthority)) ∧
      r.attempt ∉ seen ∧ out = seen ++ [r.attempt] := by
  simp only [validateControl, bind_refuseIf, pure_ok, and_assoc, Bool.not_eq_true, not_and_or,
    not_not]

theorem validateTransitionId_ok (seen : List EpochTransitionId) (t : EpochTransitionRecord)
    (out : List EpochTransitionId) :
    validateTransitionId seen t = .ok out ↔ t.id.isNil = false ∧ t.id ∉ seen ∧
      out = seen ++ [t.id] := by
  simp [validateTransitionId]

theorem validateCeilings_ok : validateCeilings state = .ok () ↔ WithinCeilings state := by
  simp only [validateCeilings, bind_refuseIf, refuseIf_ok, Nat.not_lt, gt_iff_lt]
  constructor
  · rintro ⟨h₁, h₂, h₃, h₄⟩
    exact ⟨h₁, h₂, h₃, h₄⟩
  · rintro ⟨h₁, h₂, h₃, h₄⟩
    exact ⟨h₁, h₂, h₃, h₄⟩

/-- **An established store.** -/
theorem validateEstablished_ok : validateEstablished state = .ok () ↔ ValidEstablished state := by
  unfold validateEstablished
  rw [bind_discard, bind_refuseIf, bind_discard, bind_refuseIf, bind_refuseIf, bind_discard,
    bind_ok]
  constructor
  · rintro ⟨⟨_, ht⟩, hgen, ⟨_, hp⟩, hmaxr, hmaxf, hf, ids, hgrants, hrest⟩
    obtain ⟨hg, rfl, hgn⟩ := (insertAll_key_ok (validateGrant_ok state)).mp hgrants
    rw [bind_discard, bind_refuseIf, bind_discard, bind_discard] at hrest
    obtain ⟨⟨_, hparent⟩, hcount, hcontrol, htid, -⟩ := hrest
    rw [checkAll_ok fun _ => validateTransition_ok] at ht
    rw [validateParticipants_ok List.nodup_nil List.nodup_nil] at hp
    rw [insertAll_key_accepts (validateFence_ok state)] at hf
    rw [checkAll_ok fun _ => validateParent_ok] at hparent
    rw [insertAll_key_accepts validateControl_ok] at hcontrol
    rw [insertAll_key_accepts validateTransitionId_ok] at htid
    exact ⟨ht, Nat.not_lt.mp hgen, hp.1, hp.2.1, hp.2.2, hf.1, hf.2, hg, hgn, hparent,
      Nat.not_lt.mp hcount, hcontrol.1, hcontrol.2, htid⟩
  · intro h
    refine ⟨⟨(), ?_⟩, Nat.not_lt.mpr h.generation, ⟨(), ?_⟩, Nat.not_lt.mpr ?_, Nat.not_lt.mpr ?_,
      ?_, _, (insertAll_key_ok (validateGrant_ok state)).mpr ⟨h.grants, rfl, h.grantIds⟩, ?_⟩
    · exact (checkAll_ok fun _ => validateTransition_ok).mpr h.transitions
    · exact (validateParticipants_ok List.nodup_nil List.nodup_nil).mpr
        ⟨h.participants, h.participantIds, h.liveBoots⟩
    · refine maximum_le.mpr fun n hn => ?_
      obtain ⟨p, hp, rfl⟩ := List.mem_map.mp hn
      exact (h.participants p hp).registrationFloor
    · refine maximum_le.mpr fun n hn => ?_
      obtain ⟨p, hp, rfl⟩ := List.mem_map.mp hn
      exact (h.participants p hp).fenceFloor
    · exact (insertAll_key_accepts (validateFence_ok state)).mpr ⟨h.fences, h.fenceKeys⟩
    · rw [bind_discard, bind_refuseIf, bind_discard, bind_discard]
      exact ⟨⟨(), (checkAll_ok fun _ => validateParent_ok).mpr h.parents⟩,
        Nat.not_lt.mpr h.controlCount,
        (insertAll_key_accepts validateControl_ok).mpr
          ⟨h.controls, h.controlAttempts⟩,
        (insertAll_key_accepts validateTransitionId_ok).mpr h.transitionIds, rfl⟩

end Parts

/-- **The validator accepts exactly the valid states.** -/
theorem validateDurableState_ok {state : DurableState} :
    validateDurableState state = .ok () ↔ ValidDurable state := by
  rw [validateDurableState, bind_discard]
  constructor
  · rintro ⟨⟨_, hc⟩, hrest⟩
    refine ⟨validateCeilings_ok.mp hc, fun h0 => ?_, fun h0 => ?_⟩
    · rw [if_pos (MonotonicCounter.isZero_iff.mpr h0), refuseIf_ok, not_not] at hrest
      exact hrest
    · rw [if_neg (fun h => h0 (MonotonicCounter.isZero_iff.mp h))] at hrest
      exact validateEstablished_ok.mp hrest
  · intro h
    refine ⟨⟨(), validateCeilings_ok.mpr h.ceilings⟩, ?_⟩
    by_cases h0 : state.currentEpoch.value = 0
    · rw [if_pos (MonotonicCounter.isZero_iff.mpr h0), refuseIf_ok, not_not]
      exact h.pristine h0
    · rw [if_neg (fun h => h0 (MonotonicCounter.isZero_iff.mp h))]
      exact validateEstablished_ok.mpr (h.established h0)

end FabricEpoch
