import FabricEpoch.Runtime.Fencing

/-!
# Registration

`applyRegistration` admits a worker boot as a new incarnation of a participant.
The checks come in the order of the source, each with its own outcome:

- `malformedRegistration`: the request alone and the options;
- `staleRegistration`: the epoch, retirement and fencing of the boot;
- `conflictingRegistration`: what the existing participant says (replay,
  generation, policy, a boot that is already live);
- `replaceIncumbent`: the live incarnation of a single-incarnation participant;
- `commitRegistration`: creation or re-registration, with its undo actions.
-/

namespace FabricEpoch

open Table Transaction

namespace Impl

/-- The result every registration starts from. -/
def registrationResult (impl : Impl) (outcome : RegistrationOutcome) (explanation : Explanation) :
    RegistrationResult where
  outcome := outcome
  epoch := impl.state.currentEpoch
  coordinatorBoot := impl.state.coordinatorBoot
  explanation := explanation

/-- The checks that look at the request and the options alone. -/
def malformedRegistration (impl : Impl) (request : RegisterParticipantRequest) :
    Option RegistrationResult :=
  let limits := impl.options.limits
  let refuse (outcome : RegistrationOutcome) (explanation : Explanation) :=
    some (impl.registrationResult outcome explanation)
  let malformed (reason : String) :=
    refuse .malformedRequest
      ((Explanation.ofCode .malformedRequest).withDetail "reason" (str reason))
  if request.attempt.isNil then malformed "attempt identifier is nil"
  else if request.participant.empty then malformed "participant identifier is empty"
  else if request.boot.isNil then malformed "worker boot identifier is nil"
  else if !BoundedText.isValid request.provenance.text limits.maxStringSize then
    malformed "provenance text exceeds the configured bound"
  else if request.scopes.empty then malformed "registration binds no authority scope"
  else if request.scopes.size > limits.maxScopesPerGrant then
    refuse .resourceLimit ((Explanation.ofCode .resourceLimitReached)
      |>.withDetail "limit" (str "max_scopes_per_grant")
      |>.withDetail "requested" (natText request.scopes.size))
  else if request.policy = .multiIncarnation ∧ impl.options.allowMultiIncarnation = false then
    refuse .unauthorizedScope ((Explanation.ofCode .scopeMissing)
      |>.withDetail "reason" (str "multi-incarnation participation is not enabled")
      |>.withDetail "policy" request.policy.toText)
  else
    match request.scopes.scopes.find? fun s => !impl.options.registrableScopeKinds s.kind with
    | some scope =>
      refuse .unauthorizedScope ((Explanation.ofCode .scopeMissing)
        |>.withDetail "scope" scope.toText
        |>.withDetail "reason" (str "scope kind is not registrable by participants"))
    | none => none

/-- Epoch currentness, before anything is learned from the replay table, then
retirement and fencing. -/
def staleRegistration (impl : Impl) (request : RegisterParticipantRequest) :
    Option RegistrationResult :=
  let refuse (outcome : RegistrationOutcome) (explanation : Explanation) :=
    some (impl.registrationResult outcome explanation)
  if request.expectedEpoch ≠ impl.state.currentEpoch then
    refuse .staleEpoch ((Explanation.ofCode .epochStale)
      |>.withDetail "request_epoch" request.expectedEpoch.toText
      |>.withDetail "current_epoch" impl.state.currentEpoch.toText)
  else
    match impl.findParticipant request.participant with
    | none => none
    | some participant =>
      if participant.retired then
        refuse .retiredParticipant
          ((Explanation.ofCode .participantRetired).withDetail "participant" request.participant.text)
      else
        let fence := impl.lookupFence request.participant request.boot
        if fence.fenced then
          refuse .staleWorkerBoot ((Explanation.ofCode .workerBootFenced)
            |>.withDetail "boot" request.boot.toText
            |>.withDetail "fence_reason"
              ((fence.record.map (·.reason.toText)).getD (str "RETAINED")))
        else none

/-- The answer of the replay table. -/
def replayedRegistration (impl : Impl) (request : RegisterParticipantRequest)
    (digest : SnapshotDigest) (previous : IdempotencyRecord) : RegistrationResult :=
  if previous.semantic ≠ digest then
    impl.registrationResult .conflictingAttempt ((Explanation.ofCode .attemptConflict)
      |>.withDetail "attempt" request.attempt.toText
      |>.withDetail "reason" (str "attempt identifier reused with a different payload"))
  else
    let outcome := RegistrationOutcome.ofRaw previous.outcome
    { impl.registrationResult outcome ((Explanation.ofCode .registrationIdempotentReplay)
        |>.withDetail "attempt" request.attempt.toText
        |>.withDetail "outcome" outcome.toText
        |>.withDetail "registration_generation"
          (if previous.auxiliary ≠ 0 then natText previous.auxiliary.toNat else str "NONE")) with
      registrationGeneration := some (MonotonicCounter.ofRaw previous.auxiliary)
      incarnation := if previous.auxiliaryHigh ≠ 0 then
        some (MonotonicCounter.ofRaw previous.auxiliaryHigh) else none
      replayed := true }

/-- The checks against the existing participant record. -/
def conflictingRegistration (impl : Impl) (participant : DurableParticipant)
    (request : RegisterParticipantRequest) (digest : SnapshotDigest) : Option RegistrationResult :=
  match findAttempt participant.idempotency request.attempt with
  | some previous => some (impl.replayedRegistration request digest previous)
  | none =>
    match request.expectedRegistrationGeneration with
    | some expected =>
      if expected ≠ participant.registrationGeneration then
        some (impl.registrationResult .revalidationRequired ((Explanation.ofCode .generationMismatch)
          |>.withDetail "expected" expected.toText
          |>.withDetail "current" participant.registrationGeneration.toText))
      else conflictingIncarnation impl participant request
    | none => conflictingIncarnation impl participant request
where
  conflictingIncarnation (impl : Impl) (participant : DurableParticipant)
      (request : RegisterParticipantRequest) : Option RegistrationResult :=
    if participant.policy ≠ request.policy then
      some (impl.registrationResult .conflictingIncarnation
        ((Explanation.ofCode .incarnationConflict)
          |>.withDetail "reason" (str "participant is registered with a different incarnation policy")
          |>.withDetail "current_policy" participant.policy.toText
          |>.withDetail "requested_policy" request.policy.toText))
    else
      match participant.findIncarnation request.boot with
      | some incarnation =>
        some { impl.registrationResult .alreadyActive ((Explanation.ofCode .incarnationConflict)
            |>.withDetail "reason" (str "this worker boot already holds a current incarnation")
            |>.withDetail "boot" request.boot.toText) with
          registrationGeneration := some participant.registrationGeneration
          incarnation := some incarnation }
      | none => none

/-! ## The committed mutation -/

/-- The record a fresh participant starts from. -/
def createParticipant (id : ParticipantId) (policy : IncarnationPolicy) (impl : Impl) : Impl :=
  { impl.mapState fun s =>
      { s with participants := s.participants ++ [DurableParticipant.fresh id policy] } with
    participantIndex := fun i =>
      if i = id then some impl.state.participants.length else impl.participantIndex i }

/-- `participants.pop_back()`. -/
def popParticipant (impl : Impl) : Impl :=
  impl.mapState fun s => { s with participants := s.participants.dropLast }

/-- The undo of a re-registration: the whole record, found by identifier. -/
def restoreParticipant (id : ParticipantId) (previous : DurableParticipant) (impl : Impl) : Impl :=
  rawUpdateParticipant id (fun _ => previous) impl

def setRegistrationFloor (generation : RegistrationGeneration) (impl : Impl) : Impl :=
  impl.mapState fun s => { s with registrationFloor := generation }

/-- The live set and its count take in the boot. -/
def bindBoot (id : ParticipantId) (boot : WorkerBootId) (impl : Impl) : Impl :=
  { impl with
    activeWorkers := impl.activeWorkers + 1
    bootIndex := fun b => if b = boot then impl.participantIndex id else impl.bootIndex b }

end Impl

/-- The replay record of an accepted registration. -/
def RegisterParticipantRequest.record (request : RegisterParticipantRequest)
    (digest : SnapshotDigest) (generation : RegistrationGeneration)
    (incarnation : IncarnationSequence) : IdempotencyRecord where
  attempt := request.attempt
  operation := .registerParticipant
  semantic := digest
  outcome := UInt16.ofNat RegistrationOutcome.registered.toWire
  auxiliary := generation.raw
  auxiliaryHigh := incarnation.raw

namespace DurableParticipant

/-- Put an incarnation into the active slot, or behind the extra ones. -/
def addIncarnation (boot : WorkerBootId) (incarnation : IncarnationSequence)
    (generation : RegistrationGeneration) (p : DurableParticipant) : DurableParticipant :=
  if p.hasActiveBoot then
    { p with extraIncarnations := p.extraIncarnations ++ [⟨boot, incarnation, generation⟩] }
  else
    { p with hasActiveBoot := true, activeBoot := boot, activeIncarnation := incarnation }

/-- `remember_attempt` on the table of the participant. -/
def remember (limits : Limits) (record : IdempotencyRecord) (p : DurableParticipant) :
    DurableParticipant :=
  { p with idempotency := rememberAttempt limits record p.idempotency }

/-- Everything an accepted registration does to the record. -/
def register (limits : Limits) (request : RegisterParticipantRequest) (digest : SnapshotDigest)
    (generation : RegistrationGeneration) (incarnation next : IncarnationSequence)
    (p : DurableParticipant) : DurableParticipant :=
  ({ p with
      registrationGeneration := generation
      nextIncarnation := next
      policy := request.policy
      scopes := request.scopes
      revalidationRequired := false
      retired := false
      acceptedRegistrations := p.acceptedRegistrations + 1 }.addIncarnation
    request.boot incarnation generation).remember limits
      (request.record digest generation incarnation)

end DurableParticipant

/-! ## The operation -/

/-- The record a registration works on: a fresh one, or the existing one. -/
def openRecord (request : RegisterParticipantRequest) (participant : Option DurableParticipant) :
    Op DurableParticipant :=
  match participant with
  | none => do
    Action.modify (Impl.createParticipant request.participant request.policy)
    Action.pushUndo Impl.popParticipant
    return DurableParticipant.fresh request.participant request.policy
  | some previous => do
    Action.pushUndo (Impl.restoreParticipant request.participant previous)
    return previous

/-- The part of a registration that mutates. -/
def commitRegistration (request : RegisterParticipantRequest) (digest : SnapshotDigest)
    (participant : Option DurableParticipant) (commitGeneration : Bool) :
    Op RegistrationResult := do
  let record ← openRecord request participant
  let impl ← Action.current
  let generation ← Action.orFail impl.state.registrationFloor.next
    (overflow "registration generation counter is exhausted")
  Action.pushUndo (Impl.setRegistrationFloor impl.state.registrationFloor)
  Action.modify (Impl.setRegistrationFloor generation)
  let incarnation := record.nextIncarnation
  let next ← Action.orFail incarnation.next
    (overflow "incarnation sequence counter is exhausted for this participant")
  Action.modify fun impl => Impl.bindBoot request.participant request.boot
    (impl.updateParticipant request.participant
      (·.register impl.options.limits request digest generation incarnation next))
  bumpWhen commitGeneration
  Action.markMutated
  return { impl.registrationResult .registered ((Explanation.ofCode .registrationAccepted)
      |>.withDetail "participant" request.participant.text
      |>.withDetail "boot" request.boot.toText
      |>.withDetail "epoch" impl.state.currentEpoch.toText
      |>.withDetail "incarnation" incarnation.toText
      |>.withDetail "registration_generation" generation.toText
      |>.withDetail "scopes" request.scopes.toText) with
    registrationGeneration := some generation
    incarnation := some incarnation }

/-- The active-worker limit, then the mutation. -/
def admitRegistration (request : RegisterParticipantRequest) (digest : SnapshotDigest)
    (participant : Option DurableParticipant) (commitGeneration : Bool) :
    Op RegistrationResult := do
  let impl ← Action.current
  if impl.activeWorkers ≥ impl.options.limits.maxActiveWorkers then
    return impl.registrationResult .resourceLimit ((Explanation.ofCode .resourceLimitReached)
      |>.withDetail "limit" (str "max_active_workers")
      |>.withDetail "current" (natText impl.activeWorkers))
  else commitRegistration request digest participant commitGeneration

/-- What happens to the incumbent of a single-incarnation participant: a
refusal, or a fence in the same transaction. -/
def replaceIncumbent (request : RegisterParticipantRequest) (participant : DurableParticipant) :
    Op (Option RegistrationResult) :=
  match participant.incumbent with
  | some incumbent =>
    if participant.policy = .singleIncarnation then do
      let impl ← Action.current
      match impl.options.replacementPolicy with
      | .requireExplicitFence =>
        return some (impl.registrationResult .conflictingIncarnation
          ((Explanation.ofCode .incarnationConflict)
            |>.withDetail "reason" (str "a live incarnation already holds authority")
            |>.withDetail "incumbent" incumbent.toText
            |>.withDetail "policy" impl.options.replacementPolicy.toText))
      | .replaceIncumbent =>
        let fence ← recordFence request.participant incumbent .reincarnation .blank false
        if fence.outcome ≠ .fenced ∧ fence.outcome ≠ .alreadyFenced then
          return some (impl.registrationResult .conflictingIncarnation
            ((Explanation.ofCode .incarnationConflict)
              |>.withDetail "reason" (str "incumbent could not be fenced atomically")
              |>.withDetail "fence_outcome" fence.outcome.toText))
        else return none
    else return none
  | none => return none

/-- Registration of a participant that exists. -/
def registerExisting (request : RegisterParticipantRequest) (digest : SnapshotDigest)
    (participant : DurableParticipant) (commitGeneration : Bool) : Op RegistrationResult := do
  match ← replaceIncumbent request participant with
  | some result => return result
  | none =>
    let impl ← Action.current
    match impl.findParticipant request.participant with
    | some participant => admitRegistration request digest (some participant) commitGeneration
    | none =>
      Action.fail (invariant "participant disappeared while replacing an incumbent incarnation")

/-- Registration of a participant that does not exist yet. -/
def registerNew (request : RegisterParticipantRequest) (digest : SnapshotDigest)
    (commitGeneration : Bool) : Op RegistrationResult := do
  let impl ← Action.current
  if impl.state.participants.length ≥ impl.options.limits.maxParticipants then
    return impl.registrationResult .resourceLimit ((Explanation.ofCode .resourceLimitReached)
      |>.withDetail "limit" (str "max_participants")
      |>.withDetail "current" (natText impl.state.participants.length))
  else admitRegistration request digest none commitGeneration

/-- `apply_registration`. -/
def applyRegistration (request : RegisterParticipantRequest) (commitGeneration : Bool) :
    Op RegistrationResult := do
  let impl ← Action.current
  match impl.malformedRegistration request, impl.staleRegistration request with
  | some result, _ => return result
  | none, some result => return result
  | none, none =>
    let digest ← Action.ofExcept (computeSemanticDigest request.semantic)
    match impl.findParticipant request.participant with
    | some participant =>
      match impl.conflictingRegistration participant request digest with
      | some result => return result
      | none => registerExisting request digest participant commitGeneration
    | none => registerNew request digest commitGeneration

/-- The elements of a batch, one after the other. -/
def applyRegistrations : List RegisterParticipantRequest → Op (List RegistrationResult)
  | [] => return []
  | request :: requests => do
    let result ← applyRegistration request false
    let results ← applyRegistrations requests
    return result :: results

/-- The operation of `register_participants`: one generation for the batch. -/
def registerBatch (requests : List RegisterParticipantRequest) : Op (List RegistrationResult) := do
  let results ← applyRegistrations requests
  bumpWhen (← Action.hasMutated)
  return results

/-! ## What a request that passes has shown -/

theorem conflictingIncarnation_none {impl : Impl} {p : DurableParticipant}
    {request : RegisterParticipantRequest}
    (h : Impl.conflictingRegistration.conflictingIncarnation impl p request = none) :
    p.policy = request.policy ∧ p.findIncarnation request.boot = none := by
  unfold Impl.conflictingRegistration.conflictingIncarnation at h
  split at h
  · cases h
  next hpolicy =>
  split at h
  · cases h
  next hfind => exact ⟨not_not.mp hpolicy, hfind⟩

theorem conflictingRegistration_none {impl : Impl} {p : DurableParticipant}
    {request : RegisterParticipantRequest} {digest : SnapshotDigest}
    (h : impl.conflictingRegistration p request digest = none) :
    findAttempt p.idempotency request.attempt = none ∧ p.policy = request.policy ∧
      p.findIncarnation request.boot = none := by
  unfold Impl.conflictingRegistration at h
  split at h
  · cases h
  next hattempt =>
  refine ⟨hattempt, ?_⟩
  split at h
  · split at h
    · cases h
    · exact conflictingIncarnation_none h
  · exact conflictingIncarnation_none h

end FabricEpoch
