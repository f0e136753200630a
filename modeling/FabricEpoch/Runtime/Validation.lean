import FabricEpoch.Runtime.State

/-!
# Authority validation

`validate` answers whether a token carries authority over a scope. It has two
paths: a request that names a grant is answered from the grant and from the
participant the grant belongs to (`validateNamedGrant`), any other from the
participant of the token (`validateToken`).

- `validate_current_iff`: exactly when the answer is current;
- `validateNamedGrant_current_iff`, `validateToken_current_iff`: the two paths;
- `evaluateIncarnation_current_iff`: what both ask of the incarnation.
-/

namespace FabricEpoch

namespace Impl

/-- The result every validation starts from, with the answer filled in. -/
def validation (impl : Impl) (code : AuthorityValidationCode) (currentness : AuthorityCurrentness)
    (explanation : Explanation) : AuthorityValidation where
  code := code
  currentness := currentness
  epoch := impl.state.currentEpoch
  coordinatorBoot := impl.state.coordinatorBoot
  explanation := explanation

/-! ## Through a named grant -/

/-- The last checks of the grant path: scope and generation. -/
def validateGrantScope (impl : Impl) (request : ValidateAuthorityRequest) (grant : AuthorityGrant)
    (owner : DurableParticipant) (incarnation : Option IncarnationSequence) :
    AuthorityValidation :=
  let answer (code : AuthorityValidationCode) (currentness : AuthorityCurrentness)
      (explanation : Explanation) :=
    { impl.validation code currentness explanation with
      incarnation
      registrationGeneration := some owner.registrationGeneration }
  if !grant.scopes.contains request.scope then
    answer .unauthorizedScope .current ((Explanation.ofCode .scopeMissing)
      |>.withDetail "scope" request.scope.toText
      |>.withDetail "grant" grant.id.toText)
  else
    match request.expectedGeneration with
    | some expected =>
      if grant.generation.value ≠ owner.registrationGeneration.value ∧
          expected ≠ owner.registrationGeneration then
        answer .revalidationRequired .revalidationRequired
          ((Explanation.ofCode .generationMismatch)
            |>.withDetail "expected" expected.toText
            |>.withDetail "current" owner.registrationGeneration.toText)
      else current answer
    | none => current answer
where
  current (answer : AuthorityValidationCode → AuthorityCurrentness → Explanation →
      AuthorityValidation) : AuthorityValidation :=
    answer .current .current ((Explanation.ofCode .authorityCurrent)
      |>.withDetail "grant" grant.id.toText
      |>.withDetail "epoch" impl.state.currentEpoch.toText
      |>.withDetail "scope" request.scope.toText)

/-- The grant path from the owner of the grant on. -/
def validateGrantOwner (impl : Impl) (request : ValidateAuthorityRequest) (grant : AuthorityGrant) :
    AuthorityValidation :=
  match impl.findParticipant grant.participant with
  | none =>
    impl.validation .unknownParticipant .unknown
      ((Explanation.ofCode .participantUnknown).withDetail "participant" grant.participant.text)
  | some owner =>
    let evaluation := impl.evaluateIncarnation owner request.token.boot request.token.incarnation
    if evaluation.code ≠ .current then
      { impl.validation evaluation.code evaluation.currentness
          ((Explanation.ofCode .workerBootFenced)
            |>.withDetail "boot" request.token.boot.toText
            |>.withDetail "currentness" evaluation.currentness.toText) with
        supersededBy := evaluation.supersededBy
        replacedByEpoch := evaluation.replacedByEpoch }
    else impl.validateGrantScope request grant owner evaluation.incarnation

/-- The path of a request that names a grant. -/
def validateNamedGrant (impl : Impl) (request : ValidateAuthorityRequest)
    (id : AuthorityGrantId) : AuthorityValidation :=
  match impl.findGrant id with
  | none =>
    impl.validation .unknownGrant .unknown ((Explanation.ofCode .grantSuperseded)
      |>.withDetail "grant" id.toText
      |>.withDetail "reason" (str "grant does not exist"))
  | some grant =>
    if grant.epoch ≠ impl.state.currentEpoch then
      { impl.validation .staleEpoch .staleEpoch ((Explanation.ofCode .epochStale)
          |>.withDetail "grant_epoch" grant.epoch.toText
          |>.withDetail "current_epoch" impl.state.currentEpoch.toText) with
        replacedByEpoch := some impl.state.currentEpoch }
    else if grant.revoked then
      impl.validation .revoked .revoked ((Explanation.ofCode .grantRevoked)
        |>.withDetail "grant" grant.id.toText
        |>.withDetail "revoked_at_epoch" grant.revokedAtEpoch.toText)
    else if grant.boot ≠ request.token.boot then
      { impl.validation .staleWorkerBoot .fenced ((Explanation.ofCode .workerBootSuperseded)
          |>.withDetail "token_boot" request.token.boot.toText
          |>.withDetail "grant_boot" grant.boot.toText) with
        supersededBy := some grant.boot }
    else impl.validateGrantOwner request grant

/-! ## Through the registration of the token's participant -/

/-- The explanation of an incarnation that is not current. -/
def explainNotCurrent (impl : Impl) (request : ValidateAuthorityRequest)
    (participant : DurableParticipant) (evaluation : IncarnationEvaluation) : Explanation :=
  let code : ExplanationCode :=
    if evaluation.currentness = .fenced then .workerBootFenced
    else if evaluation.currentness = .revalidationRequired then .revalidationRequired
    else .workerBootSuperseded
  let base := (Explanation.ofCode code)
    |>.withDetail "participant" participant.id.text
    |>.withDetail "boot" request.token.boot.toText
    |>.withDetail "currentness" evaluation.currentness.toText
    |>.withDetail "current_epoch" impl.state.currentEpoch.toText
  let base := evaluation.fenceReason.elim base fun reason =>
    base.withDetail "fence_reason" reason.toText
  let base := evaluation.supersededBy.elim base fun boot =>
    base.withDetail "superseded_by" boot.toText
  if participant.hasActiveBoot then
    base.withDetail "active_boot" participant.activeBoot.toText
  else base

/-- The last checks of the registration path: scope and generation. -/
def validateBoundScope (impl : Impl) (request : ValidateAuthorityRequest)
    (participant : DurableParticipant) (incarnation : Option IncarnationSequence) :
    AuthorityValidation :=
  let answer (code : AuthorityValidationCode) (currentness : AuthorityCurrentness)
      (explanation : Explanation) :=
    { impl.validation code currentness explanation with
      incarnation
      registrationGeneration := some participant.registrationGeneration }
  if !participant.scopes.contains request.scope then
    answer .unauthorizedScope .current ((Explanation.ofCode .scopeMissing)
      |>.withDetail "scope" request.scope.toText
      |>.withDetail "granted" participant.scopes.toText)
  else
    match request.expectedGeneration with
    | some expected =>
      if expected ≠ participant.registrationGeneration then
        answer .revalidationRequired .revalidationRequired
          ((Explanation.ofCode .generationMismatch)
            |>.withDetail "expected" expected.toText
            |>.withDetail "current" participant.registrationGeneration.toText)
      else current answer
    | none => current answer
where
  current (answer : AuthorityValidationCode → AuthorityCurrentness → Explanation →
      AuthorityValidation) : AuthorityValidation :=
    answer .current .current ((Explanation.ofCode .authorityCurrent)
      |>.withDetail "participant" participant.id.text
      |>.withDetail "boot" request.token.boot.toText
      |>.withDetail "epoch" impl.state.currentEpoch.toText
      |>.withDetail "scope" request.scope.toText)

/-- The path of a request that names no grant. -/
def validateToken (impl : Impl) (request : ValidateAuthorityRequest) : AuthorityValidation :=
  if request.token.epoch ≠ impl.state.currentEpoch then
    { impl.validation .staleEpoch .staleEpoch ((Explanation.ofCode .epochStale)
        |>.withDetail "token_epoch" request.token.epoch.toText
        |>.withDetail "current_epoch" impl.state.currentEpoch.toText) with
      replacedByEpoch := some impl.state.currentEpoch }
  else
    match impl.findParticipant request.token.participant with
    | none =>
      impl.validation .unknownParticipant .unknown
        ((Explanation.ofCode .participantUnknown).withDetail "participant"
          request.token.participant.text)
    | some participant =>
      if participant.retired then
        impl.validation .retired .retired
          ((Explanation.ofCode .participantRetired).withDetail "participant" participant.id.text)
      else
        let evaluation :=
          impl.evaluateIncarnation participant request.token.boot request.token.incarnation
        if evaluation.code ≠ .current then
          { impl.validation evaluation.code evaluation.currentness
              (impl.explainNotCurrent request participant evaluation) with
            registrationGeneration := some participant.registrationGeneration
            incarnation := evaluation.incarnation
            supersededBy := evaluation.supersededBy
            replacedByEpoch := evaluation.replacedByEpoch }
        else impl.validateBoundScope request participant evaluation.incarnation

/-- `validate`. -/
def validate (impl : Impl) (request : ValidateAuthorityRequest) : AuthorityValidation :=
  if request.token.participant.empty = true ∨ request.token.boot.isNil = true ∨
      request.token.incarnation.isZero = true then
    impl.validation .malformed .unknown ((Explanation.ofCode .malformedRequest).withDetail "reason"
      (str "authority token is structurally invalid"))
  else
    match request.grant with
    | some id => impl.validateNamedGrant request id
    | none => impl.validateToken request

end Impl

/-! ## When the answer is current -/

/-- The token has the shape every path asks for. -/
def AuthorityToken.WellShaped (token : AuthorityToken) : Prop :=
  token.participant.empty = false ∧ token.boot.isNil = false ∧ token.incarnation.value ≠ 0

instance (token : AuthorityToken) : Decidable token.WellShaped :=
  inferInstanceAs (Decidable (_ ∧ _))

/-- The generation the caller expects is the one of the participant. -/
def ValidateAuthorityRequest.Expects (request : ValidateAuthorityRequest)
    (generation : RegistrationGeneration) : Prop :=
  ∀ expected, request.expectedGeneration = some expected → expected = generation

/-- **The incarnation check**: the boot is a current incarnation, under the
claimed sequence unless that is zero. -/
theorem evaluateIncarnation_current_iff {impl : Impl} {participant : DurableParticipant}
    {boot : WorkerBootId} {claimed : IncarnationSequence} (hclaimed : claimed.value ≠ 0) :
    (impl.evaluateIncarnation participant boot claimed).code = .current ↔
      participant.findIncarnation boot = some claimed := by
  unfold Impl.evaluateIncarnation
  cases h : participant.findIncarnation boot with
  | some current =>
    by_cases hc : claimed = current
    · simp [hc]
    · simp [hclaimed, hc, Ne.symm hc]
  | none =>
    simp only [reduceCtorEq, iff_false]
    intro hcode
    repeat' split at hcode
    all_goals cases hcode

/-- The grant can be used with this token, as the grant path checks it: the
token's participant and epoch are not among the checks. -/
structure GrantUsable (impl : Impl) (request : ValidateAuthorityRequest) (grant : AuthorityGrant)
    (owner : DurableParticipant) : Prop where
  epoch : grant.epoch = impl.state.currentEpoch
  live : grant.revoked = false
  boot : grant.boot = request.token.boot
  found : impl.findParticipant grant.participant = some owner
  incarnation : owner.findIncarnation request.token.boot = some request.token.incarnation
  scope : grant.scopes.contains request.scope = true
  generation : grant.generation.value = owner.registrationGeneration.value ∨
    request.Expects owner.registrationGeneration

/-- The registration of the token's participant carries the authority. -/
structure TokenUsable (impl : Impl) (request : ValidateAuthorityRequest)
    (participant : DurableParticipant) : Prop where
  epoch : request.token.epoch = impl.state.currentEpoch
  found : impl.findParticipant request.token.participant = some participant
  notRetired : participant.retired = false
  incarnation : participant.findIncarnation request.token.boot = some request.token.incarnation
  scope : participant.scopes.contains request.scope = true
  generation : request.Expects participant.registrationGeneration

variable {impl : Impl} {request : ValidateAuthorityRequest}

theorem validateGrantScope_current_iff {grant : AuthorityGrant} {owner : DurableParticipant}
    {incarnation : Option IncarnationSequence} :
    (impl.validateGrantScope request grant owner incarnation).code = .current ↔
      grant.scopes.contains request.scope = true ∧
      (grant.generation.value = owner.registrationGeneration.value ∨
        request.Expects owner.registrationGeneration) := by
  unfold Impl.validateGrantScope Impl.validateGrantScope.current ValidateAuthorityRequest.Expects
  cases hs : grant.scopes.contains request.scope with
  | false => simp [Impl.validation]
  | true =>
    cases he : request.expectedGeneration with
    | none => simp [Impl.validation]
    | some expected =>
      by_cases hg : grant.generation.value = owner.registrationGeneration.value
      · simp [Impl.validation, hg]
      · by_cases hx : expected = owner.registrationGeneration
        · simp [Impl.validation, hx]
        · simp [Impl.validation, hg, hx]

/-- **The grant path.** -/
theorem validateNamedGrant_current_iff {id : AuthorityGrantId}
    (hclaimed : request.token.incarnation.value ≠ 0) :
    (impl.validateNamedGrant request id).code = .current ↔
      ∃ grant owner, impl.findGrant id = some grant ∧ GrantUsable impl request grant owner := by
  unfold Impl.validateNamedGrant
  cases hg : impl.findGrant id with
  | none => simp [Impl.validation]
  | some grant =>
    by_cases hepoch : grant.epoch = impl.state.currentEpoch
    swap
    · simp only [ne_eq, hepoch, not_false_eq_true, if_true, Impl.validation, reduceCtorEq,
        false_iff]
      rintro ⟨g, owner, h, hu⟩
      cases h
      exact hepoch hu.epoch
    by_cases hrevoked : grant.revoked = true
    · simp only [ne_eq, hepoch, not_true, if_false, hrevoked, if_true, Impl.validation,
        reduceCtorEq, false_iff]
      rintro ⟨g, owner, h, hu⟩
      cases h
      rw [hu.live] at hrevoked
      cases hrevoked
    by_cases hboot : grant.boot = request.token.boot
    swap
    · simp only [ne_eq, hepoch, not_true, if_false, hrevoked, hboot, not_false_eq_true, if_true,
        Impl.validation, reduceCtorEq, false_iff]
      rintro ⟨g, owner, h, hu⟩
      cases h
      exact hboot hu.boot
    dsimp only
    rw [if_neg (not_not.mpr hepoch), if_neg hrevoked, if_neg (not_not.mpr hboot)]
    unfold Impl.validateGrantOwner
    cases howner : impl.findParticipant grant.participant with
    | none =>
      simp only [Impl.validation, reduceCtorEq, false_iff]
      rintro ⟨g, owner, h, hu⟩
      cases h
      rw [hu.found] at howner
      cases howner
    | some owner =>
      by_cases hcode :
          (impl.evaluateIncarnation owner request.token.boot request.token.incarnation).code =
            .current
      · simp only [hcode, ne_eq, not_true, if_false]
        rw [validateGrantScope_current_iff]
        rw [evaluateIncarnation_current_iff hclaimed] at hcode
        constructor
        · rintro ⟨hscope, hgen⟩
          exact ⟨grant, owner, rfl, hepoch, by simpa using hrevoked, hboot, howner, hcode, hscope,
            hgen⟩
        · rintro ⟨g, owner', h, hu⟩
          cases h
          have heq : owner' = owner := Option.some.inj (hu.found.symm.trans howner)
          subst heq
          exact ⟨hu.scope, hu.generation⟩
      · simp only [ne_eq, hcode, not_false_eq_true, if_true, Impl.validation, false_iff]
        rintro ⟨g, owner', h, hu⟩
        cases h
        have heq : owner' = owner := Option.some.inj (hu.found.symm.trans howner)
        subst heq
        exact hcode ((evaluateIncarnation_current_iff hclaimed).mpr hu.incarnation)

theorem validateBoundScope_current_iff {participant : DurableParticipant}
    {incarnation : Option IncarnationSequence} :
    (impl.validateBoundScope request participant incarnation).code = .current ↔
      participant.scopes.contains request.scope = true ∧
      request.Expects participant.registrationGeneration := by
  unfold Impl.validateBoundScope Impl.validateBoundScope.current ValidateAuthorityRequest.Expects
  cases hs : participant.scopes.contains request.scope with
  | false => simp [Impl.validation]
  | true =>
    cases he : request.expectedGeneration with
    | none => simp [Impl.validation]
    | some expected =>
      by_cases hx : expected = participant.registrationGeneration
      · simp [Impl.validation, hx]
      · simp [Impl.validation, hx]

/-- **The registration path.** -/
theorem validateToken_current_iff (hclaimed : request.token.incarnation.value ≠ 0) :
    (impl.validateToken request).code = .current ↔
      ∃ participant, TokenUsable impl request participant := by
  unfold Impl.validateToken
  by_cases hepoch : request.token.epoch = impl.state.currentEpoch
  swap
  · simp only [ne_eq, hepoch, not_false_eq_true, if_true, Impl.validation, reduceCtorEq, false_iff]
    rintro ⟨p, hu⟩
    exact hepoch hu.epoch
  rw [if_neg (not_not.mpr hepoch)]
  cases hp : impl.findParticipant request.token.participant with
  | none =>
    simp only [Impl.validation, reduceCtorEq, false_iff]
    rintro ⟨p, hu⟩
    rw [hu.found] at hp
    cases hp
  | some participant =>
    have huniq : ∀ q, TokenUsable impl request q → q = participant := fun q hu =>
      Option.some.inj (hu.found.symm.trans hp)
    by_cases hretired : participant.retired = true
    · simp only [hretired, if_true, Impl.validation, reduceCtorEq, false_iff]
      rintro ⟨q, hu⟩
      have hlive := hu.notRetired
      rw [huniq q hu, hretired] at hlive
      cases hlive
    by_cases hcode :
        (impl.evaluateIncarnation participant request.token.boot request.token.incarnation).code =
          .current
    · simp only [hretired, hcode, ne_eq, not_true, if_false, Bool.false_eq_true]
      rw [validateBoundScope_current_iff]
      rw [evaluateIncarnation_current_iff hclaimed] at hcode
      constructor
      · rintro ⟨hscope, hgen⟩
        exact ⟨participant, hepoch, hp, by simpa using hretired, hcode, hscope, hgen⟩
      · rintro ⟨q, hu⟩
        obtain rfl := huniq q hu
        exact ⟨hu.scope, hu.generation⟩
    · simp only [hretired, ne_eq, hcode, not_false_eq_true, if_true, Bool.false_eq_true, if_false,
        Impl.validation, false_iff]
      rintro ⟨q, hu⟩
      obtain rfl := huniq q hu
      exact hcode ((evaluateIncarnation_current_iff hclaimed).mpr hu.incarnation)

/-- **Exactly when the answer is current.** -/
theorem validate_current_iff : (impl.validate request).code = .current ↔
    request.token.WellShaped ∧
      ((∃ id grant owner, request.grant = some id ∧ impl.findGrant id = some grant ∧
          GrantUsable impl request grant owner) ∨
        request.grant = none ∧ ∃ participant, TokenUsable impl request participant) := by
  unfold Impl.validate AuthorityToken.WellShaped
  by_cases hshape : request.token.participant.empty = true ∨ request.token.boot.isNil = true ∨
      request.token.incarnation.isZero = true
  · rw [if_pos hshape]
    simp only [Impl.validation, reduceCtorEq, false_iff]
    rintro ⟨⟨h₁, h₂, h₃⟩, -⟩
    rcases hshape with h | h | h
    · rw [h₁] at h
      cases h
    · rw [h₂] at h
      cases h
    · exact h₃ (MonotonicCounter.isZero_iff.mp h)
  · rw [if_neg hshape]
    simp only [not_or, Bool.not_eq_true] at hshape
    have hclaimed : request.token.incarnation.value ≠ 0 := fun h => by
      rw [MonotonicCounter.isZero_iff.mpr h] at hshape
      cases hshape.2.2
    cases hgrant : request.grant with
    | some id =>
      simp only [validateNamedGrant_current_iff hclaimed, Option.some.injEq, reduceCtorEq,
        false_and, or_false, hshape, hclaimed, ne_eq, not_false_eq_true, and_self, true_and]
      constructor
      · rintro ⟨grant, owner, hfound, hu⟩
        exact ⟨id, grant, owner, rfl, hfound, hu⟩
      · rintro ⟨_, grant, owner, rfl, hfound, hu⟩
        exact ⟨grant, owner, hfound, hu⟩
    | none =>
      simp only [validateToken_current_iff hclaimed, reduceCtorEq, false_and, exists_false,
        false_or, true_and, hshape, hclaimed, ne_eq, not_false_eq_true, and_self]

end FabricEpoch
