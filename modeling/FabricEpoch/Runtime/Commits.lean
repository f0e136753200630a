import FabricEpoch.Runtime.Admission

/-!
# What the other operations have done

Grants, revocations, epoch changes, fences by request and retirements, each as
the moves behind a run that returns:

- `applyGrant_advanced`, `applyRevoke_advanced`;
- `mutateEpoch_moves`, `advanceEpoch_advanced`, `establishEpoch_advanced`;
- `fenceWorker_advanced`, `applyRetire_advanced`, `fenceSession_advanced`.
-/

namespace FabricEpoch

open Table Transaction

/-! ## Grants -/

/-- What the generator hands out is a new identifier. -/
def Entropy.Fresh {d : IdDomain} (entropy : Entropy) (used : List (Fixed128Id d)) : Prop :=
  ∀ bytes, entropy = .ok bytes → (⟨bytes⟩ : Fixed128Id d).isNil = false ∧ ⟨bytes⟩ ∉ used

/-- What the first checks of a grant let through. -/
structure GrantShape (impl : Impl) (request : GrantAuthorityRequest) : Prop where
  attempt : request.attempt.isNil = false
  boot : request.boot.isNil = false
  incarnation : request.incarnation.value ≠ 0
  nonempty : request.scopes.empty = false
  size : request.scopes.size ≤ impl.options.limits.maxScopesPerGrant

theorem malformedGrant_none {impl : Impl} {request : GrantAuthorityRequest}
    (h : impl.malformedGrant request = none) : GrantShape impl request := by
  simp only [Impl.malformedGrant] at h
  split at h
  · cases h
  next hshape =>
  split at h
  · cases h
  next hempty =>
  split at h
  · cases h
  next hsize =>
  simp only [Bool.or_eq_true, not_or, Bool.not_eq_true] at hshape
  obtain ⟨⟨⟨hattempt, -⟩, hboot⟩, hincarnation⟩ := hshape
  refine ⟨hattempt, hboot, fun hzero => ?_, by simpa using hempty, Nat.le_of_not_lt hsize⟩
  rw [MonotonicCounter.isZero_iff.mpr hzero] at hincarnation
  cases hincarnation

theorem refusedGrantee_none {impl : Impl} {p : DurableParticipant}
    {request : GrantAuthorityRequest} (hclaimed : request.incarnation.value ≠ 0)
    (h : impl.refusedGrantee p request = none) :
    p.findIncarnation request.boot = some request.incarnation := by
  simp only [Impl.refusedGrantee] at h
  split at h
  · cases h
  next hcode => exact (evaluateIncarnation_current_iff hclaimed).mp (not_not.mp hcode)

/-- What the checks of a parent let through. -/
structure DelegatesTo (impl : Impl) (request : GrantAuthorityRequest) (q : AuthorityGrant) :
    Prop where
  live : q.revoked = false
  epoch : q.epoch = impl.state.currentEpoch
  scopes : q.scopes.containsAll request.scopes = true
  delegator : ∃ p, impl.findParticipant q.participant = some p ∧
    (impl.evaluateIncarnation p q.boot q.incarnation).code = .current

theorem refusedParent_none {impl : Impl} {request : GrantAuthorityRequest} {id : AuthorityGrantId}
    (h : impl.refusedParent request id = none) :
    ∃ q, impl.findGrant id = some q ∧ DelegatesTo impl request q := by
  unfold Impl.refusedParent at h
  cases hfound : impl.findGrant id with
  | none =>
    simp only [hfound] at h
    cases h
  | some q =>
    simp only [hfound] at h
    split at h
    · cases h
    next hlive =>
    rw [not_or, Bool.not_eq_true, not_not] at hlive
    split at h
    · cases h
    next p hp =>
    split at h
    · cases h
    next hcode =>
    split at h
    · cases h
    next hscopes =>
    exact ⟨q, rfl, hlive.1, hlive.2, by simpa using hscopes, p, hp, not_not.mp hcode⟩

theorem refusedDelegation_none {impl : Impl} {request : GrantAuthorityRequest}
    (h : impl.refusedDelegation request = none) :
    impl.state.grants.length < impl.options.limits.maxAuthorityGrants ∧
      ∀ id, request.parent = some id →
        ∃ q, impl.findGrant id = some q ∧ DelegatesTo impl request q := by
  unfold Impl.refusedDelegation at h
  split at h
  · cases h
  next hparent =>
  split at h
  · cases h
  next hroom =>
  refine ⟨Nat.lt_of_not_le hroom, fun id hid => ?_⟩
  rw [hid, Option.bind_some] at hparent
  exact refusedParent_none hparent

/-- **What a grant that is issued has done.** -/
theorem commitGrant_ok {entropy : Entropy} {request : GrantAuthorityRequest}
    {digest : SnapshotDigest} {t u : Txn Impl} {r : GrantResult}
    (h : commitGrant entropy request digest t = .ok r u) :
    ∃ bytes g, entropy = .ok bytes ∧ t.state.state.generation.next = some g ∧
      u.state = Impl.updateParticipant request.participant
        (·.remember t.state.options.limits
          (request.record digest (GrantGeneration.ofState g) ⟨bytes⟩))
        (((t.state.pushGrant (t.state.newGrant request ⟨bytes⟩)).setGeneration g).setGrantGeneration
          (GrantGeneration.ofState g) t.state.state.grants.length) ∧
      u.mutated = true ∧ r.outcome = .granted ∧ r.grant = some ⟨bytes⟩ ∧
      r.generation = some (GrantGeneration.ofState g) ∧ r.epoch = t.state.state.currentEpoch := by
  unfold commitGrant at h
  rw [Action.bind_current] at h
  obtain ⟨bytes, t', hentropy, h⟩ := Action.bind_ok.mp h
  obtain ⟨hbytes, rfl⟩ := Action.ofExcept_ok.mp hentropy
  simp only [Action.bind_modify, Action.bind_pushUndo] at h
  obtain ⟨⟨⟩, t₁, hbump, h⟩ := Action.bind_ok.mp h
  obtain ⟨g, hnext, rfl⟩ := bumpGeneration_ok hbump
  cases h
  exact ⟨bytes, g, hbytes, hnext, rfl, rfl, rfl, rfl, rfl, rfl⟩

/-- The memory behind an issued grant. -/
theorem Impl.issued_eq (impl : Impl) (g : EpochGeneration) (grant : AuthorityGrant) :
    ((impl.pushGrant grant).setGeneration g).setGrantGeneration (GrantGeneration.ofState g)
        impl.state.grants.length =
      { impl.pushGrant { grant with generation := GrantGeneration.ofState g } with
        state := { impl.state with
          generation := g
          grants := impl.state.grants ++
            [{ grant with generation := GrantGeneration.ofState g }] } } := by
  simp only [setGrantGeneration, setGeneration, pushGrant, mapState, modify_concat]

/-- The checks in front of the part of a grant that mutates. -/
structure GrantAdmitted (impl : Impl) (request : GrantAuthorityRequest) (p : DurableParticipant)
    (digest : SnapshotDigest) : Prop where
  malformed : impl.malformedGrant request = none
  found : impl.findParticipant request.participant = some p
  refused : impl.refusedGrantee p request = none
  semantic : computeSemanticDigest request.semantic = .ok digest
  attempt : findAttempt p.idempotency request.attempt = none
  delegation : impl.refusedDelegation request = none

/-- The replay record that answers an attempt of the participant. -/
def Impl.recordedAttempt (impl : Impl) (id : ParticipantId) (attempt : MutationAttemptId) :
    Option IdempotencyRecord :=
  (impl.findParticipant id).bind fun p => findAttempt p.idempotency attempt

theorem Impl.recordedAttempt_of_find {impl : Impl} {id : ParticipantId} {p : DurableParticipant}
    (h : impl.findParticipant id = some p) (attempt : MutationAttemptId) :
    impl.recordedAttempt id attempt = findAttempt p.idempotency attempt := by
  rw [recordedAttempt, h]
  rfl

theorem malformedGrant_some {impl : Impl} {request : GrantAuthorityRequest} {r : GrantResult}
    (h : impl.malformedGrant request = some r) : r.outcome ≠ .granted := by
  simp only [Impl.malformedGrant] at h
  repeat' split at h
  all_goals
    cases h
    try exact fun heq => nomatch heq

theorem refusedGrantee_some {impl : Impl} {p : DurableParticipant} {request : GrantAuthorityRequest}
    {r : GrantResult} (h : impl.refusedGrantee p request = some r) : r.outcome ≠ .granted := by
  simp only [Impl.refusedGrantee] at h
  repeat' split at h
  all_goals
    cases h
    try exact fun heq => nomatch heq

theorem refusedParent_some {impl : Impl} {request : GrantAuthorityRequest} {id : AuthorityGrantId}
    {r : GrantResult} (h : impl.refusedParent request id = some r) : r.outcome ≠ .granted := by
  simp only [Impl.refusedParent] at h
  repeat' split at h
  all_goals
    cases h
    try exact fun heq => nomatch heq

theorem refusedDelegation_some {impl : Impl} {request : GrantAuthorityRequest} {r : GrantResult}
    (h : impl.refusedDelegation request = some r) : r.outcome ≠ .granted := by
  unfold Impl.refusedDelegation at h
  split at h
  · next result hparent =>
    cases h
    obtain ⟨id, -, hrefused⟩ := Option.bind_eq_some_iff.mp hparent
    exact refusedParent_some hrefused
  · split at h
    · cases h
      exact fun heq => nomatch heq
    · cases h

/-- A grant changes nothing, and is answered Granted from the replay table
alone, or the checks let it through. -/
theorem applyGrant_cases {entropy : Entropy} {request : GrantAuthorityRequest} {t u : Txn Impl}
    {r : GrantResult} (h : applyGrant entropy request t = .ok r u) :
    u = t ∧ (r.outcome = .granted →
      t.state.recordedAttempt request.participant request.attempt ≠ none) ∨
    ∃ p digest, GrantAdmitted t.state request p digest ∧
      commitGrant entropy request digest t = .ok r u := by
  unfold applyGrant at h
  rw [Action.bind_current] at h
  cases hmalformed : t.state.malformedGrant request with
  | some result =>
    simp only [hmalformed] at h
    cases h
    exact .inl ⟨rfl, fun hout => absurd hout (malformedGrant_some hmalformed)⟩
  | none =>
    cases hfound : t.state.findParticipant request.participant with
    | none =>
      simp only [hmalformed, hfound] at h
      cases h
      exact .inl ⟨rfl, fun hout => by cases hout⟩
    | some p =>
      simp only [hmalformed, hfound] at h
      cases hrefused : t.state.refusedGrantee p request with
      | some result =>
        simp only [hrefused] at h
        cases h
        exact .inl ⟨rfl, fun hout => absurd hout (refusedGrantee_some hrefused)⟩
      | none =>
        simp only [hrefused] at h
        obtain ⟨digest, t', hdigest, h⟩ := Action.bind_ok.mp h
        obtain ⟨hsemantic, rfl⟩ := Action.ofExcept_ok.mp hdigest
        cases hattempt : findAttempt p.idempotency request.attempt with
        | some previous =>
          simp only [hattempt] at h
          cases h
          refine .inl ⟨rfl, fun _ => ?_⟩
          rw [Impl.recordedAttempt_of_find hfound, hattempt]
          exact Option.some_ne_none _
        | none =>
          cases hdelegation : t'.state.refusedDelegation request with
          | some result =>
            simp only [hattempt, hdelegation] at h
            cases h
            exact .inl ⟨rfl, fun hout => absurd hout (refusedDelegation_some hdelegation)⟩
          | none =>
            simp only [hattempt, hdelegation] at h
            exact .inr ⟨p, digest,
              ⟨hmalformed, hfound, hrefused, hsemantic, hattempt, hdelegation⟩, h⟩

/-- A grant that throws has done nothing, or its part that mutates throws. -/
theorem applyGrant_error {entropy : Entropy} {request : GrantAuthorityRequest} {t t' : Txn Impl}
    {e : EpochError}
    (h : applyGrant entropy request t = .error e t') :
    t' = t ∨ ∃ p digest, GrantAdmitted t.state request p digest ∧
      commitGrant entropy request digest t = .error e t' := by
  unfold applyGrant at h
  rw [Action.bind_current] at h
  cases hmalformed : t.state.malformedGrant request with
  | some result =>
    simp only [hmalformed] at h
    cases h
  | none =>
  cases hfound : t.state.findParticipant request.participant with
  | none =>
    simp only [hmalformed, hfound] at h
    cases h
  | some p =>
  simp only [hmalformed, hfound] at h
  cases hrefused : t.state.refusedGrantee p request with
  | some result =>
    simp only [hrefused] at h
    cases h
  | none =>
  simp only [hrefused] at h
  rcases Action.bind_error.mp h with hdigest | ⟨digest, t₁, hdigest, h⟩
  · exact .inl (Action.ofExcept_error.mp hdigest).2
  obtain ⟨hsemantic, rfl⟩ := Action.ofExcept_ok.mp hdigest
  cases hattempt : findAttempt p.idempotency request.attempt with
  | some previous =>
    simp only [hattempt] at h
    cases h
  | none =>
  cases hdelegation : t₁.state.refusedDelegation request with
  | some result =>
    simp only [hattempt, hdelegation] at h
    cases h
  | none =>
    simp only [hattempt, hdelegation] at h
    exact .inr ⟨p, digest,
      ⟨hmalformed, hfound, hrefused, hsemantic, hattempt, hdelegation⟩, h⟩

theorem commitGrant_advanced {T : Trust} {entropy : Entropy} {request : GrantAuthorityRequest}
    {digest : SnapshotDigest} {p : DurableParticipant} {t u : Txn Impl} {r : GrantResult}
    (ht : t.state.Regular) (hadmitted : GrantAdmitted t.state request p digest)
    (hfresh : T.generator → entropy.Fresh (t.state.state.grants.map (·.id)))
    (htext : T.texts → request.WellFormed)
    (h : commitGrant entropy request digest t = .ok r u) :
    Advanced T t.state.options.limits t u := by
  obtain ⟨bytes, g, hbytes, hnext, hstate, hmutated, -, -⟩ := commitGrant_ok h
  obtain ⟨hmalformed, hfound, hrefused, hsemantic, hattempt, hdelegation⟩ := hadmitted
  obtain ⟨hroom, hparent⟩ := refusedDelegation_none hdelegation
  have hshape := malformedGrant_none hmalformed
  rw [ht.find] at hfound
  -- the memory once the grant is in the table
  obtain ⟨grant, hgrant⟩ : ∃ grant : AuthorityGrant, grant =
    { t.state.newGrant request ⟨bytes⟩ with generation := GrantGeneration.ofState g } := ⟨_, rfl⟩
  rw [Impl.issued_eq, ← hgrant] at hstate
  have hissue : Move T t.state.options.limits t.state.state
      { t.state.state with grants := t.state.state.grants ++ [grant], generation := g } := by
    subst hgrant
    refine .grant hfound (refusedGrantee_none hshape.incarnation hrefused) rfl hshape.nonempty
      hshape.size hshape.boot (fun i hi => ?_) hroom rfl (fun hT => hfresh hT bytes hbytes)
      (fun hT => ⟨(htext hT).provenance, (htext hT).scopes⟩) hnext
    obtain ⟨parent, hfind, -⟩ := hparent i hi
    obtain ⟨hmem, rfl⟩ := ht.grant_of_find hfind
    exact List.mem_map_of_mem hmem
  obtain ⟨impl, himpl⟩ : ∃ impl : Impl, impl = { t.state.pushGrant grant with
    state := { t.state.state with
      generation := g
      grants := t.state.state.grants ++ [grant] } } := ⟨_, rfl⟩
  rw [← himpl] at hstate
  have hregular : impl.Regular := by
    subst himpl
    refine ⟨ht.index, fun id i hi => ?_, hissue.orderly ht.orderly⟩
    rw [List.map_append, List.map_singleton]
    have hlength : (t.state.state.grants.map (·.id)).length = t.state.state.grants.length :=
      List.length_map _
    by_cases hid : id = grant.id
    · have hi' : some t.state.state.grants.length = some i := (if_pos hid).symm.trans hi
      rw [← Option.some.inj hi', hid, ← hlength]
      exact List.getElem?_concat_length
    · have hi' : t.state.grantIndex id = some i := (if_neg hid).symm.trans hi
      have hold := ht.grants id i hi'
      rw [List.getElem?_append_left (List.getElem?_eq_some_iff.mp hold).1]
      exact hold
  rw [hregular.update] at hstate
  have hremember : Move T t.state.options.limits impl.state
      (impl.state.updateParticipant request.participant (·.remember t.state.options.limits
        (request.record digest (GrantGeneration.ofState g) ⟨bytes⟩))) := by
    have hlookup : impl.state.lookup request.participant = some p := by
      rw [himpl]
      exact hfound
    refine .remember hlookup hattempt hshape.attempt (.granted hsemantic rfl ?_)
    rw [himpl, hgrant]
    exact List.mem_map_of_mem (List.mem_append_right _ (List.mem_singleton_self _))
  have hmoves : Moves T t.state.options.limits t.state.state u.state.state := by
    rw [hstate]
    refine (Relation.ReflTransGen.single hissue).tail ?_
    rw [himpl] at hremember ⊢
    exact hremember
  refine ⟨hmoves, ?_, ?_, .inr hmutated⟩
  · rw [hstate]
    exact hregular.updated (f := (·.remember _ _)) (fun _ => rfl)
      fun p hp _ => (hregular.orderly.records p hp).of_live rfl rfl rfl rfl
  · rw [hstate, himpl]
    rfl

theorem applyGrant_advanced {T : Trust} {limits : Limits} {entropy : Entropy}
    {request : GrantAuthorityRequest} {t u : Txn Impl} {r : GrantResult}
    (ht : t.state.Regular) (hlimits : t.state.options.limits = limits)
    (hfresh : T.generator → entropy.Fresh (t.state.state.grants.map (·.id)))
    (htext : T.texts → request.WellFormed)
    (h : applyGrant entropy request t = .ok r u) : Advanced T limits t u := by
  subst hlimits
  rcases applyGrant_cases h with ⟨rfl, -⟩ | ⟨p, digest, hadmitted, h⟩
  · exact .refl ht
  · exact commitGrant_advanced ht hadmitted hfresh htext h

/-! ## Revocations -/

namespace AuthorityGrant.Revises

variable {epoch : CoordinatorEpoch} {g g' g'' : AuthorityGrant}

theorem refl (g : AuthorityGrant) : g.Revises epoch g := ⟨g.generation, .inl rfl⟩

theorem trans (h₁ : g.Revises epoch g') (h₂ : g'.Revises epoch g'') : g.Revises epoch g'' := by
  obtain ⟨m, rfl | rfl⟩ := h₁
  · obtain ⟨n, rfl | rfl⟩ := h₂
    · exact ⟨n, .inl rfl⟩
    · exact ⟨n, .inr rfl⟩
  · obtain ⟨n, rfl | rfl⟩ := h₂ <;> exact ⟨n, .inr rfl⟩

theorem revoke (g : AuthorityGrant) : g.Revises epoch (g.revoke epoch) := ⟨g.generation, .inr rfl⟩

theorem generation (g : AuthorityGrant) (generation : GrantGeneration) :
    g.Revises epoch { g with generation } := ⟨generation, .inl rfl⟩

theorem id_eq (h : g.Revises epoch g') : g'.id = g.id := by
  obtain ⟨m, rfl | rfl⟩ := h <;> rfl

/-- A revoked grant stays revoked. -/
theorem revoked (h : g.Revises epoch g') (hg : g.revoked = true) : g'.revoked = true := by
  obtain ⟨m, rfl | rfl⟩ := h
  · exact hg
  · rfl

end AuthorityGrant.Revises

/-- The memory differs in grants that were revised. -/
def Impl.Revised (impl impl' : Impl) : Prop :=
  ∃ grants, impl' = { impl with state := { impl.state with grants } } ∧
    List.Forall₂ (AuthorityGrant.Revises impl.state.currentEpoch) impl.state.grants grants

namespace Impl.Revised

variable {impl impl' impl'' : Impl}

theorem refl (impl : Impl) : impl.Revised impl :=
  ⟨impl.state.grants, rfl, List.forall₂_same.mpr fun g _ => .refl g⟩

theorem trans (h₁ : impl.Revised impl') (h₂ : impl'.Revised impl'') : impl.Revised impl'' := by
  obtain ⟨m, rfl, hm⟩ := h₁
  obtain ⟨n, rfl, hn⟩ := h₂
  exact ⟨n, rfl, forall₂_trans .trans hm hn⟩

theorem updateGrant (impl : Impl) {f : AuthorityGrant → AuthorityGrant}
    (hf : ∀ g : AuthorityGrant, g.Revises impl.state.currentEpoch (f g)) (id : AuthorityGrantId) :
    impl.Revised (impl.updateGrant id f) := by
  unfold Impl.updateGrant
  cases impl.grantIndex id with
  | none => exact .refl impl
  | some i => exact ⟨_, rfl, forall₂_modify .refl hf _ i⟩

/-- The traversal of the derived grants revises grants. -/
theorem revokeLoop (root : AuthorityGrantId) (fuel : Nat) (pending : List AuthorityGrantId)
    (n : Nat) (impl : Impl) : impl.Revised (Impl.revokeLoop root fuel pending n impl).1 :=
  Impl.revokeLoop_keeps (P := impl.Revised)
    (fun s id hs => hs.trans (updateGrant s AuthorityGrant.Revises.revoke id)) root fuel pending n
    (.refl impl)

theorem regular (h : impl.Revised impl') (hr : impl.Regular) : impl'.Regular := by
  obtain ⟨grants, rfl, hgrants⟩ := h
  exact hr.of_same ⟨rfl, rfl, rfl, rfl⟩ rfl
    (forall₂_map_eq (fun h => AuthorityGrant.Revises.id_eq h) hgrants)
    (hr.orderly.of_participants rfl)

theorem move (h : impl.Revised impl') (T : Trust) (limits : Limits) :
    Move T limits impl.state impl'.state := by
  obtain ⟨grants, rfl, hgrants⟩ := h
  exact .revoke hgrants

/-- A grant of the table, as it is afterwards. -/
theorem image (h : impl.Revised impl') {g : AuthorityGrant} (hg : g ∈ impl.state.grants) :
    ∃ g' ∈ impl'.state.grants, g.Revises impl.state.currentEpoch g' := by
  obtain ⟨grants, rfl, hgrants⟩ := h
  exact forall₂_image hgrants hg

end Impl.Revised

/-- The first round of a traversal revokes the root. -/
theorem Impl.revokeFrom_first {impl : Impl} {root : AuthorityGrantId} {g : AuthorityGrant}
    (hg : impl.findGrant root = some g) (hlive : g.revoked = false) :
    impl.revokeFrom root = Impl.revokeLoop root (2 * impl.state.grants.length + 1)
      ((impl.childGrants root).reverse ++ []) 1
      (impl.updateGrant root (·.revoke impl.state.currentEpoch)) := by
  rw [Impl.revokeFrom, Impl.revokeLoop]
  simp only [hg, hlive, Bool.false_eq_true, false_and, if_false]

/-- **The root is revoked** by its traversal. -/
theorem Impl.revokeFrom_root {impl : Impl} {root : AuthorityGrantId} {g : AuthorityGrant}
    (hr : impl.Regular) (hg : impl.findGrant root = some g) (hlive : g.revoked = false) :
    ∃ g' ∈ (impl.revokeFrom root).1.state.grants, g'.id = root ∧ g'.revoked = true := by
  obtain ⟨i, hi, hrecord⟩ := Option.bind_eq_some_iff.mp hg
  have hmem : g.revoke impl.state.currentEpoch ∈
      (impl.updateGrant root (·.revoke impl.state.currentEpoch)).state.grants := by
    rw [Impl.updateGrant, hi]
    refine List.mem_of_getElem? (i := i) ?_
    show (impl.state.grants.modify i _)[i]? = _
    rw [List.getElem?_modify_eq, hrecord]
    rfl
  obtain ⟨g', hg', hrevises⟩ := (Impl.Revised.revokeLoop root _ _ _ _).image hmem
  rw [Impl.revokeFrom_first hg hlive]
  exact ⟨g', hg', hrevises.id_eq.trans (hr.grant_of_find hg).2, hrevises.revoked rfl⟩

theorem malformedRevoke_some {impl : Impl} {request : RevokeAuthorityRequest} {r : RevokeResult}
    (h : impl.malformedRevoke request = some r) : r.outcome ≠ .revoked := by
  simp only [Impl.malformedRevoke] at h
  repeat' split at h
  all_goals
    cases h
    try exact fun heq => nomatch heq

theorem malformedRevoke_none {impl : Impl} {request : RevokeAuthorityRequest}
    (h : impl.malformedRevoke request = none) : request.attempt.isNil = false := by
  simp only [Impl.malformedRevoke] at h
  split at h
  · cases h
  next hshape =>
  simp only [Bool.or_eq_true, not_or, Bool.not_eq_true] at hshape
  exact hshape.1

/-- **What a revocation that commits has done.** -/
theorem commitRevoke_ok {request : RevokeAuthorityRequest} {digest : SnapshotDigest}
    {grant : AuthorityGrant} {t u : Txn Impl} {r : RevokeResult}
    (h : commitRevoke request digest grant t = .ok r u) :
    ∃ g derived stamped, derived = (t.state.revokeFrom grant.id).2 - 1 ∧
      (t.state.revokeFrom grant.id).1.state.generation.next = some g ∧
      stamped = ((t.state.revokeFrom grant.id).1.setGeneration g).updateGrant request.grant
        (fun g' => { g' with generation := GrantGeneration.ofState g }) ∧
      u.state = stamped.rememberControl
        (request.record digest (GrantGeneration.ofState g) derived) ∧
      u.mutated = true ∧ r.outcome = .revoked ∧ r.derivedGrantsRevoked = derived ∧
      r.generation = some (GrantGeneration.ofState g) ∧ r.epoch = t.state.state.currentEpoch := by
  unfold commitRevoke at h
  simp only [Action.bind_current, Action.bind_pushUndo, Action.bind_modify] at h
  obtain ⟨⟨⟩, t₁, hbump, h⟩ := Action.bind_ok.mp h
  obtain ⟨g, hnext, rfl⟩ := bumpGeneration_ok hbump
  cases h
  exact ⟨g, _, _, rfl, hnext, rfl, rfl, rfl, rfl, rfl, rfl, rfl⟩

theorem commitRevoke_advanced {T : Trust} {request : RevokeAuthorityRequest}
    {digest : SnapshotDigest} {grant : AuthorityGrant} {t u : Txn Impl} {r : RevokeResult}
    (ht : t.state.Regular) (hattempt : request.attempt.isNil = false)
    (hsemantic : computeSemanticDigest request.semantic = .ok digest)
    (hnew : findAttempt t.state.state.controlAttempts request.attempt = none)
    (hfound : t.state.findGrant request.grant = some grant) (hlive : grant.revoked = false)
    (h : commitRevoke request digest grant t = .ok r u) :
    Advanced T t.state.options.limits t u := by
  obtain ⟨g, derived, stamped, -, hnext, hstamped, hstate, hmutated, -⟩ := commitRevoke_ok h
  have hid := (ht.grant_of_find hfound).2
  obtain ⟨g', hg', hg'id, hg'revoked⟩ :=
    Impl.revokeFrom_root ht (show t.state.findGrant grant.id = some grant by rw [hid]; exact hfound)
      hlive
  have hrevised : t.state.Revised (t.state.revokeFrom grant.id).1 :=
    Impl.Revised.revokeLoop grant.id _ _ 0 t.state
  generalize (t.state.revokeFrom grant.id).1 = revoked at *
  have hbumped : (revoked.setGeneration g).Regular :=
    (hrevised.regular ht).setState (f := fun s => { s with generation := g }) rfl rfl
  have hrevised' : (revoked.setGeneration g).Revised stamped := by
    rw [hstamped]
    exact .updateGrant _ (fun g' => .generation g' _) _
  obtain ⟨g'', hg'', hrevises⟩ :=
    hrevised'.image (show g' ∈ (revoked.setGeneration g).state.grants from hg')
  have hcontrols : stamped.state.controlAttempts = t.state.state.controlAttempts ∧
      stamped.options = t.state.options := by
    obtain ⟨_, hstamp, -⟩ := hrevised'
    obtain ⟨_, hrevoke, -⟩ := hrevised
    rw [hstamp, hrevoke]
    exact ⟨rfl, rfl⟩
  have hcontrol : Move T t.state.options.limits stamped.state { stamped.state with
      controlAttempts := rememberAttempt t.state.options.limits
        (request.record digest (GrantGeneration.ofState g) derived)
        stamped.state.controlAttempts } := by
    refine .control (by rw [hcontrols.1]; exact hnew) hattempt (.inr rfl)
      (.revoked hsemantic ⟨g'', hg'', ?_, hrevises.revoked hg'revoked⟩)
    rw [hrevises.id_eq, hg'id, hid]
  have hmoves : Moves T t.state.options.limits t.state.state stamped.state :=
    ((Relation.ReflTransGen.single (hrevised.move T _)).tail (.bump hnext)).tail
      (hrevised'.move T _)
  rw [← hcontrols.2] at hmoves hcontrol ⊢
  refine ⟨?_, ?_, ?_, .inr hmutated⟩
  · rw [hstate]
    exact hmoves.tail hcontrol
  · rw [hstate]
    exact (hrevised'.regular hbumped).setState (f := fun s => { s with
      controlAttempts := rememberAttempt stamped.options.limits _ s.controlAttempts }) rfl rfl
  · rw [hstate, ← hcontrols.2]
    rfl

/-- The checks in front of the part of a revocation that mutates. -/
structure RevokeAdmitted (impl : Impl) (request : RevokeAuthorityRequest) (grant : AuthorityGrant)
    (digest : SnapshotDigest) : Prop where
  malformed : impl.malformedRevoke request = none
  semantic : computeSemanticDigest request.semantic = .ok digest
  attempt : findAttempt impl.state.controlAttempts request.attempt = none
  found : impl.findGrant request.grant = some grant
  live : grant.revoked = false

/-- A revocation changes nothing, and is answered Revoked from the replay table
alone, or it finds a grant that is not revoked. -/
theorem applyRevoke_cases {request : RevokeAuthorityRequest} {t u : Txn Impl} {r : RevokeResult}
    (h : applyRevoke request t = .ok r u) :
    u = t ∧ (r.outcome = .revoked →
      findAttempt t.state.state.controlAttempts request.attempt ≠ none) ∨
    ∃ digest grant, RevokeAdmitted t.state request grant digest ∧
      commitRevoke request digest grant t = .ok r u := by
  unfold applyRevoke at h
  rw [Action.bind_current] at h
  cases hmalformed : t.state.malformedRevoke request with
  | some result =>
    simp only [hmalformed] at h
    cases h
    exact .inl ⟨rfl, fun hout => absurd hout (malformedRevoke_some hmalformed)⟩
  | none =>
    simp only [hmalformed] at h
    obtain ⟨digest, t', hdigest, h⟩ := Action.bind_ok.mp h
    obtain ⟨hsemantic, rfl⟩ := Action.ofExcept_ok.mp hdigest
    cases hattempt : findAttempt t'.state.state.controlAttempts request.attempt with
    | some previous =>
      simp only [hattempt] at h
      cases h
      exact .inl ⟨rfl, fun _ => Option.some_ne_none _⟩
    | none =>
      cases hfound : t'.state.findGrant request.grant with
      | none =>
        simp only [hattempt, hfound] at h
        cases h
        exact .inl ⟨rfl, fun hout => by cases hout⟩
      | some grant =>
        simp only [hattempt, hfound] at h
        split at h
        · cases h
          exact .inl ⟨rfl, fun hout => by cases hout⟩
        · next hlive =>
          exact .inr ⟨digest, grant, ⟨hmalformed, hsemantic, hattempt, hfound, by simpa using hlive⟩, h⟩

theorem applyRevoke_advanced {T : Trust} {limits : Limits} {request : RevokeAuthorityRequest}
    {t u : Txn Impl} {r : RevokeResult} (ht : t.state.Regular)
    (hlimits : t.state.options.limits = limits) (h : applyRevoke request t = .ok r u) :
    Advanced T limits t u := by
  subst hlimits
  rcases applyRevoke_cases h with ⟨rfl, -⟩ | ⟨digest, grant, hadmitted, h⟩
  · exact .refl ht
  · exact commitRevoke_advanced ht (malformedRevoke_none hadmitted.malformed) hadmitted.semantic
      hadmitted.attempt hadmitted.found hadmitted.live h

/-! ## Epochs -/

/-- The state behind an epoch change. -/
def DurableState.advance (s : DurableState) (limits : Limits) (epoch : CoordinatorEpoch)
    (boot : CoordinatorBootId) (generation : EpochGeneration) (invalidate : Bool)
    (t : EpochTransitionRecord) : DurableState :=
  { s with
    currentEpoch := epoch
    coordinatorBoot := boot
    generation
    participants := if invalidate then s.participants.map (·.invalidate) else s.participants
    transitions := evictPush limits.maxTransitionHistory s.transitions t }

/-- **What an epoch change has done.** -/
theorem mutateEpoch_ok {entropy : Entropy} {boot : CoordinatorBootId}
    {cause : EpochTransitionCause} {invalidate : Bool} {t u : Txn Impl} {r : Unit}
    (h : mutateEpoch entropy boot cause invalidate t = .ok r u) :
    ∃ epoch generation id, t.state.state.currentEpoch.next = some epoch ∧
      t.state.state.generation.next = some generation ∧ entropy = .ok id ∧
      u.state = { t.state with
        state := t.state.state.advance t.state.options.limits epoch boot generation invalidate
          (t.state.newTransition ⟨id⟩ epoch generation boot cause) } ∧
      u.mutated = t.mutated := by
  unfold mutateEpoch at h
  rw [Action.bind_current] at h
  obtain ⟨epoch, t', horfail, h⟩ := Action.bind_ok.mp h
  obtain ⟨hepoch, rfl⟩ := Action.orFail_ok.mp horfail
  simp only [Action.bind_modify, Action.bind_pushUndo] at h
  obtain ⟨generation, t', horfail, h⟩ := Action.bind_ok.mp h
  obtain ⟨hgeneration, rfl⟩ := Action.orFail_ok.mp horfail
  simp only [Action.bind_modify] at h
  obtain ⟨id, t', hentropy, h⟩ := Action.bind_ok.mp h
  obtain ⟨hid, rfl⟩ := Action.ofExcept_ok.mp hentropy
  cases h
  refine ⟨epoch, generation, id, hepoch, hgeneration, hid, ?_, rfl⟩
  cases invalidate <;> rfl

theorem mutateEpoch_moves {T : Trust} {entropy : Entropy} {boot : CoordinatorBootId}
    {cause : EpochTransitionCause} {invalidate : Bool} {t u : Txn Impl} {r : Unit}
    (ht : t.state.Regular)
    (hestablished : t.state.state.currentEpoch.value ≠ 0 → invalidate = true)
    (hfresh : T.generator → entropy.Fresh (t.state.state.transitions.map (·.id)))
    (htext : T.texts → t.state.options.provenance.Storable)
    (h : mutateEpoch entropy boot cause invalidate t = .ok r u) :
    Move T t.state.options.limits t.state.state u.state.state ∧ u.state.Regular ∧
      u.state.options = t.state.options ∧ u.mutated = t.mutated ∧
      u.state.state.controlAttempts = t.state.state.controlAttempts := by
  obtain ⟨epoch, generation, id, hepoch, hgeneration, hid, hstate, hmutated⟩ := mutateEpoch_ok h
  have hmove : Move T t.state.options.limits t.state.state
      (t.state.state.advance t.state.options.limits epoch boot generation invalidate
        (t.state.newTransition ⟨id⟩ epoch generation boot cause)) :=
    .epoch (t := t.state.newTransition ⟨id⟩ epoch generation boot cause) rfl hepoch hgeneration
      hestablished (fun hT => hfresh hT id hid) htext
  rw [hstate]
  refine ⟨hmove, ht.of_same ⟨rfl, rfl, rfl, rfl⟩ ?_ rfl (hmove.orderly ht.orderly), rfl, hmutated,
    rfl⟩
  cases invalidate with
  | false => rfl
  | true =>
    show (t.state.state.participants.map (·.invalidate)).map (·.id) = _
    rw [List.map_map]
    rfl

theorem establishEpoch_advanced {T : Trust} {entropy : Entropy} {boot : CoordinatorBootId}
    {cause : EpochTransitionCause} {invalidate : Bool} {t u : Txn Impl} {r : Unit}
    (ht : t.state.Regular)
    (hestablished : t.state.state.currentEpoch.value ≠ 0 → invalidate = true)
    (hfresh : T.generator → entropy.Fresh (t.state.state.transitions.map (·.id)))
    (htext : T.texts → t.state.options.provenance.Storable)
    (h : establishEpoch entropy boot cause invalidate t = .ok r u) :
    Advanced T t.state.options.limits t u := by
  obtain ⟨⟨⟩, t', hmutate, h⟩ := Action.bind_ok.mp h
  cases h
  obtain ⟨hmove, hregular, hoptions, -, -⟩ :=
    mutateEpoch_moves ht hestablished hfresh htext hmutate
  exact ⟨.single hmove, hregular, hoptions, .inr rfl⟩

theorem refusedAdvance_some {impl : Impl} {request : EpochAdvanceRequest} {r : EpochAdvanceResult}
    (h : impl.refusedAdvance request = some r) : r.outcome ≠ .advanced := by
  simp only [Impl.refusedAdvance] at h
  repeat' split at h
  all_goals
    cases h
    try exact fun heq => nomatch heq

/-- The checks in front of the part of an advance that mutates. -/
structure AdvanceAdmitted (impl : Impl) (request : EpochAdvanceRequest) (digest : SnapshotDigest) :
    Prop where
  nonNil : request.attempt.isNil = false
  semantic : computeSemanticDigest request.semantic = .ok digest
  attempt : findAttempt impl.state.controlAttempts request.attempt = none
  refused : impl.refusedAdvance request = none

/-- An advance changes nothing, and is answered Advanced from the replay table
alone, or the checks let it through. -/
theorem advanceEpoch_cases {entropy : Entropy} {request : EpochAdvanceRequest} {t u : Txn Impl}
    {r : EpochAdvanceResult} (h : advanceEpoch entropy request t = .ok r u) :
    u = t ∧ (r.outcome = .advanced →
      findAttempt t.state.state.controlAttempts request.attempt ≠ none ∧ r.replayed = true) ∨
    ∃ digest, AdvanceAdmitted t.state request digest ∧
      commitAdvance entropy request digest t = .ok r u := by
  unfold advanceEpoch at h
  rw [Action.bind_current] at h
  split at h
  · cases h
    exact .inl ⟨rfl, fun hout => by cases hout⟩
  next hnil =>
  obtain ⟨digest, t', hdigest, h⟩ := Action.bind_ok.mp h
  obtain ⟨hsemantic, rfl⟩ := Action.ofExcept_ok.mp hdigest
  cases hattempt : findAttempt t'.state.state.controlAttempts request.attempt with
  | some previous =>
    simp only [hattempt] at h
    cases h
    refine .inl ⟨rfl, fun hout => ⟨Option.some_ne_none _, ?_⟩⟩
    unfold Impl.replayedAdvance at hout ⊢
    split at hout
    · cases hout
    · next hsame => rw [if_neg hsame]
  | none =>
    cases hrefused : t'.state.refusedAdvance request with
    | some result =>
      simp only [hattempt, hrefused] at h
      cases h
      exact .inl ⟨rfl, fun hout => absurd hout (refusedAdvance_some hrefused)⟩
    | none =>
      simp only [hattempt, hrefused] at h
      exact .inr ⟨digest, ⟨by simpa using hnil, hsemantic, hattempt, hrefused⟩, h⟩

/-- **What an advance that commits has done.** -/
theorem commitAdvance_ok {entropy : Entropy} {request : EpochAdvanceRequest}
    {digest : SnapshotDigest} {t u : Txn Impl} {r : EpochAdvanceResult}
    (h : commitAdvance entropy request digest t = .ok r u) :
    ∃ t₁, mutateEpoch entropy t.state.state.coordinatorBoot request.cause true t = .ok () t₁ ∧
      u.state = t₁.state.rememberControl (request.record digest t₁.state.state.currentEpoch) ∧
      u.mutated = true ∧ r.outcome = .advanced ∧ r.epoch = t₁.state.state.currentEpoch ∧
      r.coordinatorBoot = t₁.state.state.coordinatorBoot ∧
      r.transition = t₁.state.state.transitions.getLast?.map (·.id) := by
  unfold commitAdvance at h
  rw [Action.bind_current] at h
  obtain ⟨⟨⟩, t₁, hmutate, h⟩ := Action.bind_ok.mp h
  cases h
  exact ⟨t₁, hmutate, rfl, rfl, rfl, rfl, rfl, rfl⟩

theorem commitAdvance_replayed {entropy : Entropy} {request : EpochAdvanceRequest}
    {digest : SnapshotDigest} {t u : Txn Impl} {r : EpochAdvanceResult}
    (h : commitAdvance entropy request digest t = .ok r u) : r.replayed = false := by
  unfold commitAdvance at h
  rw [Action.bind_current] at h
  obtain ⟨⟨⟩, t₁, -, h⟩ := Action.bind_ok.mp h
  cases h
  rfl

/-- An advance that is let through expects the current epoch. -/
theorem refusedAdvance_none {impl : Impl} {request : EpochAdvanceRequest}
    (h : impl.refusedAdvance request = none) : request.expectedEpoch = impl.state.currentEpoch := by
  unfold Impl.refusedAdvance at h
  split at h
  · cases h
  · next hexpected => exact not_not.mp hexpected

theorem advanceEpoch_advanced {T : Trust} {entropy : Entropy} {request : EpochAdvanceRequest}
    {t u : Txn Impl} {r : EpochAdvanceResult} (ht : t.state.Regular)
    (hfresh : T.generator → entropy.Fresh (t.state.state.transitions.map (·.id)))
    (htext : T.texts → t.state.options.provenance.Storable)
    (h : advanceEpoch entropy request t = .ok r u) : Advanced T t.state.options.limits t u := by
  rcases advanceEpoch_cases h with ⟨rfl, -⟩ | ⟨digest, hadmitted, h⟩
  · exact .refl ht
  obtain ⟨t₁, hmutate, hstate, hmutated, -⟩ := commitAdvance_ok h
  obtain ⟨hmove, hregular, hoptions, -, hcontrols⟩ :=
    mutateEpoch_moves ht (fun _ => rfl) hfresh htext hmutate
  have hcontrol : Move T t.state.options.limits t₁.state.state { t₁.state.state with
      controlAttempts := rememberAttempt t.state.options.limits
        (request.record digest t₁.state.state.currentEpoch) t₁.state.state.controlAttempts } :=
    .control (by rw [hcontrols]; exact hadmitted.attempt) hadmitted.nonNil (.inl rfl)
      (.advanced hadmitted.semantic)
  rw [← hoptions] at hmove hcontrol ⊢
  refine ⟨?_, ?_, ?_, .inr hmutated⟩
  · rw [hstate]
    exact (Relation.ReflTransGen.single hmove).tail hcontrol
  · rw [hstate]
    exact hregular.setState (f := fun s => { s with
      controlAttempts := rememberAttempt t₁.state.options.limits _ s.controlAttempts }) rfl rfl
  · rw [hstate]
    exact hoptions

/-! ## Fences by request -/

theorem malformedFence_none {impl : Impl} {request : FenceWorkerRequest}
    (h : impl.malformedFence request = none) :
    request.attempt.isNil = false ∧ request.boot.isNil = false := by
  simp only [Impl.malformedFence] at h
  split at h
  · cases h
  next hattempt =>
  split at h
  · cases h
  next hshape =>
  simp only [Bool.or_eq_true, not_or, Bool.not_eq_true] at hshape
  exact ⟨by simpa using hattempt, hshape.2⟩

/-- **What a fence leaves of the boot**: a record of it, and no live
incarnation. -/
theorem FenceCase.recorded {id : ParticipantId} {boot : WorkerBootId} {reason : FenceReason}
    {note : BoundedText} {defensive : Bool} {t u : Txn Impl} {r : FenceResult}
    (hcase : FenceCase id boot reason note defensive t r u) (ht : t.state.Regular)
    (hfenced : r.outcome = .fenced) :
    u.mutated = true ∧ (∃ f ∈ u.state.state.recentFences, f.participant = id ∧ f.boot = boot) ∧
      ∃ p q, t.state.state.lookup id = some p ∧ u.state.state.lookup id = some q ∧
        boot ∉ q.liveBoots ∧ q.idempotency = p.idempotency ∧ q.live.Sublist p.live := by
  cases hcase with
  | unknown _ outcome => simp [outcome] at hfenced
  | already _ outcome => simp [outcome] at hfenced
  | notLive _ _ outcome => simp [outcome] at hfenced
  | full _ outcome => simp [outcome] at hfenced
  | @preventive p generation next record allowed eq found notFenced notLive room floor bump _ =>
    subst eq
    rw [ht.find] at found
    rw [ht.applyPreventive]
    refine ⟨rfl, ⟨_, List.mem_append_right _ (List.mem_singleton_self _), rfl, rfl⟩, p,
      p.setFenceGeneration generation, found, ?_, DurableParticipant.find_eq_none_iff.mp notLive,
      rfl, List.Sublist.refl _⟩
    exact DurableState.lookup_updateParticipant (f := (·.setFenceGeneration generation))
      (fun _ => rfl) found
  | @live p i generation next record eq found live floor bump _ =>
    subst eq
    rw [ht.find] at found
    rw [ht.applyFence id boot i (t.state.liveRecord id boot i reason note generation) rfl]
    have hp := DurableState.mem_of_lookup found
    refine ⟨rfl, ⟨_, mem_evictPush_self _, rfl, rfl⟩, p,
      p.fence t.state.options.limits boot i generation, found, ?_, ?_, ?_, ?_⟩
    · exact DurableState.lookup_updateParticipant
        (fun p => p.fence_id t.state.options.limits boot i generation) found
    · rw [DurableParticipant.liveBoots_eq,
        DurableParticipant.live_fence (ht.orderly.records p hp.1).boots]
      intro hmem
      obtain ⟨e, he, heq⟩ := List.mem_map.mp hmem
      exact of_decide_eq_true (List.mem_filter.mp he).2 heq
    · obtain ⟨_, _, _, _, _, hframe⟩ := p.fence_frame t.state.options.limits boot i generation
      rw [hframe]
    · rw [DurableParticipant.live_fence (ht.orderly.records p hp.1).boots]
      exact List.filter_sublist

/-- Nothing is marked but by a fence that is recorded. -/
theorem FenceCase.idle {id : ParticipantId} {boot : WorkerBootId} {reason : FenceReason}
    {note : BoundedText} {defensive : Bool} {t u : Txn Impl} {r : FenceResult}
    (hcase : FenceCase id boot reason note defensive t r u) (hne : r.outcome ≠ .fenced) :
    u = t := by
  cases hcase with
  | unknown _ _ => rfl
  | already _ _ => rfl
  | notLive _ _ _ => rfl
  | full _ _ => rfl
  | preventive _ _ _ _ _ _ _ _ outcome => exact absurd outcome hne
  | live _ _ _ _ _ outcome => exact absurd outcome hne

theorem FenceCase.marked {id : ParticipantId} {boot : WorkerBootId} {reason : FenceReason}
    {note : BoundedText} {defensive : Bool} {t u : Txn Impl} {r : FenceResult}
    (hcase : FenceCase id boot reason note defensive t r u) (hfenced : r.outcome = .fenced) :
    u.mutated = true := by
  cases hcase with
  | unknown _ outcome => simp [outcome] at hfenced
  | already _ outcome => simp [outcome] at hfenced
  | notLive _ _ outcome => simp [outcome] at hfenced
  | full _ outcome => simp [outcome] at hfenced
  | preventive _ _ _ _ _ _ _ _ _ => rfl
  | live _ _ _ _ _ _ => rfl

/-- **What a fence by request has done**, beside the fence: it is remembered
when it was recorded. -/
theorem commitFence_ok {request : FenceWorkerRequest} {digest : SnapshotDigest} {t u : Txn Impl}
    {r : FenceResult} (hfresh : t.mutated = false) (h : commitFence request digest t = .ok r u) :
    r.outcome ≠ .fenced ∧ u = t ∨ r.outcome = .fenced ∧ ∃ t₁,
      recordFence request.participant request.boot request.reason request.note true t = .ok r t₁ ∧
      u.state = t₁.state.updateParticipant request.participant
        (·.remember t₁.state.options.limits (request.record digest r)) ∧ u.mutated = true := by
  obtain ⟨result, t₁, hfence, h⟩ := Action.bind_ok.mp h
  rw [Action.bind_hasMutated] at h
  obtain ⟨⟨⟩, t₂, hremember, h⟩ := Action.bind_ok.mp h
  cases h
  by_cases hfenced : r.outcome = .fenced
  · have hmutated := (recordFence_cases hfence).marked hfenced
    rw [hmutated] at hremember
    cases hremember
    exact .inr ⟨hfenced, t₁, hfence, rfl, hmutated⟩
  · obtain rfl := (recordFence_cases hfence).idle hfenced
    rw [hfresh] at hremember
    cases hremember
    exact .inl ⟨hfenced, rfl⟩

theorem malformedFence_some {impl : Impl} {request : FenceWorkerRequest} {r : FenceResult}
    (h : impl.malformedFence request = some r) : r.outcome ≠ .fenced := by
  simp only [Impl.malformedFence] at h
  repeat' split at h
  all_goals
    cases h
    try exact fun heq => nomatch heq

/-- The checks in front of the part of a fence that mutates. -/
structure FenceAdmitted (impl : Impl) (request : FenceWorkerRequest) (p : DurableParticipant)
    (digest : SnapshotDigest) : Prop where
  malformed : impl.malformedFence request = none
  found : impl.findParticipant request.participant = some p
  semantic : computeSemanticDigest request.semantic = .ok digest
  attempt : findAttempt p.idempotency request.attempt = none

/-- A fence by request changes nothing, and is answered Fenced from the replay
table alone, or the checks let it through. -/
theorem fenceWorker_cases {request : FenceWorkerRequest} {t u : Txn Impl} {r : FenceResult}
    (h : fenceWorker request t = .ok r u) :
    u = t ∧ (r.outcome = .fenced →
      t.state.recordedAttempt request.participant request.attempt ≠ none) ∨
    ∃ p digest, FenceAdmitted t.state request p digest ∧ commitFence request digest t = .ok r u := by
  unfold fenceWorker at h
  rw [Action.bind_current] at h
  cases hmalformed : t.state.malformedFence request with
  | some result =>
    simp only [hmalformed] at h
    cases h
    exact .inl ⟨rfl, fun hout => absurd hout (malformedFence_some hmalformed)⟩
  | none =>
    cases hfound : t.state.findParticipant request.participant with
    | none =>
      simp only [hmalformed, hfound] at h
      cases h
      exact .inl ⟨rfl, fun hout => by cases hout⟩
    | some p =>
      simp only [hmalformed, hfound] at h
      obtain ⟨digest, t', hdigest, h⟩ := Action.bind_ok.mp h
      obtain ⟨hsemantic, rfl⟩ := Action.ofExcept_ok.mp hdigest
      cases hattempt : findAttempt p.idempotency request.attempt with
      | some previous =>
        simp only [hattempt] at h
        cases h
        refine .inl ⟨rfl, fun _ => ?_⟩
        rw [Impl.recordedAttempt_of_find hfound, hattempt]
        exact Option.some_ne_none _
      | none =>
        simp only [hattempt] at h
        exact .inr ⟨p, digest, ⟨hmalformed, hfound, hsemantic, hattempt⟩, h⟩

theorem fenceWorker_advanced {T : Trust} {limits : Limits} {request : FenceWorkerRequest}
    {t u : Txn Impl} {r : FenceResult} (ht : t.state.Regular) (hfresh : t.mutated = false)
    (hlimits : t.state.options.limits = limits) (hi : T.fences → Incumbency t.state.state)
    (hagrees : T.fences → t.state.FenceAgrees request.participant request.boot)
    (hnote : T.texts → request.note.Storable)
    (h : fenceWorker request t = .ok r u) : Advanced T limits t u := by
  rcases fenceWorker_cases h with ⟨rfl, -⟩ | ⟨p, digest, ⟨hmalformed, hfound, hsemantic, hnew⟩, h⟩
  · exact .refl ht
  obtain ⟨hattempt, hboot⟩ := malformedFence_none hmalformed
  rcases commitFence_ok hfresh h with ⟨-, rfl⟩ | ⟨hfenced, t₁, hfence, hstate, hmutated⟩
  · exact .refl ht
  have hadvanced := recordFence_advanced ht hlimits hi (fun hT _ => hagrees hT)
    (fun _ => hboot) hnote hfence
  obtain ⟨-, hrecord, p', q, hp', hq, hlive, hidempotency, -⟩ :=
    (recordFence_cases hfence).recorded ht hfenced
  obtain rfl : p' = p := Option.some.inj (hp'.symm.trans ((ht.find _).symm.trans hfound))
  have hmove : Move T limits t₁.state.state (t₁.state.state.updateParticipant
      request.participant (·.remember limits (request.record digest r))) := by
    refine .remember hq (by rw [hidempotency]; exact hnew) hattempt
      (.fenced hsemantic rfl hfenced hrecord fun p hp hid => ?_)
    rw [hadvanced.regular.orderly.eq_of_lookup hq hp hid]
    exact hlive
  rw [hadvanced.regular.update, hadvanced.options, hlimits] at hstate
  refine ⟨?_, ?_, ?_, .inr hmutated⟩
  · rw [hstate]
    exact hadvanced.moves.tail hmove
  · rw [hstate]
    exact hadvanced.regular.updated (f := (·.remember _ _)) (fun _ => rfl)
      fun p hp _ => (hadvanced.regular.orderly.records p hp).of_live rfl rfl rfl rfl
  · rw [hstate]
    exact hadvanced.options

/-- A session that is closed fences nobody, or its boot, which is live. -/
theorem fenceSession_fences {session : SessionId} {binding : SessionBinding}
    {reason : SessionClosureReason} {t u : Txn Impl} {r : FenceResult}
    (h : fenceSession session binding reason t = .ok r u) :
    u = t ∧ r.outcome ≠ .fenced ∨
      recordFence binding.participant binding.boot reason.fenceReason .blank false t = .ok r u := by
  unfold fenceSession at h
  rw [Action.bind_current] at h
  split at h
  · cases h
    exact .inl ⟨rfl, fun hout => nomatch hout⟩
  · cases hfound : t.state.findParticipant binding.participant with
    | none =>
      simp only [hfound] at h
      cases h
      exact .inl ⟨rfl, fun hout => nomatch hout⟩
    | some p =>
      simp only [hfound] at h
      cases hlive : p.findIncarnation binding.boot with
      | none =>
        simp only [hlive] at h
        cases h
        exact .inl ⟨rfl, fun hout => nomatch hout⟩
      | some i =>
        simp only [hlive] at h
        exact .inr h

theorem fenceSession_advanced {T : Trust} {limits : Limits} {session : SessionId}
    {binding : SessionBinding} {reason : SessionClosureReason} {t u : Txn Impl} {r : FenceResult}
    (ht : t.state.Regular) (hlimits : t.state.options.limits = limits)
    (hi : T.fences → Incumbency t.state.state)
    (h : fenceSession session binding reason t = .ok r u) : Advanced T limits t u := by
  rcases fenceSession_fences h with ⟨rfl, -⟩ | hfence
  · exact .refl ht
  · exact recordFence_advanced ht hlimits hi (fun _ h => absurd h Bool.false_ne_true)
      (fun h => absurd h Bool.false_ne_true) (fun _ => by decide) hfence

/-! ## Retirements -/

theorem malformedRetire_none {impl : Impl} {request : RetireParticipantRequest}
    (h : impl.malformedRetire request = none) : request.attempt.isNil = false := by
  simp only [Impl.malformedRetire] at h
  split at h
  · cases h
  next hshape =>
  simp only [Bool.or_eq_true, not_or, Bool.not_eq_true] at hshape
  exact hshape.1

/-- Each boot, where its turn comes, is looked up as the records say. -/
def AlongFences (id : ParticipantId) (note : BoundedText) :
    List WorkerBootId → Txn Impl → Prop
  | [], _ => True
  | boot :: boots, t => t.state.FenceAgrees id boot ∧
      ∀ r u, recordFence id boot .administrativeRevoke note false t = .ok r u →
        AlongFences id note boots u

/-- A fence whose lookup tells what the records say ends the live incarnation. -/
theorem FenceCase.ended {id : ParticipantId} {boot : WorkerBootId} {reason : FenceReason}
    {note : BoundedText} {t u : Txn Impl} {r : FenceResult}
    (hcase : FenceCase id boot reason note false t r u) (ht : t.state.Regular)
    (hi : Incumbency t.state.state) (hagrees : t.state.FenceAgrees id boot)
    {q : DurableParticipant} (hq : u.state.state.lookup id = some q) :
    boot ∉ q.liveBoots ∧ ∃ p, t.state.state.lookup id = some p ∧ q.live.Sublist p.live := by
  by_cases hfenced : r.outcome = .fenced
  · obtain ⟨-, -, p, q', hp, hq', hlive, -, hsub⟩ := hcase.recorded ht hfenced
    obtain rfl : q' = q := Option.some.inj (hq'.symm.trans hq)
    exact ⟨hlive, p, hp, hsub⟩
  · cases hcase with
    | unknown missing _ =>
      rw [ht.find, hq] at missing
      cases missing
    | already fenced _ =>
      have hp := DurableState.mem_of_lookup hq
      refine ⟨fun hlive => hi.notFenced q hp.1 boot hlive ?_, q, hq, List.Sublist.refl _⟩
      exact hp.2.symm ▸ hagrees.mp fenced
    | notLive found notLive _ =>
      rw [ht.find, hq] at found
      cases found
      exact ⟨DurableParticipant.find_eq_none_iff.mp notLive, q, hq, List.Sublist.refl _⟩
    | full allowed _ => cases allowed
    | preventive allowed _ _ _ _ _ _ _ _ => cases allowed
    | live _ _ _ _ _ outcome => exact absurd outcome hfenced

/-- The boots that were live are fenced one after the other; when the lookups
tell what the records say, none of them stays live. -/
theorem fenceAll_advanced {T : Trust} {limits : Limits} {id : ParticipantId} {note : BoundedText}
    {boots : List WorkerBootId} {t u : Txn Impl} {n : Nat} (ht : t.state.Regular)
    (hlimits : t.state.options.limits = limits) (hi : T.fences → Incumbency t.state.state)
    (hnote : T.texts → note.Storable) (h : fenceAll id note boots t = .ok n u) :
    Advanced T limits t u ∧ (T.fences → AlongFences id note boots t →
      ∀ q, u.state.state.lookup id = some q → (∀ boot ∈ boots, boot ∉ q.liveBoots) ∧
        ∃ p, t.state.state.lookup id = some p ∧ q.live.Sublist p.live) := by
  induction boots generalizing t n with
  | nil =>
    cases h
    exact ⟨.refl ht, fun _ _ q hq => ⟨fun _ h => (nomatch h), q, hq, List.Sublist.refl _⟩⟩
  | cons boot boots ih =>
    obtain ⟨r, t₁, hfence, h⟩ := Action.bind_ok.mp h
    rw [Action.bind_current] at h
    split at h
    · cases h
    obtain ⟨m, t₂, hrest, h⟩ := Action.bind_ok.mp h
    cases h
    have hfirst := recordFence_advanced ht hlimits hi (fun _ h => absurd h Bool.false_ne_true)
      (fun h => absurd h Bool.false_ne_true) hnote hfence
    obtain ⟨hadvanced, hended⟩ := ih hfirst.regular (by rw [hfirst.options, hlimits])
      (fun hT => Moves.incumbency hfirst.moves hT ht.orderly (hi hT)) hrest
    refine ⟨hfirst.trans hadvanced, fun hT halong q hq => ?_⟩
    obtain ⟨hothers, p₁, hp₁, hsub₁⟩ := hended hT (halong.2 r t₁ hfence) q hq
    obtain ⟨hboot, p, hp, hsub⟩ :=
      (recordFence_cases hfence).ended ht (hi hT) halong.1 hp₁
    refine ⟨fun b hb => ?_, p, hp, hsub₁.trans hsub⟩
    rcases List.mem_cons.mp hb with rfl | hb
    · rw [DurableParticipant.liveBoots_eq] at hboot ⊢
      exact fun hlive => hboot ((hsub₁.map _).subset hlive)
    · exact hothers b hb

/-- **What a retirement that commits has done**, behind its fences. -/
theorem commitRetire_ok {request : RetireParticipantRequest} {digest : SnapshotDigest}
    {p : DurableParticipant} {t u : Txn Impl} {r : RetireResult}
    (h : commitRetire request digest p t = .ok r u) :
    ∃ n t₁ g, fenceAll request.participant request.note p.liveBoots t = .ok n t₁ ∧
      (t₁.state.updateParticipant request.participant (·.retire)).state.generation.next = some g ∧
      u.state = ((t₁.state.updateParticipant request.participant (·.retire)).setGeneration
        g).updateParticipant request.participant
          (·.remember t₁.state.options.limits (request.record digest n)) ∧
      u.mutated = true ∧ r.outcome = .retired ∧ r.incarnationsFenced = n ∧
      r.epoch = t₁.state.state.currentEpoch := by
  obtain ⟨n, t₁, hfences, h⟩ := Action.bind_ok.mp h
  simp only [Action.bind_current, Action.bind_pushUndo, Action.bind_modify] at h
  obtain ⟨⟨⟩, t₂, hbump, h⟩ := Action.bind_ok.mp h
  obtain ⟨g, hnext, rfl⟩ := bumpGeneration_ok hbump
  cases h
  exact ⟨n, t₁, g, hfences, hnext, rfl, rfl, rfl, rfl, rfl⟩

/-- A fence leaves the replay table of the participant alone. -/
theorem fenceAll_idempotency {id : ParticipantId} {note : BoundedText}
    {boots : List WorkerBootId} {t u : Txn Impl} {n : Nat} (ht : t.state.Regular)
    (h : fenceAll id note boots t = .ok n u) {p : DurableParticipant}
    (hp : t.state.state.lookup id = some p) :
    ∃ q, u.state.state.lookup id = some q ∧ q.idempotency = p.idempotency := by
  induction boots generalizing t n p with
  | nil =>
    cases h
    exact ⟨p, hp, rfl⟩
  | cons boot boots ih =>
    obtain ⟨r, t₁, hfence, h⟩ := Action.bind_ok.mp h
    rw [Action.bind_current] at h
    split at h
    · cases h
    obtain ⟨m, t₂, hrest, h⟩ := Action.bind_ok.mp h
    cases h
    have hregular := (recordFence_advanced (T := .nothing) ht rfl (fun h => h.elim)
      (fun h => h.elim) (fun h => absurd h Bool.false_ne_true) (fun h => h.elim) hfence).regular
    by_cases hfenced : r.outcome = .fenced
    · obtain ⟨-, -, p', q, hp', hq, -, heq, -⟩ :=
        (recordFence_cases hfence).recorded ht hfenced
      obtain rfl : p' = p := Option.some.inj (hp'.symm.trans hp)
      obtain ⟨q', hq', heq'⟩ := ih hregular hrest hq
      exact ⟨q', hq', heq'.trans heq⟩
    · obtain rfl := (recordFence_cases hfence).idle hfenced
      exact ih ht hrest hp

theorem commitRetire_advanced {T : Trust} {request : RetireParticipantRequest}
    {digest : SnapshotDigest} {p : DurableParticipant} {t u : Txn Impl} {r : RetireResult}
    (ht : t.state.Regular) (hattempt : request.attempt.isNil = false)
    (hfound : t.state.findParticipant request.participant = some p)
    (hsemantic : computeSemanticDigest request.semantic = .ok digest)
    (hnew : findAttempt p.idempotency request.attempt = none)
    (hi : T.fences → Incumbency t.state.state)
    (hagrees : T.boots → T.fences ∧ AlongFences request.participant request.note p.liveBoots t)
    (hnote : T.texts → request.note.Storable)
    (h : commitRetire request digest p t = .ok r u) :
    Advanced T t.state.options.limits t u := by
  obtain ⟨n, t₁, g, hfences, hnext, hstate, hmutated, -⟩ := commitRetire_ok h
  rw [ht.find] at hfound
  obtain ⟨hadvanced, hended⟩ := fenceAll_advanced ht rfl hi hnote hfences
  obtain ⟨q, hq, hidempotency⟩ := fenceAll_idempotency ht hfences hfound
  have hmem := DurableState.mem_of_lookup hq
  have hretire : Move T t.state.options.limits t₁.state.state
      (t₁.state.state.updateParticipant request.participant (·.retire)) := by
    refine .retire hq fun hT => ?_
    obtain ⟨hfencesT, halong⟩ := hagrees hT
    obtain ⟨hnone, p', hp', hsub⟩ := hended hfencesT halong q hq
    obtain rfl : p' = p := Option.some.inj (hp'.symm.trans hfound)
    refine List.eq_nil_iff_forall_not_mem.mpr fun e he => ?_
    refine hnone e.1 ?_ ?_
    · rw [DurableParticipant.liveBoots_eq]
      exact List.mem_map_of_mem (hsub.subset he)
    · rw [DurableParticipant.liveBoots_eq]
      exact List.mem_map_of_mem he
  rw [hadvanced.regular.update] at hstate hnext
  have hretired : (t₁.state.mapState
      (·.updateParticipant request.participant (·.retire))).Regular :=
    hadvanced.regular.updated (fun p => p.retire_id)
      fun p hp _ => (hadvanced.regular.orderly.records p hp).retire
  have hbumped := hretired.setState (f := fun s => { s with generation := g }) rfl rfl
  have hupdate := hbumped.update request.participant
    (·.remember t₁.state.options.limits (request.record digest n))
  replace hstate := hstate.trans hupdate
  rw [hadvanced.options] at hstate
  have hlookup : DurableState.lookup { t₁.state.state.updateParticipant request.participant
      (·.retire) with generation := g } request.participant = some q.retire := by
    exact DurableState.lookup_updateParticipant (fun p => p.retire_id) hq
  have hremember : Move T t.state.options.limits { t₁.state.state.updateParticipant
      request.participant (·.retire) with generation := g } _ :=
    .remember (r := request.record digest n) hlookup ?_ hattempt
      (.retired hsemantic rfl fun p' hp' hid => ?_)
  · refine ⟨?_, ?_, ?_, .inr hmutated⟩
    · rw [hstate]
      exact ((hadvanced.moves.tail hretire).tail (.bump hnext)).tail hremember
    · rw [hstate]
      exact hbumped.updated (f := (·.remember _ _)) (fun _ => rfl)
        fun p hp _ => (hbumped.orderly.records p hp).of_live rfl rfl rfl rfl
    · rw [hstate]
      exact hadvanced.options
  · obtain ⟨floor, hframe⟩ := q.retire_frame
    rw [hframe, hidempotency]
    exact hnew
  · obtain rfl := hbumped.orderly.eq_of_lookup hlookup hp' hid
    obtain ⟨floor, hframe⟩ := q.retire_frame
    rw [hframe]

theorem malformedRetire_some {impl : Impl} {request : RetireParticipantRequest} {r : RetireResult}
    (h : impl.malformedRetire request = some r) : r.outcome ≠ .retired := by
  simp only [Impl.malformedRetire] at h
  repeat' split at h
  all_goals
    cases h
    try exact fun heq => nomatch heq

/-- The checks in front of the part of a retirement that mutates. -/
structure RetireAdmitted (impl : Impl) (request : RetireParticipantRequest) (p : DurableParticipant)
    (digest : SnapshotDigest) : Prop where
  malformed : impl.malformedRetire request = none
  found : impl.findParticipant request.participant = some p
  semantic : computeSemanticDigest request.semantic = .ok digest
  attempt : findAttempt p.idempotency request.attempt = none
  notRetired : p.retired = false

/-- A retirement changes nothing, and is answered Retired from the replay table
alone, or the checks let it through. -/
theorem applyRetire_cases {request : RetireParticipantRequest} {t u : Txn Impl} {r : RetireResult}
    (h : applyRetire request t = .ok r u) :
    u = t ∧ (r.outcome = .retired →
      t.state.recordedAttempt request.participant request.attempt ≠ none) ∨
    ∃ p digest, RetireAdmitted t.state request p digest ∧
      commitRetire request digest p t = .ok r u := by
  unfold applyRetire at h
  rw [Action.bind_current] at h
  cases hmalformed : t.state.malformedRetire request with
  | some result =>
    simp only [hmalformed] at h
    cases h
    exact .inl ⟨rfl, fun hout => absurd hout (malformedRetire_some hmalformed)⟩
  | none =>
    cases hfound : t.state.findParticipant request.participant with
    | none =>
      simp only [hmalformed, hfound] at h
      cases h
      exact .inl ⟨rfl, fun hout => by cases hout⟩
    | some p =>
      simp only [hmalformed, hfound] at h
      obtain ⟨digest, t', hdigest, h⟩ := Action.bind_ok.mp h
      obtain ⟨hsemantic, rfl⟩ := Action.ofExcept_ok.mp hdigest
      cases hattempt : findAttempt p.idempotency request.attempt with
      | some previous =>
        simp only [hattempt] at h
        cases h
        refine .inl ⟨rfl, fun _ => ?_⟩
        rw [Impl.recordedAttempt_of_find hfound, hattempt]
        exact Option.some_ne_none _
      | none =>
        simp only [hattempt] at h
        split at h
        · cases h
          exact .inl ⟨rfl, fun hout => by cases hout⟩
        · next hretired =>
          exact .inr ⟨p, digest, ⟨hmalformed, hfound, hsemantic, hattempt, by simpa using hretired⟩, h⟩

theorem applyRetire_advanced {T : Trust} {limits : Limits} {request : RetireParticipantRequest}
    {t u : Txn Impl} {r : RetireResult} (ht : t.state.Regular)
    (hlimits : t.state.options.limits = limits) (hi : T.fences → Incumbency t.state.state)
    (hagrees : T.boots → T.fences ∧ ∀ p, t.state.state.lookup request.participant = some p →
      AlongFences request.participant request.note p.liveBoots t)
    (hnote : T.texts → request.note.Storable) (h : applyRetire request t = .ok r u) :
    Advanced T limits t u := by
  subst hlimits
  rcases applyRetire_cases h with ⟨rfl, -⟩ | ⟨p, digest, hadmitted, h⟩
  · exact .refl ht
  refine commitRetire_advanced ht (malformedRetire_none hadmitted.malformed) hadmitted.found
    hadmitted.semantic hadmitted.attempt hi (fun hT => ⟨(hagrees hT).1, (hagrees hT).2 p ?_⟩) hnote h
  rw [← ht.find]
  exact hadmitted.found

end FabricEpoch
