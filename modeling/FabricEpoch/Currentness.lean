import FabricEpoch.Runtime.Barrier

/-!
# What a token can be used with

A request without a grant is answered from the record of the token's
participant, and the answer is exact: `registrationCurrent_iff`.

Validation through a named grant compares the grant with the token by boot and
sequence alone. So laws that hold of every token without a grant hold of a token
with one only where the grant cannot be used with it:

- `staleNeverCurrent_iff`: a token of another epoch is never current;
- `onlyGrantee_iff`: a grant is used by its grantee alone;
- `honoursGeneration_iff`: the generation the caller expects is the one of the
  participant.
-/

namespace FabricEpoch

/-! ## Without a grant -/

/-- The registration that the token claims stands in the records. -/
structure RegistrationCurrent (state : DurableState) (request : ValidateAuthorityRequest) :
    Prop where
  shape : request.token.WellShaped
  epoch : request.token.epoch = state.currentEpoch
  record : ∃ p ∈ state.participants, p.id = request.token.participant ∧ p.retired = false ∧
    (request.token.boot, request.token.incarnation) ∈ p.live ∧ request.scope ∈ p.scopes.scopes ∧
    request.Expects p.registrationGeneration

/-- **A request without a grant is current exactly where the registration
stands**, in every reachable state. -/
theorem registrationCurrent_iff {host : Host} (h : coordinator.Reaches (fun _ _ => True) host)
    {impl : Impl} (himpl : host.runtime = some impl) {request : ValidateAuthorityRequest}
    (hgrant : request.grant = none) :
    (impl.validate request).code = .current ↔ RegistrationCurrent impl.state request := by
  have hdistinct := reachable_distinct h himpl
  rw [validate_current_iff]
  constructor
  · rintro ⟨hshape, ⟨id, -, -, hid, -⟩ | ⟨-, p, husable⟩⟩
    · rw [hgrant] at hid
      cases hid
    · exact ⟨hshape, husable.epoch, p, Impl.mem_of_find husable.found,
        hdistinct.findable.id_of_find husable.found, husable.notRetired,
        DurableParticipant.mem_live_of_find husable.incarnation,
        ScopeSet.contains_iff.mp husable.scope, husable.generation⟩
  · rintro ⟨hshape, hepoch, p, hp, hid, hretired, hlive, hscope, hexpects⟩
    refine ⟨hshape, .inr ⟨hgrant, p, hepoch, ?_, hretired, ?_, ScopeSet.contains_iff.mpr hscope,
      hexpects⟩⟩
    · rw [← hid]
      exact hdistinct.find_of_mem hp
    · exact DurableParticipant.find_of_nodup (reachable_liveOnce h himpl p hp) hlive

/-- Validate a registration of the run below against the test scope. -/
def useRegistration (boot : WorkerBootId) : ValidateAuthorityRequest where
  token := ⟨smallCounter 1, testParticipant "p", boot, smallCounter 1, .zero⟩
  scope := testScope

/-- The registration of the one worker of a run stands. -/
theorem registrationCurrent_iff_test : ∃ host impl, coordinator.Reaches (fun _ _ => True) host ∧
    host.runtime = some impl ∧ RegistrationCurrent impl.state (useRegistration (smallId 4)) := by
  let inputs := [testOpen {} 1,
    callOf (.register (testRegister 3 (testParticipant "p") (smallId 4)))]
  have hrun : ((coordinator.run coordinator.init inputs).runtime.map fun impl =>
      (impl.validate (useRegistration (smallId 4))).code) = some .current := by decide +kernel
  obtain ⟨impl, himpl, hcode⟩ := Option.map_eq_some_iff.mp hrun
  have hreach := Machine.reaches_run (M := coordinator) inputs
  exact ⟨_, impl, hreach, himpl, (registrationCurrent_iff hreach himpl rfl).mp hcode⟩

/-! ## Through a grant -/

/-- No grant that the request names can be used with its token. -/
def NamesNoUsableGrant (impl : Impl) (request : ValidateAuthorityRequest) : Prop :=
  ∀ id grant owner, request.grant = some id → impl.findGrant id = some grant →
    request.token.WellShaped → ¬ GrantUsable impl request grant owner

/-! ## The epoch of the token -/

/-- A token of another epoch than the current one is not current. -/
def StaleNeverCurrent (impl : Impl) (request : ValidateAuthorityRequest) : Prop :=
  request.token.epoch ≠ impl.state.currentEpoch → (impl.validate request).code ≠ .current

/-- **The epoch of the token** is enforced exactly where no named grant can be
used: on the grant path only the epoch of the grant is compared. -/
theorem staleNeverCurrent_iff (impl : Impl) (request : ValidateAuthorityRequest) :
    StaleNeverCurrent impl request ↔
      request.token.epoch = impl.state.currentEpoch ∨ NamesNoUsableGrant impl request := by
  constructor
  · intro h
    refine or_iff_not_imp_left.mpr fun hepoch id grant owner hid hgrant hshape husable => ?_
    exact h hepoch (validate_current_iff.mpr ⟨hshape, .inl ⟨id, grant, owner, hid, hgrant, husable⟩⟩)
  · rintro h hepoch hcurrent
    have hno : NamesNoUsableGrant impl request := h.resolve_left hepoch
    obtain ⟨hshape, ⟨id, grant, owner, hid, hgrant, husable⟩ | ⟨-, p, htoken⟩⟩ :=
      validate_current_iff.mp hcurrent
    · exact hno id grant owner hid hgrant hshape husable
    · exact hepoch htoken.epoch

/-! ### A run that uses a grant under another epoch and another name -/

/-- One worker and one grant to it. -/
def grantRun : List Input := [
  testOpen {} 1,
  callOf (.register (testRegister 3 (testParticipant "p") (smallId 4))),
  callOf (.grant (testGrant 5 (testParticipant "p") (smallId 4) (smallCounter 1)))]

/-- Use the grant of the run with a token of this epoch and participant. -/
def useGrant (epoch : CoordinatorEpoch) (participant : ParticipantId) :
    ValidateAuthorityRequest where
  token := ⟨epoch, participant, smallId 4, smallCounter 1, .zero⟩
  scope := testScope
  grant := some (smallId 9)

/-- **A token of epoch zero is current** in a reachable state of epoch one. -/
theorem staleToken_current : ∃ host impl, coordinator.Reaches (fun _ _ => True) host ∧
    host.runtime = some impl ∧
    ¬ StaleNeverCurrent impl (useGrant .zero (testParticipant "p")) := by
  have hrun : ((coordinator.run coordinator.init grantRun).runtime.map fun impl =>
      (impl.state.currentEpoch, (impl.validate (useGrant .zero (testParticipant "p"))).code)) =
      some (smallCounter 1, .current) := by decide +kernel
  obtain ⟨impl, himpl, hvalue⟩ := Option.map_eq_some_iff.mp hrun
  obtain ⟨hepoch, hcode⟩ := Prod.mk.inj hvalue
  refine ⟨_, impl, Machine.reaches_run grantRun, himpl, fun h => h ?_ hcode⟩
  rw [hepoch]
  decide

/-! ## The holder of the grant -/

/-- A grant that is used is used by its grantee: the token names the
participant and the boot of the grant, and that boot is live under the token's
sequence. -/
def OnlyGrantee (impl : Impl) (request : ValidateAuthorityRequest) : Prop :=
  ∀ id grant, request.grant = some id → impl.findGrant id = some grant →
    (impl.validate request).code = .current →
    request.token.participant = grant.participant ∧ request.token.boot = grant.boot ∧
      ∃ p ∈ impl.state.participants, p.id = grant.participant ∧
        (request.token.boot, request.token.incarnation) ∈ p.live

/-- **The holder of the grant** is enforced in a reachable state exactly where
the token names the grantee, or no named grant can be used: the participant of
the token is never compared with that of the grant. -/
theorem onlyGrantee_iff {host : Host} (h : coordinator.Reaches (fun _ _ => True) host)
    {impl : Impl} (himpl : host.runtime = some impl) (request : ValidateAuthorityRequest) :
    OnlyGrantee impl request ↔
      (∀ id grant, request.grant = some id → impl.findGrant id = some grant →
        request.token.participant = grant.participant) ∨ NamesNoUsableGrant impl request := by
  constructor
  · intro honly
    refine or_iff_not_imp_right.mpr fun husable id grant hid hgrant => ?_
    simp only [NamesNoUsableGrant, not_forall, not_not] at husable
    obtain ⟨id', grant', owner, hid', hgrant', hshape, husable⟩ := husable
    obtain rfl : id' = id := Option.some.inj (hid'.symm.trans hid)
    obtain rfl : grant' = grant := Option.some.inj (hgrant'.symm.trans hgrant)
    refine (honly id' grant' hid hgrant (validate_current_iff.mpr ⟨hshape, .inl ?_⟩)).1
    exact ⟨id', grant', owner, hid, hgrant, husable⟩
  · rintro hcond id grant hid hgrant hcurrent
    obtain ⟨hshape, ⟨id', grant', owner, hid', hgrant', husable⟩ | ⟨hnone, -⟩⟩ :=
      validate_current_iff.mp hcurrent
    swap
    · rw [hid] at hnone
      cases hnone
    obtain rfl : id' = id := Option.some.inj (hid'.symm.trans hid)
    obtain rfl : grant' = grant := Option.some.inj (hgrant'.symm.trans hgrant)
    rcases hcond with hcond | hno
    · refine ⟨hcond id' grant' hid hgrant, husable.boot.symm, owner, Impl.mem_of_find husable.found,
        (reachable_findable h himpl).id_of_find husable.found, ?_⟩
      exact DurableParticipant.mem_live_of_find husable.incarnation
    · exact absurd husable (hno id' grant' owner hid hgrant hshape)

/-- The grantee may use the grant of the run. -/
theorem onlyGrantee_iff_test : ∃ host impl, coordinator.Reaches (fun _ _ => True) host ∧
    host.runtime = some impl ∧
    OnlyGrantee impl (useGrant (smallCounter 1) (testParticipant "p")) := by
  have hrun : ((coordinator.run coordinator.init grantRun).runtime.map fun impl =>
      (impl.findGrant (smallId 9)).map (·.participant)) = some (some (testParticipant "p")) := by
    decide +kernel
  obtain ⟨impl, himpl, hgrant⟩ := Option.map_eq_some_iff.mp hrun
  refine ⟨_, impl, Machine.reaches_run grantRun, himpl, ?_⟩
  refine (onlyGrantee_iff (Machine.reaches_run grantRun) himpl _).mpr (.inl ?_)
  rintro id grant hid hfound
  cases hid
  rw [hfound] at hgrant
  exact (Option.some.inj hgrant).symm

/-- **A participant that was never registered uses the grant of another**, in a
reachable state. -/
theorem othersGrant_current : ∃ host impl, coordinator.Reaches (fun _ _ => True) host ∧
    host.runtime = some impl ∧
    ¬ OnlyGrantee impl (useGrant (smallCounter 1) (testParticipant "q")) := by
  have hrun : ((coordinator.run coordinator.init grantRun).runtime.map fun impl =>
      ((impl.findGrant (smallId 9)).map (·.participant),
        (impl.validate (useGrant (smallCounter 1) (testParticipant "q"))).code)) =
      some (some (testParticipant "p"), .current) := by decide +kernel
  obtain ⟨impl, himpl, hvalue⟩ := Option.map_eq_some_iff.mp hrun
  obtain ⟨hgrant, hcode⟩ := Prod.mk.inj hvalue
  obtain ⟨grant, hfound, hparticipant⟩ := Option.map_eq_some_iff.mp hgrant
  refine ⟨_, impl, Machine.reaches_run grantRun, himpl, fun h => ?_⟩
  have hname := (h (smallId 9) grant rfl hfound hcode).1
  rw [hparticipant] at hname
  revert hname
  decide

/-! ## The expected generation -/

/-- The participant whose incarnation is validated. -/
def Impl.validatedParticipant (impl : Impl) (request : ValidateAuthorityRequest) :
    Option ParticipantId :=
  match request.grant with
  | some id => (impl.findGrant id).map (·.participant)
  | none => some request.token.participant

/-- A current answer to a request that expects a generation: the participant has
that generation. -/
def HonoursGeneration (impl : Impl) (request : ValidateAuthorityRequest) : Prop :=
  ∀ expected, request.expectedGeneration = some expected →
    (impl.validate request).code = .current →
    ∃ p ∈ impl.state.participants, impl.validatedParticipant request = some p.id ∧
      expected = p.registrationGeneration

/-- Where the named grant can be used by a caller that expects nothing, the
generation of the grant differs from the registration generation of its
participant, as numbers, or the caller expects that generation. -/
def NoCoincidence (impl : Impl) (request : ValidateAuthorityRequest) : Prop :=
  ∀ id grant owner, request.grant = some id → impl.findGrant id = some grant →
    request.token.WellShaped → GrantUsable impl { request with expectedGeneration := none } grant owner →
    grant.generation.value ≠ owner.registrationGeneration.value ∨
      request.Expects owner.registrationGeneration

/-- **The expected generation** is honoured exactly where the two counters do not
coincide: the grant path drops the comparison when they do. -/
theorem honoursGeneration_iff {host : Host} (h : coordinator.Reaches (fun _ _ => True) host)
    {impl : Impl} (himpl : host.runtime = some impl) (request : ValidateAuthorityRequest) :
    HonoursGeneration impl request ↔ NoCoincidence impl request := by
  have hdistinct := reachable_distinct h himpl
  constructor
  · rintro hhonours id grant owner hid hgrant hshape ⟨hepoch, hlive, hboot, hfound, hinc, hscope, -⟩
    refine or_iff_not_imp_left.mpr fun hsame expected hexpected => ?_
    -- the comparison is dropped, so the answer is current
    obtain ⟨p, hp, hvalidated, heq⟩ := hhonours expected hexpected (validate_current_iff.mpr
      ⟨hshape, .inl ⟨id, grant, owner, hid, hgrant, hepoch, hlive, hboot, hfound, hinc, hscope,
        .inl (not_not.mp hsame)⟩⟩)
    have hpid : grant.participant = p.id := by
      simp only [Impl.validatedParticipant, hid, hgrant, Option.map_some] at hvalidated
      exact Option.some.inj hvalidated
    rw [hpid, hdistinct.find_of_mem hp] at hfound
    rw [heq, Option.some.inj hfound]
  · rintro hdiffer expected hexpected hcurrent
    obtain ⟨hshape, ⟨id, grant, owner, hid, hgrant, husable⟩ | ⟨hnone, p, husable⟩⟩ :=
      validate_current_iff.mp hcurrent
    · have hplain : GrantUsable impl { request with expectedGeneration := none } grant owner :=
        ⟨husable.epoch, husable.live, husable.boot, husable.found, husable.incarnation,
          husable.scope, .inr fun _ hnone => by cases hnone⟩
      have hexpects : request.Expects owner.registrationGeneration := by
        rcases hdiffer id grant owner hid hgrant hshape hplain with hne | hexpects
        · exact husable.generation.resolve_left hne
        · exact hexpects
      refine ⟨owner, Impl.mem_of_find husable.found, ?_, hexpects expected hexpected⟩
      simp only [Impl.validatedParticipant, hid, hgrant, Option.map_some,
        hdistinct.findable.id_of_find husable.found]
    · refine ⟨p, Impl.mem_of_find husable.found, ?_, husable.generation expected hexpected⟩
      rw [Impl.validatedParticipant, hnone, hdistinct.findable.id_of_find husable.found]

/-- Use the grant of a run and expect this registration generation. -/
def expectGeneration (boot : WorkerBootId) (expected : RegistrationGeneration) :
    ValidateAuthorityRequest where
  token := ⟨smallCounter 1, testParticipant "p", boot, smallCounter 1, .zero⟩
  scope := testScope
  expectedGeneration := some expected
  grant := some (smallId 9)

/-- A grant of the third generation to the first registration. -/
theorem honoursGeneration_iff_test : ∃ host impl, coordinator.Reaches (fun _ _ => True) host ∧
    host.runtime = some impl ∧
    HonoursGeneration impl (expectGeneration (smallId 4) (smallCounter 7)) := by
  have hrun : ((coordinator.run coordinator.init grantRun).runtime.map fun impl =>
      ((impl.findGrant (smallId 9)).map fun g => (g.participant, g.generation.value),
        (impl.findParticipant (testParticipant "p")).map (·.registrationGeneration.value))) =
      some (some (testParticipant "p", 3), some 1) := by decide +kernel
  obtain ⟨impl, himpl, hvalue⟩ := Option.map_eq_some_iff.mp hrun
  obtain ⟨hissued, hregistered⟩ := Prod.mk.inj hvalue
  refine ⟨_, impl, Machine.reaches_run grantRun, himpl,
    (honoursGeneration_iff (Machine.reaches_run grantRun) himpl _).mpr ?_⟩
  rintro id grant owner hid hgrant - husable
  cases hid
  have hgrant' : impl.findGrant (smallId 9) = some grant := hgrant
  rw [hgrant', Option.map_some, Option.some.injEq, Prod.mk.injEq] at hissued
  have howner : impl.findParticipant (testParticipant "p") = some owner :=
    hissued.1 ▸ husable.found
  rw [howner, Option.map_some, Option.some.injEq] at hregistered
  left
  rw [hissued.2, hregistered]
  decide

/-- **An expectation that fails is not reported**: three workers registered in one
batch, and a grant to the last of them, whose two generations are both three. -/
theorem unexpectedGeneration_current : ∃ host impl,
    coordinator.Reaches (fun _ _ => True) host ∧ host.runtime = some impl ∧
    ¬ HonoursGeneration impl (expectGeneration (smallId 4) (smallCounter 7)) := by
  let inputs := [testOpen {} 1,
    callOf (.registerBatch [testRegister 1 (testParticipant "r") (smallId 2),
      testRegister 2 (testParticipant "q") (smallId 3),
      testRegister 3 (testParticipant "p") (smallId 4)]),
    callOf (.grant (testGrant 5 (testParticipant "p") (smallId 4) (smallCounter 1)))]
  have hrun : ((coordinator.run coordinator.init inputs).runtime.map fun impl =>
      ((impl.validate (expectGeneration (smallId 4) (smallCounter 7))).code,
        decide (∃ p ∈ impl.state.participants, p.registrationGeneration = smallCounter 7))) =
      some (.current, false) := by decide +kernel
  obtain ⟨impl, himpl, hvalue⟩ := Option.map_eq_some_iff.mp hrun
  obtain ⟨hcode, hnone⟩ := Prod.mk.inj hvalue
  refine ⟨_, impl, Machine.reaches_run inputs, himpl, fun h => ?_⟩
  obtain ⟨p, hp, -, heq⟩ := h _ rfl hcode
  exact of_decide_eq_false hnone ⟨p, hp, heq.symm⟩

end FabricEpoch
