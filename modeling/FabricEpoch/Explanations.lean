import FabricEpoch.Currentness
import FabricEpoch.Runtime.Views

/-!
# The explanation and the decision

A refusal is classified twice: `validate` answers the worker, and
`explainAuthority` answers the operator. Both ask whether the participant is
known and not retired, whether the boot is live, and whether it is fenced. Behind
that they part:

- validation consults the floor of the participant before the revalidation flag,
  the explanation does not consult it at all;
- an incarnation that another one has superseded is `FENCED` to validation, so
  the explanation `WORKER_BOOT_SUPERSEDED` it has for it is never given.

`sameReason_iff` says exactly when the two name one reason.
-/

namespace FabricEpoch

/-! ## The code of an explanation -/

namespace Explanation

@[simp] theorem code_ofCode (code : ExplanationCode) : (ofCode code).code = code := rfl

@[simp] theorem code_withDetail (e : Explanation) (key : String) (value : Text) :
    (e.withDetail key value).code = e.code := rfl

@[simp] theorem code_withCode (e : Explanation) (code : ExplanationCode) :
    (e.withCode code).code = code := rfl

end Explanation

variable {impl : Impl} {token : AuthorityToken} {scope : AuthorityScope}

/-! ## Where the two are compared -/

/-- The token is of the current epoch and of a boot that can be asked for. It
claims the sequence under which the boot is live, any but zero if it is not; and
the scope is one of the participant's. -/
structure Impl.Asked (impl : Impl) (token : AuthorityToken) (scope : AuthorityScope) : Prop where
  epoch : token.epoch = impl.state.currentEpoch
  boot : token.boot.isNil = false
  sequence : ∀ p ∈ impl.state.participants, p.id = token.participant →
    ∀ i, (token.boot, i) ∈ p.live → token.incarnation = i
  nonzero : (∀ p ∈ impl.state.participants, p.id = token.participant → token.boot ∉ p.liveBoots) →
    token.incarnation.value ≠ 0
  scope : ∀ p ∈ impl.state.participants, p.id = token.participant → scope ∈ p.scopes.scopes

/-- The worker and the operator are told the same reason. -/
def Impl.SameReason (impl : Impl) (token : AuthorityToken) (scope : AuthorityScope) : Prop :=
  (impl.validate { token, scope }).explanation.code =
    (impl.explainAuthority token.participant token.boot).code

/-- The boot is neither live nor fenced, and either another incarnation is live,
or the participant waits for a registration and the sequence that is claimed lies
behind its floor. -/
structure Impl.ToldApart (impl : Impl) (owner : DurableParticipant) (token : AuthorityToken) :
    Prop where
  notRetired : owner.retired = false
  notLive : token.boot ∉ owner.liveBoots
  notFenced : (impl.lookupFence token.participant token.boot).fenced = false
  apart : owner.live ≠ [] ∨
    owner.revalidationRequired = true ∧ token.incarnation ≤ owner.incarnationFloor

/-! ## The two answers -/

/-- What the explanation says of a boot that is not live. -/
theorem code_explainLost (owner : DurableParticipant) (id : ParticipantId) (boot : WorkerBootId)
    (e : Explanation) :
    (impl.explainLost id owner boot e).code =
      if (impl.lookupFence id boot).fenced then .workerBootFenced
      else if !owner.hasCurrent then
        if owner.revalidationRequired then .revalidationRequired else .workerBootFenced
      else .workerBootSuperseded := by
  unfold Impl.explainLost
  dsimp only
  split
  · cases (impl.lookupFence id boot).record <;> rfl
  · split
    · split <;> rfl
    · rfl

/-- The code that validation puts in front of the details. -/
theorem code_explainNotCurrent (request : ValidateAuthorityRequest) (owner : DurableParticipant)
    (evaluation : IncarnationEvaluation) :
    (impl.explainNotCurrent request owner evaluation).code =
      if evaluation.currentness = .fenced then .workerBootFenced
      else if evaluation.currentness = .revalidationRequired then .revalidationRequired
      else .workerBootSuperseded := by
  unfold Impl.explainNotCurrent
  dsimp only
  cases evaluation.fenceReason <;> cases evaluation.supersededBy <;> cases owner.hasActiveBoot <;> rfl

/-- **A boot that is not live** is never superseded to validation. -/
theorem currentness_of_not_live {owner : DurableParticipant} {boot : WorkerBootId}
    {claimed : IncarnationSequence} (hlive : owner.findIncarnation boot = none)
    (hclaimed : claimed.value ≠ 0) :
    (impl.evaluateIncarnation owner boot claimed).currentness =
      if (impl.lookupFence owner.id boot).fenced = false ∧ ¬ claimed ≤ owner.incarnationFloor ∧
          owner.hasCurrent = false ∧ owner.revalidationRequired = true then .revalidationRequired
      else .fenced := by
  unfold Impl.evaluateIncarnation
  rw [hlive]
  dsimp only
  by_cases hfenced : (impl.lookupFence owner.id boot).fenced = true
  · simp [hfenced]
  by_cases hfloor : claimed ≤ owner.incarnationFloor
  · simp [hfenced, hclaimed, hfloor]
  cases hcurrent : owner.hasCurrent <;> cases hwaits : owner.revalidationRequired <;>
    simp [hfenced, hfloor]

/-- The two answers for a boot that is not live, of a participant that is not
retired: they part on what is neither fenced nor plainly waiting. -/
theorem sameReason_of_not_live {owner : DurableParticipant} (htoken : token.WellShaped)
    (hepoch : token.epoch = impl.state.currentEpoch)
    (hfound : impl.findParticipant token.participant = some owner)
    (hid : owner.id = token.participant) (hretired : owner.retired = false)
    (hlive : owner.findIncarnation token.boot = none) :
    impl.SameReason token scope ↔ ¬ ((impl.lookupFence token.participant token.boot).fenced = false ∧
      (owner.hasCurrent = true ∨
        owner.revalidationRequired = true ∧ token.incarnation ≤ owner.incarnationFloor)) := by
  obtain ⟨hname, hboot, hclaimed⟩ := htoken
  have hcode : (impl.evaluateIncarnation owner token.boot token.incarnation).code ≠ .current := by
    intro hcurrent
    rw [evaluateIncarnation_current_iff hclaimed, hlive] at hcurrent
    cases hcurrent
  have hzero : token.incarnation.isZero = false := by
    rw [Bool.eq_false_iff]
    exact fun h => hclaimed (MonotonicCounter.isZero_iff.mp h)
  unfold Impl.SameReason Impl.validate Impl.validateToken Impl.explainAuthority
  simp only [hname, hboot, hzero, hepoch, hfound, hretired, hlive, hcode, Bool.false_eq_true, or_self,
    if_false, ne_eq, not_true, not_false_eq_true, if_true, Impl.validation, code_explainLost,
    code_explainNotCurrent, currentness_of_not_live hlive hclaimed, hid]
  by_cases hfenced : (impl.lookupFence token.participant token.boot).fenced = true
  · simp [hfenced]
  by_cases hfloor : token.incarnation ≤ owner.incarnationFloor
  all_goals cases hcurrent : owner.hasCurrent <;> cases hwaits : owner.revalidationRequired <;>
    simp [hfenced, hfloor]

/-- No explanation says that the request was malformed. -/
theorem explainAuthority_ne_malformed (id : ParticipantId) (boot : WorkerBootId) :
    (impl.explainAuthority id boot).code ≠ .malformedRequest := by
  unfold Impl.explainAuthority
  dsimp only
  cases impl.findParticipant id with
  | none => simp
  | some owner =>
    cases hretired : owner.retired
    · cases hlive : owner.findIncarnation boot with
      | some i => simp [hretired, hlive]
      | none =>
        simp only [hretired, hlive, Bool.false_eq_true, if_false, code_explainLost]
        repeat' split
        all_goals simp
    · simp [hretired]

/-! ## The law -/

/-- No current incarnation of a reachable runtime is zero, whatever fails on the
way. -/
theorem reachable_numbered {host : Host} (h : coordinator.Reaches (fun _ _ => True) host)
    (himpl : host.runtime = some impl) : ∀ p ∈ impl.state.participants, p.Numbered :=
  recordStable_numbered.reachable h himpl

/-- A token that is asked claims a sequence. -/
theorem Impl.Asked.claimed (hasked : impl.Asked token scope)
    (hnumbered : ∀ p ∈ impl.state.participants, p.Numbered) : token.incarnation.value ≠ 0 := by
  by_cases hlive : ∀ p ∈ impl.state.participants, p.id = token.participant →
      token.boot ∉ p.liveBoots
  · exact hasked.nonzero hlive
  · push Not at hlive
    obtain ⟨p, hp, hid, hboot⟩ := hlive
    rw [DurableParticipant.liveBoots_eq] at hboot
    obtain ⟨⟨boot, i⟩, hmem, heq⟩ := List.mem_map.mp hboot
    obtain rfl : boot = token.boot := heq
    rw [hasked.sequence p hp hid i hmem]
    exact (hnumbered p hp).2 _ hmem

/-- **The explanation agrees with the decision** in a reachable state exactly
where the participant is named, and the boot is not told apart. -/
theorem sameReason_iff {host : Host} (h : coordinator.Reaches (fun _ _ => True) host)
    (himpl : host.runtime = some impl) (hasked : impl.Asked token scope) :
    impl.SameReason token scope ↔ token.participant.empty = false ∧
      ∀ p ∈ impl.state.participants, p.id = token.participant → ¬ impl.ToldApart p token := by
  have hdistinct := reachable_distinct h himpl
  have hclaimed := hasked.claimed (reachable_numbered h himpl)
  by_cases hempty : token.participant.empty = true
  · -- a blank name is malformed to validation only
    have hmalformed : (impl.validate { token, scope }).explanation.code = .malformedRequest := by
      unfold Impl.validate
      rw [if_pos (.inl hempty)]
      rfl
    unfold Impl.SameReason
    rw [hmalformed, hempty]
    constructor
    · intro hsame
      exact absurd hsame.symm (explainAuthority_ne_malformed _ _)
    · rintro ⟨hfalse, -⟩
      cases hfalse
  have hname : token.participant.empty = false := by simpa using hempty
  have hshape : token.WellShaped := ⟨hname, hasked.boot, hclaimed⟩
  have hzero : token.incarnation.isZero = false := by
    rw [Bool.eq_false_iff]
    exact fun hz => hclaimed (MonotonicCounter.isZero_iff.mp hz)
  rw [and_iff_right hname]
  cases hfound : impl.findParticipant token.participant with
  | none =>
    -- unknown to both
    have hsame : impl.SameReason token scope := by
      unfold Impl.SameReason Impl.validate Impl.validateToken Impl.explainAuthority
      simp [hname, hasked.boot, hzero, hasked.epoch, hfound, Impl.validation]
    refine iff_of_true hsame fun p hp hid => ?_
    rw [← hid, hdistinct.find_of_mem hp] at hfound
    cases hfound
  | some owner =>
    have howner : owner ∈ impl.state.participants := Impl.mem_of_find hfound
    have hid : owner.id = token.participant := hdistinct.findable.id_of_find hfound
    have hunique : ∀ p ∈ impl.state.participants, p.id = token.participant → p = owner := by
      intro p hp hpid
      have hlookup := hdistinct.find_of_mem hp
      rw [hpid, hfound] at hlookup
      exact (Option.some.inj hlookup).symm
    by_cases hretired : owner.retired = true
    · -- retired to both
      have hsame : impl.SameReason token scope := by
        unfold Impl.SameReason Impl.validate Impl.validateToken Impl.explainAuthority
        simp [hname, hasked.boot, hzero, hasked.epoch, hfound, hretired, Impl.validation]
      refine iff_of_true hsame fun p hp hpid htold => ?_
      have hopen := htold.notRetired
      rw [hunique p hp hpid, hretired] at hopen
      cases hopen
    have hopen : owner.retired = false := by simpa using hretired
    cases hlive : owner.findIncarnation token.boot with
    | some i =>
      -- live, so current to both
      have hi : token.incarnation = i :=
        hasked.sequence owner howner hid i (DurableParticipant.mem_live_of_find hlive)
      have hcurrent : (impl.evaluateIncarnation owner token.boot token.incarnation).code = .current := by
        rw [evaluateIncarnation_current_iff hclaimed, hlive, hi]
      have hscope : owner.scopes.contains scope = true :=
        ScopeSet.contains_iff.mpr (hasked.scope owner howner hid)
      have hsame : impl.SameReason token scope := by
        unfold Impl.SameReason Impl.validate Impl.validateToken Impl.explainAuthority
        simp [hname, hasked.boot, hzero, hasked.epoch, hfound, hopen, hcurrent, hlive, hscope,
          Impl.validateBoundScope, Impl.validateBoundScope.current, Impl.validation]
      refine iff_of_true hsame fun p hp hpid htold => ?_
      have hgone := htold.notLive
      rw [hunique p hp hpid] at hgone
      rw [DurableParticipant.find_eq_none_iff.mpr hgone] at hlive
      cases hlive
    | none =>
      rw [sameReason_of_not_live hshape hasked.epoch hfound hid hopen hlive]
      have hheld : owner.hasCurrent = true ↔ owner.live ≠ [] := by
        rw [← Bool.not_eq_false, ne_eq, DurableParticipant.hasCurrent_eq_false_iff]
      constructor
      · intro hsame p hp hpid htold
        rw [hunique p hp hpid] at htold
        exact hsame ⟨htold.notFenced, htold.apart.imp_left hheld.mpr⟩
      · rintro happart ⟨hfenced, hor⟩
        exact happart owner howner hid
          ⟨hopen, DurableParticipant.find_eq_none_iff.mp hlive, hfenced, hor.imp_left hheld.mp⟩

/-! ### A boot that was never seen -/

/-- One worker. -/
def oneWorkerRun : List Input := [
  testOpen {} 1,
  callOf (.register (testRegister 3 (testParticipant "p") (smallId 4)))]

/-- A token of this boot, for the participant of the run. -/
def tokenOf (boot : WorkerBootId) : AuthorityToken where
  epoch := smallCounter 1
  participant := testParticipant "p"
  boot := boot
  incarnation := smallCounter 1
  registrationGeneration := .zero

/-- The records of the run. -/
def OneWorker (impl : Impl) : Prop :=
  impl.state.currentEpoch = smallCounter 1 ∧
    impl.state.participants.map (fun p => (p.live, p.scopes.scopes)) =
      [([(smallId 4, smallCounter 1)], [testScope])]

instance (impl : Impl) : Decidable (OneWorker impl) := inferInstanceAs (Decidable (_ ∧ _))

theorem OneWorker.record {impl : Impl} (h : OneWorker impl) {p : DurableParticipant}
    (hp : p ∈ impl.state.participants) :
    p.live = [(smallId 4, smallCounter 1)] ∧ p.scopes.scopes = [testScope] := by
  have hmem := List.mem_map_of_mem (f := fun p => (p.live, p.scopes.scopes)) hp
  rw [h.2, List.mem_singleton] at hmem
  exact Prod.mk.inj hmem

theorem OneWorker.asked {impl : Impl} (h : OneWorker impl) {boot : WorkerBootId}
    (hboot : boot.isNil = false) : impl.Asked (tokenOf boot) testScope where
  epoch := h.1.symm
  boot := hboot
  sequence p hp _ i hlive := by
    rw [(h.record hp).1, List.mem_singleton] at hlive
    exact (Prod.mk.inj hlive).2.symm
  nonzero _ := Nat.one_ne_zero
  scope p hp _ := by
    rw [(h.record hp).2]
    exact List.mem_singleton_self _

/-- The worker of the run is told what the operator is. -/
theorem sameReason_iff_test : ∃ host impl, coordinator.Reaches (fun _ _ => True) host ∧
    host.runtime = some impl ∧ impl.SameReason (tokenOf (smallId 4)) testScope := by
  have hrun : ((coordinator.run coordinator.init oneWorkerRun).runtime.map fun impl =>
      decide (OneWorker impl)) = some true := by decide +kernel
  obtain ⟨impl, himpl, hone⟩ := Option.map_eq_some_iff.mp hrun
  have hreach := Machine.reaches_run (M := coordinator) oneWorkerRun
  have hworker : OneWorker impl := of_decide_eq_true hone
  refine ⟨_, impl, hreach, himpl, ?_⟩
  refine (sameReason_iff hreach himpl (hworker.asked (by decide))).mpr ⟨by decide, ?_⟩
  intro p hp _ htold
  refine htold.notLive ?_
  rw [DurableParticipant.liveBoots_eq, (hworker.record hp).1]
  exact List.mem_singleton_self _

/-- **A boot that was never fenced** is `FENCED` to the worker and `SUPERSEDED`
to the operator, in a reachable state. -/
theorem stranger_toldApart : ∃ host impl, coordinator.Reaches (fun _ _ => True) host ∧
    host.runtime = some impl ∧ impl.Asked (tokenOf (smallId 5)) testScope ∧
      ¬ impl.SameReason (tokenOf (smallId 5)) testScope := by
  have hrun : ((coordinator.run coordinator.init oneWorkerRun).runtime.map fun impl =>
      (decide (OneWorker impl),
        (impl.validate { token := tokenOf (smallId 5), scope := testScope }).explanation.code,
        (impl.explainAuthority (testParticipant "p") (smallId 5)).code)) =
      some (true, .workerBootFenced, .workerBootSuperseded) := by
    decide +kernel
  obtain ⟨impl, himpl, hvalue⟩ := Option.map_eq_some_iff.mp hrun
  obtain ⟨hone, hcodes⟩ := Prod.mk.inj hvalue
  obtain ⟨hworker, hoperator⟩ := Prod.mk.inj hcodes
  have hrecords : OneWorker impl := of_decide_eq_true hone
  refine ⟨_, impl, Machine.reaches_run oneWorkerRun, himpl, hrecords.asked (by decide), fun hsame => ?_⟩
  have hcode : (impl.validate { token := tokenOf (smallId 5), scope := testScope }).explanation.code =
      (impl.explainAuthority (testParticipant "p") (smallId 5)).code := hsame
  rw [hworker, hoperator] at hcode
  cases hcode

end FabricEpoch
