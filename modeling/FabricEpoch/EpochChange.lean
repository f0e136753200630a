import FabricEpoch.Currentness
import FabricEpoch.Issuance
import FabricEpoch.Revalidation

/-!
# What an epoch change ends, and what it keeps

An epoch change takes every token and nothing else. What a participant was
registered with is kept, and so are its allocator, its fences and its replay
records; but whoever is told in a later epoch that its token is current has been
registered since.

- `DurableParticipant.Survives`: a record behind the change;
- `validate_held`: a current token is held, with or without a grant;
- `EndsAuthority`, `epochChange`: the law of every step that establishes an epoch.
-/

namespace FabricEpoch

open Table Transaction

/-! ## A record behind the change -/

/-- A record and what an epoch change has made of it. -/
structure DurableParticipant.Survives (p p' : DurableParticipant) : Prop where
  id : p'.id = p.id
  scopes : p'.scopes = p.scopes
  policy : p'.policy = p.policy
  retired : p'.retired = p.retired
  nextIncarnation : p'.nextIncarnation = p.nextIncarnation
  incarnationFloor : p'.incarnationFloor = p.incarnationFloor
  registrationGeneration : p'.registrationGeneration = p.registrationGeneration
  fencedBoots : p'.fencedBoots = p.fencedBoots
  idempotency : p'.idempotency = p.idempotency
  /-- No incarnation is live. -/
  live : p'.live = []
  /-- Whoever lost one has to revalidate. -/
  revalidation : p'.revalidationRequired = true ↔ p.revalidationRequired = true ∨ p.live ≠ []

theorem DurableParticipant.survives_invalidate (p : DurableParticipant) :
    p.Survives p.invalidate where
  id := rfl
  scopes := rfl
  policy := rfl
  retired := rfl
  nextIncarnation := rfl
  incarnationFloor := rfl
  registrationGeneration := rfl
  fencedBoots := rfl
  idempotency := rfl
  live := rfl
  revalidation := by
    show (p.revalidationRequired || p.hasCurrent) = true ↔ _
    rw [Bool.or_eq_true]
    refine or_congr_right ?_
    cases hcurrent : p.hasCurrent with
    | false => simp [hasCurrent_eq_false_iff.mp hcurrent]
    | true =>
      refine iff_of_true rfl fun hlive => ?_
      rw [hasCurrent_eq_false_iff.mpr hlive] at hcurrent
      cases hcurrent

/-! ## Whoever is current -/

/-- **A current token is held** by the participant that is validated. -/
theorem validate_held {impl : Impl} (hs : impl.Settled) {request : ValidateAuthorityRequest}
    (hcurrent : (impl.validate request).code = .current) :
    ∃ id, impl.validatedParticipant request = some id ∧
      impl.state.tokens.holds id request.token.boot = some request.token.incarnation.value := by
  have hheld : ∀ {id p}, impl.findParticipant id = some p →
      p.findIncarnation request.token.boot = some request.token.incarnation →
      impl.state.tokens.holds id request.token.boot = some request.token.incarnation.value := by
    intro id p hfound hincarnation
    rw [hs.regular.find] at hfound
    show ((impl.state.record id).findIncarnation _).map _ = _
    rw [DurableState.record_of_lookup hfound, hincarnation]
    rfl
  obtain ⟨-, ⟨name, grant, owner, hname, hgrant, husable⟩ | ⟨hnone, p, husable⟩⟩ :=
    validate_current_iff.mp hcurrent
  · refine ⟨grant.participant, ?_, hheld husable.found husable.incarnation⟩
    unfold Impl.validatedParticipant
    rw [hname]
    exact congrArg (Option.map (·.participant)) hgrant
  · refine ⟨request.token.participant, ?_, hheld husable.found husable.incarnation⟩
    unfold Impl.validatedParticipant
    rw [hnone]

/-! ## The change -/

/-- The authority of the host is ended behind the step; its records are not. -/
structure EndsAuthority (host : Host) (input : Input) : Prop where
  epoch : (coordinator.step host input).1.state.currentEpoch.value =
    host.state.currentEpoch.value + 1
  kept : ∀ p ∈ host.state.participants,
    ∃ p' ∈ (coordinator.step host input).1.state.participants, p.Survives p'
  /-- No record is made up. -/
  nothingNew : ∀ p' ∈ (coordinator.step host input).1.state.participants,
    ∃ p ∈ host.state.participants, p.Survives p'
  /-- Later on a token is current only where it was issued since. -/
  reissued : ∀ inputs, coordinator.Allows Quietly (coordinator.step host input).1 inputs →
    ∀ impl ∈ (coordinator.run (coordinator.step host input).1 inputs).runtime,
      ∀ request : ValidateAuthorityRequest, (impl.validate request).code = .current →
        ∃ x ∈ accepted (coordinator.step host input).1 inputs,
          impl.validatedParticipant request = some x.1.participant ∧
          x.1.boot = request.token.boot ∧ x.2.incarnation = some request.token.incarnation

/-- Where no record has a live incarnation, nobody holds a token. -/
theorem tokens_vacant {s : DurableState} (h : ∀ p ∈ s.participants, p.live = [])
    (id : ParticipantId) (boot : WorkerBootId) : s.tokens.holds id boot = none := by
  show ((s.record id).findIncarnation boot).map _ = none
  cases hp : s.lookup id with
  | none =>
    rw [DurableState.record_of_missing hp]
    rfl
  | some p =>
    rw [DurableState.record_of_lookup hp]
    cases hfind : p.findIncarnation boot with
    | none => rfl
    | some i =>
      have hlive := DurableParticipant.mem_live_of_find hfind
      rw [h p (DurableState.mem_of_lookup hp).1] at hlive
      cases hlive

/-- Every registration that is accepted is answered with its incarnation. -/
theorem accepted_incarnation {host : Host} (hreach : coordinator.Reaches Quietly host)
    {inputs : List Input} (h : coordinator.Allows Quietly host inputs) {impl : Impl}
    (himpl : host.runtime = some impl) {x : Registration} (hx : x ∈ accepted host inputs) :
    ∃ i, x.2.incarnation = some i := by
  obtain ⟨_, -, haccepts⟩ := run_accepts hreach himpl h
  obtain ⟨i, _, hissues, -⟩ := haccepts.covered x hx
  exact ⟨i, hissues.incarnation⟩

/-- **An epoch change ends all authority and keeps all records**: whichever step of
a run without exceptions establishes an epoch over an open runtime. -/
theorem epochChange {host : Host} (hreach : coordinator.Reaches Quietly host) {impl : Impl}
    (himpl : host.runtime = some impl) {input : Input} (hquiet : Quietly host input)
    {e : Establishment}
    (h : establishedBy (host, input, (coordinator.step host input).2) = some e) :
    EndsAuthority host input := by
  obtain ⟨-, -, -, hestablished⟩ := (quietRun_kept hreach).memory impl himpl
  obtain ⟨impl', himpl'⟩ := quietStep_runtime himpl hquiet
  have hreach' := hreach.tail input hquiet
  have hstep := quietStep_epoch hreach hquiet
  rw [h] at hstep
  rw [← Host.state_of_some himpl] at hestablished
  generalize hbehind : (coordinator.step host input).1 = host' at hstep hreach' himpl'
  have hrecords : host'.state.participants.Perm (host.state.participants.map (·.invalidate)) ∧
      host'.state.currentEpoch.value = host.state.currentEpoch.value + 1 := by
    generalize hsome : some e = established at hstep
    cases hstep with
    | kept => cases hsome
    | entered next _ _ _ _ _ participants _ =>
      exact ⟨participants hestablished, MonotonicCounter.next_eq_some next⟩
  obtain ⟨hperm, hepoch⟩ := hrecords
  have hvacant : ∀ p' ∈ host'.state.participants, p'.live = [] := by
    intro p' hp'
    obtain ⟨p, -, rfl⟩ := List.mem_map.mp (hperm.mem_iff.mp hp')
    rfl
  subst hbehind
  refine ⟨hepoch, ?_, ?_, ?_⟩
  · intro p hp
    exact ⟨p.invalidate, hperm.mem_iff.mpr (List.mem_map_of_mem hp), p.survives_invalidate⟩
  · intro p' hp'
    obtain ⟨p, hp, rfl⟩ := List.mem_map.mp (hperm.mem_iff.mp hp')
    exact ⟨p, hp, p.survives_invalidate⟩
  · intro inputs hallows last hlast request hcurrent
    have hreach'' := hreach'.trans (Machine.leads_run hallows)
    obtain ⟨id, hid, hheld⟩ :=
      validate_held ((quietRun_kept hreach'').memory last hlast).1 hcurrent
    obtain ⟨acts, hruns, hissued⟩ := quietRun_issues hreach' hallows
    rw [Host.state_of_some hlast] at hruns
    rcases hruns.held hheld with hold | hnew
    · rw [tokens_vacant hvacant] at hold
      cases hold
    · rw [hissued] at hnew
      obtain ⟨x, hx, htoken⟩ := List.mem_map.mp hnew
      obtain ⟨i, hi⟩ := accepted_incarnation hreach' hallows himpl' hx
      refine ⟨x, hx, ?_, congrArg Tokens.Token.site htoken, ?_⟩
      · rw [hid]
        exact congrArg (fun t => some t.party) htoken.symm
      · have hnumber : (x.2.incarnation.getD .zero).value = request.token.incarnation.value :=
          congrArg Tokens.Token.number htoken
        rw [hi] at hnumber ⊢
        exact congrArg some (MonotonicCounter.ext hnumber)

/-- Two workers of the first epoch. -/
def changedRun : List Input :=
  [testOpen {} 1, callOf (.register (testRegister 1 (testParticipant "p") (smallId 1))),
    callOf (.register (testRegister 2 (testParticipant "q") (smallId 2)))]

theorem epochChange_test :
    EndsAuthority (coordinator.run coordinator.init changedRun) nextEpoch := by
  have hvalues : coordinator.Allows Quietly coordinator.init changedRun ∧
      (coordinator.run coordinator.init changedRun).runtime.isSome = true ∧
      Quietly (coordinator.run coordinator.init changedRun) nextEpoch ∧
      (establishedBy (coordinator.run coordinator.init changedRun, nextEpoch,
        (coordinator.step (coordinator.run coordinator.init changedRun) nextEpoch).2)).isSome =
        true := by decide +kernel
  obtain ⟨hallows, hopen, hquiet, hestablished⟩ := hvalues
  obtain ⟨impl, himpl⟩ := Option.isSome_iff_exists.mp hopen
  obtain ⟨e, he⟩ := Option.isSome_iff_exists.mp hestablished
  exact epochChange (Machine.leads_run hallows) himpl hquiet he

end FabricEpoch
