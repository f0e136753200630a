import FabricEpoch.Runtime.Evolution

/-!
# Incarnations over whole runs

- `oneIncarnation`: a participant has one current incarnation, in every state
  that a run without exceptions reaches, as long as the fence lookups inside a
  batch tell what the records say;
- `deadAuthority_iff`: an incarnation that was live once and is not live any
  more is not current again, unless a grant is used under another identity.
-/

namespace FabricEpoch

/-! ## One current incarnation -/

/-- One live incarnation where one is allowed, no boot live twice, sequences
that were issued and are different, and none of a retired participant. -/
structure OneIncarnation (s : DurableState) : Prop where
  single : ∀ p ∈ s.participants, p.policy = .singleIncarnation → p.live.length ≤ 1
  boots : ∀ p ∈ s.participants, ∀ q ∈ s.participants, ∀ boot ∈ p.liveBoots,
    boot ∈ q.liveBoots → p = q
  sequences : ∀ p ∈ s.participants, (p.live.map Prod.snd).Nodup ∧
    ∀ e ∈ p.live, e.2.value ≠ 0 ∧ e.2 < p.nextIncarnation
  retired : ∀ p ∈ s.participants, p.retired = true → p.live = []

instance (s : DurableState) : Decidable (OneIncarnation s) :=
  decidable_of_iff ((∀ p ∈ s.participants, p.policy = .singleIncarnation → p.live.length ≤ 1) ∧
    (∀ p ∈ s.participants, ∀ q ∈ s.participants, ∀ boot ∈ p.liveBoots,
      boot ∈ q.liveBoots → p = q) ∧
    (∀ p ∈ s.participants, (p.live.map Prod.snd).Nodup ∧
      ∀ e ∈ p.live, e.2.value ≠ 0 ∧ e.2 < p.nextIncarnation) ∧
    ∀ p ∈ s.participants, p.retired = true → p.live = [])
    ⟨fun h => ⟨h.1, h.2.1, h.2.2.1, h.2.2.2⟩, fun h => ⟨h.1, h.2, h.3, h.4⟩⟩

/-- Only the fence lookups are relied upon. -/
def Trust.lookups : Trust := ⟨True, False, False, False⟩

/-- In a batch of registrations, the fence lookups of each element tell what
the records say where its turn comes. -/
def BatchesAgree (host : Host) (input : Input) : Prop :=
  ∀ requests entropy fault impl, input = .call (.registerBatch requests) entropy fault →
    host.runtime = some impl → AlongBatch Impl.LookupsAgree requests (Transaction.Txn.start impl)

theorem preserved_incumbency : Preserved .lookups fun s => Orderly s ∧ Incumbency s where
  trust h := h.elim
  orderly _ h := h.1
  incumbency _ _ h := h.2
  moves _ _ _ hm h := ⟨Moves.orderly hm h.1, Moves.incumbency hm trivial h.1 h.2⟩

theorem BatchesAgree.sound {host : Host} {input : Input} (h : BatchesAgree host input) :
    input.Sound .lookups host := by
  cases input with
  | «open» opening fault => exact fun _ _ => ⟨fun h => h.elim, fun h => h.elim⟩
  | call c entropy fault =>
    intro impl himpl
    cases c with
    | register request => exact ⟨fun h => h.elim, fun h => h.elim⟩
    | registerBatch requests =>
      exact ⟨fun _ => h requests entropy fault impl rfl himpl, fun h => h.elim, fun h => h.elim⟩
    | fence request => exact fun h => h.elim
    | grant request => exact ⟨fun h => h.elim, fun h => h.elim⟩
    | advance request => exact ⟨fun h => h.elim, fun h => h.elim⟩
    | retire request => exact ⟨fun h => h.elim, fun h => h.elim⟩
    | revoke request => trivial
    | bind binding => trivial
    | close session reason => trivial
    | flush => trivial

/-- **One current incarnation** in every state that a run without exceptions
reaches, the fence lookups of its batches being right. -/
theorem oneIncarnation {host : Host}
    (h : coordinator.Reaches (fun host input => Quietly host input ∧ BatchesAgree host input) host)
    {impl : Impl} (himpl : host.runtime = some impl) : OneIncarnation impl.state := by
  have hrun : coordinator.Reaches (QuietRun .lookups) host :=
    h.mono fun _ _ hok => ⟨hok.1, hok.2.sound⟩
  obtain ⟨-, ⟨horderly, hincumbency⟩, hvalid, hepoch⟩ :=
    (quietRun_invariant preserved_incumbency ⟨.initial, .initial⟩ hrun).memory impl himpl
  have hestablished := hvalid.established hepoch
  refine ⟨hincumbency.single, fun p hp q hq boot hpb hqb => ?_, fun p hp => ?_, fun p hp hr => ?_⟩
  · -- the validator refuses a boot that two records bind
    exact Table.eq_of_mem_flatMap hestablished.liveBoots hp hq hpb hqb
  · refine ⟨(horderly.records p hp).sequences, fun e he => ?_⟩
    obtain ⟨hpos, hlt⟩ := (horderly.records p hp).issued e he
    exact ⟨Nat.ne_of_gt hpos, hlt⟩
  · exact hestablished.retired_live horderly hp hr

/-- A run of two registrations of the same participant. -/
theorem oneIncarnation_test : ∃ (host : Host) (impl : Impl), host.runtime = some impl ∧
    OneIncarnation impl.state := by
  obtain ⟨inputs, hinputs⟩ : ∃ inputs, inputs = [testOpen {} 1,
    callOf (.register (testRegister 3 (testParticipant "p") (smallId 4)))] := ⟨_, rfl⟩
  have hallows : coordinator.Allows (fun host input => Quietly host input ∧
      BatchesAgree host input) coordinator.init inputs := by
    have hquiet : coordinator.Allows Quietly coordinator.init inputs := by
      rw [hinputs]
      decide +kernel
    subst hinputs
    refine ⟨⟨hquiet.1, ?_⟩, ⟨hquiet.2.1, ?_⟩, trivial⟩
    · rintro requests entropy fault impl ⟨⟩
    · rintro requests entropy fault impl ⟨⟩
  have hrun : (coordinator.run coordinator.init inputs).runtime.isSome = true := by
    rw [hinputs]
    decide +kernel
  obtain ⟨impl, himpl⟩ := Option.isSome_iff_exists.mp hrun
  exact ⟨_, impl, himpl, oneIncarnation (Machine.leads_run hallows) himpl⟩

/-! ### A run whose batch goes wrong -/

/-- An incumbent is replaced, and one fenced boot is retained. -/
def replacingOptions : EpochRuntimeOptions where
  limits := { defaultLimits with maxFencedBootsPerParticipant := 1 }
  replacementPolicy := .replaceIncumbent

/-- Four registrations of one participant in one batch, the first boot twice,
and a fifth one. -/
def batchRun : List Input := [
  testOpen replacingOptions 1,
  callOf (.registerBatch [
    testRegister 3 (testParticipant "p") (smallId 11),
    testRegister 4 (testParticipant "p") (smallId 12),
    testRegister 5 (testParticipant "p") (smallId 13),
    testRegister 6 (testParticipant "p") (smallId 11)]),
  callOf (.register (testRegister 7 (testParticipant "p") (smallId 14)))]

/-- **Two live incarnations of a single-incarnation participant**, and no call
has thrown: the batch did not see its own fence of the first boot. -/
theorem batchRun_two_live : ∃ host impl, coordinator.Reaches Quietly host ∧
    host.runtime = some impl ∧ ¬ OneIncarnation impl.state := by
  have hallows : coordinator.Allows Quietly coordinator.init batchRun := by decide +kernel
  have hrun : ((coordinator.run coordinator.init batchRun).runtime.map fun impl =>
      decide (OneIncarnation impl.state)) = some false := by decide +kernel
  obtain ⟨impl, himpl, hvalue⟩ := Option.map_eq_some_iff.mp hrun
  exact ⟨_, impl, Machine.leads_run hallows, himpl, of_decide_eq_false hvalue⟩

/-! ## Dead authority -/

/-- The boot is a current incarnation of the participant under the sequence. -/
def DurableState.Live (s : DurableState) (id : ParticipantId) (boot : WorkerBootId)
    (i : IncarnationSequence) : Prop :=
  ∃ p ∈ s.participants, p.id = id ∧ (boot, i) ∈ p.live

instance (s : DurableState) (id : ParticipantId) (boot : WorkerBootId) (i : IncarnationSequence) :
    Decidable (s.Live id boot i) :=
  inferInstanceAs (Decidable (∃ p ∈ s.participants, p.id = id ∧ (boot, i) ∈ p.live))

/-- The sequence was issued, and no boot is live under it. -/
def DurableState.Dead (s : DurableState) (id : ParticipantId) (i : IncarnationSequence) : Prop :=
  ∃ p ∈ s.participants, p.id = id ∧ i < p.nextIncarnation ∧ ∀ boot, (boot, i) ∉ p.live

/-- **What is dead stays dead.** -/
theorem DurableState.Dead.evolves {s s' : DurableState} {id : ParticipantId}
    {i : IncarnationSequence} (h : s.Dead id i) (hs : s.Evolves s') : s'.Dead id i := by
  obtain ⟨p, hp, rfl, hissued, hdead⟩ := h
  obtain ⟨p', hp', hevolves⟩ := hs.participants p hp
  refine ⟨p', hp', hevolves.id, Nat.lt_of_lt_of_le hissued hevolves.next, fun boot hlive => ?_⟩
  rcases hevolves.live _ hlive with hold | hnew
  · exact hdead boot hold
  · exact Nat.lt_irrefl _ (Nat.lt_of_lt_of_le hissued hnew)

/-- An incarnation that was live and is not any more is dead. -/
theorem DurableState.Live.dead {s s' : DurableState} {id : ParticipantId} {boot : WorkerBootId}
    {i : IncarnationSequence} (h : s.Live id boot i) (hkept : Kept s)
    (hs : s.Evolves s') (hgone : ¬ s'.Live id boot i) : s'.Dead id i := by
  obtain ⟨p, hp, rfl, hlive⟩ := h
  obtain ⟨p', hp', hevolves⟩ := hs.participants p hp
  have hrecord := hkept.orderly.records p hp
  have hissued : i < p.nextIncarnation := (hrecord.issued _ hlive).2
  refine ⟨p', hp', hevolves.id, Nat.lt_of_lt_of_le hissued hevolves.next, fun boot' hlive' => ?_⟩
  rcases hevolves.live _ hlive' with hold | hnew
  · -- one sequence is live under one boot
    obtain rfl : boot' = boot :=
      congrArg Prod.fst (List.inj_on_of_nodup_map hrecord.sequences hold hlive rfl)
    exact hgone ⟨p', hp', hevolves.id, hlive'⟩
  · exact Nat.lt_irrefl _ (Nat.lt_of_lt_of_le hissued hnew)

/-- The request speaks for an incarnation: its token carries the sequence, or
it names a grant that was issued to the incarnation. -/
def SpeaksFor (impl : Impl) (request : ValidateAuthorityRequest) (id : ParticipantId)
    (boot : WorkerBootId) (i : IncarnationSequence) : Prop :=
  request.token.participant = id ∧ request.token.incarnation = i ∨
    ∃ name grant, request.grant = some name ∧ impl.findGrant name = some grant ∧
      grant.participant = id ∧ grant.boot = boot ∧ grant.incarnation = i

/-- The named grant, where it can be used, was issued to the participant and
the sequence of the token. -/
def NamesOwnGrant (impl : Impl) (request : ValidateAuthorityRequest) : Prop :=
  ∀ name grant owner, request.grant = some name → impl.findGrant name = some grant →
    request.token.WellShaped → GrantUsable impl request grant owner →
    grant.participant = request.token.participant ∧ grant.incarnation = request.token.incarnation

/-- **Dead authority never comes back**, in a run without exceptions, exactly
where a grant is used under the identity it was issued to: the grant path
compares neither the participant nor the sequence of the grant. -/
theorem deadAuthority_iff {host host₁ host₂ : Host} (hreach : coordinator.Reaches Quietly host)
    (h₁ : coordinator.Leads Quietly host host₁) (h₂ : coordinator.Leads Quietly host₁ host₂)
    {impl impl₁ impl₂ : Impl} (himpl : host.runtime = some impl)
    (himpl₁ : host₁.runtime = some impl₁) (himpl₂ : host₂.runtime = some impl₂)
    {id : ParticipantId} {boot : WorkerBootId} {i : IncarnationSequence}
    (hlive : impl.state.Live id boot i) (hgone : ¬ impl₁.state.Live id boot i)
    {request : ValidateAuthorityRequest} (hspeaks : SpeaksFor impl₂ request id boot i) :
    (impl₂.validate request).code ≠ .current ↔ NamesOwnGrant impl₂ request := by
  have hreach₁ := hreach.trans h₁
  have hkept₂ := (quietRun_kept (hreach₁.trans h₂)).memory impl₂ himpl₂
  have hdead : impl₂.state.Dead id i := by
    have hkept := ((quietRun_kept hreach).memory impl himpl).2.1
    exact (hlive.dead hkept (quietRun_evolves hreach h₁ himpl himpl₁) hgone).evolves
      (quietRun_evolves hreach₁ h₂ himpl₁ himpl₂)
  -- no boot of the participant is found under the sequence
  have hnever : ∀ p b, impl₂.findParticipant id = some p → p.findIncarnation b ≠ some i := by
    intro p b hfound hfind
    obtain ⟨q, hq, hid, -, hnone⟩ := hdead
    rw [hkept₂.1.regular.find] at hfound
    rw [← hkept₂.1.regular.orderly.eq_of_lookup hfound hq hid] at hfind
    exact hnone b (DurableParticipant.mem_live_of_find hfind)
  constructor
  · intro hcode name grant owner hname hgrant hshape husable
    exact absurd (validate_current_iff.mpr ⟨hshape, .inl ⟨name, grant, owner, hname, hgrant, husable⟩⟩)
      hcode
  · intro hown hcode
    obtain ⟨hshape, ⟨name, grant, owner, hname, hgrant, husable⟩ | ⟨hnone, p, htoken⟩⟩ :=
      validate_current_iff.mp hcode
    · obtain ⟨hparticipant, hincarnation⟩ := hown name grant owner hname hgrant hshape husable
      have hfound := husable.found
      have hfind := husable.incarnation
      rcases hspeaks with ⟨rfl, rfl⟩ | ⟨name', grant', hname', hgrant', rfl, rfl, rfl⟩
      · rw [hparticipant] at hfound
        exact hnever owner _ hfound hfind
      · obtain rfl : name = name' := Option.some.inj (hname.symm.trans hname')
        obtain rfl : grant = grant' := Option.some.inj (hgrant.symm.trans hgrant')
        rw [← hincarnation] at hfind
        exact hnever owner _ hfound hfind
    · rcases hspeaks with ⟨rfl, rfl⟩ | ⟨name', _, hname', -⟩
      · exact hnever p _ htoken.found htoken.incarnation
      · rw [hnone] at hname'
        cases hname'

/-! ### A run that forgets a fenced boot -/

/-- One fence record and one fenced boot are retained. -/
def forgetfulOptions : EpochRuntimeOptions where
  limits := { defaultLimits with maxRecentFences := 1, maxFencedBootsPerParticipant := 1 }

/-- A boot is registered and is granted authority. -/
def liveRun : List Input := [
  testOpen forgetfulOptions 1,
  callOf (.register (testRegister 3 (testParticipant "p") (smallId 11))),
  callOf (.grant (testGrant 4 (testParticipant "p") (smallId 11) (smallCounter 1)))]

/-- It is fenced. -/
def fenceRun : List Input :=
  [callOf (.fence (testFence 5 (testParticipant "p") (smallId 11)))]

/-- Another boot pushes it out of what is retained, and it is registered again. -/
def reviveRun : List Input := [
  callOf (.register (testRegister 6 (testParticipant "p") (smallId 12))),
  callOf (.fence (testFence 7 (testParticipant "p") (smallId 12))),
  callOf (.register (testRegister 8 (testParticipant "p") (smallId 11)))]

/-- The boot validates under this sequence, with the grant of the run or
without. -/
def reviveRequest (i : IncarnationSequence) (grant : Option AuthorityGrantId) :
    ValidateAuthorityRequest where
  token := ⟨smallCounter 1, testParticipant "p", smallId 11, i, .zero⟩
  scope := testScope
  grant := grant

/-- The hosts of the run: while the incarnation is live, once it is fenced, and
at the end. -/
structure RevivedRun (host host₁ host₂ : Host) (impl impl₁ impl₂ : Impl) : Prop where
  reach : coordinator.Reaches Quietly host
  leads₁ : coordinator.Leads Quietly host host₁
  leads₂ : coordinator.Leads Quietly host₁ host₂
  runtime : host.runtime = some impl
  runtime₁ : host₁.runtime = some impl₁
  runtime₂ : host₂.runtime = some impl₂
  live : impl.state.Live (testParticipant "p") (smallId 11) (smallCounter 1)
  gone : ¬ impl₁.state.Live (testParticipant "p") (smallId 11) (smallCounter 1)
  grant : (impl₂.findGrant (smallId 9)).map (fun g => (g.participant, g.boot, g.incarnation)) =
    some (testParticipant "p", smallId 11, smallCounter 1)
  current : (impl₂.validate (reviveRequest (smallCounter 3) (some (smallId 9)))).code = .current

theorem revivedRun : ∃ host host₁ host₂ impl impl₁ impl₂,
    RevivedRun host host₁ host₂ impl impl₁ impl₂ := by
  obtain ⟨host, hhost⟩ : ∃ host, host = coordinator.run coordinator.init liveRun := ⟨_, rfl⟩
  obtain ⟨host₁, hhost₁⟩ : ∃ host₁, host₁ = coordinator.run host fenceRun := ⟨_, rfl⟩
  have hallows : coordinator.Allows Quietly coordinator.init liveRun := by decide +kernel
  have hallows₁ : coordinator.Allows Quietly host fenceRun := by
    rw [hhost]
    decide +kernel
  have hallows₂ : coordinator.Allows Quietly host₁ reviveRun := by
    rw [hhost₁, hhost]
    decide +kernel
  have hlive : host.runtime.map (fun impl => decide (impl.state.Live (testParticipant "p")
      (smallId 11) (smallCounter 1))) = some true := by
    rw [hhost]
    decide +kernel
  have hgone : host₁.runtime.map (fun impl => decide (impl.state.Live (testParticipant "p")
      (smallId 11) (smallCounter 1))) = some false := by
    rw [hhost₁, hhost]
    decide +kernel
  have hend : (coordinator.run host₁ reviveRun).runtime.map (fun impl =>
      ((impl.findGrant (smallId 9)).map (fun g => (g.participant, g.boot, g.incarnation)),
        (impl.validate (reviveRequest (smallCounter 3) (some (smallId 9)))).code)) =
      some (some (testParticipant "p", smallId 11, smallCounter 1), .current) := by
    rw [hhost₁, hhost]
    decide +kernel
  obtain ⟨impl, himpl, hlive⟩ := Option.map_eq_some_iff.mp hlive
  obtain ⟨impl₁, himpl₁, hgone⟩ := Option.map_eq_some_iff.mp hgone
  obtain ⟨impl₂, himpl₂, hend⟩ := Option.map_eq_some_iff.mp hend
  obtain ⟨hgrant, hcurrent⟩ := Prod.mk.inj hend
  refine ⟨host, host₁, _, impl, impl₁, impl₂, ?_, ?_, Machine.leads_run hallows₂, himpl, himpl₁,
    himpl₂, of_decide_eq_true hlive, of_decide_eq_false hgone, hgrant, hcurrent⟩
  · rw [hhost]
    exact Machine.leads_run hallows
  · rw [hhost₁]
    exact Machine.leads_run hallows₁

/-- The sequence that was fenced is dead at the end of the run. -/
theorem deadAuthority_iff_test : ∃ impl : Impl,
    (impl.validate (reviveRequest (smallCounter 1) none)).code ≠ .current := by
  obtain ⟨host, host₁, host₂, impl, impl₁, impl₂, h⟩ := revivedRun
  refine ⟨impl₂, (deadAuthority_iff h.reach h.leads₁ h.leads₂ h.runtime h.runtime₁ h.runtime₂ h.live
    h.gone (.inl ⟨rfl, rfl⟩)).mpr ?_⟩
  rintro name grant owner ⟨⟩

/-- **A grant of a dead incarnation is current again**: its boot came back under
a new sequence, and no call has thrown. -/
theorem deadGrant_current : ∃ host host₁ host₂ impl impl₁ impl₂,
    RevivedRun host host₁ host₂ impl impl₁ impl₂ ∧
    SpeaksFor impl₂ (reviveRequest (smallCounter 3) (some (smallId 9))) (testParticipant "p")
      (smallId 11) (smallCounter 1) ∧
    (impl₂.validate (reviveRequest (smallCounter 3) (some (smallId 9)))).code = .current := by
  obtain ⟨host, host₁, host₂, impl, impl₁, impl₂, h⟩ := revivedRun
  refine ⟨host, host₁, host₂, impl, impl₁, impl₂, h, .inr ?_, h.current⟩
  obtain ⟨grant, hgrant, heq⟩ := Option.map_eq_some_iff.mp h.grant
  simp only [Prod.mk.injEq] at heq
  exact ⟨smallId 9, grant, rfl, hgrant, heq⟩

end FabricEpoch
