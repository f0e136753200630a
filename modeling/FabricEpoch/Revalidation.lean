import FabricEpoch.Acknowledgements
import FabricEpoch.EpochChain
import FabricEpoch.Explanations

/-!
# What an epoch change leaves of an incarnation

An epoch change clears the live incarnations of a record and marks the record for
revalidation. Validation asks three things of a boot that is not live, in this
order: whether it is fenced, whether the sequence lies behind the floor of the
record, and whether the record waits for revalidation. The floor is one number:
the fence of a sibling raises it over every incarnation that was issued earlier.

- `DurableParticipant.Waits`: a record that waits, at a floor;
- `Move.waits`, `DurableState.Waiting`: it waits on until a sequence is issued or
  it is retired;
- `brought_issued`: a sequence is issued by an accepted registration only;
- `lostRevalidates_iff`: an incarnation that the epoch change has ended is told to
  revalidate exactly where the floor was behind it.
-/

namespace FabricEpoch

open Table Transaction

/-! ## Records that wait -/

/-- The record waits for a registration: nothing is live, and the floor is this. -/
structure DurableParticipant.Waits (p : DurableParticipant) (floor : IncarnationSequence) : Prop where
  live : p.live = []
  flag : p.revalidationRequired = true
  floor : p.incarnationFloor = floor

/-- What the epoch change leaves of a record with a live incarnation. -/
theorem DurableParticipant.waits_invalidate {p : DurableParticipant} (h : p.live ≠ []) :
    p.invalidate.Waits p.incarnationFloor := by
  have hcurrent : p.hasCurrent = true := by
    rw [← Bool.not_eq_false, hasCurrent_eq_false_iff]
    exact h
  refine ⟨rfl, ?_, rfl⟩
  show (p.revalidationRequired || p.hasCurrent) = true
  rw [hcurrent, Bool.or_true]

section Moves

variable {T : Trust} {limits : Limits} {s s' : DurableState} {floor : IncarnationSequence}

/-- The update of one record, seen from a record of the state. -/
theorem Orderly.updated {id : ParticipantId} {f : DurableParticipant → DurableParticipant}
    (hs : Orderly s) (hf : ∀ p, (f p).id = p.id) {p p' : DurableParticipant}
    (hp : p ∈ s.participants) (hp' : p' ∈ (s.updateParticipant id f).participants)
    (hid : p'.id = p.id) : p.id = id ∧ p' = f p ∨ p' = p := by
  rcases DurableState.mem_updateParticipant hp' with ⟨q, hq, hqid, rfl⟩ | ⟨hq, -⟩
  · obtain rfl := List.inj_on_of_nodup_map hs.ids hq hp ((hf q).symm.trans hid)
    exact .inl ⟨hqid, rfl⟩
  · exact .inr (List.inj_on_of_nodup_map hs.ids hq hp hid)

/-- **A move lets a record wait** at its floor, unless it issues a sequence or
retires the record. -/
theorem Move.waits (h : Move T limits s s') (hs : Orderly s) {p p' : DurableParticipant}
    (hp : p ∈ s.participants) (hp' : p' ∈ s'.participants) (hid : p'.id = p.id)
    (hnext : p'.nextIncarnation = p.nextIncarnation) (hretired : p'.retired = false)
    (hwaits : p.Waits floor) : p'.Waits floor := by
  -- a record that is not written is the one it was
  have hsame : p' ∈ s.participants → p'.Waits floor := by
    intro hold
    rw [List.inj_on_of_nodup_map hs.ids hold hp hid]
    exact hwaits
  cases h with
  | reorder perm => exact hsame (perm.mem_iff.mpr hp')
  | bump _ => exact hsame hp'
  | @preventive record _ _ _ _ _ _ _ _ _ _ =>
    rcases hs.updated (f := (·.setFenceGeneration record.generation)) (fun _ => rfl) hp hp' hid with
      ⟨-, rfl⟩ | rfl
    · exact ⟨hwaits.live, hwaits.flag, hwaits.floor⟩
    · exact hwaits
  | @fence record q found live _ _ _ _ =>
    rcases hs.updated (fun p => p.fence_id limits record.boot record.incarnation record.generation)
      hp hp' hid with ⟨hname, -⟩ | rfl
    · -- nothing is live that could be fenced
      rw [hs.eq_of_lookup found hp hname] at hwaits
      have hmem := DurableParticipant.mem_live_of_find live
      rw [hwaits.live] at hmem
      cases hmem
    · exact hwaits
  | @create id policy missing _ _ _ =>
    rcases List.mem_append.mp hp' with hold | hnew
    · exact hsame hold
    · rw [List.mem_singleton.mp hnew] at hid
      exact absurd hid.symm (lookup_none.mp missing p hp)
  | @register request digest q g next _ found _ _ _ _ _ _ _ _ _ _ _ _ allocate =>
    rcases hs.updated (fun p => p.register_id limits request digest g q.nextIncarnation next)
      hp hp' hid with ⟨hname, rfl⟩ | rfl
    · -- the allocator has moved on
      rw [hs.eq_of_lookup found hp hname, DurableParticipant.register_next] at hnext
      have := MonotonicCounter.next_eq_some allocate
      rw [hnext] at this
      omega
    · exact hwaits
  | @remember _ _ record _ _ _ _ =>
    rcases hs.updated (f := (·.remember limits record)) (fun _ => rfl) hp hp' hid with
      ⟨-, rfl⟩ | rfl
    · exact ⟨hwaits.live, hwaits.flag, hwaits.floor⟩
    · exact hwaits
  | grant _ _ _ _ _ _ _ _ _ _ _ _ => exact hsame hp'
  | revoke _ => exact hsame hp'
  | control _ _ _ _ => exact hsame hp'
  | retire _ _ =>
    rcases hs.updated (fun p => p.retire_id) hp hp' hid with ⟨-, rfl⟩ | rfl
    · obtain ⟨_, hframe⟩ := p.retire_frame
      rw [hframe] at hretired
      cases hretired
    · exact hwaits
  | @epoch t invalidate generation _ _ _ _ _ _ =>
    cases invalidate with
    | false => exact hsame hp'
    | true =>
      obtain ⟨q, hq, rfl⟩ := List.mem_map.mp hp'
      obtain rfl := List.inj_on_of_nodup_map hs.ids hq hp hid
      refine ⟨rfl, ?_, hwaits.floor⟩
      show (q.revalidationRequired || q.hasCurrent) = true
      rw [hwaits.flag, Bool.true_or]

/-- **The record has waited since**: unless a sequence has been issued, or it has
been retired. -/
def DurableState.Waiting (s : DurableState) (start : DurableParticipant) : Prop :=
  ∃ p ∈ s.participants, start.Evolves p ∧ (p.nextIncarnation = start.nextIncarnation →
    p.retired = false → p.Waits start.incarnationFloor)

/-- **Step lemma.** -/
theorem Move.waiting {start : DurableParticipant} (h : Move T limits s s') (hk : Kept s)
    (hwaiting : s.Waiting start) : s'.Waiting start := by
  obtain ⟨p, hp, hevolves, hwaits⟩ := hwaiting
  obtain ⟨p', hp', hstep⟩ := (h.evolves hk.orderly hk.floors).participants p hp
  refine ⟨p', hp', hevolves.trans hstep, ?_⟩
  intro hnext hretired
  have hbefore : p.nextIncarnation = start.nextIncarnation := by
    have hle : start.nextIncarnation.value ≤ p.nextIncarnation.value := hevolves.next
    have hle' : p.nextIncarnation.value ≤ p'.nextIncarnation.value := hstep.next
    rw [hnext] at hle'
    exact MonotonicCounter.ext (Nat.le_antisymm hle' hle)
  have hopen : p.retired = false := by
    by_contra hclosed
    rw [(hstep.retired (by simpa using hclosed)).1] at hretired
    cases hretired
  exact h.waits hk.orderly hp hp' hstep.id (hnext.trans hbefore.symm) hretired (hwaits hbefore hopen)

theorem preserved_waiting (start : DurableParticipant) :
    Preserved .nothing fun s => Kept s ∧ s.Waiting start where
  trust h := h.elim
  orderly _ h := h.1.orderly
  incumbency h := h.elim
  moves _ _ _ hm h := by
    induction hm with
    | refl => exact h
    | tail _ hm ih => exact ⟨(ih.1.moves (.single hm)).1, hm.waiting ih.1 ih.2⟩

end Moves

/-! ## Sequences that are issued -/

/-- The participant has issued the sequence. -/
def DurableState.Issued (s : DurableState) (id : ParticipantId) (i : IncarnationSequence) : Prop :=
  ∃ p ∈ s.participants, p.id = id ∧ i < p.nextIncarnation

/-- A sequence is issued by a registration of the participant. -/
theorem brought_issued (id : ParticipantId) (i : IncarnationSequence) :
    Brought (·.Issued id i) fun request => request.participant = id where
  records hsub := by
    rintro ⟨p, hp, hid, hi⟩
    exact ⟨p, hsub p hp, hid, hi⟩
  unissued _ _ hsame := by
    rintro ⟨p, hp, hid, hi⟩
    obtain ⟨q, hq, hqid, hnext⟩ := hsame p hp
    exact ⟨q, hq, hqid.trans hid, hnext ▸ hi⟩
  written ht commit := by
    rintro ⟨q, hq, rfl, hi⟩
    obtain ⟨p, g, next, hp, hid, -, -, -, hwritten⟩ := commitRegistration_records ht commit
    rcases hwritten q hq with rfl | ⟨hold, -⟩
    · exact .inr (by rw [DurableParticipant.register_id, hid])
    · exact .inl ⟨q, hold, rfl, hi⟩

/-! ## The answer -/

/-- The answer sends the worker to a new registration. -/
def AuthorityValidation.Revalidates (v : AuthorityValidation) : Prop :=
  v.code = .revalidationRequired ∧ v.currentness = .revalidationRequired

/-- The answer tells the worker that it is fenced. -/
def AuthorityValidation.Fences (v : AuthorityValidation) : Prop :=
  v.code = .staleWorkerBoot ∧ v.currentness = .fenced

/-- The request is about this incarnation in this epoch, and names no grant. -/
structure ValidateAuthorityRequest.AsksFor (request : ValidateAuthorityRequest)
    (epoch : CoordinatorEpoch) (id : ParticipantId) (boot : WorkerBootId)
    (i : IncarnationSequence) : Prop where
  epoch : request.token.epoch = epoch
  participant : request.token.participant = id
  boot : request.token.boot = boot
  incarnation : request.token.incarnation = i
  grant : request.grant = none

/-- Every live incarnation has a token of the right shape. -/
theorem ValidDurable.wellShaped {s : DurableState} (hs : ValidDurable s) (horderly : Orderly s)
    (hepoch : s.currentEpoch.value ≠ 0) {p : DurableParticipant} (hp : p ∈ s.participants)
    {boot : WorkerBootId} {i : IncarnationSequence} (hlive : (boot, i) ∈ p.live) :
    p.id.empty = false ∧ boot.isNil = false ∧ i.value ≠ 0 := by
  have hvalid := (hs.established hepoch).participants p hp
  have hissued := ((horderly.records p hp).issued _ hlive).1
  refine ⟨hvalid.idNonempty, ?_, Nat.ne_of_gt hissued⟩
  rcases DurableParticipant.mem_live.mp hlive with ⟨hactive, rfl, -⟩ | ⟨e, he, rfl, -⟩
  · exact (hvalid.active hactive).1
  · exact (hvalid.extras e he).1

/-- **What a record that waits is answered**: only the floor is left to ask. -/
theorem validate_waits {impl : Impl} (hs : impl.Settled) {p : DurableParticipant}
    (hp : p ∈ impl.state.participants) (hretired : p.retired = false) {floor : IncarnationSequence}
    (hwaits : p.Waits floor) {boot : WorkerBootId} {i : IncarnationSequence}
    (hfence : ¬ impl.state.Fenced p.id boot)
    (hshape : p.id.empty = false ∧ boot.isNil = false ∧ i.value ≠ 0)
    {request : ValidateAuthorityRequest}
    (hasks : request.AsksFor impl.state.currentEpoch p.id boot i) :
    (floor < i → (impl.validate request).Revalidates) ∧
      (¬ floor < i → (impl.validate request).Fences) := by
  obtain ⟨hepoch, hid, hboot, hi, hgrant⟩ := hasks
  obtain ⟨hname, hnil, hzero⟩ := hshape
  have hfound : impl.findParticipant p.id = some p := by
    rw [hs.regular.find]
    exact lookup_eq_some_of_mem hs.regular.orderly.ids hp
  have hlive : p.findIncarnation boot = none := by
    rw [DurableParticipant.find_eq_none_iff, DurableParticipant.liveBoots_eq, hwaits.live]
    exact List.not_mem_nil
  have hfenced : (impl.lookupFence p.id boot).fenced = false := by
    rw [Bool.eq_false_iff]
    exact fun h => hfence ((hs.agrees p.id boot).mp h)
  have hcurrent : p.hasCurrent = false := DurableParticipant.hasCurrent_eq_false_iff.mpr hwaits.live
  have hisZero : i.isZero = false := by
    rw [Bool.eq_false_iff]
    exact fun h => hzero (MonotonicCounter.isZero_iff.mp h)
  have hcode : (impl.evaluateIncarnation p boot i).code =
      if i ≤ floor then .staleWorkerBoot else .revalidationRequired := by
    unfold Impl.evaluateIncarnation
    simp only [hlive, hfenced, hcurrent, hwaits.flag, hwaits.floor]
    by_cases hfloor : i ≤ floor
    · simp [hzero, hfloor]
    · simp [hfloor]
  have hcurrentness := @currentness_of_not_live impl _ _ _ hlive hzero
  rw [hfenced, hcurrent, hwaits.flag, hwaits.floor] at hcurrentness
  have hneverCurrent : (impl.evaluateIncarnation p boot i).code ≠ .current := by
    rw [hcode]
    split <;> exact fun h => (nomatch h)
  have hanswer : (impl.validate request).code = (impl.evaluateIncarnation p boot i).code ∧
      (impl.validate request).currentness = (impl.evaluateIncarnation p boot i).currentness := by
    unfold Impl.validate Impl.validateToken
    simp only [hid, hboot, hi, hname, hnil, hisZero, hgrant, hepoch, hfound, hretired, hneverCurrent,
      Bool.false_eq_true, or_self, if_false, ne_eq, not_true, not_false_eq_true, if_true,
      Impl.validation, and_self]
  constructor
  · intro hfloor
    have habove : ¬ i ≤ floor := Nat.not_le.mpr hfloor
    rw [if_neg habove] at hcode
    rw [if_pos ⟨rfl, habove, rfl, rfl⟩] at hcurrentness
    exact ⟨hanswer.1.trans hcode, hanswer.2.trans hcurrentness⟩
  · intro hfloor
    have hbelow : i ≤ floor := Nat.not_lt.mp hfloor
    rw [if_pos hbelow] at hcode
    rw [if_neg fun h => h.2.1 hbelow] at hcurrentness
    exact ⟨hanswer.1.trans hcode, hanswer.2.trans hcurrentness⟩

/-! ## The law -/

section Runs

variable {host host' : Host} {input : Input} {p : DurableParticipant} {boot : WorkerBootId}
  {i : IncarnationSequence}

/-- The input is answered with an accepted registration of the participant. -/
def Registers (id : ParticipantId) (host : Host) (input : Input) : Prop :=
  ∃ x ∈ acceptedBy input (coordinator.step host input).2, x.1.participant = id

/-- **Lost by an epoch change**: the incarnation of this record is live, and the
step enters another epoch. -/
structure LosesByEpoch (host : Host) (input : Input) (p : DurableParticipant) (boot : WorkerBootId)
    (i : IncarnationSequence) : Prop where
  record : p ∈ host.state.participants
  live : (boot, i) ∈ p.live
  quiet : Quietly host input
  epoch : (coordinator.step host input).1.state.currentEpoch ≠ host.state.currentEpoch

/-- Records are found in an open runtime. -/
theorem Host.runtime_of_mem (h : p ∈ host.state.participants) :
    ∃ impl, host.runtime = some impl ∧ p ∈ impl.state.participants := by
  cases hruntime : host.runtime with
  | none =>
    unfold Host.state at h
    rw [hruntime] at h
    cases h
  | some impl => exact ⟨impl, rfl, Host.state_of_some hruntime ▸ h⟩

/-- **The step lemma of the loss**: behind it the record is found invalidated. -/
theorem LosesByEpoch.invalidated (h : LosesByEpoch host input p boot i)
    (hreach : coordinator.Reaches Quietly host) :
    ∃ impl, (coordinator.step host input).1.runtime = some impl ∧
      p.invalidate ∈ impl.state.participants := by
  obtain ⟨impl, himpl, -⟩ := Host.runtime_of_mem h.record
  obtain ⟨impl', himpl'⟩ := quietStep_runtime himpl h.quiet
  obtain ⟨-, -, -, hestablished⟩ := (quietRun_kept hreach).memory impl himpl
  refine ⟨impl', himpl', ?_⟩
  have hstep := quietStep_epoch hreach h.quiet
  have hepoch := h.epoch
  generalize establishedBy (host, input, (coordinator.step host input).2) = e at hstep
  rw [Host.state_of_some himpl'] at hstep hepoch
  cases hstep with
  | kept epoch => exact absurd epoch hepoch
  | entered _ _ _ _ _ _ participants _ =>
    rw [← Host.state_of_some himpl] at hestablished
    exact (participants hestablished).mem_iff.mpr (List.mem_map_of_mem h.record)

/-- **An incarnation that is lost by an epoch change is told to revalidate** exactly
where the floor of its record was below it, in every state of a run without
exceptions that accepts no registration of the participant, and as long as this
is not retired and the boot is not fenced. -/
theorem lostRevalidates_iff (hreach : coordinator.Reaches Quietly host)
    (hlost : LosesByEpoch host input p boot i)
    (hrun : coordinator.Leads (fun host input => Quietly host input ∧ ¬ Registers p.id host input)
      (coordinator.step host input).1 host') {impl : Impl} (himpl : host'.runtime = some impl)
    (hretired : ∀ q ∈ impl.state.participants, q.id = p.id → q.retired = false)
    (hfence : ¬ impl.state.Fenced p.id boot) {request : ValidateAuthorityRequest}
    (hasks : request.AsksFor impl.state.currentEpoch p.id boot i) :
    (impl.validate request).Revalidates ↔ p.incarnationFloor < i := by
  obtain ⟨impl₁, himpl₁, hmem⟩ := hlost.invalidated hreach
  have hreach₁ := hreach.tail input hlost.quiet
  have hkept₁ := quietRun_kept hreach₁
  have hleads : coordinator.Leads Quietly (coordinator.step host input).1 host' :=
    hrun.mono fun _ _ hok => hok.1
  -- the record waits when the run starts
  have hwaits₁ : p.invalidate.Waits p.incarnationFloor :=
    DurableParticipant.waits_invalidate (List.ne_nil_of_mem hlost.live)
  have hstart : Holds (fun s => Kept s ∧ s.Waiting p.invalidate) (coordinator.step host input).1 :=
    hkept₁.refine himpl₁
      ⟨(hkept₁.memory impl₁ himpl₁).2.1, p.invalidate, hmem, .refl _, fun _ _ => hwaits₁⟩
  obtain ⟨hsettled, ⟨-, q, hq, hevolves, hwaits⟩, -, -⟩ :=
    (hstart.leads (preserved_waiting _) (quietRun_nothing hleads)).memory impl himpl
  have hid : q.id = p.id := hevolves.id
  -- and nothing is issued on the way
  have hnext : q.nextIncarnation = p.nextIncarnation := by
    have hnone : ¬ impl₁.state.Issued p.id p.nextIncarnation := by
      rintro ⟨q₁, hq₁, hid₁, hlt⟩
      have horderly := (hkept₁.memory impl₁ himpl₁).2.1.orderly
      obtain rfl := List.inj_on_of_nodup_map horderly.ids hq₁ hmem hid₁
      exact Nat.lt_irrefl _ hlt
    obtain ⟨_, himpl', hout⟩ := run_unbrought (brought_issued p.id p.nextIncarnation) hreach₁ himpl₁
      hnone hrun
    rw [himpl] at himpl'
    obtain rfl := Option.some.inj himpl'
    have hle : p.nextIncarnation.value ≤ q.nextIncarnation.value := hevolves.next
    have hnot : ¬ p.nextIncarnation.value < q.nextIncarnation.value := fun hlt =>
      hout ⟨q, hq, hid, hlt⟩
    exact MonotonicCounter.ext (by omega)
  have hopen := hretired q hq hid
  obtain ⟨impl₀, himpl₀, hp⟩ := Host.runtime_of_mem hlost.record
  obtain ⟨-, hkept₀, hvalid₀, hepoch₀⟩ := (quietRun_kept hreach).memory impl₀ himpl₀
  have hshape := hvalid₀.wellShaped hkept₀.orderly hepoch₀ hp hlost.live
  rw [← hid] at hfence hasks hshape
  have hanswer := validate_waits hsettled hq hopen (hwaits hnext hopen) hfence hshape hasks
  refine ⟨fun hrevalidates => ?_, hanswer.1⟩
  by_contra hfloor
  have hfences := hanswer.2 hfloor
  rw [AuthorityValidation.Fences, hrevalidates.1] at hfences
  cases hfences.1

end Runs

/-! ### A sibling that is fenced -/

/-- A participant with two incarnations, in epoch one. -/
def siblingRun : List Input := [
  testOpen { allowMultiIncarnation := true } 1,
  callOf (.register
    { testRegister 2 (testParticipant "p") (smallId 11) with policy := .multiIncarnation }),
  callOf (.register
    { testRegister 3 (testParticipant "p") (smallId 12) with policy := .multiIncarnation })]

/-- The younger of them is fenced. -/
def fenceSibling : Input := callOf (.fence (testFence 4 (testParticipant "p") (smallId 12)))

/-- The epoch that ends the other one. -/
def nextEpoch : Input := callOf (.advance { attempt := smallId 5, expectedEpoch := smallCounter 1 })

/-- The elder asks what has become of it. -/
def askElder : ValidateAuthorityRequest where
  token := ⟨smallCounter 2, testParticipant "p", smallId 11, smallCounter 1, smallCounter 1⟩
  scope := testScope

instance (s : DurableState) (id : ParticipantId) (boot : WorkerBootId) :
    Decidable (s.Fenced id boot) :=
  inferInstanceAs (Decidable (_ ∨ _))

/-- The elder is live, and the floor is this. -/
def ElderLives (host : Host) (floor : Nat) : Prop :=
  ∃ p ∈ host.state.participants, p.id = testParticipant "p" ∧
    (smallId 11, smallCounter 1) ∈ p.live ∧ p.incarnationFloor.value = floor

instance (host : Host) (floor : Nat) : Decidable (ElderLives host floor) :=
  inferInstanceAs (Decidable (∃ p ∈ host.state.participants, _))

/-- The participant is there and the elder is not fenced. -/
def ElderUnfenced (host : Host) : Prop :=
  host.state.currentEpoch = smallCounter 2 ∧
    (∀ p ∈ host.state.participants, p.id = testParticipant "p" → p.retired = false) ∧
    ¬ host.state.Fenced (testParticipant "p") (smallId 11)

instance (host : Host) : Decidable (ElderUnfenced host) :=
  inferInstanceAs (Decidable (_ ∧ _ ∧ ¬ _))

/-- Where the elder lives, the next epoch ends it. -/
theorem ElderLives.loses {host : Host} {floor : Nat} (h : ElderLives host floor)
    (hquiet : Quietly host nextEpoch)
    (hepoch : (coordinator.step host nextEpoch).1.state.currentEpoch ≠ host.state.currentEpoch) :
    ∃ p, LosesByEpoch host nextEpoch p (smallId 11) (smallCounter 1) ∧
      p.id = testParticipant "p" ∧ p.incarnationFloor.value = floor := by
  obtain ⟨p, hp, hid, hlive, hfloor⟩ := h
  exact ⟨p, ⟨hp, hlive, hquiet, hepoch⟩, hid, hfloor⟩

/-- The elder of two incarnations is told to revalidate. -/
theorem lostRevalidates_test : ∃ impl,
    (coordinator.step (coordinator.run coordinator.init siblingRun) nextEpoch).1.runtime = some impl ∧
    (impl.validate askElder).Revalidates := by
  have hquiet : coordinator.Allows Quietly coordinator.init siblingRun := by decide +kernel
  have hreach := Machine.leads_run hquiet
  have hvalues : ElderLives (coordinator.run coordinator.init siblingRun) 0 ∧
      Quietly (coordinator.run coordinator.init siblingRun) nextEpoch ∧
      (coordinator.step (coordinator.run coordinator.init siblingRun)
        nextEpoch).1.state.currentEpoch ≠
          (coordinator.run coordinator.init siblingRun).state.currentEpoch ∧
      ElderUnfenced (coordinator.step (coordinator.run coordinator.init siblingRun) nextEpoch).1 := by
    decide +kernel
  revert hreach hvalues
  generalize coordinator.run coordinator.init siblingRun = host
  intro hreach hvalues
  obtain ⟨hlives, hstep, hepoch, hcurrent, hretired, hfence⟩ := hvalues
  obtain ⟨p, hlost, hid, hfloor⟩ := hlives.loses hstep hepoch
  obtain ⟨impl, himpl, -⟩ := hlost.invalidated hreach
  rw [Host.state_of_some himpl] at hcurrent hretired hfence
  rw [← hid] at hretired hfence
  refine ⟨impl, himpl, (lostRevalidates_iff hreach hlost .refl himpl hretired hfence
    ⟨hcurrent.symm, hid.symm, rfl, rfl, rfl⟩).mpr ?_⟩
  show p.incarnationFloor.value < 1
  rw [hfloor]
  exact Nat.one_pos

/-- **An incarnation that was never fenced is told that it is**: the fence of its
sibling has raised the floor over it. -/
theorem siblingFenced : ∃ (host : Host) (input : Input) (p : DurableParticipant)
    (boot : WorkerBootId) (i : IncarnationSequence) (impl : Impl)
    (request : ValidateAuthorityRequest), coordinator.Reaches Quietly host ∧
    LosesByEpoch host input p boot i ∧ (coordinator.step host input).1.runtime = some impl ∧
    (∀ q ∈ impl.state.participants, q.id = p.id → q.retired = false) ∧
    ¬ impl.state.Fenced p.id boot ∧ request.AsksFor impl.state.currentEpoch p.id boot i ∧
    (impl.validate request).Fences := by
  have hquiet : coordinator.Allows Quietly coordinator.init (siblingRun ++ [fenceSibling]) := by
    decide +kernel
  have hreach := Machine.leads_run hquiet
  have hvalues : ElderLives (coordinator.run coordinator.init (siblingRun ++ [fenceSibling])) 2 ∧
      Quietly (coordinator.run coordinator.init (siblingRun ++ [fenceSibling])) nextEpoch ∧
      (coordinator.step (coordinator.run coordinator.init (siblingRun ++ [fenceSibling]))
        nextEpoch).1.state.currentEpoch ≠
          (coordinator.run coordinator.init (siblingRun ++ [fenceSibling])).state.currentEpoch ∧
      ElderUnfenced (coordinator.step
        (coordinator.run coordinator.init (siblingRun ++ [fenceSibling])) nextEpoch).1 := by
    decide +kernel
  have hanswer : (coordinator.step (coordinator.run coordinator.init
      (siblingRun ++ [fenceSibling])) nextEpoch).1.runtime.map (fun impl =>
        ((impl.validate askElder).code, (impl.validate askElder).currentness)) =
      some (.staleWorkerBoot, .fenced) := by
    decide +kernel
  revert hreach hvalues hanswer
  generalize coordinator.run coordinator.init (siblingRun ++ [fenceSibling]) = host
  intro hreach hvalues hanswer
  obtain ⟨hlives, hstep, hepoch, hcurrent, hretired, hfence⟩ := hvalues
  obtain ⟨p, hlost, hid, -⟩ := hlives.loses hstep hepoch
  obtain ⟨impl, himpl, hfenced⟩ := Option.map_eq_some_iff.mp hanswer
  obtain ⟨hcode, hcurrentness⟩ := Prod.mk.inj hfenced
  rw [Host.state_of_some himpl] at hcurrent hretired hfence
  rw [← hid] at hretired hfence
  exact ⟨host, nextEpoch, p, smallId 11, smallCounter 1, impl, askElder, hreach, hlost, himpl,
    hretired, hfence, ⟨hcurrent.symm, hid.symm, rfl, rfl, rfl⟩, hcode, hcurrentness⟩

end FabricEpoch
