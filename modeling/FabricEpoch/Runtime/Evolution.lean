import FabricEpoch.Runtime.Runs

/-!
# How the durable state evolves

What a sequence of moves can only increase, and what it can never bring back.

- `Floors`: the counters of the records stay below those of the state, and the
  fencing floor of a record below its allocator;
- `Evolves`: counters move forward, records stay, an incarnation that is live
  was live before or is new, and a retired record gets no new incarnation;
- `quietRun_evolves`: a run in which no call throws evolves the memory.
-/

namespace FabricEpoch

open Table

/-! ## Floors -/

/-- The counters keep their distance. -/
structure Floors (s : DurableState) : Prop where
  allocator : ∀ p ∈ s.participants, p.incarnationFloor < p.nextIncarnation
  fences : ∀ p ∈ s.participants, p.fenceGeneration ≤ s.fenceFloor
  registrations : ∀ p ∈ s.participants, p.registrationGeneration ≤ s.registrationFloor
  known : ∀ r ∈ s.recentFences, r.participant ∈ s.participants.map (·.id)
  records : ∀ r ∈ s.recentFences, ∀ p ∈ s.participants, p.id = r.participant →
    r.incarnation < p.nextIncarnation

/-- What a sequence of changes does to a record. -/
structure DurableParticipant.Evolves (p p' : DurableParticipant) : Prop where
  id : p'.id = p.id
  next : p.nextIncarnation ≤ p'.nextIncarnation
  floor : p.incarnationFloor ≤ p'.incarnationFloor
  fence : p.fenceGeneration ≤ p'.fenceGeneration
  live : ∀ e ∈ p'.live, e ∈ p.live ∨ p.nextIncarnation ≤ e.2
  retired : p.retired = true → p'.retired = true ∧ p'.nextIncarnation = p.nextIncarnation

/-- What a sequence of changes does to the state. -/
structure DurableState.Evolves (s s' : DurableState) : Prop where
  epoch : s.currentEpoch ≤ s'.currentEpoch
  generation : s.generation ≤ s'.generation
  registrations : s.registrationFloor ≤ s'.registrationFloor
  fences : s.fenceFloor ≤ s'.fenceFloor
  participants : ∀ p ∈ s.participants, ∃ p' ∈ s'.participants, p.Evolves p'

theorem MonotonicCounter.le_of_next {d : CounterDomain} {a b : MonotonicCounter d}
    (h : a.next = some b) : a ≤ b := by
  have := next_eq_some h
  rw [le_iff, this]
  exact Nat.le_succ _

namespace DurableParticipant

variable {p p' : DurableParticipant}

/-- A change that leaves the allocator, the floors and the live incarnations alone. -/
theorem Evolves.of_same (hid : p'.id = p.id) (hnext : p'.nextIncarnation = p.nextIncarnation)
    (hfloor : p'.incarnationFloor = p.incarnationFloor)
    (hfence : p.fenceGeneration ≤ p'.fenceGeneration) (hlive : p'.live.Sublist p.live)
    (hretired : p.retired = true → p'.retired = true) : p.Evolves p' where
  id := hid
  next := hnext ▸ Nat.le_refl _
  floor := hfloor ▸ Nat.le_refl _
  fence := hfence
  live _ he := .inl (hlive.subset he)
  retired h := ⟨hretired h, hnext⟩

theorem Evolves.refl (p : DurableParticipant) : p.Evolves p :=
  .of_same rfl rfl rfl (Nat.le_refl _) (List.Sublist.refl _) fun h => h

theorem Evolves.trans {p'' : DurableParticipant} (h₁ : p.Evolves p') (h₂ : p'.Evolves p'') :
    p.Evolves p'' where
  id := h₂.id.trans h₁.id
  next := Nat.le_trans h₁.next h₂.next
  floor := Nat.le_trans h₁.floor h₂.floor
  fence := Nat.le_trans h₁.fence h₂.fence
  live e he := by
    rcases h₂.live e he with hold | hnew
    · exact h₁.live e hold
    · exact .inr (Nat.le_trans h₁.next hnew)
  retired h := by
    obtain ⟨hr, hn⟩ := h₁.retired h
    exact ⟨(h₂.retired hr).1, (h₂.retired hr).2.trans hn⟩

/-- The floor is raised to the incarnation, or is above it already. -/
theorem raiseFloor_floor (p : DurableParticipant) (i : IncarnationSequence) :
    (p.raiseFloor i).incarnationFloor = i ∨
      (p.raiseFloor i).incarnationFloor = p.incarnationFloor ∧ i ≤ p.incarnationFloor := by
  unfold raiseFloor
  split
  · exact .inl rfl
  · next h => exact .inr ⟨rfl, Nat.not_lt.mp h⟩

theorem le_raiseFloor (p : DurableParticipant) (i : IncarnationSequence) :
    p.incarnationFloor ≤ (p.raiseFloor i).incarnationFloor := by
  unfold raiseFloor
  split
  · next h => exact Nat.le_of_lt h
  · exact Nat.le_refl _

/-- A floor below the allocator that is raised to an issued incarnation stays
below it. -/
theorem raiseFloor_lt {i : IncarnationSequence} (hfloor : p.incarnationFloor < p.nextIncarnation)
    (hi : i < p.nextIncarnation) : (p.raiseFloor i).incarnationFloor < p.nextIncarnation := by
  rcases p.raiseFloor_floor i with h | ⟨h, -⟩
  · rw [h]
    exact hi
  · rw [h]
    exact hfloor

theorem fence_evolves (hp : OrderlyRecord p) (limits : Limits) (boot : WorkerBootId)
    (i : IncarnationSequence) {g : FencingGeneration} (hg : p.fenceGeneration ≤ g) :
    p.Evolves (p.fence limits boot i g) where
  id := p.fence_id limits boot i g
  next := by
    obtain ⟨_, _, _, _, _, h⟩ := p.fence_frame limits boot i g
    rw [h]
    exact Nat.le_refl _
  floor := by
    obtain ⟨_, _, _, _, h⟩ := p.removeIncarnation_frame boot
    have := (p.removeIncarnation boot).le_raiseFloor i
    rw [show (p.removeIncarnation boot).incarnationFloor = p.incarnationFloor from by rw [h]] at this
    exact this
  fence := hg
  live e he := by
    rw [live_fence hp.boots] at he
    exact .inl (List.mem_of_mem_filter he)
  retired h := by
    obtain ⟨_, _, _, _, _, hf⟩ := p.fence_frame limits boot i g
    rw [hf]
    exact ⟨h, rfl⟩

theorem fence_floor (limits : Limits) (boot : WorkerBootId) (i : IncarnationSequence)
    (g : FencingGeneration) (hfloor : p.incarnationFloor < p.nextIncarnation)
    (hi : i < p.nextIncarnation) :
    (p.fence limits boot i g).incarnationFloor < (p.fence limits boot i g).nextIncarnation := by
  obtain ⟨_, _, _, _, h⟩ := p.removeIncarnation_frame boot
  have hnext : (p.fence limits boot i g).nextIncarnation = p.nextIncarnation := by
    obtain ⟨_, _, _, _, _, hf⟩ := p.fence_frame limits boot i g
    rw [hf]
  have := raiseFloor_lt (p := p.removeIncarnation boot) (i := i) (by rw [h]; exact hfloor)
    (by rw [h]; exact hi)
  rw [hnext, ← removeIncarnation_next boot]
  exact this

/-- The floor of a retired record is the last sequence its allocator can have
issued. -/
theorem retire_floor (hfloor : p.incarnationFloor < p.nextIncarnation) :
    p.retire.nextIncarnation = p.nextIncarnation ∧
      p.retire.incarnationFloor.value = p.nextIncarnation.value - 1 := by
  have hpos : p.nextIncarnation.isZero = false := by
    cases h : p.nextIncarnation.isZero with
    | false => rfl
    | true =>
      have hlt : p.incarnationFloor.value < p.nextIncarnation.value := hfloor
      rw [MonotonicCounter.isZero_iff.mp h] at hlt
      exact absurd hlt (Nat.not_lt_zero _)
  have hretire : p.retire = { p.raiseFloor p.highestIssued with
      retired := true
      revalidationRequired := false } := by
    rw [retire, hpos]
    rfl
  obtain ⟨floor, hframe⟩ := p.raiseFloor_frame p.highestIssued
  rw [hretire]
  refine ⟨by rw [hframe], ?_⟩
  show (p.raiseFloor p.highestIssued).incarnationFloor.value = _
  rcases p.raiseFloor_floor p.highestIssued with h | ⟨h, hle⟩
  · rw [h]
    rfl
  · rw [h]
    have hle' : p.nextIncarnation.value - 1 ≤ p.incarnationFloor.value := hle
    have hlt : p.incarnationFloor.value < p.nextIncarnation.value := hfloor
    omega

theorem retire_evolves (hfloor : p.incarnationFloor < p.nextIncarnation) : p.Evolves p.retire where
  id := p.retire_id
  next := (retire_floor hfloor).1 ▸ Nat.le_refl _
  floor := by
    have := (retire_floor hfloor).2
    have hlt : p.incarnationFloor.value < p.nextIncarnation.value := hfloor
    rw [MonotonicCounter.le_iff, this]
    omega
  fence := by
    obtain ⟨_, h⟩ := p.retire_frame
    rw [h]
    exact Nat.le_refl _
  live e he := by
    rw [live_retire] at he
    exact .inl he
  retired _ := by
    refine ⟨?_, (retire_floor hfloor).1⟩
    obtain ⟨_, h⟩ := p.retire_frame
    rw [h]

theorem register_evolves (hp : OrderlyRecord p) (hretired : p.retired = false) (limits : Limits)
    (request : RegisterParticipantRequest) (digest : SnapshotDigest) (g : RegistrationGeneration)
    {next : IncarnationSequence} (hnext : p.nextIncarnation.next = some next) :
    p.Evolves (p.register limits request digest g p.nextIncarnation next) := by
  obtain ⟨_, _, _, _, h⟩ := p.register_frame limits request digest g p.nextIncarnation next
  refine ⟨p.register_id _ _ _ _ _ _, ?_, ?_, ?_, fun e he => ?_, fun hr => ?_⟩
  · rw [register_next]
    exact MonotonicCounter.le_of_next hnext
  · rw [h]
    exact Nat.le_refl _
  · rw [h]
    exact Nat.le_refl _
  · rw [live_register hp.compact, List.mem_append, List.mem_singleton] at he
    rcases he with he | rfl
    · exact .inl he
    · exact .inr (Nat.le_refl _)
  · rw [hretired] at hr
    cases hr

end DurableParticipant

namespace Floors

variable {s s' : DurableState}

theorem initial : Floors initialState :=
  ⟨fun _ h => (nomatch h), fun _ h => (nomatch h), fun _ h => (nomatch h), fun _ h => (nomatch h),
    fun _ h => (nomatch h)⟩

/-- Each record comes from an old one, with its counters in bounds, and there
are no new fence records. -/
theorem of_old (h : Floors s) (hids : s.participants.map (·.id) ⊆ s'.participants.map (·.id))
    (hfences : s'.recentFences = s.recentFences)
    (hall : ∀ p' ∈ s'.participants, p'.incarnationFloor < p'.nextIncarnation ∧
      p'.fenceGeneration ≤ s'.fenceFloor ∧ p'.registrationGeneration ≤ s'.registrationFloor ∧
      ∃ p ∈ s.participants, p.id = p'.id ∧ p.nextIncarnation ≤ p'.nextIncarnation) :
    Floors s' where
  allocator p' hp' := (hall p' hp').1
  fences p' hp' := (hall p' hp').2.1
  registrations p' hp' := (hall p' hp').2.2.1
  known r hr := hids (h.known r (hfences ▸ hr))
  records r hr p' hp' hid := by
    obtain ⟨-, -, -, p, hp, hpid, hnext⟩ := hall p' hp'
    exact Nat.lt_of_lt_of_le (h.records r (hfences ▸ hr) p hp (hpid.trans hid)) hnext

/-- The same records, counters and fences. -/
theorem of_same (h : Floors s) (hparticipants : s'.participants = s.participants)
    (hfences : s'.recentFences = s.recentFences) (hfence : s'.fenceFloor = s.fenceFloor)
    (hregistration : s'.registrationFloor = s.registrationFloor) : Floors s' := by
  refine h.of_old (hparticipants ▸ List.Subset.refl _) hfences fun p hp => ?_
  rw [hparticipants] at hp
  exact ⟨h.allocator p hp, hfence ▸ h.fences p hp, hregistration ▸ h.registrations p hp, p, hp, rfl,
    Nat.le_refl _⟩

/-- One record changes, and there are no new fence records. -/
theorem updateParticipant (h : Floors s) {id : ParticipantId}
    {f : DurableParticipant → DurableParticipant} (hf : ∀ p, (f p).id = p.id)
    (hall : ∀ p ∈ s.participants, p.id = id → (f p).incarnationFloor < (f p).nextIncarnation ∧
      (f p).fenceGeneration ≤ s.fenceFloor ∧ (f p).registrationGeneration ≤ s.registrationFloor ∧
      p.nextIncarnation ≤ (f p).nextIncarnation) : Floors (s.updateParticipant id f) := by
  refine h.of_old (s.ids_subset_updateParticipant id hf) rfl fun p' hp' => ?_
  rcases DurableState.mem_updateParticipant hp' with ⟨p, hp, hid, rfl⟩ | ⟨hp, -⟩
  · obtain ⟨h₁, h₂, h₃, h₄⟩ := hall p hp hid
    exact ⟨h₁, h₂, h₃, p, hp, (hf p).symm, h₄⟩
  · exact ⟨h.allocator p' hp, h.fences p' hp, h.registrations p' hp, p', hp, rfl, Nat.le_refl _⟩

/-- The fence floor is raised and a record is retained, whose incarnation the
participant has issued. -/
theorem fenced (h : Floors s) (hs : Orderly s) {record : FenceRecord} {p : DurableParticipant}
    {f : DurableParticipant → DurableParticipant} {fences : List FenceRecord}
    (hfloor : s.fenceFloor ≤ record.generation) (hfound : s.lookup record.participant = some p)
    (hf : ∀ p, (f p).id = p.id) (hfences : ∀ r ∈ fences, r ∈ s.recentFences ∨ r = record)
    (hissued : record.incarnation < p.nextIncarnation)
    (hallocator : (f p).incarnationFloor < p.nextIncarnation)
    (hnext : (f p).nextIncarnation = p.nextIncarnation)
    (hgeneration : (f p).fenceGeneration = record.generation)
    (hregistration : (f p).registrationGeneration = p.registrationGeneration) :
    Floors { s.updateParticipant record.participant f with
      fenceFloor := record.generation
      recentFences := fences } := by
  obtain ⟨hp, hid⟩ := DurableState.mem_of_lookup hfound
  have hids := s.ids_updateParticipant record.participant hf
  -- a record of the new state, with what it has kept of its old one
  have hall : ∀ p' ∈ (s.updateParticipant record.participant f).participants,
      p' = f p ∨ p' ∈ s.participants ∧ p'.id ≠ record.participant := by
    intro p' hp'
    rcases DurableState.mem_updateParticipant hp' with ⟨q, hq, hqid, rfl⟩ | hq
    · rw [hs.eq_of_lookup hfound hq hqid]
      exact .inl rfl
    · exact .inr hq
  refine ⟨fun p' hp' => ?_, fun p' hp' => ?_, fun p' hp' => ?_, fun r hr => ?_,
    fun r hr p' hp' hpid => ?_⟩
  · rcases hall p' hp' with rfl | ⟨hq, -⟩
    · rw [hnext]
      exact hallocator
    · exact h.allocator p' hq
  · rcases hall p' hp' with rfl | ⟨hq, -⟩
    · rw [hgeneration]
      exact Nat.le_refl _
    · exact Nat.le_trans (h.fences p' hq) hfloor
  · rcases hall p' hp' with rfl | ⟨hq, -⟩
    · rw [hregistration]
      exact h.registrations p hp
    · exact h.registrations p' hq
  · show r.participant ∈ (s.updateParticipant record.participant f).participants.map (·.id)
    rw [hids]
    rcases hfences r hr with hold | rfl
    · exact h.known r hold
    · exact hid ▸ List.mem_map_of_mem hp
  · rcases hfences r hr with hold | rfl
    · rcases hall p' hp' with rfl | ⟨hq, -⟩
      · rw [hnext]
        exact h.records r hold p hp ((hf p).symm.trans hpid)
      · exact h.records r hold p' hq hpid
    · rcases hall p' hp' with rfl | ⟨-, hne⟩
      · rw [hnext]
        exact hissued
      · exact absurd hpid hne

end Floors

/-- **A move keeps the counters in their bounds.** -/
theorem Move.floors {T : Trust} {limits : Limits} {s s' : DurableState}
    (h : Move T limits s s') (hs : Orderly s) (hf : Floors s) : Floors s' := by
  cases h with
  | reorder perm =>
    refine hf.of_old (perm.map _).subset rfl fun p hp => ?_
    have hp' := perm.mem_iff.mpr hp
    exact ⟨hf.allocator p hp', hf.fences p hp', hf.registrations p hp', p, hp', rfl, Nat.le_refl _⟩
  | bump _ => exact hf.of_same rfl rfl rfl rfl
  | @preventive record p found _ _ _ _ floor _ unissued _ =>
    have hp := DurableState.mem_of_lookup found
    refine hf.fenced hs (f := (·.setFenceGeneration record.generation))
      (MonotonicCounter.le_of_next floor) found (fun _ => rfl) (fun r hr => ?_) ?_
      (hf.allocator p hp.1) rfl rfl rfl
    · rcases List.mem_append.mp hr with hr | hr
      · exact .inl hr
      · exact .inr (List.mem_singleton.mp hr)
    · rw [unissued]
      exact (hs.records p hp.1).allocator
  | @fence record p found live _ floor _ _ =>
    have hp := DurableState.mem_of_lookup found
    have hissued := ((hs.records p hp.1).issued _ (DurableParticipant.mem_live_of_find live)).2
    obtain ⟨_, _, _, _, _, hframe⟩ :=
      p.fence_frame limits record.boot record.incarnation record.generation
    have hnext : (p.fence limits record.boot record.incarnation record.generation).nextIncarnation =
        p.nextIncarnation := by rw [hframe]
    refine hf.fenced hs (MonotonicCounter.le_of_next floor) found
      (fun p => p.fence_id limits _ _ _) (fun r hr => mem_evictPush hr) hissued ?_ hnext ?_ ?_
    · rw [← hnext]
      exact DurableParticipant.fence_floor limits _ _ _ (hf.allocator p hp.1) hissued
    · rw [hframe]
    · rw [hframe]
  | @create id policy missing _ _ _ =>
    have hnew : ∀ r ∈ s.recentFences, r.participant ≠ id := by
      rintro r hr rfl
      obtain ⟨p, hp, hid⟩ := List.mem_map.mp (hf.known r hr)
      exact lookup_none.mp missing p hp hid
    have hall : ∀ p ∈ s.participants ++ [DurableParticipant.fresh id policy],
        p ∈ s.participants ∨ p = DurableParticipant.fresh id policy := fun p hp =>
      (List.mem_append.mp hp).imp_right List.mem_singleton.mp
    refine ⟨fun p hp => ?_, fun p hp => ?_, fun p hp => ?_, fun r hr => ?_, fun r hr p hp hid => ?_⟩
    · rcases hall p hp with hp | rfl
      · exact hf.allocator p hp
      · exact Nat.one_pos
    · rcases hall p hp with hp | rfl
      · exact hf.fences p hp
      · exact Nat.zero_le _
    · rcases hall p hp with hp | rfl
      · exact hf.registrations p hp
      · exact Nat.zero_le _
    · rw [List.map_append]
      exact List.mem_append_left _ (hf.known r hr)
    · rcases hall p hp with hp | rfl
      · exact hf.records r hr p hp hid
      · exact absurd hid.symm (hnew r hr)
  | @register request digest p g next semantic found notRetired nonNil attempt newAttempt notLive
      policy notFenced single elsewhere size text floor allocate =>
    have hle := MonotonicCounter.le_of_next floor
    refine hf.of_old (s.ids_subset_updateParticipant request.participant fun q =>
      q.register_id limits request digest g p.nextIncarnation next) rfl fun p' hp' => ?_
    rcases DurableState.mem_updateParticipant hp' with ⟨q, hq, hid, rfl⟩ | ⟨hq, -⟩
    · obtain rfl := hs.eq_of_lookup found hq hid
      obtain ⟨_, _, _, _, hframe⟩ :=
        q.register_frame limits request digest g q.nextIncarnation next
      have hnext := MonotonicCounter.le_of_next allocate
      rw [hframe]
      exact ⟨Nat.lt_of_lt_of_le (hf.allocator q hq) hnext, hf.fences q hq, Nat.le_refl _, q, hq, rfl,
        hnext⟩
    · exact ⟨hf.allocator p' hq, hf.fences p' hq, Nat.le_trans (hf.registrations p' hq) hle, p', hq,
        rfl, Nat.le_refl _⟩
  | @remember _ _ record _ _ _ _ =>
    exact hf.updateParticipant (f := (·.remember limits record)) (fun _ => rfl) fun p hp _ =>
      ⟨hf.allocator p hp, hf.fences p hp, hf.registrations p hp, Nat.le_refl _⟩
  | grant _ _ _ _ _ _ _ _ _ _ _ _ => exact hf.of_same rfl rfl rfl rfl
  | revoke _ => exact hf.of_same rfl rfl rfl rfl
  | control _ _ _ _ => exact hf.of_same rfl rfl rfl rfl
  | retire _ _ =>
    refine hf.updateParticipant (fun p => p.retire_id) fun p hp _ => ?_
    have hlt : p.incarnationFloor.value < p.nextIncarnation.value := hf.allocator p hp
    obtain ⟨hnext, hfloor⟩ := DurableParticipant.retire_floor (hf.allocator p hp)
    obtain ⟨_, hframe⟩ := p.retire_frame
    refine ⟨?_, ?_, ?_, hnext ▸ Nat.le_refl _⟩
    · rw [MonotonicCounter.lt_iff, hfloor, hnext]
      omega
    · rw [hframe]
      exact hf.fences p hp
    · rw [hframe]
      exact hf.registrations p hp
  | @epoch t invalidate generation _ _ _ _ _ _ =>
    cases invalidate with
    | false => exact hf.of_same rfl rfl rfl rfl
    | true =>
      refine hf.of_old ?_ rfl fun p' hp' => ?_
      · show s.participants.map (·.id) ⊆ (s.participants.map (·.invalidate)).map (·.id)
        rw [List.map_map]
        exact List.Subset.refl _
      · obtain ⟨p, hp, rfl⟩ := List.mem_map.mp hp'
        exact ⟨hf.allocator p hp, hf.fences p hp, hf.registrations p hp, p, hp, rfl, Nat.le_refl _⟩

/-! ## Evolution -/

namespace DurableState.Evolves

variable {s s' s'' : DurableState}

theorem refl (s : DurableState) : s.Evolves s :=
  ⟨Nat.le_refl _, Nat.le_refl _, Nat.le_refl _, Nat.le_refl _, fun p hp => ⟨p, hp, .refl p⟩⟩

theorem trans (h₁ : s.Evolves s') (h₂ : s'.Evolves s'') : s.Evolves s'' := by
  refine ⟨Nat.le_trans h₁.epoch h₂.epoch, Nat.le_trans h₁.generation h₂.generation,
    Nat.le_trans h₁.registrations h₂.registrations, Nat.le_trans h₁.fences h₂.fences,
    fun p hp => ?_⟩
  obtain ⟨p', hp', hfirst⟩ := h₁.participants p hp
  obtain ⟨p'', hp'', hsecond⟩ := h₂.participants p' hp'
  exact ⟨p'', hp'', hfirst.trans hsecond⟩

/-- The record a record evolves to has its identifier. -/
theorem record (h : s.Evolves s') (hs : Orderly s') {p p' : DurableParticipant}
    (hp : p ∈ s.participants) (hp' : p' ∈ s'.participants) (hid : p.id = p'.id) : p.Evolves p' := by
  obtain ⟨q, hq, hevolves⟩ := h.participants p hp
  have heq : q = p' := List.inj_on_of_nodup_map hs.ids hq hp' (hevolves.id.trans hid)
  exact heq ▸ hevolves

/-- One record evolves. -/
theorem updateParticipant {id : ParticipantId} {f : DurableParticipant → DurableParticipant}
    (hf : ∀ p ∈ s.participants, p.id = id → p.Evolves (f p)) {p : DurableParticipant}
    (hp : p ∈ s.participants) :
    ∃ p' ∈ (s.updateParticipant id f).participants, p.Evolves p' := by
  refine ⟨if p.id = id then f p else p, List.mem_map_of_mem hp, ?_⟩
  split
  · next hid => exact hf p hp hid
  · exact .refl p

/-- The same records, under counters that may have moved. -/
theorem same (hparticipants : s'.participants = s.participants) {p : DurableParticipant}
    (hp : p ∈ s.participants) : ∃ p' ∈ s'.participants, p.Evolves p' :=
  ⟨p, hparticipants ▸ hp, .refl p⟩

end DurableState.Evolves

/-- **A move lets the state evolve.** -/
theorem Move.evolves {T : Trust} {limits : Limits} {s s' : DurableState}
    (h : Move T limits s s') (hs : Orderly s) (hf : Floors s) : s.Evolves s' := by
  have hle {d : CounterDomain} (c : MonotonicCounter d) : c ≤ c := Nat.le_refl _
  cases h with
  | reorder perm =>
    exact ⟨hle _, hle _, hle _, hle _, fun p hp => ⟨p, perm.mem_iff.mp hp, .refl p⟩⟩
  | bump next =>
    exact ⟨hle _, MonotonicCounter.le_of_next next, hle _, hle _,
      fun _ => DurableState.Evolves.same rfl⟩
  | @preventive record _ _ _ _ _ _ floor _ _ _ =>
    have hfloor := MonotonicCounter.le_of_next floor
    refine ⟨hle _, hle _, hle _, hfloor, fun p hp =>
      DurableState.Evolves.updateParticipant (f := (·.setFenceGeneration record.generation))
        (fun q hq _ => ?_) hp⟩
    exact .of_same rfl rfl rfl (Nat.le_trans (hf.fences q hq) hfloor) (List.Sublist.refl _)
      fun h => h
  | fence _ _ _ floor _ _ =>
    have hfloor := MonotonicCounter.le_of_next floor
    exact ⟨hle _, hle _, hle _, hfloor, fun p hp =>
      DurableState.Evolves.updateParticipant (fun q hq _ => DurableParticipant.fence_evolves
        (hs.records q hq) limits _ _ (Nat.le_trans (hf.fences q hq) hfloor)) hp⟩
  | create _ _ _ _ =>
    exact ⟨hle _, hle _, hle _, hle _, fun p hp => ⟨p, List.mem_append_left _ hp, .refl p⟩⟩
  | register semantic found notRetired nonNil attempt newAttempt notLive policy notFenced single
      elsewhere size text floor allocate =>
    refine ⟨hle _, hle _, MonotonicCounter.le_of_next floor, hle _, fun p hp =>
      DurableState.Evolves.updateParticipant (fun q hq hid => ?_) hp⟩
    obtain rfl := hs.eq_of_lookup found hq hid
    exact DurableParticipant.register_evolves (hs.records q hq) notRetired limits _ _ _ allocate
  | @remember _ _ record _ _ _ _ =>
    exact ⟨hle _, hle _, hle _, hle _, fun p hp =>
      DurableState.Evolves.updateParticipant (f := (·.remember limits record)) (fun q _ _ =>
        .of_same rfl rfl rfl (Nat.le_refl _) (List.Sublist.refl _) fun h => h) hp⟩
  | grant found live epoch nonempty size nonNil parent room revoked fresh text next =>
    exact ⟨hle _, MonotonicCounter.le_of_next next, hle _, hle _,
      fun _ => DurableState.Evolves.same rfl⟩
  | revoke _ => exact ⟨hle _, hle _, hle _, hle _, fun _ => DurableState.Evolves.same rfl⟩
  | control _ _ _ _ => exact ⟨hle _, hle _, hle _, hle _, fun _ => DurableState.Evolves.same rfl⟩
  | retire _ _ =>
    exact ⟨hle _, hle _, hle _, hle _, fun p hp =>
      DurableState.Evolves.updateParticipant (fun q hq _ =>
        DurableParticipant.retire_evolves (hf.allocator q hq)) hp⟩
  | @epoch t invalidate generation _ target next _ _ _ =>
    refine ⟨MonotonicCounter.le_of_next target, MonotonicCounter.le_of_next next, hle _, hle _,
      fun p hp => ?_⟩
    cases invalidate with
    | false => exact ⟨p, hp, .refl p⟩
    | true =>
      exact ⟨p.invalidate, List.mem_map_of_mem hp,
        .of_same rfl rfl rfl (Nat.le_refl _) (List.nil_sublist _) fun h => h⟩

/-- **Moves keep the counters in their bounds and let the state evolve.** -/
theorem Moves.evolves {T : Trust} {limits : Limits} {s s' : DurableState}
    (h : Moves T limits s s') (hs : Orderly s) (hf : Floors s) :
    Floors s' ∧ s.Evolves s' := by
  induction h with
  | refl => exact ⟨hf, .refl s⟩
  | tail hms hm ih =>
    have horderly := Moves.orderly hms hs
    exact ⟨hm.floors horderly ih.1, ih.2.trans (hm.evolves horderly ih.1)⟩

/-! ## Along runs -/

/-- Nothing is trusted, so nothing is asked of an input. -/
theorem Input.sound_nothing (host : Host) (input : Input) : input.Sound .nothing host := by
  cases input with
  | «open» opening fault => exact fun _ _ => ⟨fun h => h.elim, fun h => h.elim⟩
  | call c entropy fault =>
    intro impl _
    cases c with
    | register request => exact ⟨fun h => h.elim, fun h => h.elim⟩
    | registerBatch requests => exact ⟨fun h => h.elim, fun h => h.elim, fun h => h.elim⟩
    | fence request => exact fun h => h.elim
    | grant request => exact ⟨fun h => h.elim, fun h => h.elim⟩
    | advance request => exact ⟨fun h => h.elim, fun h => h.elim⟩
    | retire request => exact ⟨fun h => h.elim, fun h => h.elim⟩
    | revoke request => trivial
    | bind binding => trivial
    | close session reason => trivial
    | flush => trivial

theorem quietRun_nothing {host host' : Host} (h : coordinator.Leads Quietly host host') :
    coordinator.Leads (QuietRun .nothing) host host' :=
  h.mono fun host input hquiet => ⟨hquiet, input.sound_nothing host⟩

/-- Records in order and counters in bounds. -/
structure Kept (s : DurableState) : Prop where
  orderly : Orderly s
  floors : Floors s

theorem Kept.initial : Kept initialState := ⟨.initial, .initial⟩

theorem Kept.moves {T : Trust} {limits : Limits} {s s' : DurableState} (h : Kept s)
    (hm : Moves T limits s s') : Kept s' ∧ s.Evolves s' := by
  obtain ⟨hfloors, hevolves⟩ := Moves.evolves hm h.orderly h.floors
  exact ⟨⟨Moves.orderly hm h.orderly, hfloors⟩, hevolves⟩

theorem preserved_kept : Preserved .nothing Kept where
  trust h := h.elim
  orderly _ h := h.orderly
  incumbency h := h.elim
  moves _ _ _ hm h := (h.moves hm).1

/-- What evolution preserves, moves preserve. -/
theorem preserved_evolving {P : DurableState → Prop}
    (hP : ∀ s s', Kept s → Kept s' → s.Evolves s' → P s → P s') :
    Preserved .nothing fun s => Kept s ∧ P s where
  trust h := h.elim
  orderly _ h := h.1.orderly
  incumbency h := h.elim
  moves _ _ _ hm h := by
    obtain ⟨hkept, hevolves⟩ := h.1.moves hm
    exact ⟨hkept, hP _ _ h.1 hkept hevolves h.2⟩

theorem quietRun_kept {host : Host} (h : coordinator.Reaches Quietly host) : Holds Kept host :=
  quietRun_invariant preserved_kept .initial (quietRun_nothing h)

/-- **What evolution preserves, a quiet run preserves.** -/
theorem quietRun_preserves {P : DurableState → Prop}
    (hP : ∀ s s', Kept s → Kept s' → s.Evolves s' → P s → P s') {host host' : Host}
    (hreach : coordinator.Reaches Quietly host) (h : coordinator.Leads Quietly host host')
    {impl impl' : Impl} (himpl : host.runtime = some impl) (himpl' : host'.runtime = some impl')
    (hstate : P impl.state) : P impl'.state := by
  have hkept := quietRun_kept hreach
  have hstart : Holds (fun s => Kept s ∧ P s) host :=
    hkept.refine himpl ⟨(hkept.memory impl himpl).2.1, hstate⟩
  exact ((hstart.leads (preserved_evolving hP) (quietRun_nothing h)).memory impl' himpl').2.1.2

/-- **A quiet run lets the memory evolve.** -/
theorem quietRun_evolves {host host' : Host} (hreach : coordinator.Reaches Quietly host)
    (h : coordinator.Leads Quietly host host') {impl impl' : Impl}
    (himpl : host.runtime = some impl) (himpl' : host'.runtime = some impl') :
    impl.state.Evolves impl'.state :=
  quietRun_preserves (P := fun s => impl.state.Evolves s) (fun _ _ _ _ h₁ h₂ => h₂.trans h₁) hreach h
    himpl himpl' (.refl _)

end FabricEpoch
