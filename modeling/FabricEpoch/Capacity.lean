import FabricEpoch.Acknowledgements
import FabricEpoch.Batches
import FabricEpoch.Delegation
import FabricEpoch.EpochChain
import FabricEpoch.Refusals
import FabricEpoch.Sessions

/-!
# Capacity

Every table of the runtime has a limit. The retained ones drop their oldest entry,
the others refuse a new one, and the count of the live incarnations goes along with
the records. Three refusals name the limit they come from. Two of them are exact;
the third counts the grants that are there, and a grant is never taken out, so that
one which is revoked, or of an earlier epoch, goes on taking a place.

- `Impl.WithinLimits`: the bounds, and `limited_within`: every state keeps them;
- `applyRegistration_counts`: what one registration does to the count of the live
  incarnations, and when it is refused for want of room;
- `applyGrant_exhausts`: when a grant is;
- `limitsExact_iff`: the law, and `revokedGrant_crowds`: a run against it.
-/

namespace FabricEpoch

open Table Transaction

/-! ## The bounds -/

/-- The number of live incarnations. -/
def DurableState.liveCount (s : DurableState) : Nat :=
  (s.participants.map fun p => p.liveBoots.length).sum

/-- The tables of the durable state keep their limits. -/
structure DurableState.Bounded (limits : Limits) (s : DurableState) : Prop where
  participants : s.participants.length ≤ limits.maxParticipants
  fences : s.recentFences.length ≤ limits.maxRecentFences
  grants : s.grants.length ≤ limits.maxAuthorityGrants
  transitions : s.transitions.length ≤ limits.maxTransitionHistory
  control : s.controlAttempts.length ≤ limits.maxIdempotencyRecordsPerParticipant
  replays : ∀ p ∈ s.participants,
    p.idempotency.length ≤ limits.maxIdempotencyRecordsPerParticipant
  rings : ∀ p ∈ s.participants, p.fencedBoots.length ≤ limits.maxFencedBootsPerParticipant

/-- The limits of a runtime, its live incarnations and its sessions included. -/
structure Impl.WithinLimits (limits : Limits) (impl : Impl) : Prop where
  bounded : impl.state.Bounded limits
  workers : impl.state.liveCount ≤ limits.maxActiveWorkers
  sessions : impl.sessionIndex.length ≤ limits.maxSessions

/-- The limits of the tables that drop their oldest entry are not zero. -/
theorem isViable_retained {limits : Limits} (h : isViable limits = true) :
    0 < limits.maxRecentFences ∧ 0 < limits.maxTransitionHistory ∧
      0 < limits.maxIdempotencyRecordsPerParticipant ∧ 0 < limits.maxFencedBootsPerParticipant := by
  unfold isViable at h
  simp only [beq_iff_eq, Bool.or_eq_true, gt_iff_lt] at h
  split_ifs at h with h₁ h₂ h₃ h₄ h₅ h₆ h₇ h₈
  omega

theorem bounded_initial (limits : Limits) : initialState.Bounded limits :=
  ⟨Nat.zero_le _, Nat.zero_le _, Nat.zero_le _, Nat.zero_le _, Nat.zero_le _, fun _ hp => (by cases hp),
    fun _ hp => (by cases hp)⟩

/-- A full table makes room first. -/
theorem length_evictPush_le_capacity {α : Type} {capacity : Nat} (hpos : 0 < capacity) {l : List α}
    (hl : l.length ≤ capacity) (a : α) : (evictPush capacity l a).length ≤ capacity := by
  have hle := length_evictPush_le (l := l) hpos a
  rwa [Nat.max_eq_left hl] at hle

section Moves

variable {T : Trust} {limits : Limits} {s s' : DurableState}

/-- One record is rewritten, within the limits. -/
theorem DurableState.Bounded.update (hs : s.Bounded limits) (id : ParticipantId)
    {f : DurableParticipant → DurableParticipant}
    (hf : ∀ p ∈ s.participants,
      (f p).idempotency.length ≤ limits.maxIdempotencyRecordsPerParticipant ∧
        (f p).fencedBoots.length ≤ limits.maxFencedBootsPerParticipant) :
    (s.updateParticipant id f).Bounded limits where
  participants := by
    have hlength : (s.updateParticipant id f).participants.length = s.participants.length :=
      List.length_map _
    rw [hlength]
    exact hs.participants
  fences := hs.fences
  grants := hs.grants
  transitions := hs.transitions
  control := hs.control
  replays p hp := by
    rcases DurableState.mem_updateParticipant hp with ⟨q, hq, -, rfl⟩ | ⟨hold, -⟩
    · exact (hf q hq).1
    · exact hs.replays p hold
  rings p hp := by
    rcases DurableState.mem_updateParticipant hp with ⟨q, hq, -, rfl⟩ | ⟨hold, -⟩
    · exact (hf q hq).2
    · exact hs.rings p hold

/-- **A move keeps the bounds.** -/
theorem Move.bounded (hviable : isViable limits = true) (h : Move T limits s s')
    (hs : s.Bounded limits) : s'.Bounded limits := by
  obtain ⟨hfences, htransitions, hreplays, hrings⟩ := isViable_retained hviable
  cases h with
  | reorder perm =>
    refine ⟨?_, hs.fences, hs.grants, hs.transitions, hs.control, fun p hp => ?_, fun p hp => ?_⟩
    · rw [← perm.length_eq]
      exact hs.participants
    · exact hs.replays p (perm.mem_iff.mpr hp)
    · exact hs.rings p (perm.mem_iff.mpr hp)
  | bump _ =>
    exact ⟨hs.participants, hs.fences, hs.grants, hs.transitions, hs.control, hs.replays, hs.rings⟩
  | @preventive record _ _ _ _ _ room _ _ _ _ =>
    have hupdated := hs.update record.participant (f := (·.setFenceGeneration record.generation))
      fun p hp => ⟨hs.replays p hp, hs.rings p hp⟩
    refine ⟨hupdated.participants, ?_, hs.grants, hs.transitions, hs.control, hupdated.replays,
      hupdated.rings⟩
    show (s.recentFences ++ [record]).length ≤ _
    rw [List.length_append, List.length_singleton]
    omega
  | @fence record _ _ _ _ _ _ _ =>
    have hupdated := hs.update record.participant
      (f := (·.fence limits record.boot record.incarnation record.generation)) fun p hp => by
        obtain ⟨_, _, _, _, _, hframe⟩ :=
          p.fence_frame limits record.boot record.incarnation record.generation
        rw [hframe]
        exact ⟨hs.replays p hp, length_evictPush_le_capacity hrings (hs.rings p hp) _⟩
    exact ⟨hupdated.participants, length_evictPush_le_capacity hfences hs.fences _, hs.grants,
      hs.transitions, hs.control, hupdated.replays, hupdated.rings⟩
  | @create id policy _ _ room _ =>
    have hall : ∀ p ∈ s.participants ++ [DurableParticipant.fresh id policy],
        p ∈ s.participants ∨ p.idempotency = [] ∧ p.fencedBoots = [] := by
      intro p hp
      rcases List.mem_append.mp hp with hp | hp
      · exact .inl hp
      · rw [List.mem_singleton.mp hp]
        exact .inr ⟨rfl, rfl⟩
    refine ⟨?_, hs.fences, hs.grants, hs.transitions, hs.control, fun p hp => ?_, fun p hp => ?_⟩
    · show (s.participants ++ [_]).length ≤ _
      rw [List.length_append, List.length_singleton]
      omega
    · rcases hall p hp with hp | ⟨hnone, -⟩
      · exact hs.replays p hp
      · rw [hnone]
        exact Nat.zero_le _
    · rcases hall p hp with hp | ⟨-, hnone⟩
      · exact hs.rings p hp
      · rw [hnone]
        exact Nat.zero_le _
  | @register request digest p g next _ _ _ _ _ _ _ _ _ _ _ _ _ _ _ =>
    have hupdated := hs.update request.participant
      (f := (·.register limits request digest g p.nextIncarnation next)) fun q hq => by
        obtain ⟨_, _, _, _, hframe⟩ :=
          q.register_frame limits request digest g p.nextIncarnation next
        rw [hframe]
        exact ⟨length_evictPush_le_capacity hreplays (hs.replays q hq) _, hs.rings q hq⟩
    exact ⟨hupdated.participants, hs.fences, hs.grants, hs.transitions, hs.control, hupdated.replays,
      hupdated.rings⟩
  | @remember id _ record _ _ _ _ =>
    exact hs.update id (f := (·.remember limits record)) fun p hp =>
      ⟨length_evictPush_le_capacity hreplays (hs.replays p hp) _, hs.rings p hp⟩
  | @grant g _ _ _ _ _ _ _ _ _ room _ _ _ _ =>
    refine ⟨hs.participants, hs.fences, ?_, hs.transitions, hs.control, hs.replays, hs.rings⟩
    show (s.grants ++ [g]).length ≤ _
    rw [List.length_append, List.length_singleton]
    omega
  | revoke revises =>
    refine ⟨hs.participants, hs.fences, ?_, hs.transitions, hs.control, hs.replays, hs.rings⟩
    show List.length _ ≤ _
    rw [← revises.length_eq]
    exact hs.grants
  | control _ _ _ _ =>
    exact ⟨hs.participants, hs.fences, hs.grants, hs.transitions,
      length_evictPush_le_capacity hreplays hs.control _, hs.replays, hs.rings⟩
  | @retire id _ _ _ =>
    refine hs.update id (f := (·.retire)) fun p hp => ?_
    obtain ⟨_, hframe⟩ := p.retire_frame
    rw [hframe]
    exact ⟨hs.replays p hp, hs.rings p hp⟩
  | @epoch t invalidate generation _ _ _ _ _ _ =>
    have htable := length_evictPush_le_capacity htransitions hs.transitions t
    cases invalidate with
    | false =>
      exact ⟨hs.participants, hs.fences, hs.grants, htable, hs.control, hs.replays, hs.rings⟩
    | true =>
      refine ⟨?_, hs.fences, hs.grants, htable, hs.control, fun p hp => ?_, fun p hp => ?_⟩
      · show (s.participants.map (·.invalidate)).length ≤ _
        rw [List.length_map]
        exact hs.participants
      · obtain ⟨q, hq, rfl⟩ := List.mem_map.mp hp
        exact hs.replays q hq
      · obtain ⟨q, hq, rfl⟩ := List.mem_map.mp hp
        exact hs.rings q hq

theorem Moves.bounded (hviable : isViable limits = true) (h : Moves T limits s s')
    (hs : s.Bounded limits) : s'.Bounded limits := by
  induction h with
  | refl => exact hs
  | tail _ hm ih => exact hm.bounded hviable ih

end Moves

/-! ## The count of the live incarnations -/

/-- The memory counts the live incarnations of its records. -/
def Impl.Counted (impl : Impl) : Prop := impl.activeWorkers = impl.state.liveCount

theorem Impl.IndexesMatch.counted {impl : Impl} (h : impl.IndexesMatch) : impl.Counted :=
  (congrArg Impl.activeWorkers h).symm

theorem DurableState.liveCount_perm {s : DurableState} {ps : List DurableParticipant}
    (h : s.participants.Perm ps) :
    DurableState.liveCount { s with participants := ps } = s.liveCount :=
  (h.map _).sum_eq.symm

/-- **Where nothing becomes live, the count does not rise**: the live boots, each
with its participant, are among those that were there. -/
theorem DurableState.liveCount_le {s s' : DurableState} (horderly : Orderly s')
    (h : ∀ id boot, s'.Bound id boot → s.Bound id boot) : s'.liveCount ≤ s.liveCount := by
  let live (p : DurableParticipant) := p.liveBoots.map fun boot => (p.id, boot)
  have hcount : ∀ s : DurableState, s.liveCount = (s.participants.flatMap live).length := by
    intro s
    rw [List.length_flatMap]
    refine congrArg List.sum (List.map_congr_left fun p _ => ?_)
    exact (List.length_map _).symm
  have hmem : ∀ (s : DurableState) id boot, (id, boot) ∈ s.participants.flatMap live ↔
      s.Bound id boot := by
    intro s id boot
    rw [List.mem_flatMap]
    constructor
    · rintro ⟨p, hp, hlive⟩
      obtain ⟨b, hb, heq⟩ := List.mem_map.mp hlive
      obtain ⟨rfl, rfl⟩ := Prod.mk.inj heq
      exact ⟨p, hp, rfl, hb⟩
    · rintro ⟨p, hp, rfl, hb⟩
      exact ⟨p, hp, List.mem_map_of_mem hb⟩
  have hnodup : (s'.participants.flatMap live).Nodup := by
    rw [List.nodup_flatMap]
    refine ⟨fun p hp => ?_, ?_⟩
    · exact (horderly.records p hp).boots.map fun _ _ heq => (Prod.mk.inj heq).2
    · refine (List.pairwise_map.mp horderly.ids).imp fun {p q} hne => ?_
      rintro ⟨id, boot⟩ hp hq
      obtain ⟨_, -, hpid⟩ := List.mem_map.mp hp
      obtain ⟨_, -, hqid⟩ := List.mem_map.mp hq
      exact hne ((Prod.mk.inj hpid).1.trans (Prod.mk.inj hqid).1.symm)
  rw [hcount s, hcount s']
  refine (hnodup.subperm ?_).length_le
  rintro ⟨id, boot⟩ hlive
  exact (hmem s id boot).mpr (h id boot ((hmem s' id boot).mp hlive))

/-! ### Fences -/

section Operations

variable {t u : Txn Impl}

/-- A fence takes one live incarnation out. -/
theorem DurableParticipant.length_liveBoots_fence {p : DurableParticipant} (hp : OrderlyRecord p)
    (limits : Limits) {boot : WorkerBootId} {i : IncarnationSequence}
    (hlive : p.findIncarnation boot = some i) (g : FencingGeneration) :
    (p.fence limits boot i g).liveBoots.length + 1 = p.liveBoots.length := by
  have hmem := DurableParticipant.mem_liveBoots_of_find hlive
  have hfenced : (p.fence limits boot i g).liveBoots = p.liveBoots.erase boot := by
    rw [liveBoots_eq, live_fence hp.boots, hp.boots.erase_eq_filter, liveBoots_eq, List.filter_map]
    refine congrArg (List.map Prod.fst) (List.filter_congr fun e _ => ?_)
    by_cases heq : e.1 = boot
    · simp [heq]
    · simp [heq]
  have hpos : 0 < p.liveBoots.length := List.length_pos_of_mem hmem
  rw [hfenced, List.length_erase_of_mem hmem]
  omega

/-- Nothing has happened, or one incarnation is gone. -/
structure Thins (t u : Txn Impl) : Prop where
  regular : u.state.Regular
  counted : t.state.Counted → u.state.Counted
  options : u.state.options = t.state.options
  records : t.state.state.participants.length ≤ u.state.state.participants.length
  cases : u = t ∨ u.state.state.liveCount + 1 = t.state.state.liveCount

theorem Thins.refl (ht : t.state.Regular) : Thins t t := ⟨ht, id, rfl, Nat.le_refl _, .inl rfl⟩

/-- **The fence of an incumbent** and the count. -/
theorem recordFence_thins {id : ParticipantId} {boot : WorkerBootId} {reason : FenceReason}
    {note : BoundedText} {r : FenceResult} (ht : t.state.Regular)
    (h : recordFence id boot reason note false t = .ok r u) : Thins t u := by
  have hadvanced := recordFence_advanced (T := .nothing) ht rfl False.elim False.elim
    (fun hd => (by cases hd)) False.elim h
  rcases recordFence_own h with ⟨p, i, generation, next, record, heq, hfound, hlive, -, hu, -⟩ |
    ⟨rfl, -⟩
  swap
  · exact .refl ht
  subst heq
  rw [ht.applyFence id boot i (t.state.liveRecord id boot i reason note generation) rfl] at hu
  rw [ht.find] at hfound
  obtain ⟨hmem, rfl⟩ := DurableState.mem_of_lookup hfound
  have hsum : u.state.state.liveCount + p.liveBoots.length = t.state.state.liveCount +
      (p.fence t.state.options.limits boot i generation).liveBoots.length := by
    rw [hu]
    exact sum_updateKey ht.orderly.ids hmem
  have hgone := DurableParticipant.length_liveBoots_fence (ht.orderly.records p hmem)
    t.state.options.limits hlive generation
  have hworkers : u.state.activeWorkers = t.state.activeWorkers - 1 := by
    rw [hu]
    rfl
  have hlength : u.state.state.participants.length = t.state.state.participants.length := by
    rw [hu]
    exact List.length_map _
  refine ⟨hadvanced.regular, fun hcounted => ?_, by rw [hu]; rfl, Nat.le_of_eq hlength.symm,
    .inr (by omega)⟩
  unfold Impl.Counted at hcounted ⊢
  omega

/-- A replacement that is refused has fenced nobody. -/
theorem replaceIncumbent_refused {request : RegisterParticipantRequest} {p : DurableParticipant}
    {r : RegistrationResult} (h : replaceIncumbent request p t = .ok (some r) u) :
    u = t ∧ r.outcome = .conflictingIncarnation := by
  unfold replaceIncumbent at h
  cases hincumbent : p.incumbent with
  | none =>
    simp only [hincumbent] at h
    cases h
  | some incumbent =>
    simp only [hincumbent] at h
    by_cases hpolicy : p.policy = .singleIncarnation
    swap
    · rw [if_neg hpolicy] at h
      cases h
    rw [if_pos hpolicy, Action.bind_current] at h
    cases hreplace : t.state.options.replacementPolicy with
    | requireExplicitFence =>
      simp only [hreplace] at h
      cases h
      exact ⟨rfl, rfl⟩
    | replaceIncumbent =>
      simp only [hreplace] at h
      obtain ⟨fence, t₁, hfence, h⟩ := Action.bind_ok.mp h
      by_cases hrefused : fence.outcome ≠ .fenced ∧ fence.outcome ≠ .alreadyFenced
      swap
      · rw [if_neg hrefused] at h
        cases h
      rw [if_pos hrefused] at h
      cases h
      refine ⟨?_, rfl⟩
      cases recordFence_cases hfence with
      | unknown _ _ => rfl
      | already _ outcome => exact absurd outcome hrefused.2
      | notLive _ _ outcome => exact absurd outcome hrefused.2
      | full _ _ => rfl
      | preventive _ _ _ _ _ _ _ _ outcome => exact absurd outcome hrefused.1
      | live _ _ _ _ _ outcome => exact absurd outcome hrefused.1

theorem replaceIncumbent_thins {request : RegisterParticipantRequest} {p : DurableParticipant}
    {refusal : Option RegistrationResult} (ht : t.state.Regular)
    (h : replaceIncumbent request p t = .ok refusal u) : Thins t u := by
  rcases replaceIncumbent_fences h with ⟨boot, r, -, hfence⟩ | ⟨rfl, -⟩
  · exact recordFence_thins ht hfence
  · exact .refl ht

end Operations

/-! ### Refusals -/

/-- The explanation names the limit. -/
def Explanation.NamesLimit (e : Explanation) (limit : String) : Prop :=
  (str "limit", str limit) ∈ e.details

instance (e : Explanation) (limit : String) : Decidable (e.NamesLimit limit) :=
  inferInstanceAs (Decidable (_ ∈ e.details))

theorem Explanation.namesLimit_ofCode (code : ExplanationCode) (limit : String) :
    ¬ (ofCode code).NamesLimit limit :=
  List.not_mem_nil

theorem Explanation.namesLimit_withDetail (e : Explanation) (key : String) (value : Text)
    (limit : String) : (e.withDetail key value).NamesLimit limit ↔
      e.NamesLimit limit ∨ str "limit" = str key ∧ str limit = value := by
  unfold NamesLimit
  rw [mem_details_withDetail, Prod.mk.injEq]

/-- The keys of the details that stand beside a limit, and the other limits. -/
theorem limit_texts : str "limit" ≠ str "requested" ∧ str "limit" ≠ str "current" ∧
    str "limit" ≠ str "attempt" ∧ str "limit" ≠ str "outcome" ∧
    str "limit" ≠ str "registration_generation" ∧ str "limit" ≠ str "grant" ∧
    str "max_participants" ≠ str "max_scopes_per_grant" ∧
    str "max_active_workers" ≠ str "max_scopes_per_grant" ∧
    str "max_authority_grants" ≠ str "max_scopes_per_grant" ∧
    str "max_participants" ≠ str "max_active_workers" ∧
    str "max_active_workers" ≠ str "max_participants" := by
  decide +kernel

/-- The registration is refused for want of what the limit bounds. -/
def RegistrationResult.Exhausts (r : RegistrationResult) (limit : String) : Prop :=
  r.outcome = .resourceLimit ∧ r.explanation.NamesLimit limit

/-- The registration is not refused for want of room. -/
def RegistrationResult.HasRoom (r : RegistrationResult) : Prop :=
  ¬ r.Exhausts "max_participants" ∧ ¬ r.Exhausts "max_active_workers"

theorem RegistrationResult.HasRoom.of_outcome {r : RegistrationResult}
    (h : r.outcome ≠ .resourceLimit) : r.HasRoom :=
  ⟨fun hexhausts => h hexhausts.1, fun hexhausts => h hexhausts.1⟩

section Answers

variable {impl : Impl} {request : RegisterParticipantRequest} {r : RegistrationResult}

theorem malformedRegistration_room (h : impl.malformedRegistration request = some r) :
    r.HasRoom := by
  obtain ⟨hrequested, -, -, -, -, -, hparticipants, hworkers, -⟩ := limit_texts
  simp only [Impl.malformedRegistration] at h
  repeat' split at h
  all_goals
    cases h
    try (refine .of_outcome fun hout => ?_; cases hout; done)
  -- only the scopes are counted here
  constructor
  · rintro ⟨-, hnames⟩
    simp only [Impl.registrationResult, Explanation.namesLimit_withDetail,
      Explanation.namesLimit_ofCode, hrequested, hparticipants, false_or, false_and, and_false,
      or_false] at hnames
  · rintro ⟨-, hnames⟩
    simp only [Impl.registrationResult, Explanation.namesLimit_withDetail,
      Explanation.namesLimit_ofCode, hrequested, hworkers, false_or, false_and, and_false,
      or_false] at hnames

theorem staleRegistration_room (h : impl.staleRegistration request = some r) : r.HasRoom := by
  refine .of_outcome fun hout => ?_
  simp only [Impl.staleRegistration] at h
  repeat' split at h
  all_goals
    cases h
    try cases hout

theorem conflictingRegistration_room {p : DurableParticipant} {digest : SnapshotDigest}
    (h : impl.conflictingRegistration p request digest = some r) : r.HasRoom := by
  obtain ⟨-, -, hattempt, houtcome, hgeneration, -⟩ := limit_texts
  have hincarnation : ∀ {r}, Impl.conflictingRegistration.conflictingIncarnation impl p request =
      some r → r.HasRoom := by
    intro r h
    refine .of_outcome fun hout => ?_
    unfold Impl.conflictingRegistration.conflictingIncarnation at h
    repeat' split at h
    all_goals
      cases h
      try cases hout
  unfold Impl.conflictingRegistration at h
  split at h
  · next previous _ =>
    cases h
    by_cases hsemantic : previous.semantic = digest
    swap
    · rw [Impl.replayedRegistration, if_pos hsemantic]
      exact .of_outcome fun hout => (by cases hout)
    -- a replay tells of no limit
    rw [Impl.replayedRegistration, if_neg (not_not.mpr hsemantic)]
    constructor
    · rintro ⟨-, hnames⟩
      simp only [Impl.registrationResult, Explanation.namesLimit_withDetail,
        Explanation.namesLimit_ofCode, hattempt, houtcome, hgeneration, false_or, false_and] at hnames
    · rintro ⟨-, hnames⟩
      simp only [Impl.registrationResult, Explanation.namesLimit_withDetail,
        Explanation.namesLimit_ofCode, hattempt, houtcome, hgeneration, false_or, false_and] at hnames
  · split at h
    · split at h
      · cases h
        exact .of_outcome fun hout => (by cases hout)
      · exact hincarnation h
    · exact hincarnation h

end Answers

section Registrations

variable {t u : Txn Impl} {request : RegisterParticipantRequest} {c : Bool} {r : RegistrationResult}

/-- **How a registration gets to its last check**: it is answered in front of it and
has changed nothing, or the last check is asked, an incumbent out of the way. -/
inductive RoomCase (request : RegisterParticipantRequest) (c : Bool) (t : Txn Impl) :
    RegistrationResult → Txn Impl → Prop
  | answered {r : RegistrationResult} (room : r.HasRoom) : RoomCase request c t r t
  | crowded {r : RegistrationResult}
      (full : t.state.options.limits.maxParticipants ≤ t.state.state.participants.length)
      (workers : ¬ r.Exhausts "max_active_workers") : RoomCase request c t r t
  | asked {digest : SnapshotDigest} {t' u : Txn Impl} {r : RegistrationResult} (thins : Thins t t')
      (asks : admitRegistration request digest (t'.state.findParticipant request.participant) c t' =
        .ok r u) : RoomCase request c t r u

theorem applyRegistration_room (ht : t.state.Regular)
    (h : applyRegistration request c t = .ok r u) : RoomCase request c t r u := by
  unfold applyRegistration at h
  rw [Action.bind_current] at h
  cases hmalformed : t.state.malformedRegistration request with
  | some result =>
    simp only [hmalformed] at h
    cases h
    exact .answered (malformedRegistration_room hmalformed)
  | none =>
  cases hstale : t.state.staleRegistration request with
  | some result =>
    simp only [hmalformed, hstale] at h
    cases h
    exact .answered (staleRegistration_room hstale)
  | none =>
  simp only [hmalformed, hstale] at h
  obtain ⟨digest, t', hdigest, h⟩ := Action.bind_ok.mp h
  obtain ⟨-, rfl⟩ := Action.ofExcept_ok.mp hdigest
  cases hfound : t'.state.findParticipant request.participant with
  | none =>
    simp only [hfound] at h
    unfold registerNew at h
    rw [Action.bind_current] at h
    by_cases hfull : t'.state.state.participants.length ≥ t'.state.options.limits.maxParticipants
    · rw [if_pos hfull] at h
      cases h
      refine .crowded hfull ?_
      obtain ⟨-, hcurrent, -, -, -, -, -, -, -, -, hworkers⟩ := limit_texts
      rintro ⟨-, hnames⟩
      simp only [Impl.registrationResult, Explanation.namesLimit_withDetail,
        Explanation.namesLimit_ofCode, hcurrent, hworkers, false_or, false_and, and_false] at hnames
    · rw [if_neg hfull] at h
      exact .asked (.refl ht) (hfound ▸ h)
  | some p =>
    simp only [hfound] at h
    cases hconflict : t'.state.conflictingRegistration p request digest with
    | some result =>
      simp only [hconflict] at h
      cases h
      exact .answered (conflictingRegistration_room hconflict)
    | none =>
      simp only [hconflict] at h
      obtain ⟨refusal, t₁, hreplace, h⟩ := Action.bind_ok.mp h
      cases refusal with
      | some result =>
        cases h
        obtain ⟨rfl, hout⟩ := replaceIncumbent_refused hreplace
        refine .answered (.of_outcome fun hlimit => ?_)
        rw [hout] at hlimit
        cases hlimit
      | none =>
        dsimp only at h
        rw [Action.bind_current] at h
        cases hagain : t₁.state.findParticipant request.participant with
        | none =>
          simp only [hagain] at h
          cases h
        | some q =>
          simp only [hagain] at h
          exact .asked (replaceIncumbent_thins ht hreplace) (hagain ▸ h)

/-- What a registration leaves of the count, and of the number of the records. -/
structure Counts (t u : Txn Impl) : Prop where
  counted : u.state.Counted
  options : u.state.options = t.state.options
  workers : t.state.state.liveCount ≤ u.state.state.liveCount
  bounded : u.state.state.liveCount ≤ t.state.options.limits.maxActiveWorkers
  participants : t.state.state.participants.length ≤ u.state.state.participants.length

/-- What a refusal for want of room tells of the memory behind it. -/
structure RegistrationResult.Honest (r : RegistrationResult) (limits : Limits) (s : DurableState) :
    Prop where
  participants : r.Exhausts "max_participants" → limits.maxParticipants ≤ s.participants.length
  workers : r.Exhausts "max_active_workers" → limits.maxActiveWorkers ≤ s.liveCount

theorem RegistrationResult.HasRoom.honest (h : r.HasRoom) (limits : Limits) (s : DurableState) :
    r.Honest limits s :=
  ⟨fun hexhausts => absurd hexhausts h.1, fun hexhausts => absurd hexhausts h.2⟩

theorem length_enrolled (f : DurableParticipant → DurableParticipant)
    (ps : List DurableParticipant) : ps.length ≤ (enrolled request f ps).length := by
  unfold enrolled
  split
  · exact Nat.le_of_eq (List.length_map _).symm
  · rw [List.length_append]
    omega

/-- **One registration** keeps the count right and below its limit, takes nothing
away from it on the whole, and is refused for want of room only where there is none. -/
theorem applyRegistration_counts (ht : t.state.Regular) (hcounted : t.state.Counted)
    (hbound : t.state.state.liveCount ≤ t.state.options.limits.maxActiveWorkers)
    (h : applyRegistration request c t = .ok r u) :
    Counts t u ∧ r.Honest t.state.options.limits u.state.state := by
  have hsame : Counts t t := ⟨hcounted, rfl, Nat.le_refl _, hbound, Nat.le_refl _⟩
  cases applyRegistration_room ht h with
  | answered room => exact ⟨hsame, room.honest _ _⟩
  | crowded full workers => exact ⟨hsame, fun _ => full, fun hexhausts => absurd hexhausts workers⟩
  | @asked digest t' _ _ thins asks =>
    have hcounted' := thins.counted hcounted
    have hworkers : t'.state.activeWorkers = t'.state.state.liveCount := hcounted'
    unfold admitRegistration at asks
    rw [Action.bind_current] at asks
    by_cases hfull : t'.state.activeWorkers ≥ t'.state.options.limits.maxActiveWorkers
    · rw [if_pos hfull] at asks
      obtain ⟨rfl, rfl⟩ := Action.pure_ok.mp asks
      -- behind the fence of an incumbent there would be room
      have hidle : u = t := by
        rcases thins.cases with hidle | hgone
        · exact hidle
        · rw [thins.options] at hfull
          omega
      rw [hidle] at hfull hworkers ⊢
      refine ⟨hsame, fun hexhausts => ?_, fun _ => by omega⟩
      obtain ⟨-, hcurrent, -, -, -, -, -, -, -, hparticipants, -⟩ := limit_texts
      obtain ⟨-, hnames⟩ := hexhausts
      simp only [Impl.registrationResult, Explanation.namesLimit_withDetail,
        Explanation.namesLimit_ofCode, hcurrent, hparticipants, false_or, false_and,
        and_false] at hnames
    · rw [if_neg hfull] at asks
      have hout := commitRegistration_registered asks
      obtain ⟨p, g, next, generation, -, -, -, henrols, -⟩ :=
        commitRegistration_enrols thins.regular.index thins.regular.orderly.ids asks
      have hsum : u.state.state.liveCount = t'.state.state.liveCount + 1 := by
        rw [henrols.state]
        exact sum_enrolled (fun q => q.length_liveBoots_register _ _ _ _ _ _)
          thins.regular.orderly.ids
      have hone := henrols.workers
      have hoptions := thins.options
      rw [hoptions] at hfull
      refine ⟨⟨?_, henrols.options.trans hoptions, ?_, by omega, ?_⟩,
        (RegistrationResult.HasRoom.of_outcome fun hlimit => ?_).honest _ _⟩
      · unfold Impl.Counted
        omega
      · rcases thins.cases with hidle | hgone
        · rw [hidle] at hsum
          omega
        · omega
      · have hlength : t'.state.state.participants.length ≤ u.state.state.participants.length := by
          rw [henrols.state]
          exact length_enrolled _ _
        exact Nat.le_trans thins.records hlength
      · rw [hout] at hlimit
        cases hlimit

theorem Counts.refl (hcounted : t.state.Counted)
    (hbound : t.state.state.liveCount ≤ t.state.options.limits.maxActiveWorkers) : Counts t t :=
  ⟨hcounted, rfl, Nat.le_refl _, hbound, Nat.le_refl _⟩

theorem Counts.trans {v : Txn Impl} (h₁ : Counts t u) (h₂ : Counts u v) : Counts t v where
  counted := h₂.counted
  options := h₂.options.trans h₁.options
  workers := Nat.le_trans h₁.workers h₂.workers
  bounded := h₁.options ▸ h₂.bounded
  participants := Nat.le_trans h₁.participants h₂.participants

/-- What a refusal told stays true while nothing is taken away. -/
theorem RegistrationResult.Honest.mono {limits : Limits} {s s' : DurableState}
    (h : r.Honest limits s) (hparticipants : s.participants.length ≤ s'.participants.length)
    (hworkers : s.liveCount ≤ s'.liveCount) : r.Honest limits s' :=
  ⟨fun hexhausts => Nat.le_trans (h.participants hexhausts) hparticipants,
    fun hexhausts => Nat.le_trans (h.workers hexhausts) hworkers⟩

/-- **A batch**, element by element. -/
theorem applyRegistrations_counts {requests : List RegisterParticipantRequest}
    {rs : List RegistrationResult} (ht : t.state.Regular) (hcounted : t.state.Counted)
    (hbound : t.state.state.liveCount ≤ t.state.options.limits.maxActiveWorkers)
    (h : applyRegistrations requests t = .ok rs u) :
    Counts t u ∧ ∀ r ∈ rs, r.Honest t.state.options.limits u.state.state := by
  induction requests generalizing t rs with
  | nil =>
    obtain ⟨rfl, rfl⟩ := Action.pure_ok.mp h
    exact ⟨.refl hcounted hbound, fun _ hr => (by cases hr)⟩
  | cons request requests ih =>
    obtain ⟨r, t', hfirst, h⟩ := Action.bind_ok.mp h
    obtain ⟨rs', u', hrest, h⟩ := Action.bind_ok.mp h
    obtain ⟨rfl, rfl⟩ := Action.pure_ok.mp h
    have hadvanced := applyRegistration_advanced (T := .nothing) ht rfl False.elim False.elim
      False.elim False.elim hfirst
    obtain ⟨hcounts, hhonest⟩ := applyRegistration_counts ht hcounted hbound hfirst
    obtain ⟨hothers, hall⟩ := ih hadvanced.regular hcounts.counted
      (hcounts.options ▸ hcounts.bounded) hrest
    rw [hcounts.options] at hall
    refine ⟨hcounts.trans hothers, fun r' hr' => ?_⟩
    rcases List.mem_cons.mp hr' with rfl | hr'
    · exact hhonest.mono hothers.participants hothers.workers
    · exact hall r' hr'

theorem registerBatch_counts {requests : List RegisterParticipantRequest}
    {rs : List RegistrationResult} (ht : t.state.Regular) (hcounted : t.state.Counted)
    (hbound : t.state.state.liveCount ≤ t.state.options.limits.maxActiveWorkers)
    (h : registerBatch requests t = .ok rs u) :
    Counts t u ∧ ∀ r ∈ rs, r.Honest t.state.options.limits u.state.state := by
  obtain ⟨rs', t', hall, h⟩ := Action.bind_ok.mp h
  rw [Action.bind_hasMutated] at h
  obtain ⟨⟨⟩, u', hbump, h⟩ := Action.bind_ok.mp h
  obtain ⟨rfl, rfl⟩ := Action.pure_ok.mp h
  obtain ⟨hcounts, hhonest⟩ := applyRegistrations_counts ht hcounted hbound hall
  rcases bumpWhen_ok hbump with ⟨-, rfl⟩ | ⟨g, -, rfl⟩
  · exact ⟨hcounts, hhonest⟩
  · refine ⟨⟨hcounts.counted, hcounts.options, hcounts.workers, hcounts.bounded,
      hcounts.participants⟩, fun r hr => ?_⟩
    exact (hhonest r hr).mono (Nat.le_refl _) (Nat.le_refl _)

/-- What does not depend on the order of the records holds behind the barrier. -/
theorem transact_unordered {α : Type} {op : Op α} {fault : Option SaveFault} {disk : Disk}
    {impl : Impl} {a : α} {P : DurableState → Prop}
    (hP : ∀ {s : DurableState} {ps}, s.participants.Perm ps → P s → P { s with participants := ps })
    (hadvanced : ∀ t, op (Txn.start impl) = .ok a t →
      Advanced .nothing impl.options.limits (Txn.start impl) t)
    (hop : ∀ t, op (Txn.start impl) = .ok a t → P t.state.state)
    (h : (transact op fault disk impl).result = .ok a) :
    P (transact op fault disk impl).impl.state := by
  obtain ⟨t, ps, ht, hperm, hstate⟩ := transact_state hadvanced h
  rw [hstate]
  exact hP hperm (hop t ht)

/-- The count, and what the refusals told, do not depend on the order. -/
theorem honest_perm {limits : Limits} {rs : List RegistrationResult} {s : DurableState}
    {ps : List DurableParticipant} (hperm : s.participants.Perm ps)
    (h : s.liveCount ≤ limits.maxActiveWorkers ∧ ∀ r ∈ rs, r.Honest limits s) :
    DurableState.liveCount { s with participants := ps } ≤ limits.maxActiveWorkers ∧
      ∀ r ∈ rs, r.Honest limits { s with participants := ps } := by
  have hcount := DurableState.liveCount_perm hperm
  refine ⟨hcount ▸ h.1, fun r hr => (h.2 r hr).mono ?_ (Nat.le_of_eq hcount.symm)⟩
  exact Nat.le_of_eq hperm.length_eq

end Registrations

/-! ## Runs within the limits -/

/-- The registrations that a reply answers. -/
def Reply.registrations : Reply → List RegistrationResult
  | .registered r => [r]
  | .registeredBatch rs => rs
  | _ => []

/-- The opening asks for these limits. -/
def Input.Within (limits : Limits) : Input → Prop
  | .open opening _ => opening.options.limits = limits
  | .call .. => True

instance (limits : Limits) : (input : Input) → Decidable (input.Within limits)
  | .open opening _ => inferInstanceAs (Decidable (opening.options.limits = limits))
  | .call .. => .isTrue trivial

/-- The step does not throw, and no other limits are asked for. -/
def Limited (limits : Limits) (host : Host) (input : Input) : Prop :=
  Quietly host input ∧ input.Within limits

instance (limits : Limits) (host : Host) (input : Input) : Decidable (Limited limits host input) :=
  inferInstanceAs (Decidable (_ ∧ _))

section Runs

variable {limits : Limits} {host : Host} {impl impl' : Impl}

/-- **The moves of a quiet step**, under the limits of the run. -/
theorem limitedStep_moves (hreach : coordinator.Reaches Quietly host)
    (hlimits : ∀ impl ∈ host.runtime, impl.options.limits = limits) {input : Input}
    (h : Limited limits host input) (himpl' : (coordinator.step host input).1.runtime = some impl') :
    impl'.options.limits = limits ∧ Moves .nothing limits host.state impl'.state := by
  obtain ⟨hquiet, hwithin⟩ := h
  cases input with
  | «open» opening fault =>
    cases hr : (openRuntime opening fault host.disk).2.2 with
    | error e => exact absurd (congrArg some hr) (hquiet e)
    | ok reply =>
      obtain ⟨opened, state, boot, hopened, hload, hprogress, -⟩ :=
        openRuntime_progress (T := .nothing) (fun state hload =>
          ⟨((quietRun_kept hreach).disk.load hload).1.orderly, False.elim, False.elim⟩) hr
      obtain rfl : opened = impl' := Option.some.inj (hopened.symm.trans himpl')
      have hsame : (opening.impl state boot).options.limits = limits := hwithin
      have hmoves := hprogress.moves
      rw [hsame] at hmoves
      rw [← quietRun_loads hreach hload]
      exact ⟨(congrArg EpochRuntimeOptions.limits hprogress.options).trans hsame, hmoves⟩
  | call call entropy fault =>
    cases hruntime : host.runtime with
    | none =>
      rw [coordinator_idle hruntime, hruntime] at himpl'
      cases himpl'
    | some impl =>
      obtain ⟨hsettled, -⟩ := (quietRun_kept hreach).memory impl hruntime
      have hstep := coordinator_call hruntime call entropy fault
      rw [hstep] at himpl'
      obtain rfl := Option.some.inj himpl'
      cases hr : (callRuntime call entropy fault host.disk impl).result with
      | error e => exact absurd (by rw [hstep, hr]) (hquiet e)
      | ok reply =>
        have hprogress := callRuntime_progress (T := .nothing) id hsettled False.elim
          (Input.sound_nothing host (.call call entropy fault) impl hruntime) hr
        have hmoves := hprogress.moves
        have hsame := hlimits impl hruntime
        rw [hsame] at hmoves
        rw [Host.state_of_some hruntime]
        exact ⟨(congrArg EpochRuntimeOptions.limits hprogress.options).trans hsame, hmoves⟩

/-- An opening makes nothing live. -/
theorem openRuntime_liveCount (hreach : coordinator.Reaches Quietly host) {opening : Opening}
    {fault : Option SaveFault} (hquiet : Quietly host (.open opening fault))
    (himpl' : (coordinator.step host (.open opening fault)).1.runtime = some impl') :
    impl'.state.liveCount ≤ host.state.liveCount := by
  cases hruntime : host.runtime with
  | some impl =>
    rw [Host.state_of_some hruntime]
    have horderly := ((quietRun_kept (hreach.tail _ hquiet)).memory impl' himpl').2.1.orderly
    refine DurableState.liveCount_le horderly fun id boot hbound => ?_
    rcases step_brought (brought_bound id boot) hreach hruntime hquiet himpl' hbound with
      hbefore | ⟨_, hmem, -⟩
    · exact hbefore
    · cases hmem
  | none =>
    -- the first opening finds no record, and makes none
    have hobeys : (unissued initialState).Obeys impl' := by
      refine openRuntime_keeps (fun state hload => ?_) (fun _ _ => trivial) himpl'
      rw [quietRun_closed hreach hruntime] at hload
      cases hload
      exact ⟨fun _ hp => (by cases hp), fun _ _ => trivial, fun _ _ => trivial, fun _ _ => trivial⟩
    have hnone : impl'.state.participants = [] := by
      refine List.eq_nil_iff_forall_not_mem.mpr fun p hp => ?_
      obtain ⟨q, hq, -⟩ := hobeys.participants p hp
      cases hq
    unfold DurableState.liveCount
    rw [hnone]
    exact Nat.zero_le _

/-- **One call** keeps the count of the live incarnations below its limit, and its
refusals of registrations are honest. -/
theorem callRuntime_counts (hreach : coordinator.Reaches Quietly host)
    (himpl : host.runtime = some impl) (hlimits : impl.options.limits = limits)
    (hbound : impl.state.liveCount ≤ limits.maxActiveWorkers) {call : Call} {entropy : Entropy}
    {fault : Option SaveFault} {reply : Reply}
    (h : (callRuntime call entropy fault host.disk impl).result = .ok reply) :
    (callRuntime call entropy fault host.disk impl).impl.state.liveCount ≤ limits.maxActiveWorkers ∧
      ∀ r ∈ reply.registrations,
        r.Honest limits (callRuntime call entropy fault host.disk impl).impl.state := by
  obtain ⟨hsettled, -⟩ := (quietRun_kept hreach).memory impl himpl
  have hcounted : impl.Counted := (quietRun_matching hreach himpl).counted
  have hstep := coordinator_call himpl call entropy fault
  have hquiet : Quietly host (.call call entropy fault) := by
    intro e he
    rw [hstep, h] at he
    cases he
  have himpl' : (coordinator.step host (.call call entropy fault)).1.runtime =
      some (callRuntime call entropy fault host.disk impl).impl := by
    rw [hstep]
  -- a call that registers nobody makes nothing live
  have hother : acceptedBy (.call call entropy fault) (some (.ok reply)) = [] →
      (callRuntime call entropy fault host.disk impl).impl.state.liveCount ≤
        limits.maxActiveWorkers := by
    intro hnone
    have horderly := ((quietRun_kept (hreach.tail _ hquiet)).memory _ himpl').2.1.orderly
    refine Nat.le_trans (DurableState.liveCount_le horderly fun id boot hlive => ?_) hbound
    rcases step_brought (brought_bound id boot) hreach himpl hquiet himpl' hlive with
      hbefore | ⟨_, hmem, -⟩
    · exact hbefore
    · rw [hstep, h, hnone] at hmem
      cases hmem
  subst hlimits
  cases call with
  | register request =>
    obtain ⟨r, hresult, rfl⟩ := Transacted.map_ok h
    refine transact_unordered (P := fun s => s.liveCount ≤ impl.options.limits.maxActiveWorkers ∧
      ∀ r' ∈ [r], r'.Honest impl.options.limits s) honest_perm (fun t ht =>
        applyRegistration_advanced hsettled.regular rfl False.elim False.elim False.elim False.elim ht)
      (fun t ht => ?_) hresult
    obtain ⟨hcounts, hhonest⟩ := applyRegistration_counts hsettled.regular hcounted hbound ht
    exact ⟨hcounts.bounded, fun r' hr' => List.mem_singleton.mp hr' ▸ hhonest⟩
  | registerBatch requests =>
    obtain ⟨rs, hresult, rfl⟩ := Transacted.map_ok h
    refine transact_unordered (P := fun s => s.liveCount ≤ impl.options.limits.maxActiveWorkers ∧
      ∀ r' ∈ rs, r'.Honest impl.options.limits s) honest_perm (fun t ht =>
        registerBatch_advanced hsettled.regular rfl rfl False.elim False.elim False.elim False.elim ht)
      (fun t ht => ?_) hresult
    obtain ⟨hcounts, hhonest⟩ := registerBatch_counts hsettled.regular hcounted hbound ht
    exact ⟨hcounts.bounded, hhonest⟩
  | fence request =>
    obtain ⟨_, -, rfl⟩ := Transacted.map_ok h
    exact ⟨hother rfl, fun _ hr => (by cases hr)⟩
  | grant request =>
    obtain ⟨_, -, rfl⟩ := Transacted.map_ok h
    exact ⟨hother rfl, fun _ hr => (by cases hr)⟩
  | revoke request =>
    obtain ⟨_, -, rfl⟩ := Transacted.map_ok h
    exact ⟨hother rfl, fun _ hr => (by cases hr)⟩
  | advance request =>
    obtain ⟨_, -, rfl⟩ := Transacted.map_ok h
    exact ⟨hother rfl, fun _ hr => (by cases hr)⟩
  | retire request =>
    obtain ⟨_, -, rfl⟩ := Transacted.map_ok h
    exact ⟨hother rfl, fun _ hr => (by cases hr)⟩
  | close session reason =>
    obtain ⟨_, -, rfl⟩ := Transacted.map_ok h
    exact ⟨hother rfl, fun _ hr => (by cases hr)⟩
  | bind binding =>
    have hbound : reply.registrations = [] := by
      rw [callRuntime] at h
      cases hr : impl.bindSession binding with
      | error e =>
        rw [hr] at h
        cases h
      | ok bound =>
        rw [hr] at h
        cases h
        rfl
    rw [hbound]
    exact ⟨hother rfl, fun _ hr => (by cases hr)⟩
  | flush =>
    have hflushed : reply.registrations = [] := by
      simp only [callRuntime] at h
      split at h
      · cases h
      · cases h
        rfl
    rw [hflushed]
    exact ⟨hother rfl, fun _ hr => (by cases hr)⟩

/-- No call binds a session above the limit. -/
theorem callRuntime_sessionRoom (h : impl.sessionIndex.length ≤ impl.options.limits.maxSessions)
    (call : Call) (entropy : Entropy) (fault : Option SaveFault) (disk : Disk) :
    (callRuntime call entropy fault disk impl).impl.sessionIndex.length ≤
      impl.options.limits.maxSessions := by
  show (callRuntime call entropy fault disk impl).impl.tables.sessions.length ≤ _
  by_cases hbind : ∃ binding, call = .bind binding
  · obtain ⟨binding, rfl⟩ := hbind
    rcases @bindSession_tables impl binding entropy fault disk with ⟨-, hroom, -, htables⟩ | ⟨-, htables⟩
    · rw [htables]
      show (impl.sessionIndex.filter _ ++ [binding]).length ≤ _
      have hkept := List.length_filter_le (fun s : SessionBinding => s.id ≠ binding.id)
        impl.sessionIndex
      rw [List.length_append, List.length_singleton]
      omega
    · rw [htables]
      exact h
  by_cases hclose : ∃ session reason, call = .close session reason
  · obtain ⟨session, reason, rfl⟩ := hclose
    show (closeSession session reason fault disk impl).impl.tables.sessions.length ≤ _
    rcases closeSession_tables session reason fault disk impl with ⟨-, htables⟩ |
      ⟨binding, -, htables⟩
    · rw [htables]
      exact h
    · rw [htables]
      exact (List.length_filter_le _ _).trans h
  · rw [callRuntime_tables (fun binding heq => hbind ⟨binding, heq⟩)
      (fun session reason heq => hclose ⟨session, reason, heq⟩)]
    exact h

/-- What a run under the limits keeps. -/
def Host.KeepsLimits (limits : Limits) (host : Host) : Prop :=
  ∀ impl ∈ host.runtime, impl.options.limits = limits ∧ impl.WithinLimits limits

theorem Host.KeepsLimits.state (h : host.KeepsLimits limits) :
    host.state.Bounded limits ∧ host.state.liveCount ≤ limits.maxActiveWorkers := by
  cases hruntime : host.runtime with
  | none =>
    have hinitial : host.state = initialState := by
      unfold Host.state
      rw [hruntime]
      rfl
    rw [hinitial]
    exact ⟨bounded_initial limits, Nat.zero_le _⟩
  | some impl =>
    rw [Host.state_of_some hruntime]
    obtain ⟨-, hwithin⟩ := h impl hruntime
    exact ⟨hwithin.bounded, hwithin.workers⟩

/-- **One step keeps the limits.** -/
theorem limitedStep_keeps (hviable : isViable limits = true)
    (hreach : coordinator.Reaches Quietly host) (hkeeps : host.KeepsLimits limits) {input : Input}
    (h : Limited limits host input) : (coordinator.step host input).1.KeepsLimits limits := by
  intro impl' himpl'
  obtain ⟨hlimits, hmoves⟩ := limitedStep_moves hreach (fun impl himpl => (hkeeps impl himpl).1) h
    himpl'
  have hbounded := hmoves.bounded hviable hkeeps.state.1
  refine ⟨hlimits, ?_⟩
  cases input with
  | «open» opening fault =>
    have hties := (openRuntime_ties himpl').bounded
    refine ⟨hbounded, (openRuntime_liveCount hreach h.1 himpl').trans hkeeps.state.2, ?_⟩
    rw [← hlimits]
    exact hties
  | call call entropy fault =>
    cases hruntime : host.runtime with
    | none =>
      rw [coordinator_idle hruntime, hruntime] at himpl'
      cases himpl'
    | some impl =>
      obtain ⟨hsame, hwithin⟩ := hkeeps impl hruntime
      have hstep := coordinator_call hruntime call entropy fault
      have hreply : ∃ reply, (callRuntime call entropy fault host.disk impl).result = .ok reply := by
        cases hr : (callRuntime call entropy fault host.disk impl).result with
        | error e => exact absurd (by rw [hstep, hr]) (h.1 e)
        | ok reply => exact ⟨reply, rfl⟩
      obtain ⟨reply, hreply⟩ := hreply
      rw [hstep] at himpl'
      obtain rfl := Option.some.inj himpl'
      have hsessions := callRuntime_sessionRoom (hsame ▸ hwithin.sessions) call entropy fault host.disk
      rw [hsame] at hsessions
      exact ⟨hbounded, (callRuntime_counts hreach hruntime hsame hwithin.workers hreply).1, hsessions⟩

/-- **Every state of a run keeps the limits.** -/
theorem limited_within (hviable : isViable limits = true)
    (h : coordinator.Reaches (Limited limits) host) :
    coordinator.Reaches Quietly host ∧ host.KeepsLimits limits := by
  have hreach : coordinator.Reaches Quietly host := Machine.Leads.mono (fun _ _ hok => hok.1) h
  refine ⟨hreach, ?_⟩
  exact Machine.Leads.invariant_of (I := coordinator.Reaches Quietly)
    (J := fun host => host.KeepsLimits limits) (fun _ i hs hok => hs.tail i hok.1)
    (fun _ _ hs hkeeps hok => limitedStep_keeps hviable hs hkeeps hok) h .refl
    (fun _ himpl => (by cases himpl))

end Runs

/-! ## Grants -/

/-- The grant counts for something: it is not revoked, and of the current epoch. -/
def DurableState.Usable (s : DurableState) (g : AuthorityGrant) : Prop :=
  g.revoked = false ∧ g.epoch = s.currentEpoch

instance (s : DurableState) (g : AuthorityGrant) : Decidable (s.Usable g) :=
  inferInstanceAs (Decidable (_ ∧ _))

/-- The number of usable grants. -/
def DurableState.usableGrants (s : DurableState) : Nat := s.grants.countP fun g => s.Usable g

/-- In a full table, either all the grants are usable or there are too few. -/
theorem DurableState.usableGrants_full {s : DurableState} {limit : Nat} (hfull : limit = s.grants.length) :
    limit ≤ s.usableGrants ↔ ∀ g ∈ s.grants, s.Usable g := by
  have hle : s.usableGrants ≤ s.grants.length := List.countP_le_length
  have hall : s.usableGrants = s.grants.length ↔ ∀ g ∈ s.grants, s.Usable g := by
    unfold usableGrants
    rw [List.countP_eq_length]
    simp only [decide_eq_true_eq]
  rw [← hall, hfull]
  exact ⟨fun hge => Nat.le_antisymm hle hge, fun heq => Nat.le_of_eq heq.symm⟩

/-- The grant is refused for want of what the limit bounds. -/
def GrantResult.Exhausts (r : GrantResult) (limit : String) : Prop :=
  r.outcome = .resourceLimit ∧ r.explanation.NamesLimit limit

instance (r : GrantResult) (limit : String) : Decidable (r.Exhausts limit) :=
  inferInstanceAs (Decidable (_ ∧ _))

/-- Nothing but the room stands against the grant. -/
structure Impl.Crowds (impl : Impl) (request : GrantAuthorityRequest) : Prop where
  malformed : impl.malformedGrant request = none
  grantee : ∃ p, impl.findParticipant request.participant = some p ∧
    impl.refusedGrantee p request = none ∧ findAttempt p.idempotency request.attempt = none
  parent : request.parent.bind (impl.refusedParent request) = none
  full : impl.options.limits.maxAuthorityGrants ≤ impl.state.grants.length

section Grants

variable {impl : Impl} {request : GrantAuthorityRequest} {r : GrantResult}

theorem malformedGrant_room (h : impl.malformedGrant request = some r) :
    ¬ r.Exhausts "max_authority_grants" := by
  obtain ⟨-, -, -, -, -, -, -, -, hscopes, -⟩ := limit_texts
  rintro ⟨hout, hnames⟩
  simp only [Impl.malformedGrant] at h
  repeat' split at h
  all_goals
    cases h
    try (cases hout; done)
  -- only the scopes are counted here
  simp only [Impl.grantResult, Explanation.namesLimit_withDetail, Explanation.namesLimit_ofCode,
    hscopes, false_or, and_false] at hnames

theorem refusedGrantee_room {p : DurableParticipant} (h : impl.refusedGrantee p request = some r) :
    ¬ r.Exhausts "max_authority_grants" := by
  rintro ⟨hout, -⟩
  simp only [Impl.refusedGrantee] at h
  repeat' split at h
  all_goals
    cases h
    try cases hout

theorem replayedGrant_room (digest : SnapshotDigest) (previous : IdempotencyRecord) :
    ¬ (impl.replayedGrant request digest previous).Exhausts "max_authority_grants" := by
  obtain ⟨-, -, hattempt, -, -, hgrant, -⟩ := limit_texts
  rintro ⟨hout, hnames⟩
  by_cases hsemantic : previous.semantic = digest
  swap
  · rw [Impl.replayedGrant, if_pos hsemantic] at hout
    cases hout
  -- a replay tells of no limit
  rw [Impl.replayedGrant, if_neg (not_not.mpr hsemantic)] at hnames
  simp only [Impl.grantResult, Explanation.namesLimit_withDetail, Explanation.namesLimit_ofCode,
    hattempt, hgrant, false_or, false_and] at hnames

theorem refusedParent_room {id : AuthorityGrantId} (h : impl.refusedParent request id = some r) :
    ¬ r.Exhausts "max_authority_grants" := by
  rintro ⟨hout, -⟩
  simp only [Impl.refusedParent] at h
  repeat' split at h
  all_goals
    cases h
    try cases hout

/-- **A grant is refused for want of room** where nothing else stands against it
and the table is full, and then nothing has happened. -/
theorem applyGrant_exhausts {entropy : Entropy} {t u : Txn Impl}
    (h : applyGrant entropy request t = .ok r u) :
    r.Exhausts "max_authority_grants" ↔ t.state.Crowds request := by
  unfold applyGrant at h
  rw [Action.bind_current] at h
  cases hmalformed : t.state.malformedGrant request with
  | some result =>
    simp only [hmalformed] at h
    cases h
    refine iff_of_false (malformedGrant_room hmalformed) fun hcrowds => ?_
    rw [hcrowds.malformed] at hmalformed
    cases hmalformed
  | none =>
  cases hfound : t.state.findParticipant request.participant with
  | none =>
    simp only [hmalformed, hfound] at h
    cases h
    refine iff_of_false (fun hexhausts => (by cases hexhausts.1)) fun hcrowds => ?_
    obtain ⟨p, hp, -⟩ := hcrowds.grantee
    rw [hfound] at hp
    cases hp
  | some p =>
  simp only [hmalformed, hfound] at h
  -- the grantee of the condition is the record that was found
  have hgrantee : t.state.Crowds request → t.state.refusedGrantee p request = none ∧
      findAttempt p.idempotency request.attempt = none := by
    intro hcrowds
    obtain ⟨q, hq, hrest⟩ := hcrowds.grantee
    rw [hfound] at hq
    obtain rfl := Option.some.inj hq
    exact hrest
  cases hrefused : t.state.refusedGrantee p request with
  | some result =>
    simp only [hrefused] at h
    cases h
    refine iff_of_false (refusedGrantee_room hrefused) fun hcrowds => ?_
    rw [(hgrantee hcrowds).1] at hrefused
    cases hrefused
  | none =>
  simp only [hrefused] at h
  obtain ⟨digest, t', hdigest, h⟩ := Action.bind_ok.mp h
  obtain ⟨-, rfl⟩ := Action.ofExcept_ok.mp hdigest
  cases hattempt : findAttempt p.idempotency request.attempt with
  | some previous =>
    simp only [hattempt] at h
    cases h
    refine iff_of_false (replayedGrant_room _ _) fun hcrowds => ?_
    rw [(hgrantee hcrowds).2] at hattempt
    cases hattempt
  | none =>
  cases hparent : request.parent.bind (t'.state.refusedParent request) with
  | some result =>
    simp only [hattempt, Impl.refusedDelegation, hparent] at h
    cases h
    obtain ⟨id, -, hrejected⟩ := Option.bind_eq_some_iff.mp hparent
    refine iff_of_false (refusedParent_room hrejected) fun hcrowds => ?_
    rw [hcrowds.parent] at hparent
    cases hparent
  | none =>
  by_cases hfull : t'.state.state.grants.length ≥ t'.state.options.limits.maxAuthorityGrants
  · simp only [hattempt, Impl.refusedDelegation, hparent, if_pos hfull] at h
    cases h
    refine iff_of_true ⟨rfl, ?_⟩ ⟨hmalformed, ⟨p, hfound, hrefused, hattempt⟩, hparent, hfull⟩
    rw [Impl.grantResult, Explanation.namesLimit_withDetail]
    exact .inr ⟨rfl, rfl⟩
  · simp only [hattempt, Impl.refusedDelegation, hparent, if_neg hfull] at h
    obtain ⟨_, _, -, -, -, -, hout, -⟩ := commitGrant_ok h
    refine iff_of_false (fun hexhausts => ?_) fun hcrowds => hfull hcrowds.full
    have hlimit := hexhausts.1
    rw [hout] at hlimit
    cases hlimit

end Grants

/-! ## The law -/

/-- The refusals of a reply, in front of the memory behind them. -/
structure Reply.Honest (limits : Limits) (s : DurableState) (reply : Reply) : Prop where
  registrations : ∀ r ∈ reply.registrations, r.Honest limits s
  grants : ∀ r, reply = .granted r → r.Exhausts "max_authority_grants" →
    limits.maxAuthorityGrants ≤ s.usableGrants

/-- A grant that is wanted finds no place, and one that is not usable has one. -/
def CrowdedOut (host : Host) : Input → Prop
  | .call (.grant request) _ _ => ∃ impl ∈ host.runtime, impl.Crowds request ∧
      ∃ g ∈ impl.state.grants, ¬ impl.state.Usable g
  | _ => False

section Law

variable {limits : Limits} {host : Host} {impl : Impl}

/-- A grant that is refused for want of room has changed nothing. -/
theorem grantCall_idle {request : GrantAuthorityRequest} {entropy : Entropy}
    {fault : Option SaveFault} {disk : Disk} {r : GrantResult}
    (h : (callRuntime (.grant request) entropy fault disk impl).result = .ok (.granted r)) :
    (r.Exhausts "max_authority_grants" ↔ impl.Crowds request) ∧
      (r.Exhausts "max_authority_grants" →
        (callRuntime (.grant request) entropy fault disk impl).impl = impl) := by
  obtain ⟨r', hresult, heq⟩ := Transacted.map_ok h
  obtain rfl := Reply.granted.inj heq
  obtain ⟨t, ht, -⟩ := transact_ok hresult
  refine ⟨applyGrant_exhausts ht, fun hexhausts => ?_⟩
  have hrefused : r.outcome ≠ .granted := by
    rw [hexhausts.1]
    intro hout
    cases hout
  rw [applyGrant_refused ht hrefused] at ht
  exact congrArg Transacted.impl (transact_idle ht fault disk)

/-- Only a grant is answered with one. -/
theorem callRuntime_granted {call : Call} {entropy : Entropy} {fault : Option SaveFault} {disk : Disk}
    {r : GrantResult} (h : (callRuntime call entropy fault disk impl).result = .ok (.granted r)) :
    ∃ request, call = .grant request := by
  cases call with
  | grant request => exact ⟨request, rfl⟩
  | bind binding =>
    rw [callRuntime] at h
    cases hr : impl.bindSession binding with
    | error e =>
      rw [hr] at h
      cases h
    | ok bound =>
      rw [hr] at h
      cases h
  | flush =>
    simp only [callRuntime] at h
    split at h
    · cases h
    · cases h
  | _ =>
    obtain ⟨_, -, heq⟩ := Transacted.map_ok h
    cases heq

/-- **The law.** Every state of a run keeps its limits. The refusals for want of
participants or of workers are honest in every step, and those for want of grants in
a step that crowds none out. -/
theorem limitsExact_iff (hviable : isViable limits = true)
    (h : coordinator.Reaches (Limited limits) host) :
    (∀ impl ∈ host.runtime, impl.WithinLimits limits) ∧
    ∀ input, Limited limits host input →
      ((∀ reply, (coordinator.step host input).2 = some (.ok reply) →
        reply.Honest limits (coordinator.step host input).1.state) ↔ ¬ CrowdedOut host input) := by
  obtain ⟨hreach, hkeeps⟩ := limited_within hviable h
  refine ⟨fun impl himpl => (hkeeps impl himpl).2, fun input hlimited => ?_⟩
  cases input with
  | «open» opening fault =>
    refine iff_of_true (fun reply hreply => ?_) id
    have hopened : reply = .opened := by
      have hresult : (openRuntime opening fault host.disk).2.2 = .ok reply := Option.some.inj hreply
      have hcase := openRuntime_cases opening fault host.disk
      generalize openRuntime opening fault host.disk = opened at hcase hresult
      cases hcase with
      | refused => cases hresult
      | kept _ => exact (Except.ok.inj hresult).symm
      | established _ _ _ => exact (Except.ok.inj hresult).symm
      | thrown _ _ _ => cases hresult
    rw [hopened]
    exact ⟨fun _ hr => (by cases hr), fun _ heq => (by cases heq)⟩
  | call call entropy fault =>
  cases hruntime : host.runtime with
  | none =>
    refine iff_of_true (fun reply hreply => ?_) ?_
    · rw [coordinator_idle hruntime] at hreply
      cases hreply
    · intro hcrowded
      cases call with
      | grant request =>
        obtain ⟨impl, himpl, -⟩ := hcrowded
        rw [hruntime] at himpl
        cases himpl
      | _ => exact hcrowded
  | some impl =>
  obtain ⟨hlimits, hwithin⟩ := hkeeps impl hruntime
  rw [coordinator_call hruntime, Host.state_of_some rfl]
  have hregistrations : ∀ reply,
      (callRuntime call entropy fault host.disk impl).result = .ok reply →
        ∀ r ∈ reply.registrations, r.Honest limits
          (callRuntime call entropy fault host.disk impl).impl.state := fun reply hreply =>
    (callRuntime_counts hreach hruntime hlimits hwithin.workers hreply).2
  by_cases hgrant : ∃ request, call = .grant request
  swap
  · -- no other call answers with a grant
    refine iff_of_true (fun reply hreply => ?_) fun hcrowded => ?_
    · refine ⟨hregistrations reply (Option.some.inj hreply), fun r heq => ?_⟩
      subst heq
      exact absurd (callRuntime_granted (Option.some.inj hreply)) hgrant
    · cases call with
      | grant request => exact hgrant ⟨request, rfl⟩
      | _ => exact hcrowded
  obtain ⟨request, rfl⟩ := hgrant
  constructor
  · rintro hhonest ⟨impl', himpl', hcrowds, g, hg, hunusable⟩
    rw [hruntime] at himpl'
    obtain rfl := Option.some.inj himpl'
    cases hr : (callRuntime (.grant request) entropy fault host.disk impl).result with
    | error e => exact hlimited.1 e (by rw [coordinator_call hruntime, hr])
    | ok reply =>
      obtain ⟨r, -, rfl⟩ := Transacted.map_ok hr
      obtain ⟨hexhausts, hidle⟩ := grantCall_idle hr
      have hroom := (hhonest (.granted r) (congrArg some hr)).grants r rfl (hexhausts.mpr hcrowds)
      rw [hidle (hexhausts.mpr hcrowds)] at hroom
      have hfull := hcrowds.full
      rw [hlimits] at hfull
      exact hunusable ((DurableState.usableGrants_full
        (Nat.le_antisymm hfull hwithin.bounded.grants)).mp hroom g hg)
  · intro hroomy reply hreply
    refine ⟨hregistrations reply (Option.some.inj hreply), fun r heq hexhausts => ?_⟩
    subst heq
    obtain ⟨hiff, hidle⟩ := grantCall_idle (Option.some.inj hreply)
    have hcrowds := hiff.mp hexhausts
    rw [hidle hexhausts]
    have hfull := hcrowds.full
    rw [hlimits] at hfull
    refine (DurableState.usableGrants_full (Nat.le_antisymm hfull hwithin.bounded.grants)).mpr ?_
    intro g hg
    by_contra hunusable
    exact hroomy ⟨impl, hruntime, hcrowds, g, hg, hunusable⟩

end Law

/-! ### Tests -/

/-- Room for one grant. -/
def oneGrant : Limits := { defaultLimits with maxAuthorityGrants := 1 }

/-- The one grant is issued, and revoked. -/
def revokedRun : List Input :=
  [testOpen { limits := oneGrant } 1,
    callOf (.register (testRegister 2 (testParticipant "p") (smallId 11))),
    callOf (.grant (testGrant 3 (testParticipant "p") (smallId 11) (smallCounter 1))),
    callOf (.revoke (testRevoke 4 (smallId 9)))]

/-- Another one is asked for. -/
def anotherGrant : Input :=
  callOf (.grant (testGrant 5 (testParticipant "p") (smallId 11) (smallCounter 1)))

/-- The answer is a refusal for want of room for grants. -/
def wantsRoom : Answer → Bool
  | some (.ok (.granted r)) => decide (r.Exhausts "max_authority_grants")
  | _ => false

/-- The other grant finds no room, and no grant there is of any use. -/
theorem anotherGrant_refused : coordinator.Reaches (Limited oneGrant)
      (coordinator.run coordinator.init revokedRun) ∧
    Limited oneGrant (coordinator.run coordinator.init revokedRun) anotherGrant ∧
    (∃ r, (coordinator.step (coordinator.run coordinator.init revokedRun) anotherGrant).2 =
        some (.ok (.granted r)) ∧ r.Exhausts "max_authority_grants") ∧
    (coordinator.step (coordinator.run coordinator.init revokedRun)
      anotherGrant).1.state.usableGrants < oneGrant.maxAuthorityGrants := by
  have hallows : coordinator.Allows (Limited oneGrant) coordinator.init revokedRun := by
    decide +kernel
  have hvalues : Limited oneGrant (coordinator.run coordinator.init revokedRun) anotherGrant ∧
      wantsRoom (coordinator.step (coordinator.run coordinator.init revokedRun)
        anotherGrant).2 = true ∧
      (coordinator.step (coordinator.run coordinator.init revokedRun)
        anotherGrant).1.state.usableGrants < oneGrant.maxAuthorityGrants := by
    decide +kernel
  obtain ⟨hlimited, hwants, hnone⟩ := hvalues
  refine ⟨Machine.leads_run hallows, hlimited, ?_, hnone⟩
  revert hwants
  generalize (coordinator.step (coordinator.run coordinator.init revokedRun) anotherGrant).2 = answer
  intro hwants
  unfold wantsRoom at hwants
  split at hwants
  · exact ⟨_, rfl, of_decide_eq_true hwants⟩
  · cases hwants

theorem limitsExact_test : ∃ host impl, coordinator.Reaches (Limited oneGrant) host ∧
    host.runtime = some impl ∧ impl.WithinLimits oneGrant ∧ CrowdedOut host anotherGrant := by
  obtain ⟨hreach, hlimited, ⟨r, hreply, hexhausts⟩, hnone⟩ := anotherGrant_refused
  have hruntime : (coordinator.run coordinator.init revokedRun).runtime.isSome = true := by
    decide +kernel
  revert hreach hlimited hreply hnone hruntime
  generalize coordinator.run coordinator.init revokedRun = host
  intro hreach hlimited hnone hreply hruntime
  obtain ⟨impl, himpl⟩ := Option.isSome_iff_exists.mp hruntime
  obtain ⟨hwithin, hlaw⟩ := limitsExact_iff (by decide) hreach
  refine ⟨host, impl, hreach, himpl, hwithin impl himpl, ?_⟩
  by_contra hroomy
  have hhonest := (hlaw anotherGrant hlimited).mpr hroomy _ hreply
  exact Nat.not_le_of_lt hnone (hhonest.grants r rfl hexhausts)

/-- A grant that was revoked keeps its place. -/
theorem revokedGrant_crowds : ∃ (limits : Limits) (host : Host) (input : Input) (r : GrantResult),
    isViable limits = true ∧ coordinator.Reaches (Limited limits) host ∧
    Limited limits host input ∧
    (coordinator.step host input).2 = some (.ok (.granted r)) ∧
    r.Exhausts "max_authority_grants" ∧
    (coordinator.step host input).1.state.usableGrants < limits.maxAuthorityGrants := by
  obtain ⟨hreach, hlimited, ⟨r, hreply, hexhausts⟩, hnone⟩ := anotherGrant_refused
  exact ⟨oneGrant, _, anotherGrant, r, by decide, hreach, hlimited, hreply, hexhausts, hnone⟩

end FabricEpoch
