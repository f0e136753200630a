import FabricEpoch.EpochChain
import FabricEpoch.Lib.Tokens
import FabricEpoch.ScopeBinding

/-!
# The coordinator as a token service

What a coordinator is for can be said without records, tables and indexes: it
issues numbered tokens to the boots of its participants, and takes them back.
The token of an incarnation is its sequence number, a term is an epoch.

- `DurableState.tokens`: the service that a durable state stands for;
- `Move.tokens`: every move is one act of the service, or none;
- `Issues`: a run of the service beside the registrations that were accepted;
- `quietRun_issues`: a run without exceptions is a run of the service, and the
  tokens it issues are the registrations that were answered as accepted, in
  order.
-/

namespace FabricEpoch

open Table Transaction

/-! ## What a state stands for -/

/-- The record of a participant, or the one it would be created with. -/
def DurableState.record (s : DurableState) (id : ParticipantId) : DurableParticipant :=
  (s.lookup id).getD (.fresh id .singleIncarnation)

/-- The token service of a durable state. -/
def DurableState.tokens (s : DurableState) : Tokens ParticipantId WorkerBootId where
  term := s.currentEpoch.value
  next id := (s.record id).nextIncarnation.value
  holds id boot := ((s.record id).findIncarnation boot).map (·.value)
  closed id := (s.record id).retired = true

/-- The token that a registration is answered with. -/
def Registration.token (x : Registration) : Tokens.Token ParticipantId WorkerBootId where
  party := x.1.participant
  site := x.1.boot
  number := (x.2.incarnation.getD .zero).value

/-- The service looks at the allocator, the retirement and the incarnations of a
record. -/
structure DurableParticipant.SameTokens (p q : DurableParticipant) : Prop where
  next : q.nextIncarnation = p.nextIncarnation
  retired : q.retired = p.retired
  find : ∀ boot, q.findIncarnation boot = p.findIncarnation boot

theorem DurableParticipant.SameTokens.refl (p : DurableParticipant) : p.SameTokens p :=
  ⟨rfl, rfl, fun _ => rfl⟩

namespace DurableState

variable {s s' : DurableState} {id : ParticipantId} {p : DurableParticipant}

theorem record_of_lookup (h : s.lookup id = some p) : s.record id = p := by
  rw [record, h]
  rfl

theorem record_of_missing (h : s.lookup id = none) :
    s.record id = .fresh id .singleIncarnation := by
  rw [record, h]
  rfl

/-- States whose records look the same stand for the same service. -/
theorem tokens_eq (hepoch : s'.currentEpoch = s.currentEpoch)
    (hrecords : ∀ id, (s.record id).SameTokens (s'.record id)) : s'.tokens = s.tokens := by
  have hnext : s'.tokens.next = s.tokens.next :=
    funext fun id => congrArg MonotonicCounter.value (hrecords id).next
  have hholds : s'.tokens.holds = s.tokens.holds :=
    funext fun id => funext fun boot => congrArg (Option.map _) ((hrecords id).find boot)
  have hclosed : s'.tokens.closed = s.tokens.closed :=
    funext fun id => congrArg (· = true) (hrecords id).retired
  exact Tokens.ext (congrArg MonotonicCounter.value hepoch) hnext hholds hclosed

theorem tokens_of_participants (hepoch : s'.currentEpoch = s.currentEpoch)
    (hparticipants : s'.participants = s.participants) : s'.tokens = s.tokens := by
  refine tokens_eq hepoch fun id => ?_
  have hrecord : s'.record id = s.record id := by
    unfold record lookup
    rw [hparticipants]
  rw [hrecord]
  exact .refl _

/-- The order of the records does not matter. -/
theorem tokens_perm (hs : Orderly s) {ps : List DurableParticipant}
    (hperm : s.participants.Perm ps) : ({ s with participants := ps } : DurableState).tokens =
      s.tokens := by
  refine tokens_eq rfl fun id => ?_
  have hrecord : ({ s with participants := ps } : DurableState).record id = s.record id :=
    congrArg (fun p => p.getD (.fresh id .singleIncarnation)) (lookup_perm hperm hs.ids id)
  rw [hrecord]
  exact .refl _

/-- The records behind an update. -/
theorem record_updateParticipant {f : DurableParticipant → DurableParticipant}
    (hf : ∀ p, (f p).id = p.id) (h : s.lookup id = some p) (j : ParticipantId) :
    (s.updateParticipant id f).record j = if j = id then f p else s.record j := by
  rw [record, lookup, updateParticipant, lookup_updateKey hf]
  by_cases hj : j = id
  · rw [if_pos hj, if_pos hj]
    rw [lookup] at h
    rw [h]
    rfl
  · rw [if_neg hj, if_neg hj]
    rfl

/-- An update that the service does not see. -/
theorem tokens_updateParticipant {f : DurableParticipant → DurableParticipant}
    (hf : ∀ p, (f p).id = p.id) (h : s.lookup id = some p) (hsame : p.SameTokens (f p))
    (hepoch : s'.currentEpoch = s.currentEpoch)
    (hparticipants : s'.participants = (s.updateParticipant id f).participants) :
    s'.tokens = s.tokens := by
  refine tokens_eq hepoch fun j => ?_
  have hrecord : s'.record j = (s.updateParticipant id f).record j := by
    rw [record, lookup, hparticipants]
    rfl
  rw [hrecord, record_updateParticipant hf h]
  by_cases hj : j = id
  · subst hj
    rw [if_pos rfl, record_of_lookup h]
    exact hsame
  · rw [if_neg hj]
    exact .refl _

end DurableState

/-! ## Acts on a record -/

namespace DurableParticipant

variable {p : DurableParticipant}

/-- A boot is found under a sequence where it is live under it. -/
theorem find_iff (hp : OrderlyRecord p) (boot : WorkerBootId) (i : IncarnationSequence) :
    p.findIncarnation boot = some i ↔ (boot, i) ∈ p.live :=
  ⟨mem_live_of_find, find_of_mem_live hp⟩

/-- What is found depends on what is live. -/
theorem find_congr {q : DurableParticipant} (hp : OrderlyRecord p) (hq : OrderlyRecord q)
    {boot : WorkerBootId} (h : ∀ i, (boot, i) ∈ q.live ↔ (boot, i) ∈ p.live) :
    q.findIncarnation boot = p.findIncarnation boot := by
  refine Option.ext fun i => ?_
  show q.findIncarnation boot = some i ↔ p.findIncarnation boot = some i
  rw [find_iff hq, find_iff hp, h]

/-- A fence takes the token of its boot. -/
theorem find_fence (hp : OrderlyRecord p) (limits : Limits) (boot : WorkerBootId)
    (i : IncarnationSequence) (g : FencingGeneration) (b : WorkerBootId) :
    (p.fence limits boot i g).findIncarnation b =
      if b = boot then none else p.findIncarnation b := by
  have hlive := live_fence hp.boots limits boot i g
  by_cases hb : b = boot
  · subst hb
    rw [if_pos rfl]
    refine find_eq_none_iff.mpr fun hmem => ?_
    rw [liveBoots_eq, hlive] at hmem
    obtain ⟨e, he, heq⟩ := List.mem_map.mp hmem
    exact of_decide_eq_true (List.mem_filter.mp he).2 heq
  · rw [if_neg hb]
    refine find_congr hp (hp.fence limits boot i g) fun j => ?_
    rw [hlive, List.mem_filter]
    exact ⟨fun h => h.1, fun h => ⟨h, by simpa using hb⟩⟩

/-- A registration gives the boot the next token. -/
theorem find_register (hp : OrderlyRecord p) (limits : Limits)
    {request : RegisterParticipantRequest} (digest : SnapshotDigest) (g : RegistrationGeneration)
    {next : IncarnationSequence} (hnew : p.findIncarnation request.boot = none)
    (hnext : p.nextIncarnation.next = some next) (b : WorkerBootId) :
    (p.register limits request digest g p.nextIncarnation next).findIncarnation b =
      if b = request.boot then some p.nextIncarnation else p.findIncarnation b := by
  have hlive := live_register hp.compact limits request digest g p.nextIncarnation next
  have hregistered := hp.register limits digest g (find_eq_none_iff.mp hnew) hnext
  by_cases hb : b = request.boot
  · subst hb
    rw [if_pos rfl, find_iff hregistered, hlive]
    exact List.mem_append_right _ (List.mem_singleton_self _)
  · rw [if_neg hb]
    refine find_congr hp hregistered fun j => ?_
    rw [hlive, List.mem_append, List.mem_singleton]
    refine or_iff_left fun heq => ?_
    exact hb (congrArg Prod.fst heq)

end DurableParticipant

/-! ## Moves are acts -/

section Acts

variable {s : DurableState} {id : ParticipantId} {p : DurableParticipant}

/-- **A fence** is a withdrawal. -/
theorem tokens_fence (hs : Orderly s) (h : s.lookup id = some p) (limits : Limits)
    (boot : WorkerBootId) (i : IncarnationSequence) (g : FencingGeneration) :
    (s.updateParticipant id (·.fence limits boot i g)).tokens =
      s.tokens.after (.withdraw id boot) := by
  have hp := hs.records p (DurableState.mem_of_lookup h).1
  have hrecord := DurableState.record_updateParticipant
    (f := fun p => p.fence limits boot i g) (fun p => p.fence_id limits boot i g) h
  obtain ⟨_, _, _, _, _, hframe⟩ := p.fence_frame limits boot i g
  refine Tokens.ext rfl (funext fun j => ?_) (funext fun j => ?_) (funext fun j => ?_)
  · show ((s.updateParticipant id _).record j).nextIncarnation.value =
      (s.record j).nextIncarnation.value
    rw [hrecord]
    by_cases hj : j = id
    · subst hj
      rw [if_pos rfl, hframe, DurableState.record_of_lookup h]
    · rw [if_neg hj]
  · show (fun b => (((s.updateParticipant id _).record j).findIncarnation b).map _) =
      Function.update s.tokens.holds id (Function.update (s.tokens.holds id) boot none) j
    rw [hrecord]
    by_cases hj : j = id
    · subst hj
      rw [if_pos rfl, Function.update_self]
      funext b
      rw [DurableParticipant.find_fence hp]
      by_cases hb : b = boot
      · subst hb
        rw [if_pos rfl, Function.update_self]
        rfl
      · rw [if_neg hb, Function.update_of_ne hb]
        show _ = ((s.record j).findIncarnation b).map _
        rw [DurableState.record_of_lookup h]
    · rw [if_neg hj, Function.update_of_ne hj]
      rfl
  · show (((s.updateParticipant id _).record j).retired = true) = ((s.record j).retired = true)
    rw [hrecord]
    by_cases hj : j = id
    · subst hj
      rw [if_pos rfl, hframe, DurableState.record_of_lookup h]
    · rw [if_neg hj]

/-- **A registration** issues the next token of its participant to its boot. -/
theorem tokens_register (hs : Orderly s) {request : RegisterParticipantRequest}
    (h : s.lookup request.participant = some p) (hretired : p.retired = false)
    (hnew : p.findIncarnation request.boot = none) {next : IncarnationSequence}
    (hnext : p.nextIncarnation.next = some next) (limits : Limits) (digest : SnapshotDigest)
    (g : RegistrationGeneration) :
    s.tokens.Enabled (.issue ⟨request.participant, request.boot, p.nextIncarnation.value⟩) ∧
      (s.updateParticipant request.participant
        (·.register limits request digest g p.nextIncarnation next)).tokens =
          s.tokens.after (.issue ⟨request.participant, request.boot, p.nextIncarnation.value⟩) := by
  have hp := hs.records p (DurableState.mem_of_lookup h).1
  have hvalue := MonotonicCounter.next_eq_some hnext
  have hrecord := DurableState.record_updateParticipant
    (f := fun q => q.register limits request digest g p.nextIncarnation next)
    (fun q => q.register_id limits request digest g p.nextIncarnation next) h
  have hhere := DurableState.record_of_lookup h
  obtain ⟨_, _, _, _, hframe⟩ := p.register_frame limits request digest g p.nextIncarnation next
  constructor
  · refine ⟨?_, ?_, ?_⟩
    · show p.nextIncarnation.value = (s.record request.participant).nextIncarnation.value
      rw [hhere]
    · show ¬ (s.record request.participant).retired = true
      rw [hhere, hretired]
      exact Bool.false_ne_true
    · show ((s.record request.participant).findIncarnation request.boot).map _ = none
      rw [hhere, hnew]
      rfl
  refine Tokens.ext rfl (funext fun j => ?_) (funext fun j => ?_) (funext fun j => ?_)
  · show ((s.updateParticipant request.participant _).record j).nextIncarnation.value =
      Function.update s.tokens.next request.participant (p.nextIncarnation.value + 1) j
    rw [hrecord]
    by_cases hj : j = request.participant
    · subst hj
      rw [if_pos rfl, Function.update_self, DurableParticipant.register_next, hvalue]
    · rw [if_neg hj, Function.update_of_ne hj]
      rfl
  · show (fun b => (((s.updateParticipant request.participant _).record j).findIncarnation b).map _) =
      Function.update s.tokens.holds request.participant
        (Function.update (s.tokens.holds request.participant) request.boot
          (some p.nextIncarnation.value)) j
    rw [hrecord]
    by_cases hj : j = request.participant
    · subst hj
      rw [if_pos rfl, Function.update_self]
      funext b
      rw [DurableParticipant.find_register hp limits digest g hnew hnext]
      by_cases hb : b = request.boot
      · subst hb
        rw [if_pos rfl, Function.update_self]
        rfl
      · rw [if_neg hb, Function.update_of_ne hb]
        show _ = ((s.record request.participant).findIncarnation b).map _
        rw [hhere]
    · rw [if_neg hj, Function.update_of_ne hj]
      rfl
  · show (((s.updateParticipant request.participant _).record j).retired = true) =
      ((s.record j).retired = true)
    rw [hrecord]
    by_cases hj : j = request.participant
    · subst hj
      rw [if_pos rfl, hframe, hhere, hretired]
    · rw [if_neg hj]

/-- **A retirement** closes its participant. -/
theorem tokens_retire (h : s.lookup id = some p) :
    (s.updateParticipant id (·.retire)).tokens = s.tokens.after (.close id) := by
  have hrecord := DurableState.record_updateParticipant (f := (·.retire))
    (fun p => p.retire_id) h
  have hhere := DurableState.record_of_lookup h
  obtain ⟨_, hframe⟩ := p.retire_frame
  refine Tokens.ext rfl (funext fun j => ?_) (funext fun j => ?_) (funext fun j => ?_)
  · show ((s.updateParticipant id _).record j).nextIncarnation.value =
      (s.record j).nextIncarnation.value
    rw [hrecord]
    by_cases hj : j = id
    · subst hj
      rw [if_pos rfl, hframe, hhere]
    · rw [if_neg hj]
  · show (fun b => (((s.updateParticipant id _).record j).findIncarnation b).map _) =
      fun b => ((s.record j).findIncarnation b).map _
    rw [hrecord]
    by_cases hj : j = id
    · subst hj
      rw [if_pos rfl, hframe, hhere]
      rfl
    · rw [if_neg hj]
  · show (((s.updateParticipant id _).record j).retired = true) =
      Function.update s.tokens.closed id True j
    rw [hrecord]
    by_cases hj : j = id
    · subst hj
      rw [if_pos rfl, Function.update_self, hframe]
      exact eq_self true
    · rw [if_neg hj, Function.update_of_ne hj]
      rfl

end Acts

/-- **Every move is an act of the service, or none.** -/
theorem Move.tokens {T : Trust} {limits : Limits} {s s' : DurableState} (h : Move T limits s s')
    (hs : Orderly s) : ∃ acts, s.tokens.Runs acts s'.tokens := by
  have hnone : s'.tokens = s.tokens → ∃ acts, s.tokens.Runs acts s'.tokens := fun heq =>
    ⟨[], heq ▸ .nil _⟩
  cases h with
  | reorder perm => exact hnone (DurableState.tokens_perm hs perm)
  | bump _ => exact hnone rfl
  | @preventive r p found _ _ _ _ _ _ _ _ =>
    exact hnone (DurableState.tokens_updateParticipant
      (f := (·.setFenceGeneration r.generation)) (fun _ => rfl) found ⟨rfl, rfl, fun _ => rfl⟩
      rfl rfl)
  | @fence r p found live _ _ _ _ =>
    refine ⟨[.withdraw r.participant r.boot], ?_⟩
    have hacted := tokens_fence hs found limits r.boot r.incarnation r.generation
    have hsame : DurableState.tokens { s.updateParticipant r.participant
        (·.fence limits r.boot r.incarnation r.generation) with
        fenceFloor := r.generation
        recentFences := evictPush limits.maxRecentFences s.recentFences r } =
          s.tokens.after (.withdraw r.participant r.boot) := hacted
    rw [hsame]
    refine .single fun hnone => ?_
    have hheld : ((s.record r.participant).findIncarnation r.boot).map MonotonicCounter.value =
      none := hnone
    rw [DurableState.record_of_lookup found, live] at hheld
    cases hheld
  | @create id policy missing _ _ _ =>
    refine hnone (DurableState.tokens_eq rfl fun j => ?_)
    have hlookup : DurableState.lookup
        { s with participants := s.participants ++ [DurableParticipant.fresh id policy] } j =
          if j = id then some (.fresh id policy) else s.lookup j :=
      lookup_append_singleton (a := DurableParticipant.fresh id policy) missing j
    unfold DurableState.record
    rw [hlookup]
    by_cases hj : j = id
    · subst hj
      rw [if_pos rfl, missing]
      exact ⟨rfl, rfl, fun _ => rfl⟩
    · rw [if_neg hj]
      exact .refl _
  | @register request digest p g next _ found notRetired _ _ _ notLive _ _ _ _ _ _ floor allocate =>
    obtain ⟨henabled, hacted⟩ := tokens_register hs found notRetired notLive allocate limits digest g
    have hsame : DurableState.tokens { s.updateParticipant request.participant
        (·.register limits request digest g p.nextIncarnation next) with
        registrationFloor := g } = _ := hacted
    rw [hsame]
    exact ⟨_, .single henabled⟩
  | @remember id p r found _ _ _ =>
    exact hnone (DurableState.tokens_updateParticipant (f := (·.remember limits r)) (fun _ => rfl)
      found ⟨rfl, rfl, fun _ => rfl⟩ rfl rfl)
  | grant _ _ _ _ _ _ _ _ _ _ _ _ => exact hnone rfl
  | revoke _ => exact hnone rfl
  | control _ _ _ _ => exact hnone rfl
  | retire found _ =>
    rw [tokens_retire found]
    exact ⟨_, .single trivial⟩
  | @epoch t invalidate generation source target _ established _ _ =>
    have hnext := MonotonicCounter.next_eq_some target
    cases invalidate with
    | true =>
      refine ⟨[.turn], ?_⟩
      have hlookup : ∀ j, Table.lookup DurableParticipant.id (s.participants.map (·.invalidate)) j =
          (s.lookup j).map (·.invalidate) := by
        intro j
        show (s.participants.map (·.invalidate)).find? _ = _
        rw [List.find?_map]
        rfl
      have hrecord : ∀ j, (DurableState.record { s with
          currentEpoch := t.toEpoch
          coordinatorBoot := t.coordinatorBoot
          generation
          participants := s.participants.map (·.invalidate)
          transitions := evictPush limits.maxTransitionHistory s.transitions t } j) =
            ((s.lookup j).map (·.invalidate)).getD (.fresh j .singleIncarnation) := fun j =>
        congrArg (·.getD (.fresh j .singleIncarnation)) (hlookup j)
      have hacted : DurableState.tokens { s with
          currentEpoch := t.toEpoch
          coordinatorBoot := t.coordinatorBoot
          generation
          participants := s.participants.map (·.invalidate)
          transitions := evictPush limits.maxTransitionHistory s.transitions t } =
            s.tokens.after .turn := by
        refine Tokens.ext hnext (funext fun j => ?_) (funext fun j => funext fun b => ?_)
          (funext fun j => ?_)
        · show (DurableState.record _ j).nextIncarnation.value =
            ((s.lookup j).getD (.fresh j .singleIncarnation)).nextIncarnation.value
          rw [hrecord]
          cases s.lookup j <;> rfl
        · show ((DurableState.record _ j).findIncarnation b).map _ = none
          rw [hrecord]
          cases s.lookup j <;> rfl
        · show ((DurableState.record _ j).retired = true) =
            (((s.lookup j).getD (.fresh j .singleIncarnation)).retired = true)
          rw [hrecord]
          cases s.lookup j <;> rfl
      have hturn := Tokens.Runs.single (s := s.tokens) (a := .turn) trivial
      rw [← hacted] at hturn
      exact hturn
    | false =>
      -- only the first epoch keeps what is live
      have hzero : s.currentEpoch.value = 0 := by
        by_contra hne
        exact Bool.false_ne_true (established hne)
      refine ⟨[.found], ?_⟩
      have hacted : DurableState.tokens { s with
          currentEpoch := t.toEpoch
          coordinatorBoot := t.coordinatorBoot
          generation
          participants := s.participants
          transitions := evictPush limits.maxTransitionHistory s.transitions t } =
            s.tokens.after .found := by
        refine Tokens.ext ?_ rfl rfl rfl
        show t.toEpoch.value = 1
        omega
      have hfound := Tokens.Runs.single (s := s.tokens) (a := .found) hzero
      rw [← hacted] at hfound
      exact hfound

theorem Moves.tokens {T : Trust} {limits : Limits} {s s' : DurableState}
    (h : Moves T limits s s') (hs : Orderly s) : ∃ acts, s.tokens.Runs acts s'.tokens := by
  induction h with
  | refl => exact ⟨[], .nil _⟩
  | tail hms hm ih =>
    obtain ⟨acts, hacts⟩ := ih
    obtain ⟨acts', hacts'⟩ := hm.tokens (Moves.orderly hms hs)
    exact ⟨acts ++ acts', hacts.append hacts'⟩

/-- Where no record is lost and every key is an old one, the keys are the same. -/
theorem DurableState.Evolves.keys_perm {s s' : DurableState} (h : s.Evolves s') (hs : Orderly s)
    (hs' : Orderly s') (hkeys : s'.participants.map (·.key) ⊆ s.participants.map (·.key)) :
    (s'.participants.map (·.key)).Perm (s.participants.map (·.key)) := by
  have hnodup : (s'.participants.map (·.key)).Nodup := by
    refine List.Nodup.of_map Prod.fst ?_
    rw [List.map_map]
    exact hs'.ids
  have hids : s.participants.map (·.id) ⊆ s'.participants.map (·.id) := by
    intro id hid
    obtain ⟨p, hp, rfl⟩ := List.mem_map.mp hid
    obtain ⟨p', hp', hevolves⟩ := h.participants p hp
    exact List.mem_map.mpr ⟨p', hp', hevolves.id⟩
  refine (List.subperm_of_subset hnodup hkeys).perm_of_length_le ?_
  have hlength := (List.subperm_of_subset hs.ids hids).length_le
  rw [List.length_map, List.length_map] at hlength ⊢
  exact hlength

/-! ## What a run issues -/

/-- The allocator of a participant is part of the key of its record. -/
theorem next_of_keys {s s' : DurableState} (hs : Orderly s) (hs' : Orderly s')
    (hkeys : (s'.participants.map (·.key)).Perm (s.participants.map (·.key)))
    (id : ParticipantId) : (s'.record id).nextIncarnation = (s.record id).nextIncarnation := by
  cases hp : s.lookup id with
  | none =>
    have hp' : s'.lookup id = none := by
      refine lookup_none.mpr fun q hq hid => ?_
      obtain ⟨p, hp₁, hkey⟩ := List.mem_map.mp (hkeys.mem_iff.mp (List.mem_map_of_mem hq))
      exact lookup_none.mp hp p hp₁ ((congrArg Prod.fst hkey).trans hid)
    rw [DurableState.record_of_missing hp, DurableState.record_of_missing hp']
  | some p =>
    obtain ⟨hmem, rfl⟩ := DurableState.mem_of_lookup hp
    obtain ⟨q, hq, hkey⟩ := List.mem_map.mp (hkeys.mem_iff.mpr (List.mem_map_of_mem hmem))
    have hid : q.id = p.id := congrArg Prod.fst hkey
    have hq' : s'.lookup p.id = some q := hid ▸ lookup_eq_some_of_mem hs'.ids hq
    rw [DurableState.record_of_lookup hp, DurableState.record_of_lookup hq']
    exact congrArg (fun k => k.2.2) hkey

/-- A run of the service from the one state to the other issues these tokens. -/
def Issues (s s' : DurableState) (xs : List Registration) : Prop :=
  ∃ acts, s.tokens.Runs acts s'.tokens ∧ Tokens.issued acts = xs.map (·.token)

namespace Issues

variable {s s' s'' : DurableState} {xs ys : List Registration}

theorem of_tokens (h : s'.tokens = s.tokens) : Issues s s' [] := ⟨[], h ▸ .nil _, rfl⟩

theorem append (h₁ : Issues s s' xs) (h₂ : Issues s' s'' ys) : Issues s s'' (xs ++ ys) := by
  obtain ⟨acts, hruns, hissued⟩ := h₁
  obtain ⟨acts', hruns', hissued'⟩ := h₂
  refine ⟨acts ++ acts', hruns.append hruns', ?_⟩
  rw [Tokens.issued_append, hissued, hissued', List.map_append]

/-- Moves that leave the keys of the records alone issue nothing. -/
theorem of_keys {T : Trust} {limits : Limits} (h : Moves T limits s s') (hs : Orderly s)
    (hkeys : (s'.participants.map (·.key)).Perm (s.participants.map (·.key))) :
    Issues s s' [] := by
  obtain ⟨acts, hruns⟩ := Moves.tokens h hs
  exact ⟨acts, hruns, hruns.issued_nil fun id => congrArg MonotonicCounter.value
    (next_of_keys hs (Moves.orderly h hs) hkeys id)⟩

end Issues

/-! ## One registration -/

/-- What comes in front of the decision issues nothing. -/
theorem Approach.issues {request : RegisterParticipantRequest} {t u : Txn Impl}
    (h : Approach request t u) (ht : t.state.Regular) : Issues t.state.state u.state.state [] := by
  refine .of_keys (h.advanced ht).moves ht.orderly ?_
  rw [show u.state.state.participants.map (·.key) = t.state.state.participants.map (·.key) from
    congrArg Prod.snd (h.frame keysOf_record.toFenceFrame)]

/-- The numbers that a state stands for were issued. -/
theorem Orderly.lawful {s : DurableState} (hs : Orderly s) : s.tokens.Lawful := by
  -- a number that is held is that of a live incarnation
  have hlive : ∀ {id boot n}, s.tokens.holds id boot = some n → ∃ p i, s.lookup id = some p ∧
      OrderlyRecord p ∧ (boot, i) ∈ p.live ∧ i.value = n := by
    intro id boot n hn
    have hfind : ((s.record id).findIncarnation boot).map MonotonicCounter.value = some n := hn
    obtain ⟨i, hi, rfl⟩ := Option.map_eq_some_iff.mp hfind
    cases hp : s.lookup id with
    | none =>
      rw [DurableState.record_of_missing hp] at hi
      cases hi
    | some p =>
      rw [DurableState.record_of_lookup hp] at hi
      exact ⟨p, i, rfl, hs.records p (DurableState.mem_of_lookup hp).1,
        DurableParticipant.mem_live_of_find hi, rfl⟩
  constructor
  · intro id boot n hn
    obtain ⟨p, i, hp, horderly, hmem, rfl⟩ := hlive hn
    show i.value < (s.record id).nextIncarnation.value
    rw [DurableState.record_of_lookup hp]
    exact (horderly.issued _ hmem).2
  · intro id boot boot' n hn hn'
    obtain ⟨p, i, hp, horderly, hmem, rfl⟩ := hlive hn
    obtain ⟨q, j, hq, -, hmem', heq⟩ := hlive hn'
    obtain rfl : p = q := Option.some.inj (hp.symm.trans hq)
    obtain rfl : j = i := MonotonicCounter.ext heq
    exact congrArg Prod.fst (List.inj_on_of_nodup_map horderly.sequences hmem hmem' rfl)

/-- **A commit** issues the token that it answers, over a state with the same keys. -/
theorem commitRegistration_issues {request : RegisterParticipantRequest}
    {digest : SnapshotDigest} {commitGeneration : Bool} {t u : Txn Impl} {r : RegistrationResult}
    {s : DurableState} {T : Trust} {limits : Limits} (ht : t.state.Regular) (hs : Kept s)
    (hkeys : (t.state.state.participants.map (·.key)).Perm (s.participants.map (·.key)))
    (hmoves : Moves T limits s u.state.state)
    (hcovered : Registration.Covered u.state.state (request, r))
    (h : commitRegistration request digest (t.state.findParticipant request.participant)
      commitGeneration t = .ok r u) : Issues s u.state.state [(request, r)] := by
  obtain ⟨acts, hruns⟩ := Moves.tokens hmoves hs.orderly
  have hu := Moves.orderly hmoves hs.orderly
  obtain ⟨p, t₀, g, next, t₁, t₂, hopen, -, hnext, ht₁, hbump, rfl, -, hincarnation, -, -⟩ :=
    commitRegistration_ok h
  obtain ⟨hp, -, hoptions, hwritten⟩ := openRecord_written ht hopen
  have hbumped : t₂.state.state.participants = t₁.state.state.participants := by
    rcases bumpWhen_ok hbump with ⟨-, rfl⟩ | ⟨_, -, rfl⟩
    · rfl
    · rfl
  have hrecords : ∀ q ∈ t₂.state.state.participants,
      q = p.register t₀.state.options.limits request digest g p.nextIncarnation next ∨
        q ∈ t.state.state.participants ∧ q.id ≠ request.participant := by
    intro q hq
    rw [hbumped, ht₁] at hq
    exact hwritten g _ q hq
  -- the record that was opened is the one that was there, or a new one
  have hopened : t.state.state.record request.participant = p ∨
      p = .fresh request.participant request.policy ∧
        t.state.state.lookup request.participant = none := by
    cases hfound : t.state.findParticipant request.participant with
    | some p' =>
      rw [hfound] at hopen
      cases hopen
      rw [ht.find] at hfound
      exact .inl (DurableState.record_of_lookup hfound)
    | none =>
      rw [hfound] at hopen
      cases hopen
      rw [ht.find] at hfound
      exact .inr ⟨rfl, hfound⟩
  have hfirst : (s.record request.participant).nextIncarnation = p.nextIncarnation := by
    rw [← next_of_keys hs.orderly ht.orderly hkeys]
    rcases hopened with rfl | ⟨rfl, hmissing⟩
    · rfl
    · rw [DurableState.record_of_missing hmissing]
      rfl
  have horderly : OrderlyRecord p := by
    rcases hp with hp | rfl
    · exact ht.orderly.records p hp
    · exact .fresh _ _
  obtain ⟨_, _, -, -, q, hq, hqid, -⟩ := hcovered
  have hregistered : q = p.register t₀.state.options.limits request digest g p.nextIncarnation
      next := by
    rcases hrecords q hq with hnew | ⟨-, hne⟩
    · exact hnew
    · exact absurd hqid hne
  have hrecord : t₂.state.state.record request.participant = q := by
    refine DurableState.record_of_lookup ?_
    rw [← show q.id = request.participant from hqid]
    exact lookup_eq_some_of_mem hu.ids hq
  have hmoved : (t₂.state.state.record request.participant).nextIncarnation.value =
      (s.record request.participant).nextIncarnation.value + 1 := by
    rw [hrecord, hregistered, DurableParticipant.register_next, hfirst]
    exact MonotonicCounter.next_eq_some hnext
  have hothers : ∀ id, id ≠ request.participant →
      (t₂.state.state.record id).nextIncarnation = (s.record id).nextIncarnation := by
    intro id hid
    rw [← next_of_keys hs.orderly ht.orderly hkeys]
    cases hj : t₂.state.state.lookup id with
    | none =>
      -- no record is lost, so there was none
      have hbefore : s.lookup id = none := by
        refine lookup_none.mpr fun p' hp' hp'id => ?_
        obtain ⟨p'', hp'', hevolves⟩ := (Moves.evolves hmoves hs.orderly hs.floors).2.participants
          p' hp'
        exact lookup_none.mp hj p'' hp'' (hevolves.id.trans hp'id)
      rw [next_of_keys hs.orderly ht.orderly hkeys, DurableState.record_of_missing hj,
        DurableState.record_of_missing hbefore]
    | some q' =>
      obtain ⟨hq', rfl⟩ := DurableState.mem_of_lookup hj
      rcases hrecords q' hq' with hnew | ⟨hold, -⟩
      · refine absurd ?_ hid
        have hsame : q' = q := hnew.trans hregistered.symm
        rw [hsame]
        exact hqid
      · have hhere : t.state.state.lookup q'.id = some q' :=
          lookup_eq_some_of_mem ht.orderly.ids hold
        rw [DurableState.record_of_lookup hj, DurableState.record_of_lookup hhere]
  have hheld : t₂.state.state.tokens.holds request.participant request.boot =
      some (s.record request.participant).nextIncarnation.value := by
    show ((t₂.state.state.record request.participant).findIncarnation request.boot).map _ = _
    have hlive : (request.boot, p.nextIncarnation) ∈ q.live := by
      rw [hregistered, DurableParticipant.live_register horderly.compact]
      exact List.mem_append_right _ (List.mem_singleton_self _)
    rw [hrecord, DurableParticipant.find_of_mem_live (hu.records q hq) hlive, hfirst]
    rfl
  refine ⟨acts, hruns, ?_⟩
  rw [hruns.issued_one hs.orderly.lawful hmoved
    (fun id hid => congrArg MonotonicCounter.value (hothers id hid)) hheld]
  show [_] = [Registration.token (request, r)]
  unfold Registration.token
  dsimp only
  rw [hincarnation, ← hfirst]
  rfl

/-- **One registration**: an accepted one issues the token that it answers. -/
theorem applyRegistration_issues {request : RegisterParticipantRequest} {commitGeneration : Bool}
    {t u : Txn Impl} {r : RegistrationResult} (ht : t.state.Regular) (hf : Floors t.state.state)
    (h : applyRegistration request commitGeneration t = .ok r u) :
    Issues t.state.state u.state.state
      ([(request, r)].filter fun x : Registration => x.Accepted) := by
  by_cases haccepted : Registration.Accepted (request, r)
  swap
  · rw [List.filter_cons_of_neg (by simpa using haccepted)]
    cases applyRegistration_cases h with
    | answered approach refused => exact approach.issues ht
    | committed _ approach commit =>
      obtain ⟨_, _, _, -, -, hout, hreplayed, -⟩ :=
        commitRegistration_records (approach.advanced ht).regular commit
      exact absurd ⟨hout, hreplayed⟩ haccepted
  rw [List.filter_cons_of_pos (by simpa using haccepted)]
  have hadvanced := applyRegistration_advanced (T := .nothing) ht rfl False.elim False.elim
    False.elim False.elim h
  obtain ⟨acts, hruns⟩ := Moves.tokens hadvanced.moves ht.orderly
  have hcovered := (applyRegistration_accepts ht hf h).covered (request, r)
    (List.mem_filter.mpr ⟨List.mem_singleton_self _, by simpa using haccepted⟩)
  cases applyRegistration_cases h with
  | answered approach refused =>
    obtain ⟨hout, hreplayed⟩ := haccepted
    rw [refused hout] at hreplayed
    cases hreplayed
  | committed _ approach commit =>
    have hkeys := congrArg Prod.snd (approach.frame keysOf_record.toFenceFrame)
    exact commitRegistration_issues (approach.advanced ht).regular ⟨ht.orderly, hf⟩
      (List.Perm.of_eq hkeys) hadvanced.moves hcovered commit

/-- **A batch**, element by element. -/
theorem applyRegistrations_issues {requests : List RegisterParticipantRequest} {t u : Txn Impl}
    {rs : List RegistrationResult} (ht : t.state.Regular) (hf : Floors t.state.state)
    (h : applyRegistrations requests t = .ok rs u) :
    Issues t.state.state u.state.state
      ((requests.zip rs).filter fun x : Registration => x.Accepted) := by
  induction requests generalizing t rs with
  | nil =>
    cases h
    exact .of_tokens rfl
  | cons request requests ih =>
    obtain ⟨r, t', hfirst, h⟩ := Action.bind_ok.mp h
    obtain ⟨rs', u', hrest, h⟩ := Action.bind_ok.mp h
    cases h
    have hadvanced := applyRegistration_advanced (T := .nothing) ht rfl False.elim False.elim
      False.elim False.elim hfirst
    have hf' := (Moves.evolves hadvanced.moves ht.orderly hf).1
    have hboth := (applyRegistration_issues ht hf hfirst).append (ih hadvanced.regular hf' hrest)
    rwa [← List.filter_append] at hboth

/-- A batch behind its one bump of the generation. -/
theorem registerBatch_issues {requests : List RegisterParticipantRequest} {t u : Txn Impl}
    {rs : List RegistrationResult} (ht : t.state.Regular) (hf : Floors t.state.state)
    (h : registerBatch requests t = .ok rs u) :
    Issues t.state.state u.state.state
      ((requests.zip rs).filter fun x : Registration => x.Accepted) := by
  obtain ⟨rs', t', hall, h⟩ := Action.bind_ok.mp h
  rw [Action.bind_hasMutated] at h
  obtain ⟨⟨⟩, u', hbump, h⟩ := Action.bind_ok.mp h
  cases h
  have hissues := applyRegistrations_issues ht hf hall
  have hsame : u.state.state.tokens = t'.state.state.tokens := by
    rcases bumpWhen_ok hbump with ⟨-, rfl⟩ | ⟨_, -, rfl⟩
    · rfl
    · rfl
  have hboth := hissues.append (.of_tokens hsame)
  rwa [List.append_nil] at hboth

/-! ## One step -/

/-- Issuing goes on behind the barrier, which only orders the records. -/
theorem Issues.ordered {s : DurableState} {xs : List Registration} {impl u : Impl}
    (h : Issues s u.state xs) (hu : Orderly u.state) {ps : List DurableParticipant}
    (hperm : u.state.participants.Perm ps)
    (hstate : impl.state = { u.state with participants := ps }) : Issues s impl.state xs := by
  rw [hstate]
  have hboth := h.append (.of_tokens (DurableState.tokens_perm hu hperm))
  rwa [List.append_nil] at hboth

/-- **One call** issues what its answer accepts. -/
theorem callRuntime_issues {call : Call} {entropy : Entropy} {fault : Option SaveFault}
    {disk : Disk} {impl : Impl} {reply : Reply} (hs : impl.Settled) (hkept : Kept impl.state)
    (h : (callRuntime call entropy fault disk impl).result = .ok reply) :
    Issues impl.state (callRuntime call entropy fault disk impl).impl.state
      (acceptedBy (.call call entropy fault) (some (.ok reply))) := by
  have hprogress := callRuntime_progress (T := .nothing) False.elim hs False.elim
    ((Input.sound_nothing ⟨disk, some impl⟩ (.call call entropy fault)) impl rfl) h
  cases hcall : call.Registers with
  | true =>
    cases call with
    | register request =>
      obtain ⟨r, hr, rfl⟩ := Transacted.map_ok h
      have hadvanced : ∀ t, applyRegistration request true (Txn.start impl) = .ok r t →
          Advanced .nothing _ (Txn.start impl) t := fun t ht =>
        applyRegistration_advanced hs.regular rfl False.elim False.elim False.elim False.elim ht
      obtain ⟨t, ps, ht, hperm, hstate⟩ := transact_state hadvanced hr
      exact (applyRegistration_issues hs.regular hkept.floors ht).ordered
        (hadvanced t ht).regular.orderly hperm hstate
    | registerBatch requests =>
      obtain ⟨rs, hr, rfl⟩ := Transacted.map_ok h
      have hadvanced : ∀ t, FabricEpoch.registerBatch requests (Txn.start impl) = .ok rs t →
          Advanced .nothing _ (Txn.start impl) t := fun t ht =>
        registerBatch_advanced hs.regular rfl rfl False.elim False.elim False.elim False.elim ht
      obtain ⟨t, ps, ht, hperm, hstate⟩ := transact_state hadvanced hr
      exact (registerBatch_issues hs.regular hkept.floors ht).ordered
        (hadvanced t ht).regular.orderly hperm hstate
    | _ => cases hcall
  | false =>
    have hnone : acceptedBy (.call call entropy fault) (some (.ok reply)) = [] := by
      cases call with
      | register request => cases hcall
      | registerBatch requests => cases hcall
      | _ => rfl
    rw [hnone]
    obtain ⟨u, hkeys, hbehind⟩ := callRuntime_frame (keysOf_framed hcall) hs h
    obtain ⟨ps, hperm, hstate⟩ := hbehind.state
    refine .of_keys hprogress.moves hs.regular.orderly ?_
    rw [← show u.state.participants.map (·.key) = impl.state.participants.map (·.key) from
      congrArg Prod.snd hkeys, hstate]
    exact (hperm.map _).symm

/-- **One quiet step** issues what its answer accepts. -/
theorem quietStep_issues {host : Host} (hreach : coordinator.Reaches Quietly host) {input : Input}
    (hquiet : Quietly host input) :
    Issues host.state (coordinator.step host input).1.state
      (acceptedBy input (coordinator.step host input).2) := by
  have hkept := quietRun_kept hreach
  cases input with
  | «open» opening fault =>
    show Issues _ _ []
    cases hr : (openRuntime opening fault host.disk).2.2 with
    | error e => exact absurd (congrArg some hr) (hquiet e)
    | ok reply =>
      obtain ⟨impl', state, boot, hopened, hload, hprogress, -⟩ :=
        openRuntime_progress (T := .nothing) (fun state hload =>
          ⟨(hkept.disk.load hload).1.orderly, False.elim, False.elim⟩) hr
      obtain ⟨impl'', state', hopened', hload', hkeys, hevolves⟩ := openRuntime_keys hkept.disk hr
      obtain rfl : impl' = impl'' := Option.some.inj (hopened.symm.trans hopened')
      obtain rfl : state = state' := Except.ok.inj (hload.symm.trans hload')
      have horderly := (hkept.disk.load hload).1.orderly
      have hruntime : (coordinator.step host (.open opening fault)).1.runtime = some impl' := hopened
      rw [Host.state_of_some hruntime, ← quietRun_loads hreach hload]
      refine .of_keys hprogress.moves horderly (hevolves.keys_perm horderly
        (Moves.orderly hprogress.moves horderly) fun key hkey => ?_)
      obtain ⟨p, hp, rfl⟩ := List.mem_map.mp hkey
      exact hkeys p hp
  | call call entropy fault =>
    cases hruntime : host.runtime with
    | none =>
      -- there is nothing to call
      rw [coordinator_idle hruntime]
      have hnone : acceptedBy (.call call entropy fault) none = [] := by
        unfold acceptedBy
        split
        · next heq => cases heq
        · next heq => cases heq
        · rfl
      rw [hnone]
      exact .of_tokens rfl
    | some impl =>
      have hstep := coordinator_call hruntime call entropy fault
      obtain ⟨hs, hk, -, -⟩ := hkept.memory impl hruntime
      rw [hstep, Host.state_of_some hruntime]
      cases hr : (callRuntime call entropy fault host.disk impl).result with
      | error e => exact absurd (by rw [hstep, hr]) (hquiet e)
      | ok reply => exact callRuntime_issues hs hk hr

/-! ## Runs -/

/-- **A quiet run issues what its answers accept.** -/
theorem quietRun_issues {inputs : List Input} {host : Host}
    (hreach : coordinator.Reaches Quietly host) (h : coordinator.Allows Quietly host inputs) :
    Issues host.state (coordinator.run host inputs).state (accepted host inputs) := by
  induction inputs generalizing host with
  | nil => exact .of_tokens rfl
  | cons input inputs ih =>
    have hfirst := quietStep_issues hreach h.1
    exact hfirst.append (ih (hreach.tail input h.1) h.2)

/-- The coordinator over a run, as a token service. -/
structure ServesTokens (host : Host) (inputs : List Input) : Prop where
  /-- The run is one of the service, and issues what the answers accept. -/
  issues : Issues host.state (coordinator.run host inputs).state (accepted host inputs)
  /-- No number is held that was not issued, and none by two boots. -/
  lawful : (coordinator.run host inputs).state.tokens.Lawful
  /-- A token is current without a grant only for the boot that holds it, in its term. -/
  current : ∀ impl ∈ (coordinator.run host inputs).runtime, ∀ request : ValidateAuthorityRequest,
    request.grant = none → (impl.validate request).code = .current →
      request.token.epoch.value = impl.state.tokens.term ∧
      impl.state.tokens.holds request.token.participant request.token.boot =
        some request.token.incarnation.value ∧
      ¬ impl.state.tokens.closed request.token.participant

/-- **The coordinator is a token service**: from every state that a run without
exceptions has reached, along every such run. -/
theorem servesTokens {host : Host} (hreach : coordinator.Reaches Quietly host)
    {inputs : List Input} (h : coordinator.Allows Quietly host inputs) :
    ServesTokens host inputs := by
  have hreach' : coordinator.Reaches Quietly (coordinator.run host inputs) :=
    hreach.trans (Machine.leads_run h)
  have hissues := quietRun_issues hreach h
  refine ⟨hissues, ?_, ?_⟩
  · cases hruntime : (coordinator.run host inputs).runtime with
    | some impl =>
      rw [Host.state_of_some hruntime]
      exact ((quietRun_kept hreach').memory impl hruntime).2.1.orderly.lawful
    | none =>
      rw [quietRun_closed hreach' hruntime]
      exact Orderly.initial.lawful
  · intro impl himpl request hgrant hcurrent
    obtain ⟨hsettled, -⟩ := (quietRun_kept hreach').memory impl himpl
    obtain ⟨-, ⟨id, -, -, hid, -⟩ | ⟨-, p, husable⟩⟩ := validate_current_iff.mp hcurrent
    · rw [hgrant] at hid
      cases hid
    · have hfound := husable.found
      rw [hsettled.regular.find] at hfound
      have hrecord := DurableState.record_of_lookup hfound
      refine ⟨congrArg MonotonicCounter.value husable.epoch, ?_, ?_⟩
      · show ((impl.state.record _).findIncarnation _).map _ = _
        rw [hrecord, husable.incarnation]
        rfl
      · show ¬ (impl.state.record _).retired = true
        rw [hrecord, husable.notRetired]
        exact Bool.false_ne_true

theorem servesTokens_test : ServesTokens coordinator.init countedRun ∧
    (accepted coordinator.init countedRun).length = 3 :=
  ⟨servesTokens .refl (by decide +kernel), by decide +kernel⟩

/-- **Incarnations are numbered without a gap**: along a run without exceptions
the registrations of a participant that are accepted receive the numbers from its
allocator on, one after the other, and the allocator stands behind the last. -/
theorem registrations_numbered {host : Host} (hreach : coordinator.Reaches Quietly host)
    {inputs : List Input} (h : coordinator.Allows Quietly host inputs) (id : ParticipantId) :
    ((accepted host inputs).filter fun x => x.1.participant = id).map (fun x =>
        (x.2.incarnation.getD .zero).value) =
      List.range' (host.state.record id).nextIncarnation.value
        ((accepted host inputs).filter fun x => x.1.participant = id).length ∧
    ((coordinator.run host inputs).state.record id).nextIncarnation.value =
      (host.state.record id).nextIncarnation.value +
        ((accepted host inputs).filter fun x => x.1.participant = id).length := by
  obtain ⟨acts, hruns, hissued⟩ := quietRun_issues hreach h
  obtain ⟨hlength, hnumbers⟩ := hruns.numbers id
  have hfilter : (Tokens.issued acts).filter (fun token => token.party = id) =
      ((accepted host inputs).filter fun x => x.1.participant = id).map (·.token) := by
    rw [hissued, List.filter_map]
    rfl
  rw [hfilter, List.length_map] at hlength
  rw [hfilter, List.length_map, List.map_map] at hnumbers
  exact ⟨hnumbers, hlength.symm⟩

theorem registrations_numbered_test :
    ((accepted coordinator.init countedRun).filter fun x =>
      x.1.participant = testParticipant "p").map (fun x => (x.2.incarnation.getD .zero).value) =
        [1, 2] := by
  have hallows : coordinator.Allows Quietly coordinator.init countedRun := by decide +kernel
  have hnumbered := (registrations_numbered .refl hallows (testParticipant "p")).1
  have hlength : ((accepted coordinator.init countedRun).filter fun x =>
      x.1.participant = testParticipant "p").length = 2 := by decide +kernel
  rw [hlength] at hnumbered
  exact hnumbered

end FabricEpoch
