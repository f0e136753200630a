import FabricEpoch.RegisteredLive
import FabricEpoch.Runtime.Frames
import FabricEpoch.Snapshots

/-!
# What a rollback restores

An operation may throw in front of its durability barrier. Its undo actions then
restore the records, and no undo action restores an index: a throw is harmless
where no index entry had been made and no record had left a ring.

- `Impl.outline`: what the indexes are computed from, beside the indexes;
- `recordFence_restores`, `commitRegistration_restores`, ...: where a throw leads
  back to the outline;
- `Impl.SparesRegistration`, ...: no counter that an operation needs is used up
  behind its first entry.
-/

namespace FabricEpoch

open Table Transaction

/-! ## Outlines -/

/-- The keys of the records, and the indexes over them. -/
structure Outline where
  participants : List (ParticipantId × List WorkerBootId)
  fences : List WorkerBootId
  grants : List (AuthorityGrantId × Option AuthorityGrantId)
  participantIndex : ParticipantId → Option Nat
  bootIndex : WorkerBootId → Option Nat
  fenceIndex : WorkerBootId → List Nat
  grantIndex : AuthorityGrantId → Option Nat
  grantChildren : AuthorityGrantId → List Nat
  activeWorkers : Nat

/-- The keys of a participant. -/
def DurableParticipant.keys (p : DurableParticipant) : ParticipantId × List WorkerBootId :=
  (p.id, p.liveBoots)

namespace Impl

def outline (impl : Impl) : Outline where
  participants := impl.state.participants.map (·.keys)
  fences := impl.state.recentFences.map (·.boot)
  grants := impl.state.grants.map fun g => (g.id, g.parent)
  participantIndex := impl.participantIndex
  bootIndex := impl.bootIndex
  fenceIndex := impl.fenceIndex
  grantIndex := impl.grantIndex
  grantChildren := impl.grantChildren
  activeWorkers := impl.activeWorkers

variable {impl impl' : Impl}

theorem outline_rebuildIndexes (h : impl.outline = impl'.outline) :
    impl.rebuildIndexes.outline = impl'.rebuildIndexes.outline := by
  have hparticipants : impl.state.participants.map (·.keys) =
      impl'.state.participants.map (·.keys) := congrArg Outline.participants h
  have hfences : impl.state.recentFences.map (·.boot) = impl'.state.recentFences.map (·.boot) :=
    congrArg Outline.fences h
  have hgrants : impl.state.grants.map (fun g => (g.id, g.parent)) =
      impl'.state.grants.map fun g => (g.id, g.parent) := congrArg Outline.grants h
  -- every index reads one projection of the keys
  have hids : impl.state.participants.map (fun p => [p.id]) =
      impl'.state.participants.map fun p => [p.id] := by
    simpa [Function.comp_def, DurableParticipant.keys] using
      congrArg (List.map fun k => [k.1]) hparticipants
  have hboots : impl.state.participants.map (·.liveBoots) =
      impl'.state.participants.map (·.liveBoots) := by
    simpa [Function.comp_def, DurableParticipant.keys] using
      congrArg (List.map Prod.snd) hparticipants
  have hcount : impl.state.participants.map (·.liveBoots.length) =
      impl'.state.participants.map (·.liveBoots.length) := by
    simpa [Function.comp_def] using congrArg (List.map List.length) hboots
  have hboot : impl.state.recentFences.map (fun f => [f.boot]) =
      impl'.state.recentFences.map fun f => [f.boot] := by
    simpa [Function.comp_def] using congrArg (List.map fun b => [b]) hfences
  have hgrant : impl.state.grants.map (fun g => [g.id]) = impl'.state.grants.map fun g => [g.id] := by
    simpa [Function.comp_def] using congrArg (List.map fun k => [k.1]) hgrants
  have hparent : impl.state.grants.map (fun g => g.parent.toList) =
      impl'.state.grants.map fun g => g.parent.toList := by
    simpa [Function.comp_def] using congrArg (List.map fun k => k.2.toList) hgrants
  unfold outline rebuildIndexes
  dsimp only
  rw [hparticipants, hfences, hgrants, indexBy_congr hids, indexBy_congr hboots,
    groupBy_congr hboot, indexBy_congr hgrant, groupBy_congr hparent, hcount]

/-- Whether the indexes match can be seen in the outline. -/
theorem indexesMatch_iff : impl.IndexesMatch ↔ impl.rebuildIndexes.outline = impl.outline := by
  constructor
  · intro h
    rw [h]
  · intro h
    unfold IndexesMatch
    obtain ⟨options, state, participantIndex, bootIndex, fenceIndex, grantIndex, grantChildren,
      sessionIndex, bootSessionIndex, activeWorkers⟩ := impl
    unfold outline rebuildIndexes at h
    simp only [Outline.mk.injEq] at h
    unfold rebuildIndexes
    simp only [Impl.mk.injEq, true_and]
    exact ⟨h.2.2.2.1, h.2.2.2.2.1, h.2.2.2.2.2.1, h.2.2.2.2.2.2.1, h.2.2.2.2.2.2.2.1,
      h.2.2.2.2.2.2.2.2⟩

theorem IndexesMatch.of_outline (h : impl.IndexesMatch) (houtline : impl'.outline = impl.outline) :
    impl'.IndexesMatch := by
  rw [indexesMatch_iff] at h ⊢
  rw [outline_rebuildIndexes houtline, h, houtline]

theorem ids_of_outline (h : impl'.outline = impl.outline) : impl'.ids = impl.ids := by
  have hparticipants := congrArg Outline.participants h
  simpa [ids, outline, DurableParticipant.keys, Function.comp_def] using
    congrArg (List.map Prod.fst) hparticipants

/-- An index that matches leads to the one place of each identifier. -/
theorem IndexesMatch.exact (h : impl.IndexesMatch) (hn : impl.ids.Nodup) : impl.Exact := by
  refine ⟨hn, fun id i hi => ?_⟩
  rw [← h] at hi
  obtain ⟨p, hp, hid⟩ := indexBy_eq_some (show indexBy (fun p => [p.id]) impl.state.participants id =
    some i from hi)
  rw [ids_getElem?, hp, List.mem_singleton.mp hid]
  rfl

/-! ### What cannot be seen in the outline -/

/-- The function does nothing that can be seen in the outline. -/
def Unseen (f : Impl → Impl) : Prop := ∀ s, (f s).outline = s.outline

theorem outline_of_participants {ps : List DurableParticipant}
    (h : ps.map (·.keys) = impl.state.participants.map (·.keys)) :
    (impl.mapState fun s => { s with participants := ps }).outline = impl.outline := by
  unfold outline
  show Outline.mk (ps.map (·.keys)) _ _ _ _ _ _ _ _ = _
  rw [h]
  rfl

theorem unseen_updateParticipant {f : DurableParticipant → DurableParticipant}
    (h : ∀ p, (f p).keys = p.keys) (id : ParticipantId) : Unseen (updateParticipant id f) := by
  intro s
  unfold updateParticipant
  split
  · exact outline_of_participants (map_modify_of_forall h _ _)
  · rfl

theorem unseen_rawUpdateParticipant {f : DurableParticipant → DurableParticipant}
    (h : ∀ p, (f p).keys = p.keys) (id : ParticipantId) : Unseen (rawUpdateParticipant id f) :=
  fun _ => outline_of_participants (map_modifyFirst_of_forall h _)

theorem unseen_updateGrant {f : AuthorityGrant → AuthorityGrant}
    (h : ∀ g, ((f g).id, (f g).parent) = (g.id, g.parent)) (id : AuthorityGrantId) :
    Unseen (updateGrant id f) := by
  intro s
  unfold updateGrant
  split
  · next i _ =>
    show Outline.mk _ _ ((s.state.grants.modify i f).map fun g => (g.id, g.parent)) _ _ _ _ _ _ = _
    rw [map_modify_of_forall h]
    rfl
  · rfl

theorem unseen_revokeLoop (root : AuthorityGrantId) (fuel : Nat) (pending : List AuthorityGrantId)
    (n : Nat) (s : Impl) : (revokeLoop root fuel pending n s).1.outline = s.outline := by
  refine revokeLoop_keeps (P := fun s' => s'.outline = s.outline) (fun s' id hs => ?_) root fuel
    pending n rfl
  refine (unseen_updateGrant ?_ id s').trans hs
  exact fun _ => rfl

theorem unseen_restoreLoop (fuel : Nat) (pending : List AuthorityGrantId) (s : Impl) :
    (restoreLoop fuel pending s).outline = s.outline := by
  refine restoreLoop_keeps (P := fun s' => s'.outline = s.outline) (fun s' id hs => ?_) fuel
    pending rfl
  refine (unseen_updateGrant ?_ id s').trans hs
  exact fun _ => rfl

theorem unseen_undoRevoke (before : Impl) (g : AuthorityGrant) : Unseen (before.undoRevoke g) := by
  intro s
  refine (unseen_updateGrant ?_ g.id _).trans (unseen_restoreLoop (2 * s.state.grants.length + 2) [g.id]
    (s.resizeControlAttempts before.state.controlAttempts.length))
  exact fun _ => rfl

end Impl

open Impl

/-! ### Records -/

namespace DurableParticipant

variable (p : DurableParticipant)

@[simp] theorem keys_raiseFloor (i : IncarnationSequence) : (p.raiseFloor i).keys = p.keys := by
  unfold raiseFloor
  split <;> rfl

@[simp] theorem keys_setFenceGeneration (g : FencingGeneration) :
    (p.setFenceGeneration g).keys = p.keys := rfl

@[simp] theorem keys_retainFenced (limits : Limits) (boot : WorkerBootId) :
    (p.retainFenced limits boot).keys = p.keys := rfl

@[simp] theorem keys_remember (limits : Limits) (record : IdempotencyRecord) :
    (p.remember limits record).keys = p.keys := rfl

@[simp] theorem keys_restoreRetirement (before : DurableParticipant) :
    (before.restoreRetirement p).keys = p.keys := rfl

@[simp] theorem keys_retire : p.retire.keys = p.keys := by
  unfold retire
  split
  · rfl
  · exact keys_raiseFloor p _

/-- What is live is restored with the rest. -/
theorem keys_restoreFence (before : DurableParticipant) (h : p.id = before.id) :
    (before.restoreFence p).keys = before.keys := by
  show (p.id, (before.restoreFence p).liveBoots) = (before.id, before.liveBoots)
  rw [h]
  rfl

end DurableParticipant

/-- A record that was changed through the index is put back by a scan. -/
theorem map_modifyFirst_of_modify {l m : List DurableParticipant} {id : ParticipantId} {i : Nat}
    {p : DurableParticipant} {f g : DurableParticipant → DurableParticipant}
    (hn : (l.map (·.id)).Nodup) (hp : l[i]? = some p) (hid : p.id = id)
    (hf : ∀ q, (f q).id = q.id) (hg : ∀ q, q.id = id → (g q).keys = p.keys)
    (hm : m.map (·.keys) = (l.modify i f).map (·.keys)) :
    (modifyFirst DurableParticipant.id id g m).map (·.keys) = l.map (·.keys) := by
  induction l generalizing i m with
  | nil => cases hp
  | cons a l ih =>
    rw [List.map_cons, List.nodup_cons] at hn
    cases i with
    | zero =>
      obtain rfl : a = p := by simpa using hp
      cases m with
      | nil => cases hm
      | cons b m =>
        obtain ⟨hb, hrest⟩ : b.keys = (f a).keys ∧ m.map (·.keys) = l.map (·.keys) :=
          List.cons.inj hm
        have hbid : b.id = id := (congrArg Prod.fst hb).trans ((hf a).trans hid)
        rw [modifyFirst, if_pos hbid, List.map_cons, List.map_cons, hg b hbid, hrest]
    | succ i =>
      have hp' : l[i]? = some p := by simpa using hp
      have ha : a.id ≠ id := fun h =>
        hn.1 (by rw [h, ← hid]; exact List.mem_map_of_mem (List.mem_of_getElem? hp'))
      cases m with
      | nil => cases hm
      | cons b m =>
        rw [List.modify_succ_cons] at hm
        obtain ⟨hb, hrest⟩ : b.keys = a.keys ∧ m.map (·.keys) = (l.modify i f).map (·.keys) :=
          List.cons.inj hm
        have hbid : b.id ≠ id := fun h => ha ((congrArg Prod.fst hb).symm.trans h)
        rw [modifyFirst, if_neg hbid, List.map_cons, List.map_cons, hb, ih hn.2 hp' hrest]

/-- What was pushed behind the records is cut off again. -/
theorem map_resize_concat {α β : Type} {l m : List α} {f : α → β} {a d : α}
    (h : m.map f = (l ++ [a]).map f) : (resize d l.length m).map f = l.map f := by
  have hlength : m.length = l.length + 1 := by
    simpa using congrArg List.length h
  unfold resize
  rw [show l.length - m.length = 0 by omega, List.replicate_zero, List.append_nil, List.map_take, h,
    List.map_append, List.take_left' (List.length_map _)]

theorem map_resize_self {α β : Type} {l m : List α} {f : α → β} {d : α} (h : m.map f = l.map f) :
    (resize d l.length m).map f = l.map f := by
  have hlength : m.length = l.length := by simpa using congrArg List.length h
  unfold resize
  rw [hlength, Nat.sub_self, List.replicate_zero, List.append_nil, ← hlength, List.take_length, h]

/-! ## Fences -/

section Fences

variable {impl s : Impl} {id : ParticipantId} {boot : WorkerBootId} {p : DurableParticipant}
  {record : FenceRecord}

theorem outline_updateParticipant {i : Nat} (hi : impl.participantIndex id = some i)
    (f : DurableParticipant → DurableParticipant) : (impl.updateParticipant id f).outline =
      { impl.outline with participants := (impl.state.participants.modify i f).map (·.keys) } := by
  unfold updateParticipant
  rw [hi]
  rfl

theorem outline_applyPreventive : (impl.applyPreventive id record).outline =
    { impl.outline with fences := (impl.state.recentFences ++ [record]).map (·.boot) } := by
  have hunseen : (updateParticipant id (·.setFenceGeneration record.generation)
      (impl.setFenceFloor record.generation)).outline = impl.outline :=
    unseen_updateParticipant (fun q => q.keys_setFenceGeneration _) id
      (impl.setFenceFloor record.generation)
  have hfences : (updateParticipant id (·.setFenceGeneration record.generation)
      (impl.setFenceFloor record.generation)).state.recentFences = impl.state.recentFences :=
    recentFences_updateParticipant _ _ _
  show { (updateParticipant id (·.setFenceGeneration record.generation)
    (impl.setFenceFloor record.generation)).outline with fences := ((updateParticipant id
      (·.setFenceGeneration record.generation)
      (impl.setFenceFloor record.generation)).state.recentFences ++ [record]).map FenceRecord.boot } = _
  rw [hunseen, hfences]

/-- A preventive fence only pushes. -/
theorem outline_undoPreventive (hs : s.outline = (impl.applyPreventive id record).outline) :
    (impl.undoPreventive id p s).outline = impl.outline := by
  rw [outline_applyPreventive] at hs
  have hfences : s.state.recentFences.map (·.boot) =
      (impl.state.recentFences ++ [record]).map (·.boot) := congrArg Outline.fences hs
  refine (unseen_rawUpdateParticipant (f := (·.setFenceGeneration p.fenceGeneration))
    (fun _ => rfl) id _).trans ?_
  show { s.outline with
    fences := (resize FenceRecord.blank impl.state.recentFences.length s.state.recentFences).map
      FenceRecord.boot } = _
  rw [map_resize_concat hfences, hs]
  rfl

theorem outline_applyRemoval {incarnation : IncarnationSequence} {i : Nat}
    (hi : impl.participantIndex id = some i) : (impl.applyRemoval id boot incarnation).outline =
      { impl.outline with
        participants := (impl.state.participants.modify i (·.removeIncarnation boot)).map (·.keys)
        activeWorkers := impl.activeWorkers - 1 } := by
  refine (unseen_updateParticipant (fun q => q.keys_raiseFloor incarnation) id _).trans ?_
  show { (impl.updateParticipant id (·.removeIncarnation boot)).outline with
    activeWorkers := impl.activeWorkers - 1 } = _
  rw [outline_updateParticipant hi]

/-- While the ring has room, a fence only pushes. -/
theorem outline_applyFence
    (hroom : impl.state.recentFences.length < impl.options.limits.maxRecentFences) :
    (impl.applyFence id record).outline =
      { impl.outline with fences := (impl.state.recentFences ++ [record]).map (·.boot) } := by
  have hunseen : (updateParticipant id (fun p => (p.setFenceGeneration record.generation).retainFenced
      impl.options.limits record.boot) (impl.setFenceFloor record.generation)).outline =
      impl.outline :=
    unseen_updateParticipant (f := fun p => (p.setFenceGeneration record.generation).retainFenced
      impl.options.limits record.boot) (fun _ => rfl) id (impl.setFenceFloor record.generation)
  have hfences : (updateParticipant id (fun p => (p.setFenceGeneration record.generation).retainFenced
      impl.options.limits record.boot) (impl.setFenceFloor record.generation)).state.recentFences =
      impl.state.recentFences := recentFences_updateParticipant _ _ _
  show { (updateParticipant id (fun p => (p.setFenceGeneration record.generation).retainFenced
    impl.options.limits record.boot) (impl.setFenceFloor record.generation)).outline with
      fences := (evictPush impl.options.limits.maxRecentFences (updateParticipant id
        (fun p => (p.setFenceGeneration record.generation).retainFenced impl.options.limits
          record.boot) (impl.setFenceFloor record.generation)).state.recentFences record).map
            FenceRecord.boot } = _
  rw [hunseen, hfences, evictPush, if_neg (Nat.not_le.mpr hroom)]

/-- The undo of a fence puts the boot and the ring back, if it finds nothing else
changed. -/
theorem outline_undoFence (hexact : impl.Exact) {i : Nat}
    (hi : impl.participantIndex id = some i) (hp : impl.state.participants[i]? = some p)
    {fences : List WorkerBootId} {workers : Nat}
    (hs : s.outline = { impl.outline with
      participants := (impl.state.participants.modify i (·.removeIncarnation boot)).map (·.keys)
      fences := fences
      activeWorkers := workers })
    (hfences : (resize .blank impl.state.recentFences.length s.state.recentFences).map (·.boot) =
      impl.state.recentFences.map (·.boot)) : (impl.undoFence id p s).outline = impl.outline := by
  have hid : p.id = id := by
    have hplace := hexact.place id i hi
    rw [ids_getElem?, hp] at hplace
    exact Option.some.inj hplace
  have hparticipants : (modifyFirst DurableParticipant.id id p.restoreFence
      s.state.participants).map (·.keys) = impl.state.participants.map (·.keys) :=
    map_modifyFirst_of_modify hexact.nodup hp hid (fun q => q.removeIncarnation_id boot)
      (fun q hq => q.keys_restoreFence p (hq.trans hid.symm)) (congrArg Outline.participants hs)
  show { s.outline with
    participants := (modifyFirst DurableParticipant.id id p.restoreFence
      s.state.participants).map DurableParticipant.keys
    fences := (resize FenceRecord.blank impl.state.recentFences.length s.state.recentFences).map
      FenceRecord.boot
    activeWorkers := impl.activeWorkers } = _
  rw [hparticipants, hfences, hs]
  rfl

end Fences

/-! ### A fence that throws -/

namespace Impl

/-- The ring of recent fences takes another record without losing one. -/
def RingHasRoom (impl : Impl) : Prop :=
  impl.state.recentFences.length < impl.options.limits.maxRecentFences

/-- If the fence of a live boot gets as far as its record, the record evicts none
or the generation can be raised behind it. -/
def SparesFence (impl : Impl) (id : ParticipantId) (boot : WorkerBootId) : Prop :=
  ∀ p i, impl.findParticipant id = some p → (impl.lookupFence id boot).fenced = false →
    p.findIncarnation boot = some i → impl.state.fenceFloor.next ≠ none →
    impl.RingHasRoom ∨ impl.state.generation.next ≠ none

end Impl

section Throwing

variable {x : Outline} {t t' u : Txn Impl} {e : EpochError} {id : ParticipantId}
  {boot : WorkerBootId} {reason : FenceReason} {note : BoundedText} {p : DurableParticipant}

theorem restores_bump {g : EpochGeneration} {m : Bool} (ht : Restores outline x t) :
    Restores outline x ⟨t.state, Impl.setGeneration g :: t.undo, m⟩ :=
  ht.push (f := Impl.setGeneration g) (fun _ hs => hs) rfl

theorem restores_preventive {record : FenceRecord} {m : Bool} (ht : Restores outline x t) :
    Restores outline x
      ⟨t.state.applyPreventive id record, t.state.undoPreventive id p :: t.undo, m⟩ :=
  ht.push (fun _ hs => outline_undoPreventive hs) rfl

theorem restores_removal {incarnation : IncarnationSequence} {m : Bool}
    (ht : Restores outline x t) (hexact : t.state.Exact) (hp : t.state.findParticipant id = some p) :
    Restores outline x
      ⟨t.state.applyRemoval id boot incarnation, t.state.undoFence id p :: t.undo, m⟩ := by
  obtain ⟨i, hi, hrecord⟩ := findParticipant_eq_some.mp hp
  refine ht.push (fun s hs => ?_) rfl
  have hs' := hs.trans (outline_applyRemoval hi)
  exact outline_undoFence hexact hi hrecord hs' (map_resize_self (congrArg Outline.fences hs'))

theorem restores_fence {incarnation : IncarnationSequence} {record : FenceRecord} {m : Bool}
    (ht : Restores outline x t) (hexact : t.state.Exact) (hp : t.state.findParticipant id = some p)
    (hroom : t.state.RingHasRoom) : Restores outline x
      ⟨(t.state.applyRemoval id boot incarnation).applyFence id record,
        t.state.undoFence id p :: t.undo, m⟩ := by
  obtain ⟨i, hi, hrecord⟩ := findParticipant_eq_some.mp hp
  have hroom' : (t.state.applyRemoval id boot incarnation).RingHasRoom := by
    unfold RingHasRoom
    rw [recentFences_applyRemoval, options_applyRemoval]
    exact hroom
  refine ht.push (fun s hs => ?_) rfl
  rw [outline_applyFence hroom', outline_applyRemoval hi, recentFences_applyRemoval] at hs
  exact outline_undoFence hexact hi hrecord hs (map_resize_concat (congrArg Outline.fences hs))

/-- Where the fence of a live boot can throw. -/
theorem fenceIncarnation_error {incarnation : IncarnationSequence}
    (h : fenceIncarnation id p boot incarnation reason note t = .error e t') :
    t.state.state.fenceFloor.next = none ∧ t' =
        ⟨t.state.applyRemoval id boot incarnation, t.state.undoFence id p :: t.undo, t.mutated⟩ ∨
      ∃ generation record g, t.state.state.fenceFloor.next = some generation ∧
        t.state.state.generation.next = none ∧
        t' = ⟨(t.state.applyRemoval id boot incarnation).applyFence id record,
          Impl.setGeneration g :: t.state.undoFence id p :: t.undo, t.mutated⟩ := by
  simp only [fenceIncarnation, Action.bind_current, Action.bind_pushUndo, Action.bind_modify] at h
  rcases Action.bind_error.mp h with hthrow | ⟨generation, v, horfail, hrest⟩
  · obtain ⟨hspent, -, rfl⟩ := Action.orFail_error.mp hthrow
    exact .inl ⟨hspent, rfl⟩
  obtain ⟨hfloor, rfl⟩ := Action.orFail_ok.mp horfail
  rw [Action.bind_modify] at hrest
  rcases Action.bind_error.mp hrest with hbump | ⟨⟨⟩, w, -, hlast⟩
  · obtain ⟨hspent, rfl⟩ := bumpGeneration_error hbump
    refine .inr ⟨generation, _, _, hfloor, ?_, rfl⟩
    rw [← hspent]
    exact congrArg MonotonicCounter.next (generation_applyFence _ _ _ _ _).symm
  · cases hlast

theorem fenceIncarnation_restores {incarnation : IncarnationSequence} (ht : Restores outline x t)
    (hexact : t.state.Exact) (hp : t.state.findParticipant id = some p)
    (hspare : t.state.state.fenceFloor.next ≠ none →
      t.state.RingHasRoom ∨ t.state.state.generation.next ≠ none)
    (h : fenceIncarnation id p boot incarnation reason note t = .error e t') :
    Restores outline x t' := by
  rcases fenceIncarnation_error h with ⟨-, rfl⟩ | ⟨generation, record, g, hfloor, hspent, rfl⟩
  · exact restores_removal ht hexact hp
  · rcases hspare (by rw [hfloor]; exact Option.some_ne_none _) with hroom | hleft
    · exact restores_bump (restores_fence (m := t.mutated) ht hexact hp hroom)
    · exact absurd hspent hleft

/-- Where a preventive fence can throw. -/
theorem recordPreventiveFence_error (h : recordPreventiveFence id p boot reason note t = .error e t') :
    t.state.state.fenceFloor.next = none ∧ t' = t ∨ t.state.state.generation.next = none ∧
      ∃ record g, t' = ⟨t.state.applyPreventive id record,
        Impl.setGeneration g :: t.state.undoPreventive id p :: t.undo, t.mutated⟩ := by
  simp only [recordPreventiveFence, Action.bind_current] at h
  rcases Action.bind_error.mp h with hthrow | ⟨generation, v, horfail, hrest⟩
  · obtain ⟨hspent, -, rfl⟩ := Action.orFail_error.mp hthrow
    exact .inl ⟨hspent, rfl⟩
  obtain ⟨-, rfl⟩ := Action.orFail_ok.mp horfail
  rw [Action.bind_pushUndo, Action.bind_modify] at hrest
  rcases Action.bind_error.mp hrest with hbump | ⟨⟨⟩, w, -, hlast⟩
  · obtain ⟨hspent, rfl⟩ := bumpGeneration_error hbump
    refine .inr ⟨?_, _, _, rfl⟩
    rw [← hspent]
    exact congrArg MonotonicCounter.next (generation_applyPreventive _ _ _).symm
  · cases hlast

theorem recordFence_error {defensive : Bool}
    (h : recordFence id boot reason note defensive t = .error e t') :
    ∃ p, t.state.findParticipant id = some p ∧ (t.state.lookupFence id boot).fenced = false ∧
      ((∃ i, p.findIncarnation boot = some i ∧
        fenceIncarnation id p boot i reason note t = .error e t') ∨
      recordPreventiveFence id p boot reason note t = .error e t') := by
  unfold recordFence at h
  rw [Action.bind_current] at h
  cases hp : t.state.findParticipant id with
  | none =>
    simp only [hp] at h
    cases h
  | some p =>
  simp only [hp] at h
  by_cases hfenced : (t.state.lookupFence id boot).fenced = true
  · rw [if_pos hfenced] at h
    cases h
  rw [if_neg hfenced] at h
  refine ⟨p, rfl, Bool.not_eq_true _ ▸ hfenced, ?_⟩
  cases hlive : p.findIncarnation boot with
  | some i =>
    simp only [hlive] at h
    exact .inl ⟨i, rfl, h⟩
  | none =>
    simp only [hlive] at h
    split at h
    · cases h
    split at h
    · cases h
    · exact .inr h

/-- **A fence that throws leads back** where it is spared. -/
theorem recordFence_restores {defensive : Bool} (ht : Restores outline x t)
    (hexact : t.state.Exact) (hspare : t.state.SparesFence id boot)
    (h : recordFence id boot reason note defensive t = .error e t') : Restores outline x t' := by
  obtain ⟨p, hp, hfree, ⟨i, hlive, hthrow⟩ | hthrow⟩ := recordFence_error h
  · exact fenceIncarnation_restores ht hexact hp (hspare p i hp hfree hlive) hthrow
  · rcases recordPreventiveFence_error hthrow with ⟨-, rfl⟩ | ⟨-, record, g, rfl⟩
    · exact ht
    · exact restores_bump (restores_preventive (m := t.mutated) ht)

/-- A fence that returns can be undone while the ring has room. -/
theorem recordFence_undone {defensive : Bool} {r : FenceResult} (ht : Restores outline x t)
    (hexact : t.state.Exact) (hroom : t.state.state.fenceFloor.next ≠ none → t.state.RingHasRoom)
    (h : recordFence id boot reason note defensive t = .ok r u) : Restores outline x u := by
  cases recordFence_cases h with
  | unknown _ _ => exact ht
  | already _ _ => exact ht
  | notLive _ _ _ => exact ht
  | full _ _ => exact ht
  | preventive _ _ _ _ _ _ _ _ _ =>
    exact (restores_bump (m := true) (restores_preventive (m := true) ht)).same rfl rfl
  | live _ found _ floor _ _ =>
    have hroom' := hroom (by rw [floor]; exact Option.some_ne_none _)
    exact (restores_bump (m := true) (restores_fence (m := true) ht hexact found hroom')).same rfl rfl

end Throwing

/-! ## Registrations -/

section Registrations

variable {x : Outline} {t t' u : Txn Impl} {e : EpochError} {request : RegisterParticipantRequest}
  {digest : SnapshotDigest} {participant : Option DurableParticipant} {p : DurableParticipant}
  {c : Bool}

theorem bumpWhen_error (h : bumpWhen c t = .error e t') :
    c = true ∧ t.state.state.generation.next = none := by
  cases c with
  | false => cases h
  | true => exact ⟨rfl, (bumpGeneration_error h).1⟩

/-- Opening the record does not throw. -/
theorem openRecord_opens : ∃ q t₀, openRecord request participant t = .ok q t₀ ∧
    t₀.state.state.registrationFloor = t.state.state.registrationFloor ∧
    t₀.state.state.generation = t.state.state.generation ∧
    ((participant = none ∧ q = .fresh request.participant request.policy) ∨
      participant = some q ∧
        t₀ = ⟨t.state, Impl.restoreParticipant request.participant q :: t.undo, t.mutated⟩) := by
  cases participant with
  | none => exact ⟨_, _, rfl, rfl, rfl, .inl ⟨rfl, rfl⟩⟩
  | some q => exact ⟨_, _, rfl, rfl, rfl, .inr ⟨rfl, rfl⟩⟩

/-- **Where a commit can throw.** -/
theorem commitRegistration_error
    (h : commitRegistration request digest participant c t = .error e t') :
    ∃ q t₀, openRecord request participant t = .ok q t₀ ∧
      (t.state.state.registrationFloor.next = none ∧ t' = t₀ ∨
        q.nextIncarnation.next = none ∧ (∃ g g', t' = ⟨t₀.state.setRegistrationFloor g,
          Impl.setRegistrationFloor g' :: t₀.undo, t₀.mutated⟩) ∨
        t.state.state.registrationFloor.next ≠ none ∧ q.nextIncarnation.next ≠ none ∧ c = true ∧
          t.state.state.generation.next = none) := by
  obtain ⟨q, t₀, hopen, hfloor, hgeneration, -⟩ := @openRecord_opens t request participant
  refine ⟨q, t₀, hopen, ?_⟩
  rcases Action.bind_error.mp h with hthrow | ⟨q', t₁, hopen', hrest⟩
  · rw [hopen] at hthrow
    cases hthrow
  obtain ⟨rfl, rfl⟩ : q = q' ∧ t₀ = t₁ := by
    rw [hopen] at hopen'
    cases hopen'
    exact ⟨rfl, rfl⟩
  rw [Action.bind_current] at hrest
  rcases Action.bind_error.mp hrest with hthrow | ⟨g, t₁, horfail, hrest⟩
  · obtain ⟨hspent, -, rfl⟩ := Action.orFail_error.mp hthrow
    exact .inl ⟨hfloor ▸ hspent, rfl⟩
  obtain ⟨hg, rfl⟩ := Action.orFail_ok.mp horfail
  rw [Action.bind_pushUndo, Action.bind_modify] at hrest
  rcases Action.bind_error.mp hrest with hthrow | ⟨next, t₁, horfail, hrest⟩
  · obtain ⟨hspent, -, rfl⟩ := Action.orFail_error.mp hthrow
    exact .inr (.inl ⟨hspent, _, _, rfl⟩)
  obtain ⟨hnext, rfl⟩ := Action.orFail_ok.mp horfail
  rw [Action.bind_modify] at hrest
  rcases Action.bind_error.mp hrest with hbump | ⟨⟨⟩, t₂, -, hlast⟩
  swap
  · cases hlast
  obtain ⟨hc, hspent⟩ := bumpWhen_error hbump
  refine .inr (.inr ⟨?_, ?_, hc, ?_⟩)
  · rw [← hfloor, hg]
    exact Option.some_ne_none _
  · rw [hnext]
    exact Option.some_ne_none _
  · rw [← hspent, ← hgeneration]
    show _ = (Impl.updateParticipant _ _ _).state.generation.next
    rw [generation_updateParticipant]
    rfl

namespace Impl

/-- The commit of a registration makes no index entry in front of a counter that
is used up: a new participant is indexed first of all, the boot last. -/
def SparesCommit (impl : Impl) : Option DurableParticipant → Prop
  | none => impl.state.registrationFloor.next ≠ none ∧ impl.state.generation.next ≠ none
  | some p => impl.state.registrationFloor.next = none ∨ p.nextIncarnation.next = none ∨
      impl.state.generation.next ≠ none

end Impl

theorem commitRegistration_restores (ht : Restores outline x t) (hexact : t.state.Exact)
    (hfind : t.state.findParticipant request.participant = participant)
    (hspare : t.state.SparesCommit participant)
    (h : commitRegistration request digest participant true t = .error e t') :
    Restores outline x t' := by
  obtain ⟨q, t₀, hopen, hcases⟩ := commitRegistration_error h
  cases participant with
  | none =>
    cases hopen
    obtain ⟨hfloor, hgeneration⟩ : _ ∧ _ := hspare
    rcases hcases with ⟨hspent, -⟩ | ⟨hspent, -⟩ | ⟨-, -, -, hspent⟩
    · exact absurd hspent hfloor
    · exact absurd (MonotonicCounter.next_eq_none.mp hspent) (show (1 : Nat) ≠ maxValue by decide)
    · exact absurd hspent hgeneration
  | some q' =>
    cases hopen
    -- what is put back is the record as it is
    have hopened : ∀ m, Restores outline x
        ⟨t.state, Impl.restoreParticipant request.participant q :: t.undo, m⟩ := by
      intro m
      obtain ⟨i, hi, hp⟩ := findParticipant_eq_some.mp hfind
      have hid : q.id = request.participant := by
        have hplace := hexact.place _ i hi
        rw [ids_getElem?, hp] at hplace
        exact Option.some.inj hplace
      refine ht.push (fun s hs => ?_) rfl
      have hkeys : s.state.participants.map (·.keys) =
          (t.state.state.participants.modify i fun p => p).map (·.keys) := by
        rw [show (fun p : DurableParticipant => p) = id from rfl, List.modify_id]
        exact congrArg Outline.participants hs
      rw [← hs]
      refine outline_of_participants ?_
      rw [map_modifyFirst_of_modify hexact.nodup hp hid (fun _ => rfl) (fun _ _ => rfl) hkeys]
      exact (congrArg Outline.participants hs).symm
    rcases hcases with ⟨-, rfl⟩ | ⟨-, g, g', rfl⟩ | ⟨hfloor, hnext, -, hspent⟩
    · exact hopened t.mutated
    · exact (hopened t.mutated).push (f := Impl.setRegistrationFloor g') (fun _ hs => hs) rfl
    · rcases (hspare : _ ∨ _ ∨ _) with hspent' | hspent' | hleft
      · exact absurd hspent' hfloor
      · exact absurd hspent' hnext
      · exact absurd hspent hleft

theorem replaceIncumbent_error (h : replaceIncumbent request p t = .error e t') :
    ∃ boot, p.incumbent = some boot ∧ p.policy = .singleIncarnation ∧
      t.state.options.replacementPolicy = .replaceIncumbent ∧
      recordFence request.participant boot .reincarnation .blank false t = .error e t' := by
  unfold replaceIncumbent at h
  cases hincumbent : p.incumbent with
  | none =>
    simp only [hincumbent] at h
    cases h
  | some boot =>
    simp only [hincumbent] at h
    by_cases hpolicy : p.policy = .singleIncarnation
    swap
    · rw [if_neg hpolicy] at h
      cases h
    rw [if_pos hpolicy, Action.bind_current] at h
    cases hreplace : t.state.options.replacementPolicy with
    | requireExplicitFence =>
      simp only [hreplace] at h
      cases h
    | replaceIncumbent =>
      simp only [hreplace] at h
      rcases Action.bind_error.mp h with hfence | ⟨r, t₁, -, hrest⟩
      · exact ⟨boot, rfl, hpolicy, rfl, hfence⟩
      · split at hrest
        · cases hrest
        · cases hrest

/-- The record is still found where it was. -/
theorem find_of_samePlaces {impl impl' : Impl} {id : ParticipantId}
    (hplaces : SamePlaces impl impl') (hp : impl.findParticipant id = some p) :
    ∃ q, impl'.findParticipant id = some q ∧ q.id = p.id := by
  obtain ⟨i, hi, hrecord⟩ := findParticipant_eq_some.mp hp
  have hid : impl'.ids[i]? = some p.id := by
    rw [hplaces.ids, ids_getElem?, hrecord]
    rfl
  rw [ids_getElem?] at hid
  obtain ⟨q, hq, hqid⟩ := Option.map_eq_some_iff.mp hid
  exact ⟨q, findParticipant_eq_some.mpr ⟨i, by rw [hplaces.index]; exact hi, hq⟩, hqid⟩

/-- **Where a registration can throw**, behind the checks it has passed. -/
inductive RegistrationThrow (request : RegisterParticipantRequest) (c : Bool) (t : Txn Impl)
    (e : EpochError) (t' : Txn Impl) : Prop
  | semantic {e' : EpochError} (eq : computeSemanticDigest request.semantic = .error e')
      (same : t' = t)
  | create {digest : SnapshotDigest} (eq : computeSemanticDigest request.semantic = .ok digest)
      (missing : t.state.findParticipant request.participant = none)
      (commit : commitRegistration request digest none c t = .error e t')
  | fence {digest : SnapshotDigest} {p : DurableParticipant} {boot : WorkerBootId}
      (eq : computeSemanticDigest request.semantic = .ok digest)
      (found : t.state.findParticipant request.participant = some p)
      (calm : t.state.conflictingRegistration p request digest = none)
      (incumbent : p.incumbent = some boot) (policy : p.policy = .singleIncarnation)
      (replace : t.state.options.replacementPolicy = .replaceIncumbent)
      (fence : recordFence request.participant boot .reincarnation .blank false t = .error e t')
  | update {digest : SnapshotDigest} {p q : DurableParticipant} {t₁ : Txn Impl}
      (eq : computeSemanticDigest request.semantic = .ok digest)
      (found : t.state.findParticipant request.participant = some p)
      (calm : t.state.conflictingRegistration p request digest = none)
      (replace : ReplaceCase request p t t₁)
      (again : t₁.state.findParticipant request.participant = some q)
      (commit : commitRegistration request digest (some q) c t₁ = .error e t')

theorem admitRegistration_error
    (h : admitRegistration request digest participant c t = .error e t') :
    commitRegistration request digest participant c t = .error e t' := by
  unfold admitRegistration at h
  rw [Action.bind_current] at h
  split at h
  · cases h
  · exact h

theorem applyRegistration_error (h : applyRegistration request c t = .error e t') :
    t.state.malformedRegistration request = none ∧ t.state.staleRegistration request = none ∧
      RegistrationThrow request c t e t' := by
  unfold applyRegistration at h
  rw [Action.bind_current] at h
  cases hmalformed : t.state.malformedRegistration request with
  | some result =>
    simp only [hmalformed] at h
    cases h
  | none =>
  cases hstale : t.state.staleRegistration request with
  | some result =>
    simp only [hmalformed, hstale] at h
    cases h
  | none =>
  simp only [hmalformed, hstale] at h
  refine ⟨rfl, rfl, ?_⟩
  rcases Action.bind_error.mp h with hthrow | ⟨digest, t₁, hdigest, hrest⟩
  · obtain ⟨heq, rfl⟩ := Action.ofExcept_error.mp hthrow
    exact .semantic heq rfl
  obtain ⟨hsemantic, rfl⟩ := Action.ofExcept_ok.mp hdigest
  cases hfound : t₁.state.findParticipant request.participant with
  | none =>
    simp only [hfound] at hrest
    unfold registerNew at hrest
    rw [Action.bind_current] at hrest
    split at hrest
    · cases hrest
    · exact .create hsemantic hfound (admitRegistration_error hrest)
  | some p =>
    simp only [hfound] at hrest
    cases hcalm : t₁.state.conflictingRegistration p request digest with
    | some result =>
      simp only [hcalm] at hrest
      cases hrest
    | none =>
      simp only [hcalm] at hrest
      rcases Action.bind_error.mp hrest with hthrow | ⟨refusal, t₂, hreplace, hlast⟩
      · obtain ⟨boot, hincumbent, hpolicy, hreplace, hfence⟩ := replaceIncumbent_error hthrow
        exact .fence hsemantic hfound hcalm hincumbent hpolicy hreplace hfence
      cases refusal with
      | some result => cases hlast
      | none =>
        dsimp only at hlast
        rw [Action.bind_current] at hlast
        cases hagain : t₂.state.findParticipant request.participant with
        | some q =>
          simp only [hagain] at hlast
          exact .update hsemantic hfound hcalm (replaceIncumbent_cases hfound hreplace) hagain
            (admitRegistration_error hlast)
        | none =>
          obtain ⟨q, hq, -⟩ := find_of_samePlaces (replaceIncumbent_samePlaces hfound hreplace) hfound
          exact absurd (hagain.symm.trans hq).symm (Option.some_ne_none _)

/-! ### One registration -/

theorem floorOf_updateParticipant (id : ParticipantId)
    (f : DurableParticipant → DurableParticipant) (s : Impl) :
    (s.updateParticipant id f).state.registrationFloor = s.state.registrationFloor := by
  unfold Impl.updateParticipant
  split <;> rfl

theorem floorOf_fence : FenceFrame fun impl => impl.state.registrationFloor where
  generation _ _ := rfl
  preventive id r s := floorOf_updateParticipant id _ (s.setFenceFloor r.generation)
  removal id _ _ s :=
    (floorOf_updateParticipant id _ _).trans (floorOf_updateParticipant id _ s)
  fence id r s := floorOf_updateParticipant id _ (s.setFenceFloor r.generation)

/-- The fence of an incumbent, as the commit behind it finds it. -/
theorem incumbent_fenced {boot : WorkerBootId} {r : FenceResult}
    (hfound : t.state.findParticipant request.participant = some p)
    (hfence : recordFence request.participant boot .reincarnation .blank false t = .ok r u)
    (hr : r.outcome = .fenced) :
    (t.state.lookupFence request.participant boot).fenced = false ∧
      t.state.state.fenceFloor.next ≠ none ∧
      t.state.state.generation.next = some u.state.state.generation ∧
      u.state.state.registrationFloor = t.state.state.registrationFloor ∧
      ∀ q, u.state.findParticipant request.participant = some q →
        q.nextIncarnation = p.nextIncarnation := by
  refine ⟨?_, ?_, ?_, ?_, fun q hq => ?_⟩
  · by_contra hfenced
    rw [Bool.not_eq_false] at hfenced
    obtain ⟨r', hr', hrun⟩ := recordFence_already hfound hfenced
    rw [hrun] at hfence
    cases hfence
    rw [hr'] at hr
    cases hr
  · obtain ⟨_, generation, _, hfloor, _⟩ := recordFence_answer hfence hr
    rw [hfloor]
    exact Option.some_ne_none _
  · cases recordFence_cases hfence with
    | unknown _ outcome => exact absurd (outcome.symm.trans hr) (by decide)
    | already _ outcome => exact absurd (outcome.symm.trans hr) (by decide)
    | notLive _ _ outcome => exact absurd (outcome.symm.trans hr) (by decide)
    | full allowed _ => cases allowed
    | preventive allowed _ _ _ _ _ _ _ _ => cases allowed
    | live _ _ _ _ bump _ =>
      exact (congrArg MonotonicCounter.next (generation_applyFence _ _ _ _ _).symm).trans bump
  · exact frame_of_run (fun _ => Reads.recordFence floorOf_fence _ _ _ _ _) hfence
  · have hframe := frame_of_run (fun _ => Reads.recordFence (nextOf_fence request.participant) _ _ _ _ _)
      hfence
    rw [hq, hfound] at hframe
    exact Option.some.inj hframe

namespace Impl

/-- The incumbent is fenced and the commit follows: a second generation is there,
or the commit stops before its entries; and while the ring is full, the commit
does not stop at all. -/
def SparesReplacement (impl : Impl) (request : RegisterParticipantRequest)
    (p : DurableParticipant) : Prop :=
  (∀ boot, p.incumbent = some boot → impl.SparesFence request.participant boot) ∧
    ∀ g, impl.state.generation.next = some g → impl.state.fenceFloor.next ≠ none →
      (impl.RingHasRoom ∨
        impl.state.registrationFloor.next ≠ none ∧ p.nextIncarnation.next ≠ none) ∧
      (g.next ≠ none ∨ impl.RingHasRoom ∧
        (impl.state.registrationFloor.next = none ∨ p.nextIncarnation.next = none))

/-- A registration that passes its checks reaches no used-up counter behind its
first index entry. -/
def SparesRegistration (impl : Impl) (request : RegisterParticipantRequest) : Prop :=
  impl.malformedRegistration request = none → impl.staleRegistration request = none →
    ∀ digest, computeSemanticDigest request.semantic = .ok digest →
      (impl.findParticipant request.participant = none → impl.SparesCommit none) ∧
      ∀ p, impl.findParticipant request.participant = some p →
        impl.conflictingRegistration p request digest = none →
        (impl.fencesIncumbent request = false → impl.SparesCommit (some p)) ∧
        (impl.fencesIncumbent request = true → impl.SparesReplacement request p)

end Impl

/-- **A registration that throws leads back** where it is spared. -/
theorem applyRegistration_restores {before : Impl} (ht : Anchored before t) (hbefore : before.Exact)
    (hrestores : Restores outline x t) (hspare : t.state.SparesRegistration request)
    (h : applyRegistration request true t = .error e t') : Restores outline x t' := by
  obtain ⟨hmalformed, hstale, hthrow⟩ := applyRegistration_error h
  have hexact := ht.exact hbefore
  replace hspare := hspare hmalformed hstale
  cases hthrow with
  | semantic _ same => exact same ▸ hrestores
  | @create digest semantic missing commit =>
    exact commitRegistration_restores hrestores hexact missing ((hspare _ semantic).1 missing) commit
  | @fence digest p boot semantic found calm incumbent policy replace fence =>
    have hfree : (t.state.lookupFence request.participant boot).fenced = false := by
      by_contra hfenced
      rw [Bool.not_eq_false] at hfenced
      obtain ⟨r, -, hrun⟩ := recordFence_already found hfenced
      rw [hrun] at fence
      cases fence
    have hfences : t.state.fencesIncumbent request = true := fencesIncumbent_iff.mpr
      ⟨hmalformed, hstale, digest, p, semantic, found, calm, policy, replace, boot, incumbent, hfree⟩
    have hreplacement := ((hspare _ semantic).2 p found calm).2 hfences
    exact recordFence_restores hrestores hexact (hreplacement.1 boot incumbent) fence
  | @update digest p q t₁ semantic found calm replace again commit =>
    have hspare' := (hspare _ semantic).2 p found calm
    -- an incumbent that is left alone leaves everything alone
    have hidle : t.state.fencesIncumbent request = false → t₁ = t → Restores outline x t' := by
      rintro hfences rfl
      obtain rfl : p = q := Option.some.inj (found.symm.trans again)
      exact commitRegistration_restores hrestores hexact found (hspare'.1 hfences) commit
    have hnot : ∀ {P : Prop}, ((∃ boot, p.incumbent = some boot ∧
        p.policy = .singleIncarnation ∧
        (t.state.lookupFence request.participant boot).fenced = false) → P) →
        t.state.fencesIncumbent request = true → P := by
      intro P hP hfences
      obtain ⟨-, -, digest', p', -, found', -, policy, -, boot, incumbent, free⟩ :=
        fencesIncumbent_iff.mp hfences
      obtain rfl : p = p' := Option.some.inj (found.symm.trans found')
      exact hP ⟨boot, incumbent, policy, free⟩
    cases replace with
    | none missing =>
      refine hidle (Bool.eq_false_iff.mpr (hnot ?_)) rfl
      rintro ⟨boot, incumbent, -⟩
      rw [missing] at incumbent
      cases incumbent
    | multi policy =>
      refine hidle (Bool.eq_false_iff.mpr (hnot ?_)) rfl
      exact fun ⟨_, _, hpolicy, _⟩ => policy hpolicy
    | fenced eq fenced =>
      refine hidle (Bool.eq_false_iff.mpr (hnot ?_)) rfl
      rintro ⟨boot, incumbent, -, free⟩
      obtain rfl := Option.some.inj (eq.symm.trans incumbent)
      rw [fenced] at free
      cases free
    | @replaced boot r _ eq fence outcome policy replace =>
      obtain ⟨hfree, hfloor, hgeneration, hregistration, hnext⟩ := incumbent_fenced found fence outcome
      have hfences : t.state.fencesIncumbent request = true := fencesIncumbent_iff.mpr
        ⟨hmalformed, hstale, digest, p, semantic, found, calm, policy, replace, boot, eq, hfree⟩
      obtain ⟨hring, hcommit⟩ := (hspare'.2 hfences).2 _ hgeneration hfloor
      have hanchored : Anchored before t₁ := by
        have hkeeps := (Anchored.primitives before).recordFence request.participant boot
          .reincarnation .blank false t ht
        rw [fence] at hkeeps
        exact hkeeps
      have hspare₁ : t₁.state.SparesCommit (some q) := by
        show _ ∨ _ ∨ _
        rw [hregistration, hnext q again]
        rcases hcommit with hleft | ⟨-, hspent | hspent⟩
        · exact .inr (.inr hleft)
        · exact .inl hspent
        · exact .inr (.inl hspent)
      by_cases hroom : t.state.RingHasRoom
      · exact commitRegistration_restores (recordFence_undone hrestores hexact (fun _ => hroom) fence)
          (hanchored.exact hbefore) again hspare₁ commit
      · -- a record has left the ring, and no counter stops the commit
        obtain ⟨hregistered, hissued⟩ := hring.resolve_left hroom
        obtain ⟨q', t₂, hopen, hcases⟩ := commitRegistration_error commit
        cases hopen
        rcases hcases with ⟨hspent, -⟩ | ⟨hspent, -⟩ | ⟨-, -, -, hspent⟩
        · exact absurd (hregistration ▸ hspent) hregistered
        · exact absurd (hnext q again ▸ hspent) hissued
        · rcases hcommit with hleft | ⟨hroom', -⟩
          · exact absurd hspent hleft
          · exact absurd hroom' hroom

end Registrations

/-! ### Counters -/

section Counters

variable {t t' u : Txn Impl} {e : EpochError} {id : ParticipantId} {boot : WorkerBootId}
  {reason : FenceReason} {note : BoundedText} {defensive : Bool} {r : FenceResult}

/-- A fence that throws has used up a counter. -/
theorem recordFence_spent (h : recordFence id boot reason note defensive t = .error e t') :
    t.state.state.fenceFloor.next = none ∨ t.state.state.generation.next = none := by
  obtain ⟨p, -, -, ⟨i, -, hthrow⟩ | hthrow⟩ := recordFence_error h
  · rcases fenceIncarnation_error hthrow with ⟨hspent, -⟩ | ⟨_, _, _, -, hspent, -⟩
    · exact .inl hspent
    · exact .inr hspent
  · rcases recordPreventiveFence_error hthrow with ⟨hspent, -⟩ | ⟨hspent, -⟩
    · exact .inl hspent
    · exact .inr hspent

/-- A fence that records raises each counter by one, and lengthens the ring by one
at most. -/
structure FenceStep (t u : Txn Impl) : Prop where
  options : u.state.options = t.state.options
  generation : u.state.state.generation.value = t.state.state.generation.value + 1
  floor : u.state.state.fenceFloor.value = t.state.state.fenceFloor.value + 1
  ring : u.state.state.recentFences.length ≤ t.state.state.recentFences.length + 1

theorem recordFence_step (h : recordFence id boot reason note defensive t = .ok r u) :
    u = t ∨ FenceStep t u := by
  cases recordFence_cases h with
  | unknown _ _ => exact .inl rfl
  | already _ _ => exact .inl rfl
  | notLive _ _ _ => exact .inl rfl
  | full _ _ => exact .inl rfl
  | @preventive p generation next record _ eq _ _ _ _ floor bump _ =>
    have hnext := MonotonicCounter.next_eq_some bump
    have hfloor := MonotonicCounter.next_eq_some floor
    rw [generation_applyPreventive] at hnext
    refine .inr ⟨options_updateParticipant (t.state.setFenceFloor record.generation) id _,
      hnext, ?_, ?_⟩
    · show (Impl.updateParticipant _ _ _).state.fenceFloor.value = _
      rw [fenceFloor_updateParticipant, eq]
      exact hfloor
    · show ((Impl.updateParticipant _ _ _).state.recentFences ++ [record]).length ≤ _
      rw [recentFences_updateParticipant, List.length_append]
      exact Nat.le_refl _
  | @live p i generation next record eq _ _ floor bump _ =>
    have hnext := MonotonicCounter.next_eq_some bump
    have hfloor := MonotonicCounter.next_eq_some floor
    rw [generation_applyFence] at hnext
    refine .inr ⟨(options_updateParticipant _ id _).trans (options_applyRemoval t.state id boot i),
      hnext, ?_, ?_⟩
    · show (Impl.updateParticipant _ _ _).state.fenceFloor.value = _
      rw [fenceFloor_updateParticipant, eq]
      exact hfloor
    · show (evictPush _ (Impl.updateParticipant _ _ _).state.recentFences record).length ≤ _
      rw [recentFences_updateParticipant]
      have hring : ((t.state.applyRemoval id boot i).setFenceFloor
          record.generation).state.recentFences = t.state.state.recentFences :=
        recentFences_applyRemoval t.state id boot i
      rw [hring]
      have hlength := (@evictPush_sublist _ t.state.state.recentFences
        (t.state.applyRemoval id boot i).options.limits.maxRecentFences record).length_le
      rwa [List.length_append] at hlength

end Counters

/-! ## Batches -/

section Batches

variable {t t' u : Txn Impl} {request : RegisterParticipantRequest} {before : Impl}

namespace Impl

/-- A registration that passes its checks reaches no used-up counter at all, and
leaves a generation for the batch. -/
def SustainsRegistration (impl : Impl) (request : RegisterParticipantRequest) : Prop :=
  impl.malformedRegistration request = none → impl.staleRegistration request = none →
    ∃ digest, computeSemanticDigest request.semantic = .ok digest ∧
      (impl.findParticipant request.participant = none →
        impl.state.registrationFloor.next ≠ none ∧ impl.state.generation.next ≠ none) ∧
      ∀ p, impl.findParticipant request.participant = some p →
        impl.conflictingRegistration p request digest = none →
        impl.state.registrationFloor.next ≠ none ∧ p.nextIncarnation.next ≠ none ∧
        ∃ g, impl.state.generation.next = some g ∧ (impl.fencesIncumbent request = true →
          impl.state.fenceFloor.next ≠ none ∧ g.next ≠ none)

end Impl

/-- Such a registration does not throw. -/
theorem applyRegistration_returns (hsustains : t.state.SustainsRegistration request) :
    ∃ r u, applyRegistration request false t = .ok r u := by
  cases hr : applyRegistration request false t with
  | ok r u => exact ⟨r, u, rfl⟩
  | error e t' =>
    exfalso
    obtain ⟨hmalformed, hstale, hthrow⟩ := applyRegistration_error hr
    obtain ⟨digest, hdigest, hmissing, hfound⟩ := hsustains hmalformed hstale
    cases hthrow with
    | semantic eq _ =>
      rw [hdigest] at eq
      cases eq
    | create _ missing commit =>
      obtain ⟨q, t₀, hopen, hcases⟩ := commitRegistration_error commit
      cases hopen
      rcases hcases with ⟨hspent, -⟩ | ⟨hspent, -⟩ | ⟨-, -, hbatch, -⟩
      · exact (hmissing missing).1 hspent
      · exact absurd (MonotonicCounter.next_eq_none.mp hspent) (show (1 : Nat) ≠ maxValue by decide)
      · cases hbatch
    | @fence digest' p boot eq found calm incumbent policy replace fence =>
      obtain rfl : digest = digest' := Except.ok.inj (hdigest.symm.trans eq)
      obtain ⟨-, -, g, hg, hfences⟩ := hfound p found calm
      obtain ⟨-, -, hfree, -⟩ := recordFence_error fence
      obtain ⟨hfloor, -⟩ := hfences (fencesIncumbent_iff.mpr ⟨hmalformed, hstale, digest, p,
        hdigest, found, calm, policy, replace, boot, incumbent, hfree⟩)
      rcases recordFence_spent fence with hspent | hspent
      · exact hfloor hspent
      · rw [hg] at hspent
        cases hspent
    | @update digest' p q t₁ eq found calm replace again commit =>
      obtain rfl : digest = digest' := Except.ok.inj (hdigest.symm.trans eq)
      obtain ⟨hregistered, hissued, -⟩ := hfound p found calm
      have hsame : t₁.state.state.registrationFloor = t.state.state.registrationFloor ∧
          q.nextIncarnation = p.nextIncarnation := by
        have hstay : t₁ = t → t₁.state.state.registrationFloor = t.state.state.registrationFloor ∧
            q.nextIncarnation = p.nextIncarnation := by
          rintro rfl
          obtain rfl : p = q := Option.some.inj (found.symm.trans again)
          exact ⟨rfl, rfl⟩
        cases replace with
        | none _ => exact hstay rfl
        | multi _ => exact hstay rfl
        | fenced _ _ => exact hstay rfl
        | replaced _ fence outcome _ _ =>
          obtain ⟨-, -, -, hregistration, hnext⟩ := incumbent_fenced found fence outcome
          exact ⟨hregistration, hnext q again⟩
      obtain ⟨q', t₀, hopen, hcases⟩ := commitRegistration_error commit
      cases hopen
      rcases hcases with ⟨hspent, -⟩ | ⟨hspent, -⟩ | ⟨-, -, hbatch, -⟩
      · exact hregistered (hsame.1 ▸ hspent)
      · exact hissued (hsame.2 ▸ hspent)
      · cases hbatch

/-- An element that fences nobody leaves the generation to the batch, and one that
fences raises it by one. -/
theorem applyRegistration_generation {r : RegistrationResult}
    (h : applyRegistration request false t = .ok r u) :
    (t.state.fencesIncumbent request = false → u.state.state.generation = t.state.state.generation) ∧
      u.state.state.generation.value ≤ t.state.state.generation.value + 1 := by
  constructor
  · intro hcalm
    have hview : SameView t.state t.state := ⟨rfl, rfl, rfl, fun _ => rfl, fun _ _ => rfl, rfl, rfl, rfl⟩
    rcases applyRegistration_parallel hview hcalm h h with ⟨-, rfl, -⟩ | ⟨_, _, -, commit, -⟩
    · rfl
    · exact commitRegistration_generation commit
  · have happroach : ∀ v, Approach request t v →
        v.state.state.generation.value ≤ t.state.state.generation.value + 1 := by
      intro v hv
      cases hv with
      | direct => exact Nat.le_succ _
      | incumbent replace _ =>
        rcases replaceIncumbent_fences replace with ⟨boot, r, -, hfence⟩ | ⟨rfl, -⟩
        · rcases recordFence_step hfence with rfl | hstep
          · exact Nat.le_succ _
          · exact Nat.le_of_eq hstep.generation
        · exact Nat.le_succ _
    cases applyRegistration_cases h with
    | answered approach _ => exact happroach _ approach
    | committed _ approach commit =>
      rw [commitRegistration_generation commit]
      exact happroach _ approach

/-- An element that has done anything has passed its checks. -/
theorem applyRegistration_passed {c : Bool} {r : RegistrationResult}
    (h : applyRegistration request c t = .ok r u) :
    u = t ∨ t.state.malformedRegistration request = none ∧ t.state.staleRegistration request = none ∧
      ∃ digest, computeSemanticDigest request.semantic = .ok digest ∧
        (t.state.findParticipant request.participant = none ∨
          ∃ p, t.state.findParticipant request.participant = some p ∧
            t.state.conflictingRegistration p request digest = none) := by
  unfold applyRegistration at h
  rw [Action.bind_current] at h
  cases hmalformed : t.state.malformedRegistration request with
  | some result =>
    simp only [hmalformed] at h
    cases h
    exact .inl rfl
  | none =>
  cases hstale : t.state.staleRegistration request with
  | some result =>
    simp only [hmalformed, hstale] at h
    cases h
    exact .inl rfl
  | none =>
  simp only [hmalformed, hstale] at h
  obtain ⟨digest, t', hdigest, h⟩ := Action.bind_ok.mp h
  obtain ⟨hsemantic, rfl⟩ := Action.ofExcept_ok.mp hdigest
  cases hfound : t'.state.findParticipant request.participant with
  | none => exact .inr ⟨rfl, rfl, digest, hsemantic, .inl rfl⟩
  | some p =>
    cases hconflict : t'.state.conflictingRegistration p request digest with
    | some result =>
      simp only [hfound, hconflict] at h
      cases h
      exact .inl rfl
    | none => exact .inr ⟨rfl, rfl, digest, hsemantic, .inr ⟨p, rfl, hconflict⟩⟩

/-- A generation is left behind an element that has done anything. -/
theorem applyRegistration_leaves {r : RegistrationResult}
    (hsustains : t.state.SustainsRegistration request)
    (h : applyRegistration request false t = .ok r u) :
    u = t ∨ u.state.state.generation.next ≠ none := by
  rcases applyRegistration_passed h with rfl | ⟨hmalformed, hstale, digest, hsemantic, hfind⟩
  · exact .inl rfl
  obtain ⟨digest', hsemantic', hmissing, hfound⟩ := hsustains hmalformed hstale
  obtain rfl : digest = digest' := Except.ok.inj (hsemantic.symm.trans hsemantic')
  obtain ⟨hcalm, hbound⟩ := applyRegistration_generation h
  right
  intro hspent
  by_cases hfences : t.state.fencesIncumbent request = true
  · -- two generations are there, and the element has taken one at most
    obtain ⟨-, -, digest', p, hsemantic', hp, hconflict, -⟩ := fencesIncumbent_iff.mp hfences
    obtain rfl : digest = digest' := Except.ok.inj (hsemantic.symm.trans hsemantic')
    obtain ⟨-, -, g, hg, htwo⟩ := hfound p hp hconflict
    have hvalue := MonotonicCounter.next_eq_some hg
    have hmax := MonotonicCounter.next_eq_none.mp hspent
    have hle := g.le_max
    exact (htwo hfences).2 (MonotonicCounter.next_eq_none.mpr (by omega))
  · -- the generation is the one it was
    rw [hcalm (Bool.not_eq_true _ ▸ hfences)] at hspent
    rcases hfind with hnone | ⟨p, hp, hconflict⟩
    · exact (hmissing hnone).2 hspent
    · obtain ⟨-, -, g, hg, -⟩ := hfound p hp hconflict
      rw [hg] at hspent
      cases hspent

/-- The elements of a batch return one after the other, and the generation of the
batch is left. -/
theorem applyRegistrations_returns {requests : List RegisterParticipantRequest}
    (hsustains : AlongBatch Impl.SustainsRegistration requests t)
    (hleft : t.mutated = true → t.state.state.generation.next ≠ none) :
    ∃ rs u, applyRegistrations requests t = .ok rs u ∧
      (u.mutated = true → u.state.state.generation.next ≠ none) := by
  induction requests generalizing t with
  | nil => exact ⟨[], t, rfl, hleft⟩
  | cons request requests ih =>
    obtain ⟨hfirst, hrest⟩ := hsustains
    obtain ⟨r, t₁, hrun⟩ := applyRegistration_returns hfirst
    have hleft₁ : t₁.mutated = true → t₁.state.state.generation.next ≠ none := by
      intro hmutated
      rcases applyRegistration_leaves hfirst hrun with rfl | hnext
      · exact hleft hmutated
      · exact hnext
    obtain ⟨rs, u, hruns, hleft'⟩ := ih (hrest r t₁ hrun) hleft₁
    refine ⟨r :: rs, u, ?_, hleft'⟩
    rw [applyRegistrations, Action.bind_run, hrun]
    show (applyRegistrations requests >>= _) t₁ = _
    rw [Action.bind_run, hruns]
    rfl

/-- A batch of such registrations does not throw. -/
theorem registerBatch_returns {requests : List RegisterParticipantRequest} {impl : Impl}
    (hsustains : AlongBatch Impl.SustainsRegistration requests (Txn.start impl)) :
    ∃ rs u, registerBatch requests (Txn.start impl) = .ok rs u := by
  obtain ⟨rs, t, hrun, hleft⟩ := applyRegistrations_returns hsustains (fun h => by cases h)
  have hbatch : registerBatch requests (Txn.start impl) = (bumpWhen t.mutated >>= fun _ => pure rs) t := by
    rw [registerBatch, Action.bind_run, hrun]
    rfl
  rw [hbatch, Action.bind_run]
  cases hmutated : t.mutated with
  | false => exact ⟨rs, t, rfl⟩
  | true =>
    cases hbump : bumpWhen true t with
    | ok _ u => exact ⟨rs, u, rfl⟩
    | error e t' => exact absurd (bumpWhen_error hbump).2 (hleft hmutated)

end Batches

end FabricEpoch
