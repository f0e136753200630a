import FabricEpoch.FenceRetention
import FabricEpoch.Incarnations
import FabricEpoch.RegisteredLive
import FabricEpoch.Runtime.Frames
import FabricEpoch.Server

/-!
# One incarnation from its registration to its end

A registration that is accepted, and is no replay, leaves its incarnation
standing: live, in the current epoch, and without a retained fence of its boot.
From there it can only end.

- `Standing`: what holds of a live incarnation;
- `Move.standing`: whatever moves, it goes on standing or is dead;
- `registered_standing`: the beginning;
- `closeSession_ends`: the end, where its session is closed.
-/

namespace FabricEpoch

open Table Transaction

/-! ## Standing -/

/-- Nobody is live across an epoch. -/
theorem Move.sameEpoch {T : Trust} {limits : Limits} {s s' : DurableState} (h : Move T limits s s')
    (hepoch : s.currentEpoch.value ≠ 0) :
    s'.currentEpoch = s.currentEpoch ∨ ∀ p ∈ s'.participants, p.live = [] := by
  cases h with
  | @epoch t invalidate generation _ _ _ established _ _ =>
    rw [established hepoch]
    refine .inr fun p' hp' => ?_
    obtain ⟨p, -, rfl⟩ := List.mem_map.mp hp'
    rfl
  | _ => exact .inl rfl

/-- The incarnation of the binding is live, in the epoch it was registered in,
and no fence of its boot is retained. -/
structure DurableState.Standing (s : DurableState) (b : SessionBinding) : Prop where
  live : s.Live b.participant b.boot b.incarnation
  notFenced : ¬ s.Fenced b.participant b.boot
  epoch : b.epoch = s.currentEpoch

/-- It stands, or it is over. -/
def DurableState.Accounted (s : DurableState) (b : SessionBinding) : Prop :=
  s.Standing b ∨ s.Dead b.participant b.incarnation

/-- **A move** leaves it standing or ends it. -/
theorem Move.accounted {T : Trust} {limits : Limits} {s s' : DurableState} {b : SessionBinding}
    (h : Move T limits s s') (hs : Kept s) (hepoch : s.currentEpoch.value ≠ 0)
    (hb : s.Accounted b) : s'.Accounted b := by
  have hevolves := h.evolves hs.orderly hs.floors
  rcases hb with hb | hdead
  swap
  · exact .inr (hdead.evolves hevolves)
  by_cases hlive : s'.Live b.participant b.boot b.incarnation
  · refine .inl ⟨hlive, fun hfenced => ?_, ?_⟩
    · rcases h.unfenced hs.orderly hfenced with hold | hgone
      · exact hb.notFenced hold
      · obtain ⟨p, hp, hid, hmem⟩ := hlive
        refine hgone p hp hid ?_
        rw [DurableParticipant.liveBoots_eq]
        exact List.mem_map_of_mem (f := Prod.fst) hmem
    · rcases h.sameEpoch hepoch with hsame | hgone
      · rw [hsame]
        exact hb.epoch
      · obtain ⟨p, hp, -, hmem⟩ := hlive
        rw [hgone p hp] at hmem
        cases hmem
  · exact .inr (hb.live.dead hs hevolves hlive)

/-- **Any sequence of moves.** -/
theorem Moves.accounted {T : Trust} {limits : Limits} {s s' : DurableState} {b : SessionBinding}
    (h : Moves T limits s s') (hs : Kept s) (hepoch : s.currentEpoch.value ≠ 0)
    (hb : s.Accounted b) : s'.Accounted b := by
  induction h with
  | refl => exact hb
  | tail hms hm ih =>
    have hle := Moves.epoch_le hms
    exact hm.accounted (hs.moves hms).1 (by omega) ih

/-- What is dead is not live. -/
theorem DurableState.Dead.not_live {s : DurableState} {id : ParticipantId}
    {i : IncarnationSequence} (h : s.Dead id i) (hs : Orderly s) (boot : WorkerBootId) :
    ¬ s.Live id boot i := by
  rintro ⟨p, hp, hid, hlive⟩
  obtain ⟨q, hq, hqid, -, hgone⟩ := h
  have hlookup : s.lookup p.id = some p := lookup_eq_some_of_mem hs.ids hp
  have hsame : q = p := hs.eq_of_lookup hlookup hq (hqid.trans hid.symm)
  rw [hsame] at hgone
  exact hgone boot hlive

/-! ## The beginning -/

section Fencing

variable {id : ParticipantId} {boot : WorkerBootId} {reason : FenceReason} {note : BoundedText}
  {t u : Txn Impl} {r : FenceResult}

/-- **A live boot that is not fenced yet** is live no more behind its fence. -/
theorem recordFence_notLive (ht : t.state.Regular)
    (h : recordFence id boot reason note false t = .ok r u) {p : DurableParticipant}
    (hfound : t.state.findParticipant id = some p) (hlive : p.findIncarnation boot ≠ none)
    (hfenced : (t.state.lookupFence id boot).fenced = false) :
    ∀ q ∈ u.state.state.participants, q.id = id → boot ∉ q.liveBoots := by
  rcases recordFence_own h with ⟨p', i, generation, next, record, rfl, -, -, -, hu, -⟩ | ⟨-, hleft⟩
  · rw [hu, ht.applyFence id boot i _ rfl]
    intro q hq hid
    exact notLive_of_fence (r := t.state.liveRecord id boot i reason note generation) ht.orderly hq
      hid
  · -- it was left alone because it is fenced, or because it is not live
    rcases hleft p hfound with hf | hnone
    · rw [hf] at hfenced
      cases hfenced
    · exact absurd hnone hlive

end Fencing

section Registrations

variable {request : RegisterParticipantRequest} {t u : Txn Impl} {r : RegistrationResult}

/-- The index of a regular memory finds what is listed. -/
theorem Impl.Regular.findable {impl : Impl} (h : impl.Regular) : impl.Findable := by
  refine ⟨fun id i hi j hj => ?_, fun id hid => ?_⟩
  · exact Option.some.inj (hj.symm.trans ((h.index id i).mp hi))
  · obtain ⟨i, hi⟩ := List.mem_iff_getElem?.mp hid
    exact ⟨i, (h.index id i).mpr hi, hi⟩

/-- What a registration has written, when it is accepted and no replay. -/
theorem applyRegistration_standing {impl : Impl} (hs : impl.Settled) (hk : Kept impl.state)
    (h : applyRegistration request true (Txn.start impl) = .ok r u) (hout : r.outcome = .registered)
    (hreplayed : r.replayed = false) :
    Bound request r u.state.state ∧ ¬ u.state.state.Fenced request.participant request.boot := by
  have hstart : ¬ impl.state.Fenced request.participant request.boot :=
    fun hfenced => applyRegistration_fenced hs hk.floors.known hfenced h hout
  cases applyRegistration_cases h with
  | answered _ refused =>
    rw [refused hout] at hreplayed
    cases hreplayed
  | @committed digest t' _ _ _ approach commit =>
    have hregular := (approach.advanced hs.regular).regular
    refine ⟨(commitRegistration_bound hregular.findable commit).2, fun hfenced => hstart ?_⟩
    exact approach.unfenced (commitRegistration_unfenced commit hfenced)

end Registrations

/-- The order of the records does not matter. -/
theorem DurableState.Standing.reorder {s : DurableState} {b : SessionBinding}
    {ps : List DurableParticipant} (h : s.Standing b) (hperm : s.participants.Perm ps) :
    { s with participants := ps }.Standing b := by
  obtain ⟨p, hp, hid, hlive⟩ := h.live
  refine ⟨⟨p, hperm.mem_iff.mp hp, hid, hlive⟩, fun hfenced => h.notFenced ?_, h.epoch⟩
  exact fenced_of_same hfenced rfl fun q hq => .inr ⟨q, hperm.mem_iff.mpr hq, rfl, rfl⟩

/-- **A registration that is accepted and no replay** leaves the incarnation of
the session standing. -/
theorem registered_standing {request : RegisterParticipantRequest} {r : RegistrationResult}
    {fault : Option SaveFault} {disk : Disk} {impl : Impl} (hs : impl.Settled)
    (hk : Kept impl.state) (x : Session)
    (h : (transact (applyRegistration request true) fault disk impl).result = .ok r)
    (hout : r.outcome = .registered) (hreplayed : r.replayed = false) :
    (transact (applyRegistration request true) fault disk impl).impl.state.Standing
      (x.candidate request r) := by
  obtain ⟨t, ps, ht, hperm, hstate⟩ := transact_state (T := .nothing) (fun t ht =>
    applyRegistration_advanced hs.regular rfl (fun h => h.elim) (fun h => h.elim)
      (fun h => h.elim) (fun h => h.elim) ht) h
  obtain ⟨hbound, hunfenced⟩ := applyRegistration_standing hs hk ht hout hreplayed
  obtain ⟨i, hincarnation, p, hp, hid, -, hlive⟩ := hbound.live
  rw [hstate]
  refine DurableState.Standing.reorder ⟨⟨p, hp, hid, ?_⟩, hunfenced, hbound.epoch⟩ hperm
  show (request.boot, r.incarnation.getD .zero) ∈ p.live
  rw [hincarnation]
  exact hlive

/-! ## The end -/

theorem fenceSession_notLive {session : SessionId} {b : SessionBinding}
    {reason : SessionClosureReason} {t u : Txn Impl} {r : FenceResult} (hs : t.state.Settled)
    (hloss : t.state.options.fenceOnSessionLoss = true) (hstanding : t.state.state.Standing b)
    (h : fenceSession session b reason t = .ok r u) :
    ∀ q ∈ u.state.state.participants, q.id = b.participant → b.boot ∉ q.liveBoots := by
  obtain ⟨p, hp, hid, hlive⟩ := hstanding.live
  have hfound : t.state.findParticipant b.participant = some p := by
    rw [hs.regular.find, ← hid]
    exact lookup_eq_some_of_mem hs.regular.orderly.ids hp
  have hfind : p.findIncarnation b.boot ≠ none := by
    intro hnone
    refine DurableParticipant.find_eq_none_iff.mp hnone ?_
    rw [DurableParticipant.liveBoots_eq]
    exact List.mem_map_of_mem (f := Prod.fst) hlive
  have hfenced : (t.state.lookupFence b.participant b.boot).fenced = false := by
    cases hf : (t.state.lookupFence b.participant b.boot).fenced with
    | false => rfl
    | true => exact absurd ((hs.agrees _ _).mp hf) hstanding.notFenced
  unfold fenceSession at h
  rw [Action.bind_current, hloss] at h
  simp only [Bool.not_true, Bool.false_eq_true, if_false, hfound] at h
  cases hi : p.findIncarnation b.boot with
  | none => exact absurd hi hfind
  | some i =>
    simp only [hi] at h
    exact recordFence_notLive hs.regular h hfound hfind hfenced

/-- **The incarnation of a session that is closed** is live no more. -/
theorem closeSession_ends {session : SessionId} {b : SessionBinding}
    {reason : SessionClosureReason} {fault : Option SaveFault} {disk : Disk} {impl : Impl}
    {r : FenceResult} (hs : impl.Settled)
    (hbound : impl.sessionIndex.find? (fun s => s.id = session) = some b)
    (hloss : impl.options.fenceOnSessionLoss = true) (hstanding : impl.state.Standing b)
    (h : (closeSession session reason fault disk impl).result = .ok r) :
    ¬ (closeSession session reason fault disk impl).impl.state.Live b.participant b.boot
      b.incarnation := by
  unfold closeSession at h ⊢
  simp only [hbound] at h ⊢
  have hs' : (impl.eraseSession b).Settled := hs.of_same rfl ⟨rfl, rfl, rfl, rfl⟩
  replace hloss : (impl.eraseSession b).options.fenceOnSessionLoss = true := hloss
  replace hstanding : (impl.eraseSession b).state.Standing b := hstanding
  generalize impl.eraseSession b = erased at *
  obtain ⟨t, ps, ht, hperm, hstate⟩ := transact_state (T := .nothing) (fun t ht =>
    fenceSession_advanced hs'.regular rfl (fun h => h.elim) ht) h
  rw [hstate]
  rintro ⟨q, hq, hid, hlive⟩
  refine fenceSession_notLive hs' hloss hstanding ht q (hperm.mem_iff.mpr hq) hid ?_
  rw [DurableParticipant.liveBoots_eq]
  exact List.mem_map_of_mem (f := Prod.fst) hlive

end FabricEpoch
