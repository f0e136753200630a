import FabricEpoch.Sessions
import FabricEpoch.Standing

/-!
# What closing a session ends

A session is bound to one incarnation: a participant, a boot and a sequence. By
the time it is closed the boot can be live under a later sequence, because an
epoch advance ends every incarnation and leaves the sessions bound. Closing the
session looks the boot up, and not the incarnation.

- `ClosesExactly`: nothing durable changes, or the incarnation of the binding is
  fenced and no other is touched;
- `closeSession_fences`: what the fence of a closed session writes;
- `closesExactly_iff`: the bindings for which that is so.
-/

namespace FabricEpoch

open Table Transaction

/-! ## The incarnation of the binding -/

/-- The incarnation of the binding is live before and the only one that is not
live any more; its fence is on record. -/
structure EndsOnly (b : SessionBinding) (before after : DurableState) : Prop where
  live : before.Live b.participant b.boot b.incarnation
  only : ∀ id boot i, after.Live id boot i ↔
    before.Live id boot i ∧ ¬ (id = b.participant ∧ boot = b.boot ∧ i = b.incarnation)
  recorded : ∃ record ∈ after.recentFences, record.participant = b.participant ∧
    record.boot = b.boot ∧ record.incarnation = b.incarnation

def ClosesExactly (b : SessionBinding) (before after : DurableState) : Prop :=
  after = before ∨ EndsOnly b before after

/-- If a lost session fences its boot, and the boot is live and not fenced yet,
it is live as the incarnation of the binding. -/
def Impl.BoundCurrently (impl : Impl) (b : SessionBinding) : Prop :=
  impl.options.fenceOnSessionLoss = true → ¬ impl.state.Fenced b.participant b.boot →
    ∀ i, impl.state.Live b.participant b.boot i → i = b.incarnation

/-! ## The fence of a closed session -/

section Fence

variable {s : DurableState} {limits : Limits} {id key : ParticipantId} {boot other : WorkerBootId}
  {i j : IncarnationSequence} {g : FencingGeneration}

/-- A boot is live under one sequence. -/
theorem DurableState.Live.unique (hs : Orderly s) (hi : s.Live id boot i) (hj : s.Live id boot j) :
    i = j := by
  obtain ⟨p, hp, hid, hlive⟩ := hi
  obtain ⟨q, hq, hqid, hlive'⟩ := hj
  have hlookup : s.lookup p.id = some p := lookup_eq_some_of_mem hs.ids hp
  have hsame : q = p := hs.eq_of_lookup hlookup hq (hqid.trans hid.symm)
  rw [hsame] at hlive'
  have hboots := (hs.records p hp).boots
  rw [DurableParticipant.liveBoots_eq] at hboots
  exact congrArg Prod.snd (List.inj_on_of_nodup_map hboots hlive hlive' rfl)

/-- Fencing a live boot ends the one incarnation it is live under. -/
theorem live_updateParticipant_fence (hs : Orderly s) (hlive : s.Live id boot i) :
    (s.updateParticipant id (·.fence limits boot i g)).Live key other j ↔
      s.Live key other j ∧ ¬ (key = id ∧ other = boot ∧ j = i) := by
  constructor
  · rintro ⟨p', hp', hkey, hj⟩
    rcases DurableState.mem_updateParticipant hp' with ⟨p, hp, hid, rfl⟩ | ⟨hp, hne⟩
    · rw [DurableParticipant.fence_id] at hkey
      rw [DurableParticipant.live_fence (hs.records p hp).boots] at hj
      obtain ⟨hj, hother⟩ := List.mem_filter.mp hj
      refine ⟨⟨p, hp, hkey, hj⟩, ?_⟩
      rintro ⟨-, rfl, -⟩
      simp at hother
    · refine ⟨⟨p', hp, hkey, hj⟩, ?_⟩
      rintro ⟨rfl, -, -⟩
      exact hne hkey
  · rintro ⟨⟨p, hp, rfl, hj⟩, hothers⟩
    by_cases hid : p.id = id
    · refine ⟨p.fence limits boot i g, ?_, p.fence_id limits boot i g, ?_⟩
      · exact List.mem_map.mpr ⟨p, hp, if_pos hid⟩
      · rw [DurableParticipant.live_fence (hs.records p hp).boots]
        refine List.mem_filter.mpr ⟨hj, decide_eq_true fun hboot => ?_⟩
        -- the same boot is live under the same sequence
        have hboot : other = boot := hboot
        subst hid hboot
        exact hothers ⟨rfl, rfl, DurableState.Live.unique hs ⟨p, hp, rfl, hj⟩ hlive⟩
    · exact ⟨p, List.mem_map.mpr ⟨p, hp, if_neg hid⟩, rfl, hj⟩

end Fence

/-- The fence of a closed session: the boot is fenced under whatever sequence
it is live, or nothing happens. -/
theorem fenceSession_cases {session : SessionId} {b : SessionBinding}
    {reason : SessionClosureReason} {t u : Txn Impl} {r : FenceResult} (hs : t.state.Settled)
    (h : fenceSession session b reason t = .ok r u) :
    (u = t ∧ (t.state.options.fenceOnSessionLoss = true →
      ¬ t.state.state.Fenced b.participant b.boot →
      ∀ i, ¬ t.state.state.Live b.participant b.boot i)) ∨
    ∃ i, t.state.options.fenceOnSessionLoss = true ∧
      ¬ t.state.state.Fenced b.participant b.boot ∧ u.mutated = true ∧
      EndsOnly { b with incarnation := i } t.state.state u.state.state := by
  have hmissing : ∀ {p : DurableParticipant}, t.state.findParticipant b.participant = some p →
      p.findIncarnation b.boot = none → ∀ i, ¬ t.state.state.Live b.participant b.boot i := by
    rintro p hfound hnone i ⟨q, hq, hid, hlive⟩
    rw [hs.regular.find] at hfound
    rw [hs.regular.orderly.eq_of_lookup hfound hq hid] at hlive
    refine DurableParticipant.find_eq_none_iff.mp hnone ?_
    rw [DurableParticipant.liveBoots_eq]
    exact List.mem_map_of_mem (f := Prod.fst) hlive
  unfold fenceSession at h
  rw [Action.bind_current] at h
  by_cases hloss : t.state.options.fenceOnSessionLoss = true
  swap
  · rw [if_pos (by simpa using hloss)] at h
    cases h
    exact .inl ⟨rfl, fun htrue => absurd htrue hloss⟩
  rw [if_neg (by simp [hloss])] at h
  cases hfound : t.state.findParticipant b.participant with
  | none =>
    simp only [hfound] at h
    cases h
    refine .inl ⟨rfl, fun _ _ i => ?_⟩
    rintro ⟨q, hq, hid, -⟩
    have hlookup : t.state.state.lookup q.id = some q :=
      lookup_eq_some_of_mem hs.regular.orderly.ids hq
    rw [hs.regular.find, ← hid, hlookup] at hfound
    cases hfound
  | some p =>
    simp only [hfound] at h
    cases hi : p.findIncarnation b.boot with
    | none =>
      simp only [hi] at h
      cases h
      exact .inl ⟨rfl, fun _ _ => hmissing hfound hi⟩
    | some i =>
      simp only [hi] at h
      by_cases hfenced : t.state.state.Fenced b.participant b.boot
      · obtain ⟨r', -, hrun⟩ := recordFence_already hfound ((hs.agrees _ _).mpr hfenced)
        rw [hrun] at h
        cases h
        exact .inl ⟨rfl, fun _ hunfenced => absurd hfenced hunfenced⟩
      rcases recordFence_own h with ⟨p', i', generation, next, record, rfl, hfound', hlive', -, hu, hmarked⟩ |
        ⟨-, hleft⟩
      · -- the sequence the boot is live under, whichever it is
        rw [hs.regular.find] at hfound'
        obtain ⟨hp', hid⟩ := DurableState.mem_of_lookup hfound'
        have hlive : t.state.state.Live b.participant b.boot i' :=
          ⟨p', hp', hid, DurableParticipant.mem_live_of_find hlive'⟩
        refine .inr ⟨i', hloss, hfenced, hmarked, ?_⟩
        rw [hu, hs.regular.applyFence b.participant b.boot i' _ rfl]
        refine ⟨hlive, fun _ _ _ => live_updateParticipant_fence hs.regular.orderly hlive, ?_⟩
        exact ⟨_, mem_evictPush_self _, rfl, rfl, rfl⟩
      · exfalso
        rcases hleft p hfound with hf | hnone
        · exact hfenced ((hs.agrees _ _).mp hf)
        · rw [hi] at hnone
          cases hnone

/-! ## Which closures are exact -/

/-- The order of the records does not matter. -/
theorem EndsOnly.reorder {b : SessionBinding} {before after : DurableState}
    {ps : List DurableParticipant} (h : EndsOnly b before after)
    (hperm : after.participants.Perm ps) : EndsOnly b before { after with participants := ps } := by
  refine ⟨h.live, fun id boot i => ?_, h.recorded⟩
  rw [← h.only]
  constructor
  · rintro ⟨p, hp, hid, hlive⟩
    exact ⟨p, hperm.mem_iff.mpr hp, hid, hlive⟩
  · rintro ⟨p, hp, hid, hlive⟩
    exact ⟨p, hperm.mem_iff.mp hp, hid, hlive⟩

section Closure

variable {impl : Impl} {session : SessionId} {b : SessionBinding} {reason : SessionClosureReason}
  {fault : Option SaveFault} {disk : Disk} {r : FenceResult}

/-- **What a closed session does**: it leaves the durable state alone, or it
fences the boot of the binding under the sequence it is live under. -/
theorem closeSession_fences (hs : impl.Settled)
    (hbound : impl.sessionIndex.find? (fun s => s.id = session) = some b)
    (h : (closeSession session reason fault disk impl).result = .ok r) :
    ((closeSession session reason fault disk impl).impl.state = impl.state ∧
      (impl.options.fenceOnSessionLoss = true → ¬ impl.state.Fenced b.participant b.boot →
        ∀ i, ¬ impl.state.Live b.participant b.boot i)) ∨
    ∃ i, impl.options.fenceOnSessionLoss = true ∧ ¬ impl.state.Fenced b.participant b.boot ∧
      EndsOnly { b with incarnation := i } impl.state
        (closeSession session reason fault disk impl).impl.state := by
  unfold closeSession at h ⊢
  simp only [hbound] at h ⊢
  have hs' : (impl.eraseSession b).Settled := hs.of_same rfl ⟨rfl, rfl, rfl, rfl⟩
  obtain ⟨t, ht, hcommit⟩ := transact_ok h
  rcases fenceSession_cases (t := Txn.start (impl.eraseSession b)) hs' ht with
    ⟨rfl, hnone⟩ | ⟨i, hloss, hunfenced, hmarked, hends⟩
  · rcases hcommit with ⟨-, heq⟩ | ⟨hmarked, -⟩
    · rw [heq]
      exact .inl ⟨rfl, hnone⟩
    · cases hmarked
  · rcases hcommit with ⟨hidle, -⟩ | ⟨-, image, previous, -, heq⟩
    · rw [hidle] at hmarked
      cases hmarked
    · rw [heq]
      exact .inr ⟨i, hloss, hunfenced, hends.reorder (insertionSort_perm _)⟩

theorem closesExactly_of_settled (hs : impl.Settled)
    (hbound : impl.sessionIndex.find? (fun s => s.id = session) = some b)
    (h : (closeSession session reason fault disk impl).result = .ok r) :
    ClosesExactly b impl.state (closeSession session reason fault disk impl).impl.state ↔
      impl.BoundCurrently b := by
  rcases closeSession_fences hs hbound h with ⟨hsame, hnone⟩ | ⟨i, hloss, hunfenced, hends⟩
  · constructor
    · intro _ hloss hunfenced i hlive
      exact absurd hlive (hnone hloss hunfenced i)
    · intro _
      exact .inl hsame
  · -- the fenced incarnation is gone, whichever it is
    have hgone := mt (hends.only b.participant b.boot i).mp fun hafter => hafter.2 ⟨rfl, rfl, rfl⟩
    constructor
    · rintro (hsame | hexact) _ _ j hlive
      · rw [hsame] at hgone
        exact absurd hends.live hgone
      · obtain rfl : j = i := DurableState.Live.unique hs.regular.orderly hlive hends.live
        by_contra hne
        exact hgone ((hexact.only _ _ _).mpr ⟨hlive, fun hsame => hne hsame.2.2⟩)
    · intro hcurrent
      obtain rfl : i = b.incarnation := hcurrent hloss hunfenced i hends.live
      exact .inr hends

end Closure

/-- **A session is closed exactly** if and only if its boot is not live, to be
fenced, under another sequence than the one it was bound to, in every reachable
state and for every bound session. -/
theorem closesExactly_iff {host : Host} (h : coordinator.Reaches Quietly host) {impl : Impl}
    (himpl : host.runtime = some impl) {session : SessionId} {b : SessionBinding}
    (hbound : impl.sessionIndex.find? (fun s => s.id = session) = some b)
    {reason : SessionClosureReason} {fault : Option SaveFault} {r : FenceResult}
    (hclosed : (closeSession session reason fault host.disk impl).result = .ok r) :
    ClosesExactly b impl.state (closeSession session reason fault host.disk impl).impl.state ↔
      impl.BoundCurrently b :=
  closesExactly_of_settled ((quietRun_kept h).memory impl himpl).1 hbound hclosed

/-- A worker that has bound its session. -/
def boundRun : List Input := [
  testOpen {} 1,
  callOf (.register (testRegister 3 (testParticipant "p") (smallId 4))),
  callOf (.bind testBinding)]

/-- It registers the same boot again in the next epoch. -/
def reboundRun : List Input := boundRun ++ [
  callOf (.advance { attempt := smallId 5, expectedEpoch := smallCounter 1 }),
  callOf (.register { testRegister 6 (testParticipant "p") (smallId 4) with
    expectedEpoch := smallCounter 2 })]

/-- Whether its session is bound, and the boot live under a sequence before and
after the session is closed. -/
def closureOf (i : IncarnationSequence) (host : Host) : Option (Bool × Bool × Bool × Bool) :=
  host.runtime.map fun impl =>
    let closed := closeSession testBinding.id .peerDisconnect none host.disk impl
    (impl.sessionIndex.find? (fun s => s.id = testBinding.id) = some testBinding,
      closed.result.toBool,
      decide (impl.state.Live testBinding.participant testBinding.boot i),
      decide (closed.impl.state.Live testBinding.participant testBinding.boot i))

theorem closureOf_eq {i : IncarnationSequence} {host : Host} {before after : Bool}
    (h : closureOf i host = some (true, true, before, after)) :
    ∃ impl r, host.runtime = some impl ∧
      impl.sessionIndex.find? (fun s => s.id = testBinding.id) = some testBinding ∧
      (closeSession testBinding.id .peerDisconnect none host.disk impl).result = .ok r ∧
      decide (impl.state.Live testBinding.participant testBinding.boot i) = before ∧
      decide ((closeSession testBinding.id .peerDisconnect none host.disk impl).impl.state.Live
        testBinding.participant testBinding.boot i) = after := by
  obtain ⟨impl, himpl, heq⟩ := Option.map_eq_some_iff.mp h
  simp only [Prod.mk.injEq, decide_eq_true_eq] at heq
  obtain ⟨hbound, hok, hbefore, hafter⟩ := heq
  cases hr : (closeSession testBinding.id .peerDisconnect none host.disk impl).result with
  | error e =>
    rw [hr] at hok
    cases hok
  | ok r => exact ⟨impl, r, himpl, hbound, hr, hbefore, hafter⟩

/-- The session of a worker that is still the one it was bound for. -/
theorem closesExactly_iff_test : ∃ host impl, coordinator.Reaches Quietly host ∧
    host.runtime = some impl ∧ ClosesExactly testBinding impl.state
      (closeSession testBinding.id .peerDisconnect none host.disk impl).impl.state := by
  have hallows : coordinator.Allows Quietly coordinator.init boundRun := by decide +kernel
  have hclosure : closureOf (smallCounter 1) (coordinator.run coordinator.init boundRun) =
      some (true, true, true, false) := by decide +kernel
  have hreach : coordinator.Reaches Quietly (coordinator.run coordinator.init boundRun) :=
    Machine.leads_run hallows
  generalize coordinator.run coordinator.init boundRun = host at hclosure hreach
  obtain ⟨impl, r, himpl, hbound, hclosed, hlive, -⟩ := closureOf_eq hclosure
  refine ⟨host, impl, hreach, himpl, (closesExactly_iff hreach himpl hbound hclosed).mpr ?_⟩
  intro _ _ i hi
  have horderly := ((quietRun_kept hreach).memory impl himpl).2.1.orderly
  exact DurableState.Live.unique horderly hi (of_decide_eq_true hlive)

/-- **The session of an incarnation that is long dead** is closed: its boot,
which was registered anew in the next epoch, is fenced under its new sequence. -/
theorem staleSession_fences : ∃ host impl r, coordinator.Reaches Quietly host ∧
    host.runtime = some impl ∧
    impl.sessionIndex.find? (fun s => s.id = testBinding.id) = some testBinding ∧
    (closeSession testBinding.id .peerDisconnect none host.disk impl).result = .ok r ∧
    ¬ ClosesExactly testBinding impl.state
      (closeSession testBinding.id .peerDisconnect none host.disk impl).impl.state := by
  have hallows : coordinator.Allows Quietly coordinator.init reboundRun := by decide +kernel
  have hclosure : closureOf (smallCounter 2) (coordinator.run coordinator.init reboundRun) =
      some (true, true, true, false) := by decide +kernel
  have hreach : coordinator.Reaches Quietly (coordinator.run coordinator.init reboundRun) :=
    Machine.leads_run hallows
  generalize coordinator.run coordinator.init reboundRun = host at hclosure hreach
  obtain ⟨impl, r, himpl, hbound, hclosed, hlive, hgone⟩ := closureOf_eq hclosure
  refine ⟨host, impl, r, hreach, himpl, hbound, hclosed, ?_⟩
  rintro (hsame | hends)
  · rw [hsame, hlive] at hgone
    cases hgone
  · -- a closure that ends the first incarnation alone leaves the second one live
    have hother := (hends.only testBinding.participant testBinding.boot (smallCounter 2)).mpr
      ⟨of_decide_eq_true hlive, fun hsame => absurd hsame.2.2 (by decide)⟩
    exact of_decide_eq_false hgone hother

end FabricEpoch
