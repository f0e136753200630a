import FabricEpoch.Runtime.Barrier
import FabricEpoch.SessionClosures
import FabricEpoch.Sessions

/-!
# Which incarnations can be bound

There is to be one session for each worker incarnation. The table that keeps a
second one out is keyed by the worker boot, and an entry leaves it with its
session only: an incarnation that has lost its authority leaves the entry behind.
The boot can be registered again under a new sequence, and the new incarnation
finds its key taken.

- `bindable_iff`: what the code asks;
- `bindsLawfully_iff`: when that is what a binding deserves.
-/

namespace FabricEpoch

/-- The incarnation that the binding names has authority in the current epoch. -/
structure DurableState.Entitled (s : DurableState) (b : SessionBinding) : Prop where
  epoch : b.epoch = s.currentEpoch
  live : ∃ p ∈ s.participants, p.id = b.participant ∧ p.retired = false ∧
    (b.boot, b.incarnation) ∈ p.live

/-- Both are sessions of one incarnation. -/
def SessionBinding.SameIncarnation (a b : SessionBinding) : Prop :=
  a.participant = b.participant ∧ a.boot = b.boot ∧ a.incarnation = b.incarnation

instance (a b : SessionBinding) : Decidable (a.SameIncarnation b) :=
  inferInstanceAs (Decidable (_ ∧ _))

/-- **What `bindSession` asks**: nobody holds a session of the same boot. -/
theorem bindable_iff {host : Host} (h : coordinator.Reaches (fun _ _ => True) host) {impl : Impl}
    (himpl : host.runtime = some impl) {b : SessionBinding} :
    impl.bindable b = true ↔ impl.state.Entitled b ∧ b.boot ∉ impl.bootSessionIndex.map Prod.fst := by
  have hdistinct := reachable_distinct h himpl
  have hfree : (impl.bootSessionIndex.any fun s => s.1 == b.boot) = false ↔
      b.boot ∉ impl.bootSessionIndex.map Prod.fst := by
    rw [List.any_eq_false]
    constructor
    · intro hnone hmem
      obtain ⟨entry, hentry, hboot⟩ := List.mem_map.mp hmem
      exact hnone entry hentry (beq_iff_eq.mpr hboot)
    · intro hfree entry hentry hboot
      exact hfree (beq_iff_eq.mp hboot ▸ List.mem_map_of_mem hentry)
  unfold Impl.bindable
  by_cases hepoch : b.epoch = impl.state.currentEpoch
  swap
  · rw [if_pos hepoch]
    constructor
    · intro hfalse
      cases hfalse
    · rintro ⟨hentitled, -⟩
      exact absurd hentitled.epoch hepoch
  rw [if_neg (not_not.mpr hepoch)]
  cases hfound : impl.findParticipant b.participant with
  | none =>
    constructor
    · intro hfalse
      cases hfalse
    · rintro ⟨⟨-, p, hp, hid, -⟩, -⟩
      rw [← hid, hdistinct.find_of_mem hp] at hfound
      cases hfound
  | some owner =>
    dsimp only
    rw [Bool.and_eq_true, Bool.and_eq_true, Bool.not_eq_true', Bool.not_eq_true', beq_iff_eq, hfree]
    constructor
    · rintro ⟨⟨hretired, hlive⟩, hboot⟩
      exact ⟨⟨hepoch, owner, Impl.mem_of_find hfound, hdistinct.findable.id_of_find hfound, hretired,
        DurableParticipant.mem_live_of_find hlive⟩, hboot⟩
    · rintro ⟨⟨-, p, hp, hid, hretired, hlive⟩, hboot⟩
      have howner := hdistinct.find_of_mem hp
      rw [hid, hfound] at howner
      obtain rfl := Option.some.inj howner
      exact ⟨⟨hretired, DurableParticipant.find_of_nodup (reachable_liveOnce h himpl _ hp) hlive⟩,
        hboot⟩

/-- A binding is accepted exactly if its incarnation has authority, and has no
session yet. -/
def BindsLawfully (host : Host) (impl : Impl) (b : SessionBinding) : Prop :=
  ∀ entropy fault,
    ((callRuntime (.bind b) entropy fault host.disk impl).result = .ok (.bound true) ↔
      impl.state.Entitled b ∧ ∀ s ∈ impl.sessionIndex, ¬ s.SameIncarnation b)

/-- **One session for each incarnation**: the law is met, over all histories of
distinct sessions, exactly where the session that has the boot of the binding, if
there is one, is a session of that same incarnation. -/
theorem bindsLawfully_iff {host : Host} (h : coordinator.Reaches FreshSessions host) {impl : Impl}
    (himpl : host.runtime = some impl) {b : SessionBinding}
    (hroom : impl.sessionIndex.length < impl.options.limits.maxSessions) :
    BindsLawfully host impl b ↔
      (impl.state.Entitled b → ∀ s ∈ impl.sessionIndex, s.boot = b.boot → s.SameIncarnation b) := by
  have hties := reachable_ties h himpl
  have hall : coordinator.Reaches (fun _ _ => True) host := h.mono fun _ _ _ => trivial
  -- a boot is taken where an open session has it
  have htaken : b.boot ∉ impl.bootSessionIndex.map Prod.fst ↔ ∀ s ∈ impl.sessionIndex, s.boot ≠ b.boot := by
    constructor
    · intro hfree s hs hboot
      have hentry := (hties.inverse b.boot s.id).mp ⟨s, hs, rfl, hboot⟩
      exact hfree (List.mem_map_of_mem (f := Prod.fst) hentry)
    · intro hnone hmem
      obtain ⟨⟨boot, session⟩, hentry, hboot⟩ := List.mem_map.mp hmem
      obtain ⟨s, hs, -, hsame⟩ := (hties.inverse boot session).mpr hentry
      exact hnone s hs (hsame.trans hboot)
  have hbind : ∀ entropy fault,
      (callRuntime (.bind b) entropy fault host.disk impl).result = .ok (.bound true) ↔
        impl.bindable b = true := by
    intro entropy fault
    cases hbindable : impl.bindable b <;>
      simp [callRuntime, Impl.bindSession, hbindable, not_le.mpr hroom]
  unfold BindsLawfully
  simp only [hbind, bindable_iff hall himpl, htaken]
  constructor
  · intro hlaw hentitled s hs hboot
    -- the session is in the way, so by the law it is one of this incarnation
    by_contra hother
    have haccepted := (hlaw (.ok (Block.zero 16)) none).mpr ⟨hentitled, fun s' hs' hsame => ?_⟩
    · exact haccepted.2 s hs hboot
    · have hone : s' = s := List.inj_on_of_nodup_map hties.boots hs' hs (hsame.2.1.trans hboot.symm)
      exact hother (hone ▸ hsame)
  · rintro hcond - -
    constructor
    · rintro ⟨hentitled, hfree⟩
      exact ⟨hentitled, fun s hs hsame => hfree s hs hsame.2.1⟩
    · rintro ⟨hentitled, hnone⟩
      exact ⟨hentitled, fun s hs hboot => hnone s hs (hcond hentitled s hs hboot)⟩

/-! ### Runs -/

instance (host : Host) (input : Input) : Decidable (FreshSessions host input) :=
  match input with
  | .call (.bind binding) _ _ =>
    inferInstanceAs (Decidable (∀ impl ∈ host.runtime, binding.id ∉ impl.sessionIndex.map (·.id)))
  | .call (.register _) _ _ | .call (.registerBatch _) _ _ | .call (.fence _) _ _
  | .call (.grant _) _ _ | .call (.revoke _) _ _ | .call (.advance _) _ _ | .call (.retire _) _ _
  | .call (.close _ _) _ _ | .call .flush _ _ | .open _ _ => .isTrue trivial

/-- Another session for the incarnation of the run, registered in this epoch. -/
def secondBinding (epoch : CoordinatorEpoch) (i : IncarnationSequence) : SessionBinding where
  id := smallId 7
  participant := testParticipant "p"
  boot := smallId 4
  epoch := epoch
  incarnation := i
  registrationGeneration := smallCounter 1

/-- The binding of the run is the only one, and there is room for another. -/
def OneSession (impl : Impl) : Prop :=
  impl.sessionIndex = [testBinding] ∧ impl.sessionIndex.length < impl.options.limits.maxSessions

instance (impl : Impl) : Decidable (OneSession impl) := inferInstanceAs (Decidable (_ ∧ _))

/-- A second session of the worker that has bound one is refused, lawfully. -/
theorem bindsLawfully_iff_test : ∃ host impl, coordinator.Reaches FreshSessions host ∧
    host.runtime = some impl ∧
    BindsLawfully host impl (secondBinding (smallCounter 1) (smallCounter 1)) := by
  have hallows : coordinator.Allows FreshSessions coordinator.init boundRun := by decide +kernel
  have hrun : (coordinator.run coordinator.init boundRun).runtime.map
      (fun impl => decide (OneSession impl)) = some true := by decide +kernel
  have hreach : coordinator.Reaches FreshSessions (coordinator.run coordinator.init boundRun) :=
    Machine.leads_run hallows
  generalize coordinator.run coordinator.init boundRun = host at hrun hreach
  obtain ⟨impl, himpl, hone⟩ := Option.map_eq_some_iff.mp hrun
  obtain ⟨hsessions, hroom⟩ : OneSession impl := of_decide_eq_true hone
  refine ⟨host, impl, hreach, himpl, (bindsLawfully_iff hreach himpl hroom).mpr ?_⟩
  intro _ s hs _
  rw [hsessions, List.mem_singleton] at hs
  rw [hs]
  decide

/-- **The session of an earlier incarnation** of the same boot keeps the new one
from being bound, in a run of distinct sessions in which nothing throws. -/
theorem leftover_blocks : ∃ host impl,
    coordinator.Reaches (fun host input => FreshSessions host input ∧ Quietly host input) host ∧
    host.runtime = some impl ∧ impl.sessionIndex.length < impl.options.limits.maxSessions ∧
    ¬ BindsLawfully host impl (secondBinding (smallCounter 2) (smallCounter 2)) := by
  have hallows : coordinator.Allows (fun host input => FreshSessions host input ∧ Quietly host input)
      coordinator.init reboundRun := by decide +kernel
  have hrun : (coordinator.run coordinator.init reboundRun).runtime.map (fun impl =>
      (decide (OneSession impl), decide (impl.state.currentEpoch = smallCounter 2),
        decide (∃ p ∈ impl.state.participants, p.id = testParticipant "p" ∧ p.retired = false ∧
          (smallId 4, smallCounter 2) ∈ p.live),
        impl.bindable (secondBinding (smallCounter 2) (smallCounter 2)))) =
      some (true, true, true, false) := by decide +kernel
  have hreach := Machine.leads_run hallows
  generalize coordinator.run coordinator.init reboundRun = host at hrun hreach
  obtain ⟨impl, himpl, hvalue⟩ := Option.map_eq_some_iff.mp hrun
  simp only [Prod.mk.injEq, decide_eq_true_eq] at hvalue
  obtain ⟨⟨hsessions, hroom⟩, hepoch, hlive, hrefused⟩ := hvalue
  refine ⟨host, impl, hreach, himpl, hroom, fun hlaw => ?_⟩
  have haccepted := (hlaw (.ok (Block.zero 16)) none).mpr ⟨⟨hepoch.symm, hlive⟩, ?_⟩
  · simp [callRuntime, Impl.bindSession, hrefused] at haccepted
  · intro s hs hsame
    rw [hsessions, List.mem_singleton] at hs
    rw [hs] at hsame
    exact absurd hsame (by decide)

end FabricEpoch
