import FabricEpoch.Incarnations

/-!
# A fenced boot stays out

A fence is retained in two places: a record of the coordinator and a boot in
the ring of its participant, each with its own bound.

- `fencedOut`: over runs of individual calls no live boot is retained as fenced
  in either place, the keys of the records are different, and a registration
  that presents a retained boot is not accepted.
-/

namespace FabricEpoch

open Table Transaction

/-- The input is no batch. -/
def Individual (_ : Host) : Input → Prop
  | .call (.registerBatch _) _ _ => False
  | _ => True

instance (host : Host) (input : Input) : Decidable (Individual host input) := by
  unfold Individual
  split <;> infer_instance

/-- No live boot of a participant is retained as fenced, and one record is
retained for each participant and boot. -/
structure FencedOut (s : DurableState) : Prop where
  boots : ∀ p ∈ s.participants, ∀ boot ∈ p.liveBoots, boot ∉ p.fencedBoots
  records : ∀ p ∈ s.participants, ∀ boot ∈ p.liveBoots,
    ∀ r ∈ s.recentFences, r.participant = p.id → r.boot ≠ boot
  keys : (s.recentFences.map fun r => (r.participant, r.boot)).Nodup

theorem Individual.agrees {host : Host} {input : Input} (h : Individual host input) :
    BatchesAgree host input := by
  rintro requests entropy fault impl rfl _
  exact h.elim

/-- **A registration of a retained boot** is answered by the first checks. -/
theorem applyRegistration_fenced {impl : Impl} {request : RegisterParticipantRequest}
    {commitGeneration : Bool} {u : Txn Impl} {r : RegistrationResult} (hs : impl.Settled)
    (hknown : ∀ f ∈ impl.state.recentFences, f.participant ∈ impl.state.participants.map (·.id))
    (hfenced : impl.state.Fenced request.participant request.boot)
    (h : applyRegistration request commitGeneration (Txn.start impl) = .ok r u) :
    r.outcome ≠ .registered := by
  unfold applyRegistration at h
  rw [Action.bind_current] at h
  show r.outcome ≠ .registered
  cases hmalformed : (Txn.start impl).state.malformedRegistration request with
  | some result =>
    simp only [hmalformed] at h
    cases h
    exact malformedRegistration_some hmalformed
  | none =>
    cases hstale : (Txn.start impl).state.staleRegistration request with
    | some result =>
      simp only [hmalformed, hstale] at h
      cases h
      exact staleRegistration_some hstale
    | none =>
      -- the participant is known, so its fences have been looked up
      have hmem : request.participant ∈ impl.state.participants.map (·.id) := by
        rcases hfenced with ⟨f, hf, hid, -⟩ | ⟨p, hp, hid, -⟩
        · exact hid ▸ hknown f hf
        · exact hid ▸ List.mem_map_of_mem hp
      obtain ⟨p, hp, hid⟩ := List.mem_map.mp hmem
      have hfound : impl.findParticipant request.participant = some p := by
        rw [hs.regular.find, ← hid]
        exact lookup_eq_some_of_mem hs.regular.orderly.ids hp
      have hlookup := ((staleRegistration_none hstale).2 p hfound).2
      rw [show (Txn.start impl).state = impl from rfl, (hs.agrees _ _).mpr hfenced] at hlookup
      cases hlookup

/-- **A fenced boot stays out while its fence is retained**, in every state
that a run of individual calls without exceptions reaches; whatever the next
registration meets, a retained boot is not registered. -/
theorem fencedOut {host : Host}
    (h : coordinator.Reaches (fun host input => Quietly host input ∧ Individual host input) host)
    {impl : Impl} (himpl : host.runtime = some impl) :
    FencedOut impl.state ∧ ∀ request entropy fault r,
      impl.state.Fenced request.participant request.boot →
      (coordinator.step host (.call (.register request) entropy fault)).2 =
        some (.ok (.registered r)) → r.outcome ≠ .registered := by
  have hrun : coordinator.Reaches (QuietRun .lookups) host :=
    h.mono fun _ _ hok => ⟨hok.1, hok.2.agrees.sound⟩
  obtain ⟨hsettled, ⟨-, hincumbency⟩, hvalid, hepoch⟩ :=
    (quietRun_invariant preserved_incumbency ⟨.initial, .initial⟩ hrun).memory impl himpl
  refine ⟨⟨fun p hp boot hboot hfenced => ?_, fun p hp boot hboot r hr hid heq => ?_, ?_⟩, ?_⟩
  · exact hincumbency.notFenced p hp boot hboot (.inr ⟨p, hp, rfl, hfenced⟩)
  · exact hincumbency.notFenced p hp boot hboot (.inl ⟨r, hr, hid, heq⟩)
  · -- the validator has refused two records with one key
    exact (hvalid.established hepoch).fenceKeys
  · intro request entropy fault r hfenced hanswer
    rw [coordinator_call himpl] at hanswer
    have hresult := Transacted.of_map (x := transact (applyRegistration request true) fault
      host.disk impl) (fun _ _ => Reply.registered.inj) (Option.some.inj hanswer)
    obtain ⟨t, ht, -⟩ := transact_ok hresult
    exact applyRegistration_fenced hsettled hincumbency.known hfenced ht

/-- A boot that is fenced and comes back. -/
theorem fencedOut_test : ∃ (host : Host) (impl : Impl), host.runtime = some impl ∧ FencedOut impl.state ∧
    impl.state.Fenced (testParticipant "p") (smallId 11) := by
  obtain ⟨inputs, hinputs⟩ : ∃ inputs, inputs = liveRun ++ fenceRun := ⟨_, rfl⟩
  have hallows : coordinator.Allows (fun host input => Quietly host input ∧ Individual host input)
      coordinator.init inputs := by
    rw [hinputs]
    decide +kernel
  have hrun : ((coordinator.run coordinator.init inputs).runtime.map fun impl =>
      impl.state.recentFences.map fun r => (r.participant, r.boot)) =
      some [(testParticipant "p", smallId 11)] := by
    rw [hinputs]
    decide +kernel
  obtain ⟨impl, himpl, hfences⟩ := Option.map_eq_some_iff.mp hrun
  obtain ⟨r, hr, hkey⟩ := List.map_eq_singleton_iff.mp hfences
  refine ⟨_, impl, himpl, (fencedOut (Machine.leads_run hallows) himpl).1, .inl ⟨r, ?_, ?_⟩⟩
  · rw [hr]
    exact List.mem_singleton_self r
  · exact Prod.mk.inj hkey

end FabricEpoch
