import FabricEpoch.Currentness
import FabricEpoch.Incarnations
import FabricEpoch.Runtime.Delegation

/-!
# Delegated grants

Delegation is checked when a grant is issued, and revocation follows the
children of a grant. So what relates grants with each other holds along every
chain; what relates a grant with the incarnation it was issued to is only
checked for the grant that is named.

- `delegationKept`: delegation never widens, and a revocation reaches exactly
  what is derived;
- `delegatorLive_iff`: a usable grant has live delegators only where they happen
  to be live: no validation looks at the parent.
-/

namespace FabricEpoch

open Table Transaction

/-! ## Delegation never widens -/

/-- Delegated grants stand under parents of their epoch that are as wide, their
chains are finite and acyclic, and nothing below a revoked grant is left. -/
structure DelegationSound (grants : List AuthorityGrant) : Prop where
  parent : ∀ g ∈ grants, ∀ id, g.parent = some id →
    ∃ q ∈ grants, q.id = id ∧ q.epoch = g.epoch ∧ q.scopes.containsAll g.scopes = true
  chain : ∀ q ∈ grants, ∀ g ∈ grants, Derived grants q.id g.id →
    q.epoch = g.epoch ∧ q.scopes.containsAll g.scopes = true
  acyclic : ∀ id, ¬ Derived grants id id
  finite : ∀ chain : List AuthorityGrant, (∀ g ∈ chain, g ∈ grants) →
    (chain.IsChain fun q g => g.parent = some q.id) → chain.length ≤ grants.length
  revoked : ∀ q ∈ grants, q.revoked = true → ∀ g ∈ grants, Derived grants q.id g.id →
    g.revoked = true

theorem Delegation.sound {grants : List AuthorityGrant} (h : Delegation grants)
    (hn : (grants.map (·.id)).Nodup) : DelegationSound grants where
  parent g hg id hid := by
    obtain ⟨q, hq, hqid, hnarrows⟩ := h.of_parent hg hid
    exact ⟨q, hq, hqid, hnarrows.epoch.symm, hnarrows.scopes⟩
  chain q hq g hg hderived := by
    have hnarrows := h.related hn AuthorityGrant.Narrows.trans hderived hq rfl hg rfl
    exact ⟨hnarrows.epoch.symm, hnarrows.scopes⟩
  acyclic := h.acyclic hn
  finite chain hmem hchain := h.length_chain_le hn hchain hmem
  revoked q hq hr g hg hderived :=
    (h.related hn AuthorityGrant.Narrows.trans hderived hq rfl hg rfl).revoked hr

/-- What holds of the grants of a state, and of the next revocation. -/
structure DelegationKept (host : Host) (impl : Impl) : Prop where
  sound : DelegationSound impl.state.grants
  revocation : ∀ request entropy fault r,
    (coordinator.step host (.call (.revoke request) entropy fault)).2 =
      some (.ok (.revoked r)) →
    r.outcome = .revoked → findAttempt impl.state.controlAttempts request.attempt = none →
    ∃ impl' generation derived,
      (coordinator.step host (.call (.revoke request) entropy fault)).1.runtime = some impl' ∧
      Cascade impl.state.currentEpoch generation request.grant impl.state.grants
        impl'.state.grants derived ∧
      r.derivedGrantsRevoked = derived.length

/-- **Delegation never widens, and a revocation reaches everything below**, in
every state of a run without exceptions. -/
theorem delegationKept {host : Host} (h : coordinator.Reaches Quietly host) {impl : Impl}
    (himpl : host.runtime = some impl) : DelegationKept host impl := by
  obtain ⟨hs, -, hvalid, hepoch⟩ := (quietRun_kept h).memory impl himpl
  have hd := (quietRun_delegating h).memory impl himpl
  have hn := (hvalid.established hepoch).grantIds
  refine ⟨hd.forest.sound hn, fun request entropy fault r hanswer hout hnew => ?_⟩
  rw [coordinator_call himpl] at hanswer ⊢
  have hresult : (transact (applyRevoke request) fault host.disk impl).result = .ok r :=
    Transacted.of_map (fun _ _ => Reply.revoked.inj) (Option.some.inj hanswer)
  obtain ⟨t, ps, ht, -, hstate⟩ :=
    transact_state (fun t ht => applyRevoke_advanced (T := .nothing) hs.regular rfl ht) hresult
  rcases applyRevoke_cascade hd hn ht with ⟨-, hreplayed⟩ | ⟨generation, derived, hcascade, hcount⟩
  · exact absurd hnew (hreplayed hout)
  · refine ⟨_, generation, derived, rfl, ?_, hcount⟩
    show Cascade _ _ _ _ (transact (applyRevoke request) fault host.disk impl).impl.state.grants _
    rw [hstate]
    exact hcascade

/-! ### A grant and a grant delegated from it -/

/-- Two workers; the second has a grant that is delegated from one of the
first. -/
def delegatedRun : List Input := [
  testOpen {} 1,
  callOf (.register (testRegister 3 (testParticipant "p") (smallId 4))),
  callOf (.register (testRegister 5 (testParticipant "q") (smallId 6))),
  callOf (.grant (testGrant 7 (testParticipant "p") (smallId 4) (smallCounter 1))),
  .call (.grant { testGrant 8 (testParticipant "q") (smallId 6) (smallCounter 1) with
    parent := some (smallId 9) }) (testEntropy 10) none]

/-- Revoke a grant, in epoch one. -/
def testRevoke (n : UInt8) (grant : AuthorityGrantId) : RevokeAuthorityRequest where
  attempt := smallId n
  expectedEpoch := smallCounter 1
  grant := grant

/-- The answer of a revocation, and how many derived grants it took. -/
def Reply.revocation : Reply → Option (RevokeOutcome × Nat)
  | .revoked r => some (r.outcome, r.derivedGrantsRevoked)
  | _ => none

theorem delegationKept_test : ∃ (impl impl' : Impl) (generation : GrantGeneration)
    (derived : List AuthorityGrantId),
    DelegationSound impl.state.grants ∧
    Cascade impl.state.currentEpoch generation (smallId 9) impl.state.grants impl'.state.grants
      derived ∧ derived.length = 1 := by
  obtain ⟨host, hhost⟩ : ∃ host, host = coordinator.run coordinator.init delegatedRun := ⟨_, rfl⟩
  have hreach : coordinator.Reaches Quietly host := by
    rw [hhost]
    exact Machine.leads_run (by decide +kernel)
  have hruntime : host.runtime.map (fun impl => findAttempt impl.state.controlAttempts
      (smallId 11)) = some none := by
    rw [hhost]
    decide +kernel
  obtain ⟨impl, himpl, hnew⟩ := Option.map_eq_some_iff.mp hruntime
  have hanswer : ((coordinator.step host (callOf (.revoke (testRevoke 11 (smallId 9))))).2.map
      fun answer => answer.toOption.map Reply.revocation) = some (some (some (.revoked, 1))) := by
    rw [hhost]
    decide +kernel
  obtain ⟨answer, hanswer, hreply⟩ := Option.map_eq_some_iff.mp hanswer
  cases answer with
  | error e => cases hreply
  | ok reply =>
    cases reply with
    | revoked r =>
      obtain ⟨hout, hcount⟩ : r.outcome = .revoked ∧ r.derivedGrantsRevoked = 1 := by
        simpa [Except.toOption, Reply.revocation] using hreply
      have hkept := delegationKept hreach himpl
      obtain ⟨impl', generation, derived, -, hcascade, hlength⟩ :=
        hkept.revocation _ _ _ r hanswer hout hnew
      exact ⟨impl, impl', generation, derived, hkept.sound, hcascade, hlength.symm.trans hcount⟩
    | _ => simp [Except.toOption, Reply.revocation] at hreply

/-! ## The delegator -/

/-- A grant that is used stands under grants that could be used: not revoked, of
the current epoch, with the scope, and of live incarnations. -/
def DelegatorsUsable (impl : Impl) (request : ValidateAuthorityRequest) : Prop :=
  ∀ id, request.grant = some id → (impl.validate request).code = .current →
    ∀ q ∈ impl.state.grants, Derived impl.state.grants q.id id →
      q.revoked = false ∧ q.epoch = impl.state.currentEpoch ∧
        q.scopes.contains request.scope = true ∧
        impl.state.Live q.participant q.boot q.incarnation

/-- **The delegators of a usable grant are usable** exactly where they are live,
or no named grant can be used: the parent is not looked at any more once the
grant has been issued. -/
theorem delegatorsUsable_iff {host : Host} (h : coordinator.Reaches Quietly host) {impl : Impl}
    (himpl : host.runtime = some impl) (request : ValidateAuthorityRequest) :
    DelegatorsUsable impl request ↔
      (∀ id, request.grant = some id → ∀ q ∈ impl.state.grants,
        Derived impl.state.grants q.id id →
          impl.state.Live q.participant q.boot q.incarnation) ∨
        NamesNoUsableGrant impl request := by
  obtain ⟨hs, -, hvalid, hepoch⟩ := (quietRun_kept h).memory impl himpl
  have hd := (quietRun_delegating h).memory impl himpl
  have hn := (hvalid.established hepoch).grantIds
  constructor
  · intro husable
    refine or_iff_not_imp_right.mpr fun hno id hid q hq hderived => ?_
    simp only [NamesNoUsableGrant, not_forall, not_not] at hno
    obtain ⟨id', grant, owner, hid', hgrant, hshape, hgrantUsable⟩ := hno
    have hcurrent : (impl.validate request).code = .current :=
      validate_current_iff.mpr ⟨hshape, .inl ⟨id', grant, owner, hid', hgrant, hgrantUsable⟩⟩
    exact (husable id hid hcurrent q hq hderived).2.2.2
  · intro hcond id hid hcurrent q hq hderived
    obtain ⟨hshape, ⟨id', grant, owner, hid', hgrant, husable⟩ | ⟨hnone, -⟩⟩ :=
      validate_current_iff.mp hcurrent
    swap
    · rw [hid] at hnone
      cases hnone
    obtain rfl : id' = id := Option.some.inj (hid'.symm.trans hid)
    rcases hcond with hlive | hno
    swap
    · exact absurd husable (hno id' grant owner hid hgrant hshape)
    -- what the named grant has, its delegators have
    obtain ⟨hmem, rfl⟩ := hs.regular.grant_of_find hgrant
    have hnarrows := hd.forest.related hn AuthorityGrant.Narrows.trans hderived hq rfl hmem rfl
    refine ⟨?_, hnarrows.epoch.symm.trans husable.epoch,
      ScopeSet.containsAll_contains hnarrows.scopes husable.scope, hlive _ hid q hq hderived⟩
    cases hr : q.revoked with
    | false => rfl
    | true =>
      have hrevoked := hnarrows.revoked hr
      rw [husable.live] at hrevoked
      cases hrevoked

/-- Use the delegated grant of the run. -/
def useDelegated : ValidateAuthorityRequest where
  token := ⟨smallCounter 1, testParticipant "q", smallId 6, smallCounter 1, .zero⟩
  scope := testScope
  grant := some (smallId 10)

/-- While the delegator is live, everything is. -/
theorem delegatorsUsable_iff_test : ∃ host impl, coordinator.Reaches Quietly host ∧
    host.runtime = some impl ∧ DelegatorsUsable impl useDelegated := by
  have hreach : coordinator.Reaches Quietly (coordinator.run coordinator.init delegatedRun) :=
    Machine.leads_run (by decide +kernel)
  have hrun : (coordinator.run coordinator.init delegatedRun).runtime.map (fun impl =>
      decide (∀ q ∈ impl.state.grants, impl.state.Live q.participant q.boot q.incarnation)) =
      some true := by decide +kernel
  obtain ⟨impl, himpl, hlive⟩ := Option.map_eq_some_iff.mp hrun
  refine ⟨_, impl, hreach, himpl, (delegatorsUsable_iff hreach himpl _).mpr (.inl ?_)⟩
  exact fun _ _ q hq _ => of_decide_eq_true hlive q hq

/-- **The delegator has been fenced**, and the delegated grant is still
current. -/
theorem fencedDelegator_current : ∃ host impl, coordinator.Reaches Quietly host ∧
    host.runtime = some impl ∧ ¬ DelegatorsUsable impl useDelegated := by
  obtain ⟨inputs, hinputs⟩ : ∃ inputs, inputs =
    delegatedRun ++ [callOf (.fence (testFence 11 (testParticipant "p") (smallId 4)))] := ⟨_, rfl⟩
  have hreach : coordinator.Reaches Quietly (coordinator.run coordinator.init inputs) := by
    rw [hinputs]
    exact Machine.leads_run (by decide +kernel)
  have hrun : (coordinator.run coordinator.init inputs).runtime.map (fun impl =>
      decide ((impl.validate useDelegated).code = .current ∧
        smallId 10 ∈ childIds impl.state.grants (smallId 9) ∧
        ∃ q ∈ impl.state.grants, q.id = smallId 9 ∧
          ¬ impl.state.Live q.participant q.boot q.incarnation)) = some true := by
    rw [hinputs]
    decide +kernel
  obtain ⟨impl, himpl, hvalue⟩ := Option.map_eq_some_iff.mp hrun
  obtain ⟨hcurrent, hchild, q, hq, hid, hdead⟩ := of_decide_eq_true hvalue
  refine ⟨_, impl, hreach, himpl, fun h => hdead ?_⟩
  exact (h (smallId 10) rfl hcurrent q hq (hid ▸ .single hchild)).2.2.2

end FabricEpoch
