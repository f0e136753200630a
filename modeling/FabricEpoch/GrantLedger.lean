import FabricEpoch.Delegation
import FabricEpoch.Lib.Delegations
import FabricEpoch.Runtime.GrantTables
import FabricEpoch.ScopeBinding

/-!
# The grants of a coordinator and the ledger of its answers

A grant enters the table when a call is answered Granted, and is revoked when one is
answered Revoked. So the table can be read off the answers: it is the ledger of the
certificates that were handed out, and a grant in it is revoked where the ledger
takes it back, or a grant it was delegated from.

- `deeds`: what the answers of a run hand out and take back;
- `Ledger`: the table beside the ledger;
- `commitGrant_ledger`, `Cascade.ledger`: the two operations on grants;
- `grantLedger`: every run without exceptions;
- `decisionBacked`: the paper trail behind a decision.
-/

namespace FabricEpoch

open Table Transaction Delegations

/-! ## What is written down -/

/-- What is settled about a grant when it is issued. -/
structure GrantTerms where
  epoch : CoordinatorEpoch
  participant : ParticipantId
  boot : WorkerBootId
  incarnation : IncarnationSequence
  scopes : ScopeSet
  provenance : BoundedText
deriving DecidableEq

abbrev GrantDeed : Type := Deed AuthorityGrantId GrantTerms

/-- A grant of the table, as a certificate. -/
def AuthorityGrant.certificate (g : AuthorityGrant) : Certificate AuthorityGrantId GrantTerms where
  key := g.id
  parent := g.parent
  terms := ⟨g.epoch, g.participant, g.boot, g.incarnation, g.scopes, g.provenance⟩

/-- A request that was granted, as a certificate. -/
def GrantAuthorityRequest.certificate (request : GrantAuthorityRequest) (r : GrantResult) :
    Certificate AuthorityGrantId GrantTerms where
  key := r.grant.getD .nil
  parent := request.parent
  terms := ⟨r.epoch, request.participant, request.boot, request.incarnation, request.scopes,
    request.provenance⟩

/-- What an answer hands out or takes back. An answer from the replay table does
neither. -/
def Impl.deeds (impl : Impl) : Call → Reply → List GrantDeed
  | .grant request, .granted r =>
    if r.outcome = .granted ∧ impl.recordedAttempt request.participant request.attempt = none then
      [.issue (request.certificate r)]
    else []
  | .revoke request, .revoked r =>
    if r.outcome = .revoked ∧ findAttempt impl.state.controlAttempts request.attempt = none then
      [.revoke request.grant]
    else []
  | _, _ => []

def Host.deeds (host : Host) (input : Input) : List GrantDeed :=
  match input, host.runtime, (coordinator.step host input).2 with
  | .call call _ _, some impl, some (.ok reply) => impl.deeds call reply
  | _, _, _ => []

/-- The ledger of a run. -/
def deeds (host : Host) : List Input → List GrantDeed
  | [] => []
  | input :: inputs => host.deeds input ++ deeds (coordinator.step host input).1 inputs

/-- **The table is the ledger**: the grants are the certificates, in order, and a
grant is revoked where it was taken back. -/
structure Ledger (ds : List GrantDeed) (s : DurableState) : Prop where
  lawful : Lawful ds
  table : s.grants.map (·.certificate) = issued ds
  revoked : ∀ g ∈ s.grants, g.revoked = true ↔ Revoked ds g.id

/-! ## The table beside the ledger -/

section Tables

variable {ds : List GrantDeed} {s s' : DurableState}

theorem Ledger.initial : Ledger [] initialState where
  lawful := .nil
  table := rfl
  revoked _ hg := by cases hg

theorem Ledger.of_grants (h : Ledger ds s) (hgrants : s'.grants = s.grants) : Ledger ds s' where
  lawful := h.lawful
  table := by rw [hgrants, h.table]
  revoked := by rw [hgrants]; exact h.revoked

/-- The identifiers of the grants are the keys of the ledger. -/
theorem Ledger.keys (h : Ledger ds s) : s.grants.map (·.id) = keys ds := by
  unfold Delegations.keys
  rw [← h.table, List.map_map]
  rfl

/-- A grant is derived from another in the table where it is in the ledger. -/
theorem Ledger.derives (h : Ledger ds s) (j k : AuthorityGrantId) :
    Derived s.grants j k ↔ Derives ds j k := by
  have hchildren : childIds s.grants = Forest.children Certificate.key Certificate.parent (issued ds) := by
    rw [← h.table]
    funext k
    unfold childIds Forest.children
    rw [List.filter_map, List.map_map]
    rfl
  unfold Derives
  show Relation.TransGen (Worklist.Edge (childIds s.grants)) j k ↔ _
  rw [hchildren]

/-- **A grant that is issued** is a certificate more. -/
theorem Ledger.issue (h : Ledger ds s) {g : AuthorityGrant} (hgrants : s'.grants = s.grants ++ [g])
    (hfresh : g.id ∉ s.grants.map (·.id)) (hlive : g.revoked = false)
    (hparent : ∀ p, g.parent = some p → ∃ q ∈ s.grants, q.id = p ∧ q.revoked = false) :
    Ledger (ds ++ [.issue g.certificate]) s' := by
  have hfresh' : g.certificate.key ∉ Delegations.keys ds := h.keys ▸ hfresh
  have hparent' : ∀ p, g.certificate.parent = some p → p ∈ Delegations.keys ds ∧ ¬ Revoked ds p := by
    intro p hp
    obtain ⟨q, hq, rfl, hstands⟩ := hparent p hp
    refine ⟨h.keys ▸ List.mem_map_of_mem hq, fun hrevoked => ?_⟩
    rw [(h.revoked q hq).mpr hrevoked] at hstands
    cases hstands
  constructor
  case lawful => exact .issue h.lawful hfresh' hparent'
  case table =>
    rw [hgrants, List.map_append, h.table, issued_append]
    rfl
  case revoked =>
    intro g' hg'
    rw [h.lawful.revoked_issue hfresh' hparent']
    rw [hgrants] at hg'
    rcases List.mem_append.mp hg' with hold | hnew
    · exact h.revoked g' hold
    · rw [List.mem_singleton.mp hnew, hlive]
      constructor
      · intro htrue
        cases htrue
      · exact fun hrevoked => absurd (h.lawful.known hrevoked) hfresh'

/-- A grant is revoked behind a cascade if it was, or if the cascade reaches it. -/
theorem AuthorityGrant.cascaded_revoked {epoch : CoordinatorEpoch} {generation : GrantGeneration}
    {root : AuthorityGrantId} {derived : List AuthorityGrantId} {g : AuthorityGrant} :
    (g.cascaded epoch generation root derived).revoked = true ↔
      g.id = root ∨ g.id ∈ derived ∨ g.revoked = true := by
  unfold AuthorityGrant.cascaded
  by_cases hroot : g.id = root
  · rw [if_pos hroot]
    exact iff_of_true rfl (.inl hroot)
  · rw [if_neg hroot]
    by_cases hmem : g.id ∈ derived
    · rw [if_pos hmem]
      exact iff_of_true rfl (.inr (.inl hmem))
    · rw [if_neg hmem, or_iff_right hroot, or_iff_right hmem]

/-- **A revocation that cascades** is one deed. -/
theorem Cascade.ledger {epoch : CoordinatorEpoch} {generation : GrantGeneration}
    {root : AuthorityGrantId} {derived : List AuthorityGrantId} (h : Ledger ds s)
    (hcascade : Cascade epoch generation root s.grants s'.grants derived) :
    Ledger (ds ++ [.revoke root]) s' := by
  obtain ⟨g, hg, hroot, hlive⟩ := hcascade.live
  have hcertificate : ∀ g : AuthorityGrant,
      (g.cascaded epoch generation root derived).certificate = g.certificate := by
    intro g
    unfold AuthorityGrant.cascaded
    split
    · rfl
    · split <;> rfl
  constructor
  case lawful =>
    refine .revoke h.lawful (h.keys ▸ hroot ▸ List.mem_map_of_mem hg) fun hrevoked => ?_
    rw [(h.revoked g hg).mpr (hroot ▸ hrevoked)] at hlive
    cases hlive
  case table =>
    rw [hcascade.table, List.map_map, issued_append]
    show s.grants.map (fun g => (g.cascaded epoch generation root derived).certificate) = issued ds ++ []
    rw [List.append_nil, ← h.table]
    exact List.map_congr_left fun g _ => hcertificate g
  case revoked =>
    intro g' hg'
    rw [hcascade.table] at hg'
    obtain ⟨g, hg, rfl⟩ := List.mem_map.mp hg'
    have hid : (g.cascaded epoch generation root derived).id = g.id :=
      congrArg Certificate.key (hcertificate g)
    rw [hid, revoked_revoke, ← h.revoked g hg, ← h.derives,
      AuthorityGrant.cascaded_revoked]
    constructor
    · rintro (rfl | hmem | hrevoked)
      · exact .inr (.inl rfl)
      · exact .inr (.inr ((hcascade.mem g.id).mp hmem).1)
      · exact .inl hrevoked
    · rintro (hrevoked | rfl | hderived)
      · exact .inr (.inr hrevoked)
      · exact .inl rfl
      · -- below the root everything is revoked, or is now
        cases hlive : g.revoked with
        | true => exact .inr (.inr rfl)
        | false => exact .inr (.inl ((hcascade.mem g.id).mpr ⟨hderived, g, hg, rfl, hlive⟩))

end Tables

/-! ## One call -/

/-- Whether the call hands out grants or takes them back. -/
def Call.Deals : Call → Bool
  | .grant _ => true
  | .revoke _ => true
  | _ => false

/-- Any other call leaves the grants alone. -/
theorem grantsOf_framed {call : Call} (hcall : call.Deals = false) : call.Framed grantsOf := by
  cases call with
  | grant request => cases hcall
  | revoke request => cases hcall
  | register request => exact grantsOf_registration
  | registerBatch requests => exact grantsOf_registration
  | fence request => exact grantsOf_record
  | retire request => exact grantsOf_record
  | advance request => exact grantsOf_epoch
  | bind binding => exact fun _ _ _ => rfl
  | close session reason => exact ⟨grantsOf_record.toFenceFrame, fun _ _ _ => rfl⟩
  | flush => trivial

section Calls

variable {ds : List GrantDeed} {entropy : Entropy}

/-- **A grant**, and what its answer hands out. -/
theorem applyGrant_ledger {request : GrantAuthorityRequest} {t u : Txn Impl} {r : GrantResult}
    (ht : t.state.Regular) (hledger : Ledger ds t.state.state)
    (hnodup : (u.state.state.grants.map (·.id)).Nodup) (h : applyGrant entropy request t = .ok r u) :
    Ledger (ds ++ t.state.deeds (.grant request) (.granted r)) u.state.state := by
  rcases applyGrant_cases h with ⟨rfl, hreplay⟩ | ⟨p, digest, hadmitted, h⟩
  · -- refused, or answered from the replay table
    have hnone : u.state.deeds (.grant request) (.granted r) = [] :=
      if_neg fun hnew => hreplay hnew.1 hnew.2
    rw [hnone, List.append_nil]
    exact hledger
  obtain ⟨bytes, g, -, -, hstate, -, hout, hgrant, -, hepoch⟩ := commitGrant_ok h
  obtain ⟨grant, heq⟩ : ∃ grant : AuthorityGrant, grant =
    { t.state.newGrant request ⟨bytes⟩ with generation := GrantGeneration.ofState g } := ⟨_, rfl⟩
  have hgrants : u.state.state.grants = t.state.state.grants ++ [grant] := by
    rw [hstate, Impl.issued_eq, heq]
    unfold Impl.updateParticipant
    split <;> rfl
  have hnew : t.state.recordedAttempt request.participant request.attempt = none := by
    rw [Impl.recordedAttempt_of_find hadmitted.found]
    exact hadmitted.attempt
  have hcertificate : request.certificate r = grant.certificate := by
    rw [heq]
    unfold GrantAuthorityRequest.certificate
    rw [hgrant, hepoch]
    rfl
  have hone : t.state.deeds (.grant request) (.granted r) = [.issue (request.certificate r)] :=
    if_pos ⟨hout, hnew⟩
  rw [hone, hcertificate]
  refine hledger.issue hgrants ?_ (by rw [heq]; rfl) fun p hp => ?_
  · intro hin
    rw [hgrants, List.map_append] at hnodup
    exact (List.nodup_append.mp hnodup).2.2 _ hin _ (List.mem_singleton_self _) rfl
  · -- the parent was looked up
    rw [heq] at hp
    obtain ⟨q, hq, hdelegates⟩ := (refusedDelegation_none hadmitted.delegation).2 p hp
    obtain ⟨hmem, rfl⟩ := ht.grant_of_find hq
    exact ⟨q, hmem, rfl, hdelegates.live⟩

/-- **A revocation**, and what its answer takes back. -/
theorem applyRevoke_ledger {request : RevokeAuthorityRequest} {t u : Txn Impl} {r : RevokeResult}
    (hd : t.state.Delegating) (hn : (t.state.state.grants.map (·.id)).Nodup)
    (hledger : Ledger ds t.state.state) (h : applyRevoke request t = .ok r u) :
    Ledger (ds ++ t.state.deeds (.revoke request) (.revoked r)) u.state.state := by
  rcases applyRevoke_cases h with ⟨rfl, hreplay⟩ | ⟨digest, grant, hadmitted, h⟩
  · have hnone : u.state.deeds (.revoke request) (.revoked r) = [] :=
      if_neg fun hnew => hreplay hnew.1 hnew.2
    rw [hnone, List.append_nil]
    exact hledger
  obtain ⟨_, _, _, -, -, -, -, -, hout, -⟩ := commitRevoke_ok h
  obtain ⟨generation, derived, hcascade, -⟩ :=
    commitRevoke_cascade hd.indexed hn hd.forest hadmitted.found hadmitted.live h
  have hone : t.state.deeds (.revoke request) (.revoked r) = [.revoke request.grant] :=
    if_pos ⟨hout, hadmitted.attempt⟩
  rw [hone]
  exact Cascade.ledger hledger hcascade

variable {call : Call} {fault : Option SaveFault} {disk : Disk} {impl : Impl} {reply : Reply}

/-- **One call**, and what its answer hands out or takes back. -/
theorem callRuntime_ledger (hs : impl.Settled) (hd : impl.Delegating)
    (hn : (impl.state.grants.map (·.id)).Nodup)
    (hn' : ((callRuntime call entropy fault disk impl).impl.state.grants.map (·.id)).Nodup)
    (hledger : Ledger ds impl.state)
    (h : (callRuntime call entropy fault disk impl).result = .ok reply) :
    Ledger (ds ++ impl.deeds call reply) (callRuntime call entropy fault disk impl).impl.state := by
  cases hcall : call.Deals with
  | true =>
    cases call with
    | grant request =>
      obtain ⟨r, hr⟩ := Transacted.map_result_ok h
      have hreply : Reply.granted r = reply := by
        have hmap : (callRuntime (.grant request) entropy fault disk impl).result =
            Except.map Reply.granted
              (transact (applyGrant entropy request) fault disk impl).result := rfl
        rw [hmap, hr] at h
        exact Except.ok.inj h
      subst hreply
      obtain ⟨t, ps, ht, -, hstate⟩ := transact_state (T := .nothing) (fun t ht =>
        applyGrant_advanced hs.regular rfl False.elim False.elim ht) hr
      replace hstate : (callRuntime (.grant request) entropy fault disk impl).impl.state = _ := hstate
      rw [hstate] at hn' ⊢
      exact (applyGrant_ledger hs.regular hledger hn' ht).of_grants rfl
    | revoke request =>
      obtain ⟨r, hr⟩ := Transacted.map_result_ok h
      have hreply : Reply.revoked r = reply := by
        have hmap : (callRuntime (.revoke request) entropy fault disk impl).result =
            Except.map Reply.revoked (transact (applyRevoke request) fault disk impl).result := rfl
        rw [hmap, hr] at h
        exact Except.ok.inj h
      subst hreply
      obtain ⟨t, ps, ht, -, hstate⟩ := transact_state (T := .nothing) (fun t ht =>
        applyRevoke_advanced hs.regular rfl ht) hr
      replace hstate : (callRuntime (.revoke request) entropy fault disk impl).impl.state = _ := hstate
      rw [hstate]
      exact (applyRevoke_ledger hd hn hledger ht).of_grants rfl
    | _ => cases hcall
  | false =>
    have hnone : impl.deeds call reply = [] := by
      cases call with
      | grant request => cases hcall
      | revoke request => cases hcall
      | _ => rfl
    rw [hnone, List.append_nil]
    obtain ⟨u, hgrants, hbehind⟩ := callRuntime_frame (grantsOf_framed hcall) hs h
    obtain ⟨ps, -, hstate⟩ := hbehind.state
    refine hledger.of_grants ?_
    rw [hstate]
    exact hgrants

end Calls

/-! ## Runs -/

/-- The memory and the image carry the ledger. -/
structure LedgerHost (ds : List GrantDeed) (host : Host) : Prop where
  disk : Stored (Ledger ds) host.disk
  memory : ∀ impl ∈ host.runtime, Ledger ds impl.state

/-- What the memory carries, the image it was saved as carries. -/
theorem LedgerHost.of_memory {ds : List GrantDeed} {host : Host} (hkept : Holds Kept host)
    {impl : Impl} (himpl : host.runtime = some impl) (h : Ledger ds impl.state) :
    LedgerHost ds host := by
  have hholds : Holds (Ledger ds) host := hkept.refine himpl h
  exact ⟨hholds.disk, fun impl' himpl' => (hholds.memory impl' himpl').2.1⟩

/-- **One quiet step** and its deed. -/
theorem quietStep_ledger {ds : List GrantDeed} {host : Host} {input : Input}
    (hreach : coordinator.Reaches Quietly host) (h : LedgerHost ds host)
    (hquiet : Quietly host input) :
    LedgerHost (ds ++ host.deeds input) (coordinator.step host input).1 := by
  have hkept := quietRun_kept hreach
  have hkept' := quietRun_kept (hreach.tail input hquiet)
  cases input with
  | «open» opening fault =>
    show LedgerHost (ds ++ []) _
    rw [List.append_nil]
    obtain ⟨hmemory, -, hdisk⟩ := openRuntime_grants opening fault
      (reachable_grants (hreach.mono fun _ _ _ => trivial)).disk (P := Ledger ds)
      (fun s s' hs heq => hs.of_grants heq) h.disk
    exact ⟨hdisk, fun impl himpl => (hmemory impl himpl).2⟩
  | call call entropy fault =>
    cases hruntime : host.runtime with
    | none =>
      have hnone : host.deeds (.call call entropy fault) = [] := by
        unfold Host.deeds
        rw [hruntime]
      rw [hnone, List.append_nil, coordinator_idle hruntime]
      exact h
    | some impl =>
      have hstep := coordinator_call hruntime call entropy fault
      obtain ⟨hs, -, hvalid, hepoch⟩ := hkept.memory impl hruntime
      cases hr : (callRuntime call entropy fault host.disk impl).result with
      | error e => exact absurd (by rw [hstep, hr]) (hquiet e)
      | ok reply =>
        have hdeeds : host.deeds (.call call entropy fault) = impl.deeds call reply := by
          unfold Host.deeds
          rw [hstep, hr, hruntime]
        rw [hdeeds]
        have hruntime' : (coordinator.step host (.call call entropy fault)).1.runtime =
            some (callRuntime call entropy fault host.disk impl).impl := by rw [hstep]
        obtain ⟨-, -, hvalid', hepoch'⟩ := hkept'.memory _ hruntime'
        exact .of_memory hkept' hruntime' (callRuntime_ledger hs
          ((quietRun_delegating hreach).memory impl hruntime) (hvalid.established hepoch).grantIds
          (hvalid'.established hepoch').grantIds (h.memory impl hruntime) hr)

theorem quietRun_ledger {inputs : List Input} {ds : List GrantDeed} {host : Host}
    (hreach : coordinator.Reaches Quietly host) (h : LedgerHost ds host)
    (hallows : coordinator.Allows Quietly host inputs) :
    LedgerHost (ds ++ deeds host inputs) (coordinator.run host inputs) := by
  induction inputs generalizing ds host with
  | nil =>
    show LedgerHost (ds ++ []) host
    rw [List.append_nil]
    exact h
  | cons input inputs ih =>
    have hrest := ih (hreach.tail input hallows.1) (quietStep_ledger hreach h hallows.1) hallows.2
    rwa [List.append_assoc] at hrest

theorem initial_ledger {inputs : List Input} (h : coordinator.Allows Quietly coordinator.init inputs)
    {impl : Impl} (himpl : (coordinator.run coordinator.init inputs).runtime = some impl) :
    Ledger (deeds coordinator.init inputs) impl.state := by
  have hstart : LedgerHost [] coordinator.init :=
    ⟨⟨fun _ => .initial, fun _ himage => by cases himage⟩, fun _ hi => by cases hi⟩
  exact (quietRun_ledger .refl hstart h).memory impl himpl

/-- **The grants of a coordinator are the ledger of its answers.** In a run without
exceptions nothing is handed out twice or below what was taken back; the grants are
those that were answered Granted, one by one and in order, with the terms of the
request; and a grant is revoked exactly where a call that was answered Revoked named
it, or a grant it was delegated from. -/
theorem grantLedger {inputs : List Input} (h : coordinator.Allows Quietly coordinator.init inputs)
    {impl : Impl} (himpl : (coordinator.run coordinator.init inputs).runtime = some impl) :
    Lawful (deeds coordinator.init inputs) ∧
      impl.state.grants.map (·.certificate) = issued (deeds coordinator.init inputs) ∧
      ∀ g ∈ impl.state.grants, g.revoked = true ↔ Revoked (deeds coordinator.init inputs) g.id := by
  obtain ⟨hlawful, htable, hrevoked⟩ := initial_ledger h himpl
  exact ⟨hlawful, htable, hrevoked⟩

/-- Two grants, one delegated from the other, and the first is revoked. -/
def withdrawnRun : List Input := delegatedRun ++ [callOf (.revoke (testRevoke 11 (smallId 9)))]

theorem grantLedger_test : ∃ impl : Impl, (deeds coordinator.init withdrawnRun).length = 3 ∧
    impl.state.grants.length = 2 ∧
    ∀ g ∈ impl.state.grants, g.revoked = true ↔ Revoked (deeds coordinator.init withdrawnRun) g.id := by
  have hrun : ((coordinator.run coordinator.init withdrawnRun).runtime.map fun impl =>
      impl.state.grants.length) = some 2 := by decide +kernel
  obtain ⟨impl, himpl, hlength⟩ := Option.map_eq_some_iff.mp hrun
  exact ⟨impl, by decide +kernel, hlength, (grantLedger (by decide +kernel) himpl).2.2⟩

/-! ## The paper trail of a decision -/

/-- What the answers of a run say of a grant that a token uses: it was granted in this
epoch to the boot of the token, for the scope, to a participant that registered this
incarnation of the boot; and neither it nor a grant above it was taken back. -/
structure PaperTrail (ds : List GrantDeed) (xs : List Registration) (epoch : CoordinatorEpoch)
    (request : ValidateAuthorityRequest) (id : AuthorityGrantId) : Prop where
  granted : ∃ c ∈ issued ds, c.key = id ∧ c.terms.boot = request.token.boot ∧
    ∃ x ∈ xs, x.Of c.terms.participant request.token.boot request.token.incarnation
  standing : ∀ c ∈ issued ds, c.key = id ∨ Derives ds c.key id →
    ¬ Revoked ds c.key ∧ c.terms.epoch = epoch ∧ c.terms.scopes.contains request.scope = true

/-- **No decision without a paper trail.** In a run without exceptions a decision on a
named grant is Current only where the answers of the run account for it, down the
whole chain of delegations. -/
theorem decisionBacked {inputs : List Input} (h : coordinator.Allows Quietly coordinator.init inputs)
    {impl : Impl} (himpl : (coordinator.run coordinator.init inputs).runtime = some impl)
    {request : ValidateAuthorityRequest} {id : AuthorityGrantId} (hgrant : request.grant = some id)
    (hcurrent : (impl.validate request).code = .current) :
    PaperTrail (deeds coordinator.init inputs) (accepted coordinator.init inputs)
      impl.state.currentEpoch request id := by
  have hreach : coordinator.Reaches Quietly (coordinator.run coordinator.init inputs) :=
    Machine.leads_run h
  obtain ⟨hs, -, hvalid, hepoch⟩ := (quietRun_kept hreach).memory impl himpl
  have hforest := ((quietRun_delegating hreach).memory impl himpl).forest
  have hn := (hvalid.established hepoch).grantIds
  have hledger := initial_ledger h himpl
  have hscoped : Scoped (accepted coordinator.init inputs) impl.state := by
    have hstart : ScopedHost [] coordinator.init :=
      ⟨⟨fun _ => .initial [], fun _ himage => by cases himage⟩, fun _ hi => by cases hi⟩
    exact (quietRun_scoped (quietRun_kept .refl) hstart h).memory impl himpl
  obtain ⟨-, ⟨id', grant, owner, hid, hfound, husable⟩ | ⟨hnone, -⟩⟩ :=
    validate_current_iff.mp hcurrent
  swap
  · rw [hgrant] at hnone
    cases hnone
  obtain rfl : id' = id := Option.some.inj (hid.symm.trans hgrant)
  obtain ⟨hmem, rfl⟩ := hs.regular.grant_of_find hfound
  constructor
  · -- the grant of the table is a certificate, and its holder was registered
    have hcertificate : grant.certificate ∈ issued (deeds coordinator.init inputs) := by
      rw [← hledger.table]
      exact List.mem_map_of_mem hmem
    have howner := husable.found
    rw [hs.regular.find] at howner
    obtain ⟨hp, hname⟩ := DurableState.mem_of_lookup howner
    obtain ⟨x, hx, hof⟩ := hscoped.live owner hp _
      (DurableParticipant.mem_live_of_find husable.incarnation)
    rw [hname] at hof
    exact ⟨grant.certificate, hcertificate, rfl, husable.boot, x, hx, hof⟩
  · intro c hc habove
    rw [← hledger.table] at hc
    obtain ⟨q, hq, rfl⟩ := List.mem_map.mp hc
    have hnarrows : q = grant ∨ q.Narrows grant := by
      rcases habove with hsame | hderives
      · exact .inl (List.inj_on_of_nodup_map hn hq hmem hsame)
      · exact .inr (hforest.related hn AuthorityGrant.Narrows.trans
          ((hledger.derives q.id grant.id).mpr hderives) hq rfl hmem rfl)
    rcases hnarrows with rfl | hnarrows
    · refine ⟨fun hrevoked => ?_, husable.epoch, husable.scope⟩
      have htrue := (hledger.revoked q hq).mpr hrevoked
      rw [husable.live] at htrue
      cases htrue
    · refine ⟨fun hrevoked => ?_, hnarrows.epoch.symm.trans husable.epoch,
        ScopeSet.containsAll_contains hnarrows.scopes husable.scope⟩
      have htrue := hnarrows.revoked ((hledger.revoked q hq).mpr hrevoked)
      rw [husable.live] at htrue
      cases htrue

theorem decisionBacked_test : PaperTrail (deeds coordinator.init delegatedRun)
    (accepted coordinator.init delegatedRun) (smallCounter 1) useDelegated (smallId 10) := by
  have hrun : ((coordinator.run coordinator.init delegatedRun).runtime.map fun impl =>
      ((impl.validate useDelegated).code, impl.state.currentEpoch)) =
      some (.current, smallCounter 1) := by decide +kernel
  obtain ⟨impl, himpl, hvalue⟩ := Option.map_eq_some_iff.mp hrun
  obtain ⟨hcode, hepoch⟩ := Prod.mk.inj hvalue
  rw [← hepoch]
  exact decisionBacked (by decide +kernel) himpl rfl hcode

end FabricEpoch
