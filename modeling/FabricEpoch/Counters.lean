import FabricEpoch.Incarnations

/-!
# Counters only move forward

Every counter of the durable state is raised by one and never lowered, so what
is issued from it is issued once. The registrations that a run has accepted are
collected in the order they were answered, the elements of a batch one after
the other.

- `accepted`: the registrations a sequence of inputs accepts, replays left out;
- `Fresh`, `Covered`: what an accepted registration is issued lies above every
  counter before it, and within the counters behind it;
- `countersForward`: the counters of a run without exceptions, and what is
  issued from them.
-/

namespace FabricEpoch

open Table Transaction

/-! ## Accepted registrations -/

/-- A request and its answer. -/
abbrev Registration := RegisterParticipantRequest × RegistrationResult

/-- The answer accepts the request, and is no replay. -/
def Registration.Accepted (x : Registration) : Prop :=
  x.2.outcome = .registered ∧ x.2.replayed = false

instance (x : Registration) : Decidable x.Accepted := inferInstanceAs (Decidable (_ ∧ _))

/-- The registrations that one answer accepts, in order. -/
def acceptedBy (input : Input) (answer : Answer) : List Registration :=
  match input, answer with
  | .call (.register request) _ _, some (.ok (.registered r)) =>
    [(request, r)].filter fun x => x.Accepted
  | .call (.registerBatch requests) _ _, some (.ok (.registeredBatch rs)) =>
    (requests.zip rs).filter fun x => x.Accepted
  | _, _ => []

/-- The registrations that a sequence of inputs accepts, in order. -/
def accepted (host : Host) : List Input → List Registration
  | [] => []
  | input :: inputs =>
    acceptedBy input (coordinator.step host input).2 ++
      accepted (coordinator.step host input).1 inputs

/-- What an accepted registration was issued. -/
structure Registration.Issues (x : Registration) (i : IncarnationSequence)
    (g : RegistrationGeneration) : Prop where
  incarnation : x.2.incarnation = some i
  generation : x.2.registrationGeneration = some g

/-- What the registration is issued was issued to nobody before: it lies above
the counters of the state. -/
def Registration.Fresh (s : DurableState) (x : Registration) : Prop :=
  ∃ i g, x.Issues i g ∧ s.registrationFloor < g ∧ ∀ p ∈ s.participants, p.id = x.1.participant →
    p.nextIncarnation ≤ i

/-- What the registration is issued lies within the counters of the state. -/
def Registration.Covered (s : DurableState) (x : Registration) : Prop :=
  ∃ i g, x.Issues i g ∧ g ≤ s.registrationFloor ∧ ∃ p ∈ s.participants, p.id = x.1.participant ∧
    i < p.nextIncarnation

/-- What the registration is issued lies above everything the state still knows
to have been issued or fenced. -/
def Registration.Above (s : DurableState) (x : Registration) : Prop :=
  ∃ i g, x.Issues i g ∧ s.registrationFloor < g ∧
    ∀ p ∈ s.participants, p.id = x.1.participant → p.registrationGeneration < g ∧
      p.incarnationFloor < i ∧ (∀ e ∈ p.live, e.2 < i) ∧
      ∀ r ∈ s.recentFences, r.participant = p.id → r.incarnation < i

/-- The later registration is issued more than the earlier one. -/
def Registration.Before (x y : Registration) : Prop :=
  ∃ i g j k, x.Issues i g ∧ y.Issues j k ∧ g < k ∧
    (x.1.participant = y.1.participant → i < j)

namespace Registration

variable {s s' : DurableState} {x y : Registration}

/-- What is fresh later was fresh before. -/
theorem Fresh.of_evolves (h : Fresh s' x) (hs : s.Evolves s') : Fresh s x := by
  obtain ⟨i, g, hissues, hg, hi⟩ := h
  refine ⟨i, g, hissues, Nat.lt_of_le_of_lt hs.registrations hg, ?_⟩
  intro p hp hid
  obtain ⟨p', hp', hevolves⟩ := hs.participants p hp
  exact Nat.le_trans hevolves.next (hi p' hp' (hevolves.id.trans hid))

/-- Every sequence that is live or fenced was issued by the allocator. -/
theorem Fresh.above (h : Fresh s x) (hs : Kept s) : Above s x := by
  obtain ⟨i, g, hissues, hg, hi⟩ := h
  refine ⟨i, g, hissues, hg, fun p hp hid => ?_⟩
  have hnext := hi p hp hid
  refine ⟨?_, ?_, ?_, ?_⟩
  · exact Nat.lt_of_le_of_lt (hs.floors.registrations p hp) hg
  · exact Nat.lt_of_lt_of_le (hs.floors.allocator p hp) hnext
  · intro e he
    exact Nat.lt_of_lt_of_le ((hs.orderly.records p hp).issued e he).2 hnext
  · intro r hr hrid
    exact Nat.lt_of_lt_of_le (hs.floors.records r hr p hp hrid.symm) hnext

/-- What is covered stays covered. -/
theorem Covered.evolves (h : Covered s x) (hs : s.Evolves s') : Covered s' x := by
  obtain ⟨i, g, hissues, hg, p, hp, hid, hi⟩ := h
  obtain ⟨p', hp', hevolves⟩ := hs.participants p hp
  exact ⟨i, g, hissues, Nat.le_trans hg hs.registrations, p', hp', hevolves.id.trans hid,
    Nat.lt_of_lt_of_le hi hevolves.next⟩

/-- What is fresh comes behind what is covered. -/
theorem Covered.before (h : Covered s x) (hy : Fresh s y) : x.Before y := by
  obtain ⟨i, g, hissues, hg, p, hp, hid, hi⟩ := h
  obtain ⟨j, k, hissues', hk, hj⟩ := hy
  refine ⟨i, g, j, k, hissues, hissues', Nat.lt_of_le_of_lt hg hk, ?_⟩
  intro hsame
  exact Nat.lt_of_lt_of_le hi (hj p hp (hid.trans hsame))

end Registration

/-! ## What one step accepts -/

/-- The registrations that lead from one state to the next: fresh before,
covered behind, each before the ones that follow. -/
structure Accepts (s s' : DurableState) (xs : List Registration) : Prop where
  evolves : s.Evolves s'
  fresh : ∀ x ∈ xs, x.Fresh s
  covered : ∀ x ∈ xs, x.Covered s'
  ordered : xs.Pairwise Registration.Before

namespace Accepts

variable {s s' s'' : DurableState} {xs ys : List Registration}

theorem nil (h : s.Evolves s') : Accepts s s' [] :=
  ⟨h, fun _ hx => (nomatch hx), fun _ hx => (nomatch hx), .nil⟩

theorem append (h₁ : Accepts s s' xs) (h₂ : Accepts s' s'' ys) : Accepts s s'' (xs ++ ys) where
  evolves := h₁.evolves.trans h₂.evolves
  fresh x hx := by
    rcases List.mem_append.mp hx with hx | hx
    · exact h₁.fresh x hx
    · exact (h₂.fresh x hx).of_evolves h₁.evolves
  covered x hx := by
    rcases List.mem_append.mp hx with hx | hx
    · exact (h₁.covered x hx).evolves h₂.evolves
    · exact h₂.covered x hx
  ordered := List.pairwise_append.mpr ⟨h₁.ordered, h₂.ordered, fun x hx y hy =>
    (h₁.covered x hx).before (h₂.fresh y hy)⟩

/-- The states may be changed where they are not looked at. -/
theorem congr (h : Accepts s s' xs) (hevolves : s'.Evolves s'') : Accepts s s'' xs := by
  have := h.append (.nil hevolves)
  rwa [List.append_nil] at this

end Accepts

/-- **One registration.** -/
theorem applyRegistration_accepts {request : RegisterParticipantRequest} {commitGeneration : Bool}
    {t u : Txn Impl} {r : RegistrationResult} (ht : t.state.Regular) (hf : Floors t.state.state)
    (h : applyRegistration request commitGeneration t = .ok r u) :
    Accepts t.state.state u.state.state ([(request, r)].filter fun x => x.Accepted) := by
  have hadvanced := applyRegistration_advanced (T := .nothing) ht rfl (fun h => h.elim)
    (fun h => h.elim) (fun h => h.elim) (fun h => h.elim) h
  have hevolves := (Moves.evolves hadvanced.moves ht.orderly hf).2
  by_cases haccepted : Registration.Accepted (request, r)
  swap
  · rw [List.filter_cons_of_neg (by simpa using haccepted)]
    exact .nil hevolves
  rw [List.filter_cons_of_pos (by simpa using haccepted)]
  obtain ⟨houtcome, hreplayed⟩ := haccepted
  obtain ⟨-, hcase⟩ := applyRegistration_registered (T := .nothing) ht (fun h => h.elim)
    (fun h => h.elim) (fun h => h.elim) (fun h => h.elim) h houtcome
  cases hcase with
  | @replayed p digest previous _ _ _ hsame =>
    rw [Impl.replayedRegistration, if_neg (not_not.mpr hsame)] at hreplayed
    cases hreplayed
  | committed made admissible existing missing commit =>
    obtain ⟨-, s, p, g, next, generation, hmoves, -, hp, hfloor, hnext, hstate, -, -, hincarnation,
      hgeneration⟩ := commitRegistration_moved made.regular (by rw [made.options]) admissible
        existing missing commit
    have hmoved := made.moves.trans hmoves
    obtain ⟨hfloors, hbefore⟩ := Moves.evolves hmoved ht.orderly hf
    have horderly := Moves.orderly hmoved ht.orderly
    have hmem := DurableState.mem_of_lookup hp.found
    have hissues : Registration.Issues (request, r) p.nextIncarnation g := ⟨hincarnation, hgeneration⟩
    have hg := MonotonicCounter.next_eq_some hfloor
    have hn := MonotonicCounter.next_eq_some hnext
    refine ⟨hevolves, ?_, ?_, List.pairwise_singleton _ _⟩
    · intro x hx
      obtain rfl := List.mem_singleton.mp hx
      refine Registration.Fresh.of_evolves ⟨_, g, hissues, ?_, ?_⟩ hbefore
      · show s.registrationFloor.value < g.value
        omega
      · intro q hq hid
        rw [horderly.eq_of_lookup hp.found hq hid]
        exact Nat.le_refl _
    · intro x hx
      obtain rfl := List.mem_singleton.mp hx
      refine ⟨_, g, hissues, ?_, ?_⟩
      · rw [hstate]
        exact Nat.le_refl _
      · rw [hstate]
        refine ⟨_, List.mem_map.mpr ⟨p, hmem.1, if_pos hmem.2⟩, ?_, ?_⟩
        · exact (p.register_id _ _ _ _ _ _).trans hmem.2
        · rw [DurableParticipant.register_next]
          show p.nextIncarnation.value < next.value
          omega

/-- **A batch**, element by element. -/
theorem applyRegistrations_accepts {requests : List RegisterParticipantRequest} {t u : Txn Impl}
    {rs : List RegistrationResult} (ht : t.state.Regular) (hf : Floors t.state.state)
    (h : applyRegistrations requests t = .ok rs u) :
    Accepts t.state.state u.state.state ((requests.zip rs).filter fun x => x.Accepted) := by
  induction requests generalizing t rs with
  | nil =>
    cases h
    exact .nil (.refl _)
  | cons request requests ih =>
    obtain ⟨r, t', hfirst, h⟩ := Action.bind_ok.mp h
    obtain ⟨rs', u', hrest, h⟩ := Action.bind_ok.mp h
    cases h
    have hadvanced := applyRegistration_advanced (T := .nothing) ht rfl (fun h => h.elim)
      (fun h => h.elim) (fun h => h.elim) (fun h => h.elim) hfirst
    have hf' := (Moves.evolves hadvanced.moves ht.orderly hf).1
    have hhead := applyRegistration_accepts ht hf hfirst
    have hboth := hhead.append (ih hadvanced.regular hf' hrest)
    rwa [← List.filter_append] at hboth

/-- A batch behind its one bump of the generation. -/
theorem registerBatch_accepts {requests : List RegisterParticipantRequest} {t u : Txn Impl}
    {rs : List RegistrationResult} (ht : t.state.Regular) (hf : Floors t.state.state)
    (h : registerBatch requests t = .ok rs u) :
    Accepts t.state.state u.state.state ((requests.zip rs).filter fun x => x.Accepted) := by
  obtain ⟨rs', t', hall, h⟩ := Action.bind_ok.mp h
  rw [Action.bind_hasMutated] at h
  obtain ⟨⟨⟩, u', hbump, h⟩ := Action.bind_ok.mp h
  cases h
  have hadvanced := applyRegistrations_advanced (T := .nothing) ht rfl (fun h => h.elim)
    (fun h => h.elim) (fun h => h.elim) (fun h => h.elim) hall
  have hf' := (Moves.evolves hadvanced.moves ht.orderly hf).1
  have hmoves := (bumpWhen_moves .nothing t.state.options.limits hadvanced.regular hbump).1
  exact (applyRegistrations_accepts ht hf hall).congr
    (Moves.evolves hmoves hadvanced.regular.orderly hf').2

/-- The operation of a transaction accepts what its answer says. -/
theorem transact_accepts {α : Type} {op : Op α} {fault : Option SaveFault} {disk : Disk}
    {impl : Impl} {a : α} {xs : List Registration}
    (hadvanced : ∀ t, op (Txn.start impl) = .ok a t →
      Advanced .nothing impl.options.limits (Txn.start impl) t)
    (hkept : Kept impl.state) (haccepts : ∀ t, op (Txn.start impl) = .ok a t →
      Accepts impl.state t.state.state xs)
    (h : (transact op fault disk impl).result = .ok a) :
    Accepts impl.state (transact op fault disk impl).impl.state xs := by
  obtain ⟨t, ps, ht, hperm, hstate⟩ := transact_state hadvanced h
  have hkept' := (hkept.moves (hadvanced t ht).moves).1
  rw [hstate]
  exact (haccepts t ht).congr
    ((show Move .nothing impl.options.limits _ _ from .reorder hperm).evolves hkept'.orderly
      hkept'.floors)

/-- **One step** of an open runtime. -/
theorem step_accepts {host : Host} (hreach : coordinator.Reaches Quietly host) {impl impl' : Impl}
    (himpl : host.runtime = some impl) {input : Input} (hquiet : Quietly host input)
    (himpl' : (coordinator.step host input).1.runtime = some impl') :
    Accepts impl.state impl'.state (acceptedBy input (coordinator.step host input).2) := by
  have hevolves := quietRun_evolves hreach (.tail input .refl hquiet) himpl himpl'
  obtain ⟨hsettled, hkept, -, -⟩ := (quietRun_kept hreach).memory impl himpl
  cases input with
  | «open» opening fault => exact .nil hevolves
  | call call entropy fault =>
    have hstep := coordinator_call himpl call entropy fault
    cases hr : (callRuntime call entropy fault host.disk impl).result with
    | error e => exact absurd (by rw [hstep, hr]) (hquiet e)
    | ok reply =>
      rw [hstep] at himpl' ⊢
      rw [hr]
      obtain rfl := Option.some.inj himpl'
      -- only the two registering calls have anything in the log
      cases call with
      | register request =>
        obtain ⟨r, hresult, rfl⟩ := Transacted.map_ok hr
        exact transact_accepts (fun t ht => applyRegistration_advanced hsettled.regular rfl
          (fun h => h.elim) (fun h => h.elim) (fun h => h.elim) (fun h => h.elim) ht) hkept
          (fun t ht => applyRegistration_accepts hsettled.regular hkept.floors ht) hresult
      | registerBatch requests =>
        obtain ⟨rs, hresult, rfl⟩ := Transacted.map_ok hr
        exact transact_accepts (fun t ht => registerBatch_advanced hsettled.regular rfl rfl
          (fun h => h.elim) (fun h => h.elim) (fun h => h.elim) (fun h => h.elim) ht) hkept
          (fun t ht => registerBatch_accepts hsettled.regular hkept.floors ht) hresult
      | fence request => exact .nil hevolves
      | grant request => exact .nil hevolves
      | revoke request => exact .nil hevolves
      | advance request => exact .nil hevolves
      | retire request => exact .nil hevolves
      | bind binding => exact .nil hevolves
      | close session reason => exact .nil hevolves
      | flush => exact .nil hevolves

/-! ## What a run accepts -/

/-- **A run** of an open runtime. -/
theorem run_accepts {inputs : List Input} {host : Host} (hreach : coordinator.Reaches Quietly host)
    {impl : Impl} (himpl : host.runtime = some impl)
    (h : coordinator.Allows Quietly host inputs) :
    ∃ impl', (coordinator.run host inputs).runtime = some impl' ∧
      Accepts impl.state impl'.state (accepted host inputs) := by
  induction inputs generalizing host impl with
  | nil => exact ⟨impl, himpl, .nil (.refl _)⟩
  | cons input inputs ih =>
    obtain ⟨impl₁, himpl₁⟩ := quietStep_runtime himpl h.1
    have hfirst := step_accepts hreach himpl h.1 himpl₁
    obtain ⟨impl₂, himpl₂, hrest⟩ := ih (hreach.tail input h.1) himpl₁ h.2
    exact ⟨impl₂, himpl₂, hfirst.append hrest⟩

/-- The same before any runtime is open. -/
theorem run_ordered {inputs : List Input} {host : Host} (hreach : coordinator.Reaches Quietly host)
    (h : coordinator.Allows Quietly host inputs) :
    (accepted host inputs).Pairwise Registration.Before := by
  induction inputs generalizing host with
  | nil => exact .nil
  | cons input inputs ih =>
    cases hruntime : host.runtime with
    | some impl =>
      obtain ⟨_, -, haccepts⟩ := run_accepts hreach hruntime h
      exact haccepts.ordered
    | none =>
      have hrest := ih (hreach.tail input h.1) h.2
      cases input with
      | «open» opening fault => exact hrest
      | call call entropy fault =>
        -- there is nothing to call
        show (acceptedBy (.call call entropy fault)
          (coordinator.step host (.call call entropy fault)).2 ++ _).Pairwise _
        rw [coordinator_idle hruntime] at hrest ⊢
        have hnone : acceptedBy (.call call entropy fault) none = [] := by
          unfold acceptedBy
          split
          · next heq => cases heq
          · next heq => cases heq
          · rfl
        rw [hnone]
        exact hrest

/-- Counters and what is issued from them, over a run. -/
structure CountersForward (host : Host) (inputs : List Input) : Prop where
  /-- No counter goes back, and no record is lost. -/
  evolves : ∀ impl ∈ host.runtime, ∀ impl' ∈ (coordinator.run host inputs).runtime,
    impl.state.Evolves impl'.state
  /-- The fencing floor of a participant stays below its allocator. -/
  floors : ∀ impl ∈ host.runtime, ∀ p ∈ impl.state.participants,
    p.incarnationFloor < p.nextIncarnation
  /-- Nothing is issued again that was issued or fenced before the run. -/
  above : ∀ impl ∈ host.runtime, ∀ x ∈ accepted host inputs, x.Above impl.state
  /-- Nothing is issued again that was issued earlier in the run. -/
  ordered : (accepted host inputs).Pairwise Registration.Before

/-- **Counters only move forward, and nothing is reissued**: from any state that
a run without exceptions has reached, along any such run. -/
theorem countersForward {host : Host} (hreach : coordinator.Reaches Quietly host)
    {inputs : List Input} (h : coordinator.Allows Quietly host inputs) :
    CountersForward host inputs := by
  have hkept := quietRun_kept hreach
  refine ⟨?_, ?_, ?_, run_ordered hreach h⟩
  · intro impl himpl impl' himpl'
    exact quietRun_evolves hreach (Machine.leads_run h) himpl himpl'
  · intro impl himpl
    exact (hkept.memory impl himpl).2.1.floors.allocator
  · intro impl himpl x hx
    obtain ⟨_, -, haccepts⟩ := run_accepts hreach himpl h
    exact (haccepts.fresh x hx).above (hkept.memory impl himpl).2.1

/-- A single-incarnation participant that is replaced, and another participant. -/
def countedRun : List Input :=
  [testOpen { replacementPolicy := .replaceIncumbent } 9,
    callOf (.register (testRegister 1 (testParticipant "p") (smallId 1))),
    callOf (.registerBatch [testRegister 2 (testParticipant "p") (smallId 2),
      testRegister 3 (testParticipant "q") (smallId 3)])]

theorem countersForward_test : CountersForward coordinator.init countedRun ∧
    (accepted coordinator.init countedRun).length = 3 :=
  ⟨countersForward .refl (by decide +kernel), by decide +kernel⟩

end FabricEpoch
