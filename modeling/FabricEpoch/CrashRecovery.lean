import FabricEpoch.CrashRuns
import FabricEpoch.EpochChange

/-!
# What a crash cannot take back

A run with crashes is told by a run without them, so what holds of the second
holds of what was heard in the first.

- `Calm`: an event that is not answered by an exception;
- `calm_quiet`: a run of calm events is told by a quiet run;
- `acknowledgedSurvives`: what the memory holds when a call returns is what is
  loaded after a crash;
- `numbersAcrossCrashes`: no incarnation number is told twice, whatever dies in
  between;
- `spentAcrossCrashes`: a token that has ended stays ended.
-/

namespace FabricEpoch

open Transaction
open ByteCodec (Bytes)

/-- The event is not answered by an exception. -/
def Calm (host : Host) (event : Incident) : Prop :=
  ∀ e, (mortal.step host event).2 ≠ some (.error e)

instance (host : Host) (event : Incident) : Decidable (Calm host event) :=
  match h : (mortal.step host event).2 with
  | some (.error e) => isFalse fun hc => hc e h
  | some (.ok _) => isTrue fun _ he => by rw [h] at he; cases he
  | none => isTrue fun _ he => by rw [h] at he; cases he

/-- What was put out is no exception. -/
def Uneventful {α : Type} (x : α × Answer) : Prop := ∀ e, x.2 ≠ some (.error e)

/-- An event that throws nothing stands for steps that throw nothing. -/
theorem Told.uneventful {event : Incident} {answer : Answer} {steps : List (Input × Answer)}
    (h : Told event answer steps) (hevent : Uneventful (event, answer)) :
    ∀ step ∈ steps, Uneventful step := by
  cases h with
  | answered input result =>
    intro step hstep
    rw [List.mem_singleton.mp hstep]
    exact hevent
  | idle input => exact fun _ hstep => by cases hstep
  | lost input => exact fun _ hstep => by cases hstep
  | unheard input reply =>
    intro step hstep
    rw [List.mem_singleton.mp hstep]
    intro e he
    cases he

/-- **A run of calm events is told by a quiet run**, from wherever the coordinator
that never dies has got to. -/
theorem calm_quiet {host host' : Host} (hhost : Follows host host') {events : List Incident}
    (h : mortal.Allows Calm host events) :
    ∃ inputs : List Input, coordinator.Allows Quietly host' inputs ∧
      Accounts Told (mortal.history host events) (coordinator.history host' inputs) ∧
      Follows (mortal.run host events) (coordinator.run host' inputs) := by
  obtain ⟨inputs, -, hfollows, htold⟩ := crashes_simulated.run hhost events
  have hevents : ∀ x ∈ mortal.history host events, Uneventful x := Machine.allows_history.mp h
  have hquiet : coordinator.Allows (fun host input => Uneventful (input,
      (coordinator.step host input).2)) host' inputs := by
    refine Machine.allows_history.mpr fun step hstep => ?_
    obtain ⟨event, answer, steps, hin, hsteps, hmem⟩ := htold.mem hstep
    exact hsteps.uneventful (hevents _ hin) step hmem
  exact ⟨inputs, hquiet, htold, hfollows⟩

/-! ## What is recorded -/

/-- What is recorded of a quiet run is its state. -/
theorem recorded_of_quiet {host : Host} (h : coordinator.Reaches Quietly host) {limits : Limits}
    {state : DurableState} (hrecorded : host.disk.recorded limits = .ok state) :
    state = host.state := by
  cases hruntime : host.runtime with
  | none =>
    rw [quietRun_closed h hruntime] at hrecorded ⊢
    exact (Except.ok.inj hrecorded).symm
  | some impl =>
    obtain ⟨image, himage, hencode⟩ := (quietRun_kept h).saved impl hruntime
    rw [Disk.recorded, himage] at hrecorded
    rw [Host.state_of_some hruntime]
    exact EpochStore.decode_only hencode hrecorded

/-- The state and its image: what a crash leaves, and what is loaded of it. -/
structure SurvivesCrash (disk : Disk) (state : DurableState) : Prop where
  image : ∃ image, disk.image = some image ∧ EpochStore.encode state = .ok image
  unguarded : ∀ limits, EpochStore.load (EpochStore.runtimeOptions limits) disk = disk.recorded limits
  loaded : ∀ limits state', EpochStore.load (EpochStore.runtimeOptions limits) disk = .ok state' →
    state' = state

/-- **What a call has returned survives the process.** After any crashes and any
calls that throw nothing, the image on disk is that of the memory; when the process
dies before anything else is saved, what is loaded is the memory it had, and the
watermark never stands in the way. -/
theorem acknowledgedSurvives {events : List Incident} (h : mortal.Allows Calm mortal.init events)
    {impl : Impl} (himpl : (mortal.run mortal.init events).runtime = some impl) :
    SurvivesCrash (mortal.run mortal.init events).disk impl.state := by
  obtain ⟨inputs, hquiet, -, hfollows⟩ := calm_quiet follows_init h
  have hreach : coordinator.Reaches Quietly (coordinator.run coordinator.init inputs) :=
    Machine.leads_run hquiet
  have himpl' := hfollows.alive himpl
  obtain ⟨image, himage, hencode⟩ := (quietRun_kept hreach).saved impl himpl'
  obtain ⟨hsame, w, w', hmarked, hwatched, hle⟩ := hfollows.disk
  have hrecorded : ∀ limits, (mortal.run mortal.init events).disk.recorded limits =
      (coordinator.run coordinator.init inputs).disk.recorded limits := by
    intro limits
    rw [Disk.recorded, Disk.recorded, hsame]
  have hload : ∀ limits, EpochStore.load (EpochStore.runtimeOptions limits)
      (mortal.run mortal.init events).disk =
        (mortal.run mortal.init events).disk.recorded limits := by
    intro limits
    refine load_recorded hmarked fun state hstate => ?_
    rw [hrecorded] at hstate
    exact Nat.le_trans hle (hwatched.recorded limits state hstate)
  refine ⟨⟨image, hsame.trans himage, hencode⟩, hload, fun limits state hstate => ?_⟩
  rw [hload, hrecorded] at hstate
  rw [recorded_of_quiet hreach hstate, Host.state_of_some himpl']

/-- A process dies over its opening, the next one serves, and dies over a
registration whose save is complete. -/
def servedRun : List Incident :=
  [.crash ((testOpen {} 10).withFault (some brokenDisk)),
    .step (testOpen { replacementPolicy := .replaceIncumbent } 10),
    .step (callOf (.register (testRegister 1 (testParticipant "p") (smallId 1)))),
    .step (callOf (.register (testRegister 2 (testParticipant "p") (smallId 2))))]

def crashedRun : List Incident :=
  servedRun ++ [.crash (callOf (.register (testRegister 3 (testParticipant "p") (smallId 3)))),
    .step (callOf (.register (testRegister 4 (testParticipant "p") (smallId 4))))]

theorem calm_servedRun : mortal.Allows Calm mortal.init servedRun := by decide +kernel

theorem acknowledgedSurvives_test : ∃ impl,
    (mortal.run mortal.init servedRun).runtime = some impl ∧
      SurvivesCrash (mortal.run mortal.init servedRun).disk impl.state := by
  have halive : (mortal.run mortal.init servedRun).runtime.isSome = true := by decide +kernel
  obtain ⟨impl, himpl⟩ := Option.isSome_iff_exists.mp halive
  exact ⟨impl, himpl, acknowledgedSurvives calm_servedRun himpl⟩

/-! ## Numbers across crashes -/

/-- The registrations that were heard to be accepted. -/
def heardIn : Incident × Answer → List Registration
  | (.step input, answer) => acceptedBy input answer
  | (.crash _, _) => []

/-- Along a run with crashes, in order. -/
def heard (events : List Incident) : List Registration :=
  (mortal.history mortal.init events).flatMap heardIn

/-- The number of a registration. -/
def Registration.number (x : Registration) : Nat := (x.2.incarnation.getD .zero).value

/-- Where the file system fails is no part of what is accepted. -/
theorem acceptedBy_withFault (input : Input) (fault : Option SaveFault) (answer : Answer) :
    acceptedBy (input.withFault fault) answer = acceptedBy input answer := by
  cases input with
  | «open» opening _ => rfl
  | call c entropy _ =>
    show acceptedBy (.call c entropy fault) answer = _
    rcases answer with - | (- | reply)
    · cases c <;> rfl
    · cases c <;> rfl
    · cases c <;> cases reply <;> rfl

theorem accepted_eq_history (host : Host) (inputs : List Input) :
    accepted host inputs = (coordinator.history host inputs).flatMap fun x => acceptedBy x.1 x.2 := by
  induction inputs generalizing host with
  | nil => rfl
  | cons input inputs ih =>
    show acceptedBy input _ ++ accepted _ inputs = _
    rw [ih]
    rfl

/-- What is heard is part of what happens. -/
theorem heard_sublist {events : List Incident} {inputs : List Input}
    (h : Accounts Told (mortal.history mortal.init events)
      (coordinator.history coordinator.init inputs)) :
    (heard events).Sublist (accepted coordinator.init inputs) := by
  rw [accepted_eq_history]
  refine h.sublist (f := heardIn) (g := fun x => acceptedBy x.1 x.2) fun event answer steps htold => ?_
  cases htold with
  | answered input result =>
    show (acceptedBy input (some result)).Sublist (acceptedBy (input.withFault none) (some result) ++ [])
    rw [acceptedBy_withFault, List.append_nil]
  | idle input =>
    have hnone : acceptedBy input none = [] := by
      cases input with
      | «open» opening fault => rfl
      | call c entropy fault => cases c <;> rfl
    show (acceptedBy input none).Sublist []
    rw [hnone]
  | lost input => exact List.Sublist.refl _
  | unheard input reply => exact List.nil_sublist _

/-- **No number is told twice, whatever dies in between.** Along a run with crashes
the registrations of a participant that are heard to be accepted carry increasing
incarnation numbers, and what is recorded on disk allocates from above all of them.
A registration that nobody heard of leaves a gap at most. -/
theorem numbersAcrossCrashes {events : List Incident} (h : mortal.Allows Calm mortal.init events)
    (id : ParticipantId) :
    (((heard events).filter fun x => x.1.participant = id).map (·.number)).Pairwise (· < ·) ∧
      ∀ limits state, (mortal.run mortal.init events).disk.recorded limits = .ok state →
        ∀ x ∈ heard events, x.1.participant = id →
          x.number < (state.record id).nextIncarnation.value := by
  obtain ⟨inputs, hquiet, htold, hfollows⟩ := calm_quiet follows_init h
  have hreach : coordinator.Reaches Quietly (coordinator.run coordinator.init inputs) :=
    Machine.leads_run hquiet
  obtain ⟨acts, hruns, hissued⟩ := quietRun_issues .refl hquiet
  obtain ⟨hlength, hnumbers⟩ := hruns.numbers id
  have hfilter : (Tokens.issued acts).filter (fun token => token.party = id) =
      ((accepted coordinator.init inputs).filter fun x => x.1.participant = id).map (·.token) := by
    rw [hissued, List.filter_map]
    rfl
  rw [hfilter, List.map_map] at hnumbers
  rw [hfilter] at hlength
  have hall : ((accepted coordinator.init inputs).filter fun x => x.1.participant = id).map
      (·.number) = List.range' _ _ := hnumbers
  have hsub := (heard_sublist htold).filter fun x => decide (x.1.participant = id)
  constructor
  · refine List.Pairwise.sublist (hsub.map _) ?_
    rw [hall]
    exact List.pairwise_lt_range'
  · intro limits state hstate x hx hparty
    have hrecorded : (coordinator.run coordinator.init inputs).disk.recorded limits = .ok state := by
      rw [← hstate, Disk.recorded, Disk.recorded, hfollows.disk.image]
    rw [recorded_of_quiet hreach hrecorded]
    have hmem : x.number ∈ ((accepted coordinator.init inputs).filter
        fun x => x.1.participant = id).map (·.number) :=
      List.mem_map_of_mem (hsub.subset (List.mem_filter.mpr ⟨hx, decide_eq_true hparty⟩))
    rw [hall, List.mem_range'_1] at hmem
    have hnext : _ = ((coordinator.run coordinator.init inputs).state.record id).nextIncarnation.value :=
      hlength
    omega

/-- Of the third registration nobody heard, and the fourth found nobody. -/
theorem numbersAcrossCrashes_test :
    ((heard crashedRun).filter fun x => x.1.participant = testParticipant "p").map (·.number) =
      [1, 2] ∧
    (((heard crashedRun).filter fun x => x.1.participant = testParticipant "p").map
      (·.number)).Pairwise (· < ·) :=
  ⟨by decide +kernel, (numbersAcrossCrashes (by decide +kernel) (testParticipant "p")).1⟩

/-! ## Ended tokens -/

/-- **A token that has ended stays ended, whatever dies in between.** Once a number
has been issued to a participant and no boot of it holds the number any more, no
later process answers `Current` for it, with or without a grant, after any crashes,
openings and calls. -/
theorem spentAcrossCrashes {before after : List Incident}
    (h : mortal.Allows Calm mortal.init before)
    (h' : mortal.Allows Calm (mortal.run mortal.init before) after) {impl impl' : Impl}
    (himpl : (mortal.run mortal.init before).runtime = some impl)
    (himpl' : (mortal.run (mortal.run mortal.init before) after).runtime = some impl')
    {id : ParticipantId} {n : Nat} (hspent : impl.state.tokens.Spent id n)
    {request : ValidateAuthorityRequest} (hid : impl'.validatedParticipant request = some id)
    (hn : request.token.incarnation.value = n) : (impl'.validate request).code ≠ .current := by
  obtain ⟨inputs, hquiet, -, hfollows⟩ := calm_quiet follows_init h
  obtain ⟨inputs', hquiet', -, hfollows'⟩ := calm_quiet hfollows h'
  have hreach : coordinator.Reaches Quietly (coordinator.run coordinator.init inputs) :=
    Machine.leads_run hquiet
  have hreach' := hreach.trans (Machine.leads_run hquiet')
  obtain ⟨acts, hruns, -⟩ := quietRun_issues hreach hquiet'
  rw [Host.state_of_some (hfollows.alive himpl), Host.state_of_some (hfollows'.alive himpl')] at hruns
  intro hcurrent
  obtain ⟨hsettled, -⟩ := (quietRun_kept hreach').memory impl' (hfollows'.alive himpl')
  obtain ⟨id', hid', hheld⟩ := validate_held hsettled hcurrent
  rw [hid] at hid'
  cases hid'
  rw [hn] at hheld
  exact (hruns.spent hspent).2 _ hheld

/-- The incumbent is fenced. -/
def fencedLater : List Incident :=
  [.step (callOf (.fence (testFence 5 (testParticipant "p") (smallId 2))))]

/-- The first token of the participant. -/
def firstToken : ValidateAuthorityRequest where
  token := ⟨smallCounter 1, testParticipant "p", smallId 1, smallCounter 1, smallCounter 1⟩
  scope := testScope

theorem calm_fencedLater : mortal.Allows Calm (mortal.run mortal.init servedRun) fencedLater := by
  decide +kernel

theorem alive_fencedLater :
    (mortal.run (mortal.run mortal.init servedRun) fencedLater).runtime.isSome = true := by
  decide +kernel

theorem spent_servedRun : ∃ impl, (mortal.run mortal.init servedRun).runtime = some impl ∧
    impl.state.tokens.Spent (testParticipant "p") 1 := by
  have hvalues : (mortal.run mortal.init servedRun).runtime.map (fun impl =>
      decide (1 < (impl.state.record (testParticipant "p")).nextIncarnation.value ∧
        ∀ e ∈ (impl.state.record (testParticipant "p")).live, e.2.value ≠ 1)) = some true := by
    decide +kernel
  obtain ⟨impl, himpl, hvalue⟩ := Option.map_eq_some_iff.mp hvalues
  obtain ⟨hissued, hlive⟩ := of_decide_eq_true hvalue
  refine ⟨impl, himpl, hissued, fun boot hheld => ?_⟩
  obtain ⟨i, hi, hone⟩ := Option.map_eq_some_iff.mp hheld
  exact hlive _ (DurableParticipant.mem_live_of_find hi) hone

theorem spentAcrossCrashes_test : ∃ impl',
    (mortal.run (mortal.run mortal.init servedRun) fencedLater).runtime = some impl' ∧
      (impl'.validate firstToken).code ≠ .current := by
  obtain ⟨impl', himpl'⟩ := Option.isSome_iff_exists.mp alive_fencedLater
  obtain ⟨impl, himpl, hspent⟩ := spent_servedRun
  have hid : impl'.validatedParticipant firstToken = some (testParticipant "p") := rfl
  refine ⟨impl', himpl', ?_⟩
  exact spentAcrossCrashes calm_servedRun calm_fencedLater himpl himpl' hspent hid rfl

end FabricEpoch
