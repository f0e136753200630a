import FabricEpoch.Store

/-!
# Whether a save is all or nothing

Two files change together in a save, and the image is replaced before the
watermark is raised. A save that fails at the watermark has thrown, but what is
loaded afterwards is the new state.

- `AllOrNothing`: a save that returns has stored the new state, a save that
  throws has left the old one;
- `SaveSafe`: what it takes of the states, the watermark and the file system;
- `allOrNothing_iff`: that this is exact.
-/

namespace FabricEpoch

namespace EpochStore

open ByteCodec Checks

variable {options : StoreOptions} {fault : Option SaveFault} {disk : Disk}
  {previous new : DurableState} {image : Bytes} {watermark : Nat}

/-! ## Loading an image that was made of a state -/

/-- Nothing but the state is loaded. -/
theorem load_only {text : Option Bytes} {state : DurableState} (he : encode new = .ok image)
    (h : load options ⟨some image, text⟩ = .ok state) : state = new := by
  obtain ⟨s, hs, h⟩ := bind_ok.mp h
  obtain rfl := decode_only he hs
  split at h
  · obtain ⟨w, -, h⟩ := bind_ok.mp h
    rw [bind_refuseIf, pure_ok] at h
    exact h.2
  · exact pure_ok.mp h

/-- **Exactly when it is loaded**, under a watermark that is read. -/
theorem load_iff {text : Option Bytes} (he : encode new = .ok image)
    (hread : readWatermark options ⟨some image, text⟩ = .ok watermark) :
    load options ⟨some image, text⟩ = .ok new ↔
      Loadable new image ∧ watermark ≤ new.currentEpoch.value := by
  have hdecode : decode options image = .ok new ↔ _ := decode_image_iff he
  rw [← hdecode]
  show (decode options image >>= _) = .ok new ↔ _
  rw [bind_ok]
  constructor
  · rintro ⟨s, hs, h⟩
    obtain rfl := decode_only he hs
    refine ⟨hs, ?_⟩
    split at h
    · rw [hread] at h
      obtain ⟨w, hw, h⟩ := bind_ok.mp h
      cases hw
      rw [bind_refuseIf] at h
      exact Nat.not_lt.mp h.1
    · next hdisabled =>
      -- no watermark is kept, so none is above
      rw [readWatermark, if_neg hdisabled] at hread
      cases hread
      exact Nat.zero_le _
  · rintro ⟨hs, hle⟩
    refine ⟨new, hs, ?_⟩
    split
    · rw [hread]
      refine bind_ok.mpr ⟨watermark, rfl, bind_refuseIf.mpr ⟨Nat.not_lt.mpr hle, rfl⟩⟩
    · rfl

/-! ## What a save does -/

/-- No operation up to the replacement of the image fails. -/
def Replaces (fault : Option SaveFault) : Prop := ∀ f ∈ fault, f.stage = .writeWatermark

instance (fault : Option SaveFault) : Decidable (Replaces fault) :=
  inferInstanceAs (Decidable (∀ f ∈ fault, f.stage = .writeWatermark))

/-- The watermark is to be raised, and raising it fails. -/
def Torn (options : StoreOptions) (fault : Option SaveFault) (new : DurableState)
    (watermark : Nat) : Prop :=
  (options.enableRollbackWatermark = true ∧ new.currentEpoch.value > watermark) ∧
    ∃ f ∈ fault, f.stage = .writeWatermark

theorem faultAt_of_replaces (h : Replaces fault) {stage : SaveStage}
    (hstage : stage ≠ .writeWatermark) : faultAt fault stage = none := by
  cases fault with
  | none => rfl
  | some f => exact if_neg fun heq : f.stage = stage => hstage (heq ▸ h f rfl)

/-- The image is replaced and the watermark raised, if it is due. -/
def replacedDisk (options : StoreOptions) (disk : Disk) (new : DurableState) (image : Bytes)
    (watermark : Nat) : Disk where
  image := some image
  watermark := if options.enableRollbackWatermark = true ∧ new.currentEpoch.value > watermark then
    some (watermarkText new.currentEpoch) else disk.watermark

/-- A save that gets to replace the image. -/
theorem save_replaces (he : encode new = .ok image)
    (hread : readWatermark options disk = .ok watermark) (h : Replaces fault) :
    save options fault disk new = writeImage options fault disk new image watermark := by
  rw [save, faultAt_of_replaces h (by decide)]
  simp only [hread, he]

theorem save_torn (he : encode new = .ok image)
    (hread : readWatermark options disk = .ok watermark) (h : Replaces fault)
    (ht : Torn options fault new watermark) :
    ∃ e, save options fault disk new = ⟨some e, ⟨some image, disk.watermark⟩⟩ := by
  obtain ⟨hraise, f, hf, hstage⟩ := ht
  have hfails : faultAt fault .writeWatermark = some f.error := by
    rw [Option.mem_def.mp hf]
    exact if_pos hstage
  refine ⟨f.error, ?_⟩
  rw [save_replaces he hread h, writeImage, faultAt_of_replaces h (by decide),
    faultAt_of_replaces h (by decide), faultAt_of_replaces h (by decide)]
  simp only [if_pos hraise, hfails]

theorem save_done (he : encode new = .ok image)
    (hread : readWatermark options disk = .ok watermark) (h : Replaces fault)
    (ht : ¬ Torn options fault new watermark) :
    save options fault disk new = ⟨none, replacedDisk options disk new image watermark⟩ := by
  rw [save_replaces he hread h, writeImage, faultAt_of_replaces h (by decide),
    faultAt_of_replaces h (by decide), faultAt_of_replaces h (by decide), replacedDisk]
  by_cases hraise : options.enableRollbackWatermark = true ∧ new.currentEpoch.value > watermark
  · have hworks : faultAt fault .writeWatermark = none := by
      cases fault with
      | none => rfl
      | some f => exact if_neg fun hstage => ht ⟨hraise, f, rfl, hstage⟩
    simp only [if_pos hraise, hworks]
  · simp only [if_neg hraise]

/-- A save that does not get to replace the image throws and leaves the disk. -/
theorem save_refused (h : ∀ image watermark, encode new = .ok image →
    readWatermark options disk = .ok watermark → ¬ Replaces fault) :
    ∃ e, save options fault disk new = ⟨some e, disk⟩ := by
  rw [save]
  split
  · exact ⟨_, rfl⟩
  next hreads =>
  split
  · exact ⟨_, rfl⟩
  next w hread =>
  split
  · exact ⟨_, rfl⟩
  next img he =>
  have hfails := h img w he hread
  cases fault with
  | none => exact absurd (fun _ hf => (by cases hf)) hfails
  | some f =>
    have hearly : f.stage ≠ .writeWatermark := fun hstage => hfails fun _ hf => by
      cases hf
      exact hstage
    unfold writeImage
    cases hstage : f.stage with
    | readWatermark =>
      rw [faultAt, if_pos hstage] at hreads
      cases hreads
    | createDirectory => exact ⟨f.error, by simp [faultAt, hstage]⟩
    | writeTemporary => exact ⟨f.error, by simp [faultAt, hstage]⟩
    | replaceImage => exact ⟨f.error, by simp [faultAt, hstage]⟩
    | writeWatermark => exact absurd hstage hearly

/-! ## All or nothing -/

/-- A save that returns has stored the new state, and a save that throws has
left the previous one. -/
structure AllOrNothing (options : StoreOptions) (fault : Option SaveFault) (disk : Disk)
    (previous new : DurableState) : Prop where
  returned : (save options fault disk new).error = none →
    load options (save options fault disk new).disk = .ok new
  thrown : ∀ e, (save options fault disk new).error = some e →
    load options (save options fault disk new).disk = .ok previous

/-- When the image gets replaced at all, it can be loaded again, its epoch is
not below the watermark, and raising the watermark does not fail, unless the
state is the one that was stored before. -/
def SaveSafe (options : StoreOptions) (fault : Option SaveFault) (disk : Disk)
    (previous new : DurableState) : Prop :=
  Replaces fault → ∀ image watermark, encode new = .ok image →
    readWatermark options disk = .ok watermark →
      Loadable new image ∧ watermark ≤ new.currentEpoch.value ∧
        (Torn options fault new watermark → new = previous)

/-- The watermark behind a save that is done is not above the state. -/
theorem load_replacedDisk (he : encode new = .ok image)
    (hread : readWatermark options disk = .ok watermark) :
    load options (replacedDisk options disk new image watermark) = .ok new ↔
      Loadable new image ∧ watermark ≤ new.currentEpoch.value := by
  unfold replacedDisk
  by_cases hraise : options.enableRollbackWatermark = true ∧ new.currentEpoch.value > watermark
  · have hwritten : readWatermark options ⟨some image, some (watermarkText new.currentEpoch)⟩ =
        .ok new.currentEpoch.value := by
      rw [readWatermark, if_pos hraise.1]
      exact parseWatermark_text _
    rw [if_pos hraise, load_iff he hwritten]
    constructor
    · exact fun h => ⟨h.1, Nat.le_of_lt hraise.2⟩
    · exact fun h => ⟨h.1, Nat.le_refl _⟩
  · rw [if_neg hraise]
    exact load_iff he hread

/-- **A save is all or nothing exactly when it is safe.** -/
theorem allOrNothing_iff (hstored : load options disk = .ok previous) :
    AllOrNothing options fault disk previous new ↔ SaveSafe options fault disk previous new := by
  constructor
  · intro h hreplaces image watermark he hread
    by_cases ht : Torn options fault new watermark
    · -- the exception says that nothing has happened
      obtain ⟨e, hsave⟩ := save_torn he hread hreplaces ht
      have hload := h.thrown e (by rw [hsave])
      rw [hsave] at hload
      obtain rfl := load_only he hload
      have hiff : load options ⟨some image, disk.watermark⟩ = .ok previous ↔ _ := load_iff he hread
      obtain ⟨hloadable, hle⟩ := hiff.mp hload
      exact ⟨hloadable, hle, fun _ => rfl⟩
    · have hsave := save_done he hread hreplaces ht
      have hload := h.returned (by rw [hsave])
      rw [hsave] at hload
      obtain ⟨hloadable, hle⟩ := (load_replacedDisk he hread).mp hload
      exact ⟨hloadable, hle, fun htorn => absurd htorn ht⟩
  · intro h
    by_cases hwrites : ∃ image watermark, encode new = .ok image ∧
        readWatermark options disk = .ok watermark ∧ Replaces fault
    · obtain ⟨image, watermark, he, hread, hreplaces⟩ := hwrites
      obtain ⟨hloadable, hle, htorn⟩ := h hreplaces image watermark he hread
      by_cases ht : Torn options fault new watermark
      · obtain ⟨e, hsave⟩ := save_torn he hread hreplaces ht
        refine ⟨fun herror => ?_, fun e' herror => ?_⟩
        · rw [hsave] at herror
          cases herror
        · rw [hsave, ← htorn ht]
          exact (load_iff he hread).mpr ⟨hloadable, hle⟩
      · have hsave := save_done he hread hreplaces ht
        refine ⟨fun _ => ?_, fun e herror => ?_⟩
        · rw [hsave]
          exact (load_replacedDisk he hread).mpr ⟨hloadable, hle⟩
        · rw [hsave] at herror
          cases herror
    · obtain ⟨e, hsave⟩ : ∃ e, save options fault disk new = ⟨some e, disk⟩ :=
        save_refused fun image watermark he hread hreplaces =>
          hwrites ⟨image, watermark, he, hread, hreplaces⟩
      refine ⟨fun herror => ?_, fun _ _ => ?_⟩
      · rw [hsave] at herror
        cases herror
      · rw [hsave]
        exact hstored

/-! ## A torn save -/

/-- A store that was opened for the first time. -/
def openedOnce : DurableState :=
  { currentEpoch := smallCounter 1
    coordinatorBoot := smallId 1
    generation := smallCounter 1
    transitions := [
      { id := smallId 1, fromEpoch := .zero, toEpoch := smallCounter 1, cause := .coordinatorStart
        coordinatorBoot := smallId 1, generation := smallCounter 1, provenance := .blank }] }

theorem openedOnce_storable : StorableState openedOnce := by
  constructor <;> simp [openedOnce]
  · decide
  · constructor <;> simp [kAbsoluteMaxRecords]

set_option maxRecDepth 8192 in
theorem openedOnce_loadable :
    ∃ image, encode openedOnce = .ok image ∧ Loadable openedOnce image := by
  have hpayload : ∃ payload, encodeDurablePayload openedOnce = .ok payload ∧
      payload.length ≤ kAbsoluteMaxPayloadLength := ⟨_, rfl, by decide⟩
  obtain ⟨payload, he, hlen⟩ := hpayload
  have hceiling : kAbsoluteMaxPayloadLength < 2 ^ 32 := by decide
  refine ⟨frame payload, encode_ok.mpr ⟨payload, validateDurableState_ok.mp (by decide), he, by omega,
    rfl⟩, openedOnce_storable, by decide, ?_⟩
  rw [length_frame]
  omega

theorem allOrNothing_iff_test :
    AllOrNothing (runtimeOptions defaultLimits) none .blank initialState openedOnce := by
  refine (allOrNothing_iff rfl).mpr fun _ image watermark he _ => ?_
  obtain ⟨image', he', hloadable⟩ := openedOnce_loadable
  rw [he] at he'
  cases he'
  refine ⟨hloadable, ?_, fun ht => ?_⟩
  · next hread =>
    cases hread
    decide
  · obtain ⟨-, _, hf, -⟩ := ht
    cases hf

/-- The file system refuses to raise the watermark. -/
def watermarkFault : SaveFault :=
  ⟨.writeWatermark, ioFailure "durability barrier failed while persisting durable store"⟩

/-- The first save of a store throws, and what is loaded afterwards is the new
state. -/
theorem tornSave_loaded :
    load (runtimeOptions defaultLimits) .blank = .ok initialState ∧
      ¬ AllOrNothing (runtimeOptions defaultLimits) (some watermarkFault) .blank initialState
        openedOnce ∧
      ∃ e, (save (runtimeOptions defaultLimits) (some watermarkFault) .blank openedOnce).error =
          some e ∧
        load (runtimeOptions defaultLimits)
          (save (runtimeOptions defaultLimits) (some watermarkFault) .blank openedOnce).disk =
            .ok openedOnce := by
  obtain ⟨image, he, hloadable⟩ := openedOnce_loadable
  have hread : readWatermark (runtimeOptions defaultLimits) .blank = .ok 0 := rfl
  have htorn : Torn (runtimeOptions defaultLimits) (some watermarkFault) openedOnce 0 :=
    ⟨⟨rfl, by decide⟩, _, rfl, rfl⟩
  obtain ⟨e, hsave⟩ := save_torn he hread (by decide) htorn
  have hload : load (runtimeOptions defaultLimits) ⟨some image, none⟩ = .ok openedOnce :=
    (load_iff he rfl).mpr ⟨hloadable, Nat.zero_le _⟩
  refine ⟨rfl, fun h => ?_, e, by rw [hsave], ?_⟩
  · have hold := h.thrown e (by rw [hsave])
    rw [hsave] at hold
    have heq : openedOnce = initialState := Except.ok.inj (hload.symm.trans hold)
    exact absurd (congrArg (·.currentEpoch.value) heq) (by decide)
  · rw [hsave]
    exact hload

end EpochStore

end FabricEpoch
