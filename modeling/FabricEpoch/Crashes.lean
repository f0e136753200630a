import FabricEpoch.Lib.Directory
import FabricEpoch.Lib.Machine
import FabricEpoch.SaveAtomicity

/-!
# Crashes between the file operations of a save

A save replaces the image and then, when the epoch has risen, the watermark,
each by writing a temporary file and renaming it. A crash cuts these operations
short after any one of them.

- `saveCommands`: the file operations of a save; performed as a whole they are
  what `save` does (`saveCommands_save`);
- `crashes`: a directory under saves that are completed or cut short;
- `Consistent`: the watermark never overtakes the image;
- `parseEpoch64`: the parser of the watermark in 64-bit arithmetic;
- `crashSafe`: what is loaded after any sequence of saves and crashes.
-/

namespace FabricEpoch

namespace EpochStore

open ByteCodec Checks

/-! ## The file operations -/

/-- The files of a store: its two files, and their temporaries by suffix. -/
inductive StoreFile where
  | image
  | watermark
  | imageTemporary (suffix : Text)
  | watermarkTemporary (suffix : Text)
deriving DecidableEq

abbrev StoreDirectory := Directory StoreFile UInt8

/-- The two files that are read. -/
def diskOf (dir : StoreDirectory) : Disk := ⟨dir .image, dir .watermark⟩

/-- A save: the state, the names of its temporaries, how many bytes each write
takes, and after how many file operations a crash cuts it short, if there are as
many. -/
structure Attempt where
  state : DurableState
  imageSuffix : Text
  watermarkSuffix : Text
  chunks : Bytes → List Bytes
  whole : ∀ contents, (chunks contents).flatten = contents
  performed : Nat

namespace Attempt

/-- The operations that replace the image. -/
def imageCommands (a : Attempt) (image : Bytes) : List (Directory.Command StoreFile UInt8) :=
  Directory.replaceBy (.imageTemporary a.imageSuffix) .image (a.chunks image)

/-- The operations that raise the watermark, if it is due. -/
def watermarkCommands (options : StoreOptions) (a : Attempt) (previousWatermark : Nat) :
    List (Directory.Command StoreFile UInt8) :=
  if options.enableRollbackWatermark ∧ a.state.currentEpoch.value > previousWatermark then
    Directory.replaceBy (.watermarkTemporary a.watermarkSuffix) .watermark
      (a.chunks (watermarkText a.state.currentEpoch))
  else []

/-- The file operations of a save, or why it throws before the first one. -/
def saveCommands (options : StoreOptions) (dir : StoreDirectory) (a : Attempt) :
    Except EpochError (List (Directory.Command StoreFile UInt8)) := do
  let previousWatermark ← readWatermark options (diskOf dir)
  let image ← encode a.state
  return a.imageCommands image ++ a.watermarkCommands options previousWatermark

end Attempt

section Commands

variable {options : StoreOptions} {dir : StoreDirectory} {a : Attempt} {image : Bytes}
  {previous : Nat}

theorem saveCommands_ok {cs : List (Directory.Command StoreFile UInt8)} :
    a.saveCommands options dir = .ok cs ↔ ∃ previous image,
      readWatermark options (diskOf dir) = .ok previous ∧ encode a.state = .ok image ∧
        cs = a.imageCommands image ++ a.watermarkCommands options previous := by
  unfold Attempt.saveCommands
  constructor
  · intro h
    obtain ⟨previous, hread, h⟩ := bind_ok.mp h
    obtain ⟨image, hencode, h⟩ := bind_ok.mp h
    exact ⟨previous, image, hread, hencode, pure_ok.mp h⟩
  · rintro ⟨previous, image, hread, hencode, rfl⟩
    exact bind_ok.mpr ⟨previous, hread, bind_ok.mpr ⟨image, hencode, rfl⟩⟩

/-- The image is replaced as a whole. -/
theorem diskOf_imageCommands : diskOf (dir.performAll (a.imageCommands image)) =
    ⟨some image, dir .watermark⟩ := by
  rw [Attempt.imageCommands, Directory.performAll_replaceBy, a.whole]
  rfl

/-- Until then the two files are what they were. -/
theorem diskOf_take_imageCommands {k : Nat} (hk : k < (a.imageCommands image).length) :
    diskOf (dir.performAll ((a.imageCommands image).take k)) = diskOf dir := by
  have hsame : ∀ n, n ≠ .imageTemporary a.imageSuffix →
      dir.performAll ((a.imageCommands image).take k) n = dir n :=
    fun n hn => Directory.performAll_take_replaceBy hk hn
  exact congrArg₂ Disk.mk (hsame .image (by simp)) (hsame .watermark (by simp))

/-- The watermark is replaced as a whole, if it is due. -/
theorem diskOf_watermarkCommands (himage : dir .image = some image) :
    diskOf (dir.performAll (a.watermarkCommands options previous)) =
      replacedDisk options (diskOf dir) a.state image previous := by
  unfold Attempt.watermarkCommands replacedDisk
  by_cases hraise : options.enableRollbackWatermark = true ∧
      a.state.currentEpoch.value > previous
  · rw [if_pos hraise, if_pos hraise, Directory.performAll_replaceBy, a.whole, ← himage]
    rfl
  · rw [if_neg hraise, if_neg hraise, ← himage]
    rfl

theorem diskOf_take_watermarkCommands {k : Nat}
    (hk : k < (a.watermarkCommands options previous).length) :
    diskOf (dir.performAll ((a.watermarkCommands options previous).take k)) = diskOf dir := by
  unfold Attempt.watermarkCommands at hk ⊢
  split at hk
  · next hraise =>
    rw [if_pos hraise]
    have hsame : ∀ n, n ≠ .watermarkTemporary a.watermarkSuffix → dir.performAll
        ((Directory.replaceBy (.watermarkTemporary a.watermarkSuffix) .watermark
          (a.chunks (watermarkText a.state.currentEpoch))).take k) n = dir n :=
      fun n hn => Directory.performAll_take_replaceBy hk hn
    exact congrArg₂ Disk.mk (hsame .image (by simp)) (hsame .watermark (by simp))
  · exact absurd hk (Nat.not_lt_zero _)

variable (options dir a image previous) in
/-- **What a crash leaves behind**: the disk as it was, the image replaced, or
all of it. -/
theorem diskOf_take (k : Nat) :
    let cs := a.imageCommands image ++ a.watermarkCommands options previous
    cs.length ≤ k ∧ diskOf (dir.performAll (cs.take k)) =
        replacedDisk options (diskOf dir) a.state image previous ∨
      k < cs.length ∧ (diskOf (dir.performAll (cs.take k)) = diskOf dir ∨
        diskOf (dir.performAll (cs.take k)) = ⟨some image, dir .watermark⟩) := by
  intro cs
  have hlen : cs.length = (a.imageCommands image).length +
      (a.watermarkCommands options previous).length := List.length_append
  by_cases hearly : k < (a.imageCommands image).length
  · refine .inr ⟨by omega, .inl ?_⟩
    rw [List.take_append_of_le_length (Nat.le_of_lt hearly)]
    exact diskOf_take_imageCommands hearly
  -- the image is replaced; what follows is about the watermark
  have htake : cs.take k = a.imageCommands image ++
      (a.watermarkCommands options previous).take (k - (a.imageCommands image).length) := by
    rw [List.take_append, List.take_of_length_le (Nat.le_of_not_lt hearly)]
  have hreplaced : diskOf (dir.performAll (a.imageCommands image)) =
      ⟨some image, dir .watermark⟩ := diskOf_imageCommands
  have himage : dir.performAll (a.imageCommands image) .image = some image :=
    congrArg Disk.image hreplaced
  rw [htake, Directory.performAll_append]
  by_cases hlate : k - (a.imageCommands image).length <
      (a.watermarkCommands options previous).length
  · refine .inr ⟨by omega, .inr ?_⟩
    rw [diskOf_take_watermarkCommands hlate, hreplaced]
  · refine .inl ⟨by omega, ?_⟩
    rw [List.take_of_length_le (Nat.le_of_not_lt hlate), diskOf_watermarkCommands himage, hreplaced]
    rfl

/-- **The operations of a save, performed as a whole, are the save.** -/
theorem saveCommands_save : save options none (diskOf dir) a.state =
    match a.saveCommands options dir with
    | .ok cs => ⟨none, diskOf (dir.performAll cs)⟩
    | .error e => ⟨some e, diskOf dir⟩ := by
  cases hread : readWatermark options (diskOf dir) with
  | error e =>
    have hfails : a.saveCommands options dir = .error e := by
      rw [Attempt.saveCommands, hread]
      rfl
    simp only [save, faultAt_none, hread, hfails]
  | ok previous =>
    cases hencode : encode a.state with
    | error e =>
      have hfails : a.saveCommands options dir = .error e := by
        rw [Attempt.saveCommands, hread]
        show (encode a.state >>= _) = _
        rw [hencode]
        rfl
      simp only [save, faultAt_none, hread, hencode, hfails]
    | ok image =>
      have hworks := saveCommands_ok.mpr ⟨previous, image, hread, hencode, rfl⟩
      have hdone : save options none (diskOf dir) a.state =
          ⟨none, replacedDisk options (diskOf dir) a.state image previous⟩ :=
        save_done hencode hread (fun _ hf => (by cases hf)) fun ht => by
          obtain ⟨-, _, hf, -⟩ := ht
          cases hf
      have hall := diskOf_take options dir a image previous
        (a.imageCommands image ++ a.watermarkCommands options previous).length
      rcases hall with ⟨-, hdisk⟩ | ⟨hlt, -⟩
      · rw [hdone, hworks]
        rw [List.take_length] at hdisk
        simp only [hdisk]
      · exact absurd hlt (Nat.lt_irrefl _)

end Commands

/-! ## Saves and crashes in a row -/

/-- The directory, with the state of the last save that was completed and the
states of the saves that a crash has cut short since, the latest first. -/
structure Journal where
  directory : StoreDirectory
  saved : DurableState
  interrupted : List DurableState

/-- One save after the other, each completed or cut short. A save that throws
before its first operation leaves everything as it is. -/
def crashes (options : StoreOptions) : Machine Journal Attempt Unit where
  init := ⟨fun _ => none, initialState, []⟩
  step journal a :=
    match a.saveCommands options journal.directory with
    | .error _ => (journal, ())
    | .ok cs =>
      if cs.length ≤ a.performed then
        (⟨journal.directory.performAll cs, a.state, []⟩, ())
      else
        (⟨journal.directory.performAll (cs.take a.performed), journal.saved,
          a.state :: journal.interrupted⟩, ())

/-- The state that the image holds; where there is no image, nothing was ever
saved. -/
structure Held (limits : Limits) (disk : Disk) (state : DurableState) : Prop where
  blank : disk.image = none → state = initialState
  decoded : ∀ image, disk.image = some image →
    decode (runtimeOptions limits) image = .ok state
  watermark : ∃ w, readWatermark (runtimeOptions limits) disk = .ok w ∧
    w ≤ state.currentEpoch.value

/-- The directory holds the state that was saved last, or one that a crash has
interrupted since. -/
def Consistent (limits : Limits) (journal : Journal) : Prop :=
  ∃ s, (s = journal.saved ∨ s ∈ journal.interrupted) ∧ Held limits (diskOf journal.directory) s

/-- The epoch is not below what the directory can hold. -/
def Journal.Below (journal : Journal) (epoch : CoordinatorEpoch) : Prop :=
  ∀ s, s = journal.saved ∨ s ∈ journal.interrupted → s.currentEpoch ≤ epoch

section Runs

variable {limits : Limits} {journal : Journal} {a : Attempt}

/-- An image that was put in place, under a watermark that is not above it. -/
theorem Held.replaced {new : DurableState} {image : Bytes} {text : Option Bytes} {w : Nat}
    (hdecode : decode (runtimeOptions limits) image = .ok new)
    (hread : readWatermark (runtimeOptions limits) ⟨some image, text⟩ = .ok w)
    (hle : w ≤ new.currentEpoch.value) : Held limits ⟨some image, text⟩ new := by
  refine ⟨fun hnone => (nomatch hnone), fun image' himage => ?_, w, hread, hle⟩
  cases himage
  exact hdecode

/-- **One save**, completed or cut short, keeps the directory consistent. -/
theorem crashes_consistent (h : Consistent limits journal)
    (hbelow : journal.Below a.state.currentEpoch)
    (hdecode : ∀ image, encode a.state = .ok image →
      decode (runtimeOptions limits) image = .ok a.state) :
    Consistent limits ((crashes (runtimeOptions limits)).step journal a).1 := by
  obtain ⟨s, hs, hheld⟩ := h
  have hle : s.currentEpoch.value ≤ a.state.currentEpoch.value := hbelow s hs
  show Consistent limits (match a.saveCommands (runtimeOptions limits) journal.directory with
    | .error _ => (journal, ())
    | .ok cs => _).1
  cases hcommands : a.saveCommands (runtimeOptions limits) journal.directory with
  | error e => exact ⟨s, hs, hheld⟩
  | ok cs =>
    obtain ⟨previous, image, hread, hencode, rfl⟩ := saveCommands_ok.mp hcommands
    obtain ⟨w, hw, hwle⟩ := hheld.watermark
    obtain rfl : previous = w := Except.ok.inj (hread.symm.trans hw)
    dsimp only
    rcases diskOf_take (runtimeOptions limits) journal.directory a image previous a.performed with
      ⟨hall, hdisk⟩ | ⟨hcut, hdisk⟩
    · rw [if_pos hall]
      rw [List.take_of_length_le hall] at hdisk
      refine ⟨a.state, .inl rfl, ?_⟩
      show Held limits (diskOf (journal.directory.performAll _)) a.state
      rw [hdisk, replacedDisk]
      by_cases hraise : (runtimeOptions limits).enableRollbackWatermark = true ∧
          a.state.currentEpoch.value > previous
      · rw [if_pos hraise]
        refine .replaced (hdecode image hencode) ?_ (Nat.le_refl _)
        exact parseWatermark_text _
      · rw [if_neg hraise]
        exact .replaced (hdecode image hencode) hread (Nat.le_trans hwle hle)
    · rw [if_neg (Nat.not_le_of_lt hcut)]
      rcases hdisk with hdisk | hdisk
      · -- the image is still the old one
        refine ⟨s, ?_, ?_⟩
        · rcases hs with rfl | hmem
          · exact .inl rfl
          · exact .inr (List.mem_cons_of_mem _ hmem)
        · show Held limits (diskOf (journal.directory.performAll _)) s
          rw [hdisk]
          exact hheld
      · -- the image is the new one, under the old watermark
        refine ⟨a.state, .inr (List.mem_cons_self ..), ?_⟩
        show Held limits (diskOf (journal.directory.performAll _)) a.state
        rw [hdisk]
        exact .replaced (hdecode image hencode) hread (Nat.le_trans hwle hle)

/-- What a save adds is its own state. -/
theorem crashes_below {epoch : CoordinatorEpoch} (h : journal.Below epoch)
    (hle : a.state.currentEpoch ≤ epoch) :
    ((crashes (runtimeOptions limits)).step journal a).1.Below epoch := by
  show Journal.Below (match a.saveCommands (runtimeOptions limits) journal.directory with
    | .error _ => (journal, ())
    | .ok cs => _).1 epoch
  cases a.saveCommands (runtimeOptions limits) journal.directory with
  | error e => exact h
  | ok cs =>
    dsimp only
    split
    · rintro s (rfl | hmem)
      · exact hle
      · cases hmem
    · rintro s (rfl | hmem)
      · exact h _ (.inl rfl)
      · rcases List.mem_cons.mp hmem with rfl | hmem
        · exact hle
        · exact h s (.inr hmem)

/-- **Any number of saves**, each completed or cut short. -/
theorem crashes_run {attempts : List Attempt}
    (hmono : attempts.Pairwise fun a b => a.state.currentEpoch ≤ b.state.currentEpoch)
    (hdecode : ∀ a ∈ attempts, ∀ image, encode a.state = .ok image →
      decode (runtimeOptions limits) image = .ok a.state)
    (hbelow : ∀ a ∈ attempts, journal.Below a.state.currentEpoch) (h : Consistent limits journal) :
    Consistent limits ((crashes (runtimeOptions limits)).run journal attempts) := by
  induction attempts generalizing journal with
  | nil => exact h
  | cons a attempts ih =>
    obtain ⟨hfirst, hrest⟩ := List.pairwise_cons.mp hmono
    have hstep := crashes_consistent h (hbelow a (List.mem_cons_self ..))
      (hdecode a (List.mem_cons_self ..))
    refine ih hrest (fun b hb => hdecode b (List.mem_cons_of_mem _ hb)) (fun b hb => ?_) hstep
    exact crashes_below (hbelow b (List.mem_cons_of_mem _ hb)) (hfirst b hb)

theorem Consistent.blank : Consistent limits (crashes (runtimeOptions limits)).init :=
  ⟨initialState, .inl rfl, fun _ => rfl, fun _ h => (nomatch h), 0, rfl, Nat.zero_le _⟩

end Runs

/-! ## The parser of the watermark -/

/-- The loop over the digits as it is computed, in 64-bit arithmetic. -/
def parseEpoch64 : UInt64 → Text → Except EpochError UInt64
  | epoch, [] => pure epoch
  | epoch, c :: cs => do
    refuseIf (c < 48 ∨ c > 57) (corrupt "rollback watermark file has a non-numeric epoch value")
    let digit := (c - 48).toUInt64
    refuseIf (epoch > (UInt64.ofNat maxValue - digit) / 10)
      (overflow "rollback watermark epoch overflows")
    parseEpoch64 (epoch * 10 + digit) cs

/-- The text of the epoch in a watermark file. -/
def watermarkValue (text : Text) : Except EpochError Text := do
  refuseIf (newline ∉ text) (corrupt "rollback watermark file is malformed")
  refuseIf (trim (text.takeWhile (· ≠ newline)) ≠ watermarkHeader)
    (corrupt "rollback watermark file has an unexpected header")
  let value := trim ((text.dropWhile (· ≠ newline)).drop 1)
  refuseIf (value.isEmpty = true) (corrupt "rollback watermark file has no epoch value")
  return value

/-- The number a text of digits stands for, behind these first ones. -/
def decimalValue (epoch : Nat) (text : Text) : Nat :=
  text.foldl (fun n c => n * 10 + (c.toNat - 48)) epoch

theorem parseWatermark_eq (text : Text) :
    parseWatermark text = watermarkValue text >>= parseEpoch 0 := by
  unfold parseWatermark watermarkValue
  simp only [refuseIf]
  split
  · rfl
  split
  · rfl
  by_cases hempty : (trim ((text.dropWhile (· ≠ newline)).drop 1)).isEmpty = true
  · simp only [if_pos hempty]
    rfl
  · simp only [if_neg hempty]
    rfl

/-- One digit: the checks and the new value agree with those over the naturals. -/
theorem digit64 (epoch : UInt64) {c : UInt8} (hc : ¬ (c < 48 ∨ c > 57)) :
    (epoch > (UInt64.ofNat maxValue - (c - 48).toUInt64) / 10 ↔
      epoch.toNat > (maxValue - (c.toNat - 48)) / 10) ∧
    (epoch.toNat ≤ (maxValue - (c.toNat - 48)) / 10 →
      (epoch * 10 + (c - 48).toUInt64).toNat = epoch.toNat * 10 + (c.toNat - 48)) := by
  rw [not_or, UInt8.not_lt, UInt8.not_lt, UInt8.le_iff_toNat_le, UInt8.le_iff_toNat_le] at hc
  obtain ⟨hlow, hhigh⟩ := hc
  have hlow' : 48 ≤ c.toNat := hlow
  have hhigh' : c.toNat ≤ 57 := hhigh
  have hdigit : (c - 48).toUInt64.toNat = c.toNat - 48 := by
    rw [UInt8.toNat_toUInt64, UInt8.toNat_sub_of_le _ _ (UInt8.le_iff_toNat_le.mpr hlow)]
    rfl
  have hmax : (UInt64.ofNat maxValue).toNat = maxValue := by decide
  have hvalue : maxValue = 2 ^ 64 - 1 := by decide
  have hle : (c - 48).toUInt64 ≤ UInt64.ofNat maxValue := by
    rw [UInt64.le_iff_toNat_le, hdigit, hmax, hvalue]
    omega
  constructor
  · rw [gt_iff_lt, UInt64.lt_iff_toNat_lt, UInt64.toNat_div, UInt64.toNat_sub_of_le _ _ hle, hdigit,
      hmax]
    rfl
  · intro hsmall
    have hten : (10 : UInt64).toNat = 10 := rfl
    rw [UInt64.toNat_add, UInt64.toNat_mul, hdigit, hten]
    omega

/-- **The parser in 64 bits** agrees with the parser over the naturals. -/
theorem parseEpoch64_eq (epoch : UInt64) (text : Text) :
    (parseEpoch64 epoch text).map UInt64.toNat = parseEpoch epoch.toNat text := by
  induction text generalizing epoch with
  | nil => rfl
  | cons c cs ih =>
    rw [parseEpoch64, parseEpoch]
    by_cases hc : c < 48 ∨ c > 57
    · simp only [refuseIf, if_pos hc]
      rfl
    · obtain ⟨hcheck, hnext⟩ := digit64 epoch hc
      by_cases hover : epoch.toNat > (maxValue - (c.toNat - 48)) / 10
      · simp only [refuseIf, if_neg hc, if_pos hover, if_pos (hcheck.mpr hover)]
        rfl
      · simp only [refuseIf, if_neg hc, if_neg hover, if_neg fun h => hover (hcheck.mp h)]
        show (parseEpoch64 (epoch * 10 + (c - 48).toUInt64) cs).map UInt64.toNat =
          parseEpoch (epoch.toNat * 10 + (c.toNat - 48)) cs
        rw [ih, hnext (Nat.le_of_not_lt hover)]

/-- What is parsed is the number that the digits stand for. -/
theorem parseEpoch_value {epoch value : Nat} {text : Text} (hepoch : epoch ≤ maxValue)
    (h : parseEpoch epoch text = .ok value) : value = decimalValue epoch text ∧ value ≤ maxValue := by
  induction text generalizing epoch with
  | nil =>
    rw [parseEpoch, pure_ok] at h
    exact ⟨h, h ▸ hepoch⟩
  | cons c cs ih =>
    rw [parseEpoch, bind_refuseIf, bind_refuseIf] at h
    obtain ⟨hc, hover, h⟩ := h
    refine ih ?_ h
    have hdigit : c.toNat - 48 ≤ maxValue := by
      have := c.toNat_lt
      have hvalue : maxValue = 2 ^ 64 - 1 := by decide
      omega
    show epoch * 10 + (c.toNat - 48) ≤ maxValue
    omega

/-! ## Crash safety -/

/-- A crash can be survived and a rollback is noticed, by what is on disk. -/
structure Recoverable (limits : Limits) (journal : Journal) (watermark : Nat)
    (state : DurableState) : Prop where
  read : readWatermark (runtimeOptions limits) (diskOf journal.directory) = .ok watermark
  loaded : load (runtimeOptions limits) (diskOf journal.directory) = .ok state
  saved : state = journal.saved ∨ state ∈ journal.interrupted
  above : watermark ≤ state.currentEpoch.value
  image : ∀ image, journal.directory .image = some image →
    decode (runtimeOptions limits) image = .ok state
  rollback : ∀ image old, decode (runtimeOptions limits) image = .ok old →
    old.currentEpoch.value < watermark →
    load (runtimeOptions limits) ⟨some image, journal.directory .watermark⟩ =
      .error (corrupt "durable epoch is lower than the persisted watermark: rollback detected")

theorem Consistent.recoverable {limits : Limits} {journal : Journal}
    (h : Consistent limits journal) :
    ∃ watermark state, Recoverable limits journal watermark state := by
  obtain ⟨s, hs, hblank, hdecoded, w, hread, hle⟩ := h
  refine ⟨w, s, hread, ?_, hs, hle, hdecoded, fun image old hold hlt => ?_⟩
  · cases himage : (diskOf journal.directory).image with
    | none =>
      rw [load, himage, hblank himage]
      rfl
    | some image =>
      simp only [load, himage]
      refine bind_ok.mpr ⟨s, hdecoded image himage, ?_⟩
      rw [if_pos (show (runtimeOptions limits).enableRollbackWatermark = true from rfl)]
      exact bind_ok.mpr ⟨w, hread, bind_refuseIf.mpr ⟨Nat.not_lt.mpr hle, rfl⟩⟩
  · have hread' : readWatermark (runtimeOptions limits)
        ⟨some image, journal.directory .watermark⟩ = .ok w := hread
    simp only [load, hold]
    show (readWatermark _ _ >>= fun watermark => _) = _
    rw [hread']
    show (refuseIf (old.currentEpoch.value < w) _ >>= _) = _
    rw [refuseIf, if_pos hlt]
    rfl

/-- **Crash safety of the store.** After any saves whose epochs never decrease,
each completed or cut short by a crash, the store loads the state of the last
completed save or of one that was interrupted since, the watermark is not above
it, and an image below the watermark is refused. The watermark that is written
is the one that is read, and the parser of a watermark never wraps. -/
theorem crashSafe {limits : Limits} {attempts : List Attempt}
    (hmono : attempts.Pairwise fun a b => a.state.currentEpoch ≤ b.state.currentEpoch)
    (hdecode : ∀ a ∈ attempts, ∀ image, encode a.state = .ok image →
      decode (runtimeOptions limits) image = .ok a.state) :
    (∃ watermark state, Recoverable limits ((crashes (runtimeOptions limits)).run
      (crashes (runtimeOptions limits)).init attempts) watermark state) ∧
    (∀ epoch, parseWatermark (watermarkText epoch) = .ok epoch.value) ∧
    ∀ text, (watermarkValue text >>= parseEpoch64 0).map UInt64.toNat = parseWatermark text ∧
      ∀ value, parseWatermark text = .ok value → value ≤ maxValue ∧
        ∃ digits, watermarkValue text = .ok digits ∧ value = decimalValue 0 digits := by
  refine ⟨?_, parseWatermark_text, fun text => ⟨?_, fun value hvalue => ?_⟩⟩
  · refine (crashes_run hmono hdecode (fun a _ => ?_) .blank).recoverable
    rintro s (rfl | hmem)
    · exact Nat.zero_le _
    · cases hmem
  · rw [parseWatermark_eq]
    cases watermarkValue text with
    | error e => rfl
    | ok digits => exact parseEpoch64_eq 0 digits
  · rw [parseWatermark_eq] at hvalue
    obtain ⟨digits, hdigits, hparsed⟩ := bind_ok.mp hvalue
    obtain ⟨heq, hle⟩ := parseEpoch_value (Nat.zero_le _) hparsed
    exact ⟨hle, digits, hdigits, heq⟩

/-- A save of the state of a first opening, cut short after `n` operations. -/
def testAttempt (n : Nat) : Attempt where
  state := openedOnce
  imageSuffix := str "-1-00"
  watermarkSuffix := str "-1-01"
  chunks contents := [contents]
  whole _ := List.append_nil _
  performed := n

/-- A crash behind the image, and the save that repairs the watermark. -/
theorem crashSafe_test : ∃ watermark state, Recoverable defaultLimits
    ((crashes (runtimeOptions defaultLimits)).run (crashes (runtimeOptions defaultLimits)).init
      [testAttempt 3, testAttempt 6]) watermark state := by
  refine (crashSafe (by decide) fun a ha image hencode => ?_).1
  obtain ⟨image', hencode', hloadable⟩ := openedOnce_loadable
  have hstate : a.state = openedOnce := by
    rcases List.mem_cons.mp ha with rfl | ha
    · rfl
    · rw [List.mem_singleton.mp ha]
      rfl
  rw [hstate] at hencode ⊢
  obtain rfl : image = image' := Except.ok.inj (hencode.symm.trans hencode')
  exact decode_encode hencode hloadable

end EpochStore

end FabricEpoch
