import Mathlib.Data.Nat.Digits.Lemmas
import Mathlib.Data.List.Basic

/-!
# Errors, identifiers, counters and texts

The leaf vocabulary of the coordinator:

- `EpochError`: a category and a message, thrown only for environmental and
  structural failures;
- `Fixed128Id`: sixteen raw bytes, one domain per kind of identifier;
- `MonotonicCounter`: a 64-bit counter that reports exhaustion instead of
  wrapping. The bound travels in the structure, so every counter that exists is
  representable;
- `ParticipantId`, `BoundedText`: texts with a validity predicate of their own.
-/

namespace FabricEpoch

/-- The contents of a `std::string`. -/
abbrev Text := List UInt8

/-- A string literal of the source. -/
def str (s : String) : Text := s.toList.map fun c => UInt8.ofNat c.toNat

/-! ## Errors -/

inductive ErrorCategory where
  | malformedEncoding
  | unsupportedVersion
  | integrityFailure
  | corruptState
  | ioFailure
  | resourceLimit
  | overflow
  | invalidArgument
  | protocolViolation
  | internalInvariant
deriving DecidableEq, Repr

structure EpochError where
  category : ErrorCategory
  message : String
deriving DecidableEq, Repr

def malformed (message : String) : EpochError := ⟨.malformedEncoding, message⟩
def corrupt (message : String) : EpochError := ⟨.corruptState, message⟩
def ioFailure (message : String) : EpochError := ⟨.ioFailure, message⟩
def resourceLimit (message : String) : EpochError := ⟨.resourceLimit, message⟩
def overflow (message : String) : EpochError := ⟨.overflow, message⟩
def invalidArgument (message : String) : EpochError := ⟨.invalidArgument, message⟩
def protocolViolation (message : String) : EpochError := ⟨.protocolViolation, message⟩
def invariant (message : String) : EpochError := ⟨.internalInvariant, message⟩

/-! ## Raw blocks and 128-bit identifiers -/

/-- `std::array<std::byte, n>`. -/
structure Block (n : Nat) where
  bytes : List UInt8
  size_eq : bytes.length = n
deriving DecidableEq

/-- The value-initialised array. -/
def Block.zero (n : Nat) : Block n := ⟨List.replicate n 0, List.length_replicate⟩

/-- The identifier domains, one per tag type of the source. -/
inductive IdDomain where
  | coordinatorBoot
  | workerBoot
  | session
  | authorityGrant
  | epochTransition
  | epochSnapshot
  | mutationAttempt
deriving DecidableEq

structure Fixed128Id (domain : IdDomain) where
  bytes : Block 16
deriving DecidableEq

instance {domain : IdDomain} : LawfulBEq (Fixed128Id domain) := inferInstance

abbrev CoordinatorBootId := Fixed128Id .coordinatorBoot
abbrev WorkerBootId := Fixed128Id .workerBoot
abbrev SessionId := Fixed128Id .session
abbrev AuthorityGrantId := Fixed128Id .authorityGrant
abbrev EpochTransitionId := Fixed128Id .epochTransition
abbrev EpochSnapshotId := Fixed128Id .epochSnapshot
abbrev MutationAttemptId := Fixed128Id .mutationAttempt

namespace Fixed128Id

variable {domain : IdDomain}

/-- The default-constructed identifier. -/
def nil : Fixed128Id domain := ⟨Block.zero 16⟩

def isNil (id : Fixed128Id domain) : Bool := id.bytes.bytes.all (· == 0)

@[simp] theorem isNil_nil : (nil : Fixed128Id domain).isNil = true := rfl

theorem eq_nil_of_isNil {id : Fixed128Id domain} (h : id.isNil = true) : id = nil := by
  obtain ⟨⟨bytes, hlen⟩⟩ := id
  have hz : bytes = List.replicate 16 0 :=
    List.eq_replicate_iff.mpr ⟨hlen, fun b hb => by simpa using List.all_eq_true.mp h b hb⟩
  subst hz
  rfl

def hexDigit (n : Nat) : UInt8 :=
  if n < 10 then UInt8.ofNat (48 + n) else UInt8.ofNat (87 + n)

/-- Lower-case hexadecimal, two digits per byte. -/
def toText (id : Fixed128Id domain) : Text :=
  id.bytes.bytes.flatMap fun b => [hexDigit (b.toNat / 16), hexDigit (b.toNat % 16)]

theorem length_toText (id : Fixed128Id domain) : id.toText.length = 32 := by
  rw [toText, List.length_flatMap]
  simp [id.bytes.size_eq]

end Fixed128Id

/-! ## Counters -/

/-- `UINT64_MAX`. -/
def maxValue : Nat := 2 ^ 64 - 1

theorem one_le_maxValue : 1 ≤ maxValue := by decide

theorem two_le_maxValue : 2 ≤ maxValue := by decide

/-- `std::to_string` of an unsigned integer. -/
def natText (n : Nat) : Text :=
  if n = 0 then str "0" else ((Nat.digits 10 n).reverse.map fun d => UInt8.ofNat (48 + d))

theorem length_natText_le {n : Nat} (h : n ≤ maxValue) : (natText n).length ≤ 20 := by
  unfold natText
  split
  · decide
  · rw [List.length_map, List.length_reverse, Nat.digits_length_le_iff (by decide)]
    exact lt_of_le_of_lt h (by decide)

inductive CounterDomain where
  | coordinatorEpoch
  | epochGeneration
  | registrationGeneration
  | fencingGeneration
  | grantGeneration
  | incarnationSequence
deriving DecidableEq

/-- A 64-bit counter. -/
structure MonotonicCounter (domain : CounterDomain) where
  value : Nat
  le_max : value ≤ maxValue
deriving DecidableEq

abbrev CoordinatorEpoch := MonotonicCounter .coordinatorEpoch
abbrev EpochGeneration := MonotonicCounter .epochGeneration
abbrev RegistrationGeneration := MonotonicCounter .registrationGeneration
abbrev FencingGeneration := MonotonicCounter .fencingGeneration
abbrev GrantGeneration := MonotonicCounter .grantGeneration
abbrev IncarnationSequence := MonotonicCounter .incarnationSequence

namespace MonotonicCounter

variable {domain : CounterDomain}

@[ext] theorem ext {a b : MonotonicCounter domain} (h : a.value = b.value) : a = b := by
  cases a
  cases b
  cases h
  rfl

instance : LT (MonotonicCounter domain) := ⟨fun a b => a.value < b.value⟩
instance : LE (MonotonicCounter domain) := ⟨fun a b => a.value ≤ b.value⟩
instance (a b : MonotonicCounter domain) : Decidable (a < b) :=
  inferInstanceAs (Decidable (a.value < b.value))
instance (a b : MonotonicCounter domain) : Decidable (a ≤ b) :=
  inferInstanceAs (Decidable (a.value ≤ b.value))

theorem lt_iff {a b : MonotonicCounter domain} : a < b ↔ a.value < b.value := Iff.rfl
theorem le_iff {a b : MonotonicCounter domain} : a ≤ b ↔ a.value ≤ b.value := Iff.rfl
theorem eq_iff {a b : MonotonicCounter domain} : a = b ↔ a.value = b.value :=
  ⟨fun h => h ▸ rfl, ext⟩

def zero : MonotonicCounter domain := ⟨0, Nat.zero_le _⟩

/-- The counter a raw `std::uint64_t` denotes. -/
def ofRaw (raw : UInt64) : MonotonicCounter domain :=
  ⟨raw.toNat, Nat.le_sub_one_of_lt raw.toNat_lt⟩

/-- The raw `std::uint64_t` of a counter. -/
def raw (c : MonotonicCounter domain) : UInt64 := UInt64.ofNat c.value

@[simp] theorem zero_value : (zero : MonotonicCounter domain).value = 0 := rfl

@[simp] theorem toNat_raw (c : MonotonicCounter domain) : c.raw.toNat = c.value := by
  have := c.le_max
  rw [raw, UInt64.toNat_ofNat']
  exact Nat.mod_eq_of_lt (by simp only [maxValue] at this; omega)

@[simp] theorem ofRaw_raw (c : MonotonicCounter domain) : ofRaw c.raw = c :=
  ext (toNat_raw c)

/-- `next`: nothing on overflow instead of wrapping. -/
def next (c : MonotonicCounter domain) : Option (MonotonicCounter domain) :=
  if h : c.value = maxValue then none
  else some ⟨c.value + 1, Nat.lt_of_le_of_ne c.le_max h⟩

def isMax (c : MonotonicCounter domain) : Bool := c.value == maxValue
def isZero (c : MonotonicCounter domain) : Bool := c.value == 0

@[simp] theorem isZero_iff {c : MonotonicCounter domain} : c.isZero = true ↔ c.value = 0 :=
  beq_iff_eq

theorem next_eq_some {c d : MonotonicCounter domain} (h : c.next = some d) :
    d.value = c.value + 1 := by
  unfold next at h
  split at h
  · cases h
  · cases h
    rfl

theorem next_eq_none {c : MonotonicCounter domain} : c.next = none ↔ c.value = maxValue := by
  unfold next
  split <;> simp_all

/-- `to_string`. -/
def toText (c : MonotonicCounter domain) : Text := natText c.value

theorem length_toText_le (c : MonotonicCounter domain) : c.toText.length ≤ 20 :=
  length_natText_le c.le_max

end MonotonicCounter

/-! ## Participant identifiers and bounded texts -/

def isAsciiAlnum (c : UInt8) : Bool :=
  (48 ≤ c && c ≤ 57) || (65 ≤ c && c ≤ 90) || (97 ≤ c && c ≤ 122)

/-- One of the identifier extras `._:-`. -/
def isSeparator (c : UInt8) : Bool := (str "._:-").contains c

def isValidIdentifierText (text : Text) (maxLength : Nat) : Bool :=
  if text.isEmpty || text.length > maxLength then false
  else if text.head?.any isSeparator || text.getLast?.any isSeparator then false
  else text.all fun c => isAsciiAlnum c || isSeparator c

theorem length_le_of_isValidIdentifierText {text : Text} {maxLength : Nat}
    (h : isValidIdentifierText text maxLength = true) :
    text ≠ [] ∧ text.length ≤ maxLength := by
  unfold isValidIdentifierText at h
  split at h
  · cases h
  · next hlen => simpa using hlen

structure ParticipantId where
  text : Text
deriving DecidableEq

namespace ParticipantId

def maxLength : Nat := 128

def empty (id : ParticipantId) : Bool := id.text.isEmpty

/-- `parse` accepts exactly the valid identifier texts. -/
def parse (text : Text) : Option ParticipantId :=
  if isValidIdentifierText text maxLength then some ⟨text⟩ else none

/-- The identifier is one that `parse` returns. -/
def Parses (id : ParticipantId) : Prop := isValidIdentifierText id.text maxLength = true

instance (id : ParticipantId) : Decidable id.Parses :=
  inferInstanceAs (Decidable (_ = true))

theorem parse_text {id : ParticipantId} (h : id.Parses) : parse id.text = some id := by
  exact if_pos h

theorem parse_eq_some {text : Text} {id : ParticipantId} (h : parse text = some id) :
    id.text = text ∧ id.Parses := by
  unfold parse at h
  split at h
  · next hv =>
    cases h
    exact ⟨rfl, hv⟩
  · cases h

theorem Parses.length_le {id : ParticipantId} (h : id.Parses) : id.text.length ≤ 128 :=
  (length_le_of_isValidIdentifierText h).2

theorem Parses.length_pos {id : ParticipantId} (h : id.Parses) : 0 < id.text.length :=
  List.length_pos_iff.mpr (length_le_of_isValidIdentifierText h).1

instance : LT ParticipantId := ⟨fun a b => a.text < b.text⟩
instance : LE ParticipantId := ⟨fun a b => a.text ≤ b.text⟩
instance (a b : ParticipantId) : Decidable (a < b) :=
  inferInstanceAs (Decidable (a.text < b.text))
instance (a b : ParticipantId) : Decidable (a ≤ b) :=
  inferInstanceAs (Decidable (a.text ≤ b.text))

theorem le_total (a b : ParticipantId) : a ≤ b ∨ b ≤ a := List.le_total a.text b.text

theorem le_trans {a b c : ParticipantId} (hab : a ≤ b) (hbc : b ≤ c) : a ≤ c :=
  (List.le_trans hab hbc : a.text ≤ c.text)

theorem le_antisymm {a b : ParticipantId} (hab : a ≤ b) (hba : b ≤ a) : a = b := by
  cases a
  cases b
  exact congrArg _ (List.le_antisymm hab hba)

theorem not_lt {a b : ParticipantId} : ¬ a < b ↔ b ≤ a := List.not_lt

end ParticipantId

/-- A text that its producer has validated against a bound. -/
structure BoundedText where
  text : Text
deriving DecidableEq

namespace BoundedText

/-- Printable ASCII and tab, within the bound. -/
def isValid (text : Text) (maxLength : Nat) : Bool :=
  if text.length > maxLength then false
  else text.all fun c => !((c < 0x20 && c != 9) || c == 0x7F || c > 0x7E)

/-- The default-constructed text. -/
def blank : BoundedText := ⟨[]⟩

theorem length_le_of_isValid {text : Text} {maxLength : Nat}
    (h : isValid text maxLength = true) : text.length ≤ maxLength := by
  unfold isValid at h
  split at h
  · cases h
  · omega

end BoundedText

end FabricEpoch
