import Mathlib.Data.List.Basic
import Mathlib.Tactic.Ring

/-!
# Byte codecs

A small theory of hand-written binary codecs: an encoder is a piece of output
that may fail (`Emit`), a decoder consumes a prefix of the remaining input
(`Decoder`), and `Decodes wf dec enc x` says that `dec` is the partial inverse
of `enc` at `x`:

- **only**: whatever `dec` returns on the bytes of `enc` (followed by anything)
  is `x`, with exactly the bytes of `enc` consumed;
- **accepts**: when `wf` holds, `dec` does return.

The two halves are kept in one relation because both compose along `>>=` and
`++` in the same way (`Decodes.bind`): a record codec written field by field is
proved field by field, and the well-formedness condition of the record comes
out as the conjunction of the conditions of its fields. The half that needs no
well-formedness is what a store relies on when it reloads what it wrote.

Counted lists (`decodeList`) carry the usual allocation guard
`count * size ≤ remaining`; `decodeList_eq` states exactly when it lets a list
through.

`Returns P dec` says that what `dec` returns has the property `P`, on any input;
it follows the structure of the decoder in the same way.
-/

namespace ByteCodec

variable {ε α β : Type}

/-- A byte string. -/
abbrev Bytes := List UInt8

/-! ## Little-endian words -/

/-- The `k` low-order bytes of `n`, least significant first. -/
def leBytes : Nat → Nat → Bytes
  | 0, _ => []
  | k + 1, n => UInt8.ofNat (n % 256) :: leBytes k (n / 256)

/-- The number a little-endian byte string denotes. -/
def leValue : Bytes → Nat
  | [] => 0
  | b :: bs => b.toNat + 256 * leValue bs

@[simp] theorem length_leBytes (k n : Nat) : (leBytes k n).length = k := by
  induction k generalizing n with
  | zero => rfl
  | succ k ih => simp [leBytes, ih]

theorem leValue_leBytes {k n : Nat} (h : n < 256 ^ k) : leValue (leBytes k n) = n := by
  induction k generalizing n with
  | zero =>
    have : n = 0 := by simpa using h
    simp [leBytes, leValue, this]
  | succ k ih =>
    have hdiv : n / 256 < 256 ^ k := by
      rw [Nat.div_lt_iff_lt_mul (by decide)]
      simpa [pow_succ] using h
    have hbyte : (UInt8.ofNat (n % 256)).toNat = n % 256 := by
      simp
    rw [leBytes, leValue, ih hdiv, hbyte]
    omega

theorem leValue_lt (bs : Bytes) : leValue bs < 256 ^ bs.length := by
  induction bs with
  | nil => simp [leValue]
  | cons b bs ih =>
    have hb : b.toNat < 256 := b.toNat_lt
    simp only [leValue, List.length_cons, pow_succ]
    omega

/-- The bytes of a word are those of its value. -/
theorem leBytes_leValue (b : Bytes) : leBytes b.length (leValue b) = b := by
  induction b with
  | nil => rfl
  | cons c cs ih =>
    have hc : c.toNat < 256 := c.toNat_lt
    have hmod : (c.toNat + 256 * leValue cs) % 256 = c.toNat := by omega
    have hdiv : (c.toNat + 256 * leValue cs) / 256 = leValue cs := by omega
    rw [List.length_cons, leValue, leBytes, hmod, hdiv, ih, UInt8.ofNat_toNat]

/-- Only the low-order bytes are written. -/
theorem leBytes_mod (k n : Nat) : leBytes k (n % 256 ^ k) = leBytes k n := by
  induction k generalizing n with
  | zero => rfl
  | succ k ih =>
    have hlow : n % 256 ^ (k + 1) % 256 = n % 256 :=
      Nat.mod_mod_of_dvd n ⟨256 ^ k, by rw [pow_succ, Nat.mul_comm]⟩
    have hhigh : n % 256 ^ (k + 1) / 256 = n / 256 % 256 ^ k := by
      rw [pow_succ, Nat.mul_comm, Nat.mod_mul_right_div_self]
    rw [leBytes, leBytes, hlow, hhigh, ih]

/-! ## Encoders -/

/-- A piece of encoder output: the bytes, or the error that stopped it. -/
def Emit (ε : Type) : Type := Except ε Bytes

namespace Emit

/-- Output of fixed bytes. -/
def bytes (b : Bytes) : Emit ε := Except.ok b

/-- Refuse to encode. -/
def fail (e : ε) : Emit ε := Except.error e

/-- Output followed by output; the first error wins. -/
def append : Emit ε → Emit ε → Emit ε
  | .ok a, .ok b => .ok (a ++ b)
  | .ok _, .error e => .error e
  | .error e, _ => .error e

instance : Append (Emit ε) := ⟨append⟩

/-- Output of a whole list, element by element. -/
def all (enc : α → Emit ε) : List α → Emit ε
  | [] => bytes []
  | x :: xs => enc x ++ all enc xs

/-- Output of a record, field after field. -/
def concat : List (Emit ε) → Emit ε
  | [] => bytes []
  | x :: xs => x ++ concat xs

/-- The emitted bytes are `b`. -/
def Yields (enc : Emit ε) (b : Bytes) : Prop := enc = Except.ok b

@[simp] theorem yields_bytes {a b : Bytes} : (bytes a : Emit ε).Yields b ↔ a = b := by
  constructor
  · intro h
    exact Except.ok.inj h
  · rintro rfl
    rfl

@[simp] theorem not_yields_fail {e : ε} {b : Bytes} : ¬ (fail e : Emit ε).Yields b := by
  intro h
  cases h

theorem yields_append {x y : Emit ε} {b : Bytes} :
    (x ++ y).Yields b ↔ ∃ a c, x.Yields a ∧ y.Yields c ∧ b = a ++ c := by
  show append x y = _ ↔ _
  unfold Yields
  cases x with
  | error e => simp [append]
  | ok a =>
    cases y with
    | error e => simp [append]
    | ok c =>
      constructor
      · intro h
        exact ⟨a, c, rfl, rfl, (Except.ok.inj h).symm⟩
      · rintro ⟨a', c', ha, hc, rfl⟩
        cases ha
        cases hc
        rfl

theorem append_assoc (x y z : Emit ε) : (x ++ y) ++ z = x ++ (y ++ z) := by
  show append (append x y) z = append x (append y z)
  cases x with
  | error e => rfl
  | ok a =>
    cases y with
    | error e => rfl
    | ok b =>
      cases z with
      | error e => rfl
      | ok c => exact congrArg Except.ok (List.append_assoc a b c)

@[simp] theorem bytes_append_bytes (a b : Bytes) :
    (bytes a ++ bytes b : Emit ε) = bytes (a ++ b) := rfl

@[simp] theorem append_nil (x : Emit ε) : x ++ bytes [] = x := by
  show append x (bytes []) = x
  cases x with
  | error e => rfl
  | ok a => exact congrArg Except.ok (List.append_nil a)

theorem concat_single (x : Emit ε) : concat [x] = x := append_nil x

theorem concat_pair (x y : Emit ε) : concat [x, y] = x ++ y :=
  congrArg (x ++ ·) (append_nil y)

theorem concat_append (xs ys : List (Emit ε)) : concat (xs ++ ys) = concat xs ++ concat ys := by
  induction xs with
  | nil =>
    show concat ys = append (bytes []) (concat ys)
    cases concat ys with
    | error e => rfl
    | ok a => rfl
  | cons x xs ih =>
    show x ++ concat (xs ++ ys) = (x ++ concat xs) ++ concat ys
    rw [ih, append_assoc]

theorem Yields.append {x y : Emit ε} {a c : Bytes} (hx : x.Yields a) (hy : y.Yields c) :
    (x ++ y).Yields (a ++ c) :=
  yields_append.mpr ⟨a, c, hx, hy, rfl⟩

theorem Yields.unique {x : Emit ε} {a b : Bytes} (ha : x.Yields a) (hb : x.Yields b) :
    a = b :=
  Except.ok.inj (ha.symm.trans hb)

theorem yields_all_cons {enc : α → Emit ε} {x : α} {xs : List α} {b : Bytes} :
    (all enc (x :: xs)).Yields b ↔
      ∃ a c, (enc x).Yields a ∧ (all enc xs).Yields c ∧ b = a ++ c :=
  yields_append

theorem yields_concat_cons {x : Emit ε} {xs : List (Emit ε)} {b : Bytes} :
    (concat (x :: xs)).Yields b ↔ ∃ a c, x.Yields a ∧ (concat xs).Yields c ∧ b = a ++ c :=
  yields_append

/-- There is an output. -/
def Emits (enc : Emit ε) : Prop := ∃ b, enc.Yields b

theorem emits_bytes (b : Bytes) : (bytes b : Emit ε).Emits := ⟨b, rfl⟩

theorem Emits.append {x y : Emit ε} (hx : x.Emits) (hy : y.Emits) : (x ++ y).Emits := by
  obtain ⟨a, ha⟩ := hx
  obtain ⟨c, hc⟩ := hy
  exact ⟨a ++ c, ha.append hc⟩

theorem Emits.field {x : Emit ε} {xs : List (Emit ε)} (hx : x.Emits)
    (hxs : (concat xs).Emits) : (concat (x :: xs)).Emits :=
  hx.append hxs

/-- A list encodes as soon as each of its elements does. -/
theorem Emits.all {enc : α → Emit ε} {xs : List α} (h : ∀ x ∈ xs, (enc x).Emits) :
    (Emit.all enc xs).Emits := by
  induction xs with
  | nil => exact emits_bytes []
  | cons x xs ih =>
    exact (h x (List.mem_cons_self ..)).append (ih fun y hy => h y (List.mem_cons_of_mem _ hy))

/-! ### Sizes -/

/-- The output, if there is one, has exactly `n` bytes. -/
def Takes (enc : Emit ε) (n : Nat) : Prop := ∀ b, enc.Yields b → b.length = n

/-- The output, if there is one, has at least `n` bytes. -/
def AtLeast (enc : Emit ε) (n : Nat) : Prop := ∀ b, enc.Yields b → n ≤ b.length

theorem takes_bytes {b : Bytes} {n : Nat} (h : b.length = n) : (bytes b : Emit ε).Takes n := by
  intro c hc
  rw [← yields_bytes.mp hc, h]

theorem Takes.append {x y : Emit ε} {m n : Nat} (hx : x.Takes m) (hy : y.Takes n) :
    (x ++ y).Takes (m + n) := by
  intro b hb
  obtain ⟨a, c, ha, hc, rfl⟩ := yields_append.mp hb
  rw [List.length_append, hx a ha, hy c hc]

theorem AtLeast.append {x y : Emit ε} {m n : Nat} (hx : x.AtLeast m) (hy : y.AtLeast n) :
    (x ++ y).AtLeast (m + n) := by
  intro b hb
  obtain ⟨a, c, ha, hc, rfl⟩ := yields_append.mp hb
  have := hx a ha
  have := hy c hc
  rw [List.length_append]
  omega

theorem takes_nil : (concat [] : Emit ε).Takes 0 := takes_bytes rfl

theorem Takes.field {x : Emit ε} {xs : List (Emit ε)} {m n : Nat} (hx : x.Takes m)
    (hxs : (concat xs).Takes n) : (concat (x :: xs)).Takes (m + n) :=
  hx.append hxs

theorem Takes.atLeast {x : Emit ε} {n : Nat} (h : x.Takes n) : x.AtLeast n :=
  fun b hb => (h b hb).ge

theorem AtLeast.field {x : Emit ε} {xs : List (Emit ε)} {m n : Nat} (hx : x.AtLeast m)
    (hxs : (concat xs).AtLeast n) : (concat (x :: xs)).AtLeast (m + n) :=
  hx.append hxs

theorem AtLeast.mono {x : Emit ε} {m n : Nat} (h : x.AtLeast n) (hmn : m ≤ n) : x.AtLeast m :=
  fun b hb => Nat.le_trans hmn (h b hb)

/-- The encoding of a list is as long as the encodings of its elements together. -/
theorem Takes.all {enc : α → Emit ε} {size : α → Nat} {xs : List α}
    (h : ∀ x ∈ xs, (enc x).Takes (size x)) : (all enc xs).Takes (xs.map size).sum := by
  induction xs with
  | nil => exact takes_nil
  | cons x xs ih =>
    exact (h x (List.mem_cons_self ..)).append (ih fun y hy => h y (List.mem_cons_of_mem _ hy))

/-- If every element takes at least `size` bytes, the list takes at least
`length * size`. -/
theorem AtLeast.all {enc : α → Emit ε} {size : Nat} {xs : List α}
    (h : ∀ x ∈ xs, (enc x).AtLeast size) : (all enc xs).AtLeast (xs.length * size) := by
  induction xs with
  | nil => exact takes_nil.atLeast.mono (by simp)
  | cons x xs ih =>
    have := (h x (List.mem_cons_self ..)).append (ih fun y hy => h y (List.mem_cons_of_mem _ hy))
    exact this.mono (by rw [List.length_cons, Nat.succ_mul, Nat.add_comm])

/-- A list takes at least what one of its elements takes. -/
theorem AtLeast.of_mem {enc : α → Emit ε} {xs : List α} {x : α} {n : Nat} (hx : x ∈ xs)
    (h : (enc x).AtLeast n) : (Emit.all enc xs).AtLeast n := by
  induction xs with
  | nil => cases hx
  | cons y ys ih =>
    intro b hb
    obtain ⟨a, c, ha, hc, rfl⟩ := yields_all_cons.mp hb
    rw [List.length_append]
    rcases List.mem_cons.mp hx with rfl | hx
    · exact Nat.le_add_right_of_le (h a ha)
    · exact Nat.le_add_left_of_le (ih hx c hc)

end Emit

/-! ## Decoders -/

/-- A decoder consumes a prefix of the remaining input; an error discards the
reader. -/
abbrev Decoder (ε α : Type) := StateT Bytes (Except ε) α

/-- Refuse the input. -/
def reject (e : ε) : Decoder ε α := fun _ => .error e

/-- Read exactly `n` bytes. -/
def takeBytes (truncated : ε) (n : Nat) : Decoder ε Bytes := fun input =>
  if n ≤ input.length then .ok (input.take n, input.drop n) else .error truncated

/-- Read a little-endian word of `k` bytes. -/
def leWord (truncated : ε) (k : Nat) : Decoder ε Nat := fun input =>
  if k ≤ input.length then .ok (leValue (input.take k), input.drop k) else .error truncated

/-- Refuse a declared count of elements of at least `size` bytes each that the
remaining input cannot hold. -/
def requireRoom (err : ε) (count size : Nat) : Decoder ε Unit := fun input =>
  if count * size > input.length then .error err else .ok ((), input)

/-- Refuse unless the condition holds. -/
def require (err : ε) (p : Prop) [Decidable p] : Decoder ε Unit := fun input =>
  if p then .ok ((), input) else .error err

/-- Read a value and convert it; refuse what does not convert. -/
def decodeVia (dec : Decoder ε α) (f : α → Option β) (err : ε) : Decoder ε β := do
  let a ← dec
  match f a with
  | some b => pure b
  | none => reject err

/-- Continue with the value of an option; refuse when there is none. -/
def ofOption (o : Option α) (err : ε) : Decoder ε α :=
  match o with
  | some a => pure a
  | none => reject err

/-- Read `n` elements. -/
def decodeMany (dec : Decoder ε α) : Nat → Decoder ε (List α)
  | 0 => pure []
  | n + 1 => do
    let x ← dec
    let xs ← decodeMany dec n
    return x :: xs

/-- Strict trailing-byte rejection. -/
def requireEnd (err : ε) : Decoder ε Unit := fun input =>
  if input = [] then .ok ((), input) else .error err

@[simp] theorem pure_apply (x : α) (input : Bytes) :
    (pure x : Decoder ε α) input = .ok (x, input) := rfl

theorem bind_apply (d : Decoder ε α) (f : α → Decoder ε β) (input : Bytes) :
    (d >>= f) input = match d input with
      | .ok (x, rest) => f x rest
      | .error e => .error e := by
  show (StateT.bind d f) input = _
  unfold StateT.bind
  cases d input <;> rfl

theorem bind_apply_ok {d : Decoder ε α} {f : α → Decoder ε β} {input rest : Bytes} {x : α}
    (h : d input = .ok (x, rest)) : (d >>= f) input = f x rest := by
  rw [bind_apply, h]

/-- A sequence that returns went through an intermediate result. -/
theorem bind_eq_ok {d : Decoder ε α} {f : α → Decoder ε β} {input r : Bytes} {y : β}
    (h : (d >>= f) input = .ok (y, r)) :
    ∃ x rest, d input = .ok (x, rest) ∧ f x rest = .ok (y, r) := by
  rw [bind_apply] at h
  cases hd : d input with
  | error e => rw [hd] at h; cases h
  | ok p => rw [hd] at h; exact ⟨p.1, p.2, rfl, h⟩

/-- A check that lets the input through reads nothing. -/
theorem require_ok {err : ε} {p : Prop} [Decidable p] {input r : Bytes} {u : Unit}
    (h : require err p input = .ok (u, r)) : p ∧ input = r := by
  unfold require at h
  split at h
  · next hp =>
    cases h
    exact ⟨hp, rfl⟩
  · cases h

/-- A value that is converted was read. -/
theorem decodeVia_ok {dec : Decoder ε α} {f : α → Option β} {err : ε} {input r : Bytes} {y : β}
    (h : decodeVia dec f err input = .ok (y, r)) : ∃ x, dec input = .ok (x, r) ∧ f x = some y := by
  obtain ⟨x, rest, hd, h⟩ := bind_eq_ok h
  cases hf : f x with
  | none => rw [hf] at h; cases h
  | some z => rw [hf] at h; cases h; exact ⟨x, hd, hf⟩

theorem requireRoom_ok {err : ε} {count size : Nat} {input r : Bytes} {u : Unit}
    (h : requireRoom err count size input = .ok (u, r)) : input = r := by
  unfold requireRoom at h
  split at h
  · cases h
  · cases h
    rfl

/-- A loop that packs each element packs what the loop returns. -/
theorem decodeMany_map (dec : Decoder ε α) (f : α → β) (n : Nat) :
    decodeMany (dec >>= fun x => pure (f x)) n =
      decodeMany dec n >>= fun xs => pure (xs.map f) := by
  induction n with
  | zero => rfl
  | succ n ih => simp only [decodeMany, ih, bind_assoc, pure_bind, List.map_cons]

/-! ## Decoders as partial inverses of encoders -/

/-- `dec` inverts `enc` at `x`, and accepts it when `wf` holds. -/
structure Decodes (wf : Prop) (dec : Decoder ε α) (enc : Emit ε) (x : α) : Prop where
  only : ∀ {b rest r : Bytes} {y : α}, enc.Yields b → dec (b ++ rest) = .ok (y, r) →
    y = x ∧ r = rest
  accepts : wf → ∀ {b : Bytes} (rest : Bytes), enc.Yields b → dec (b ++ rest) = .ok (x, rest)

namespace Decodes

variable {wf wf' : Prop} {dec : Decoder ε α} {enc enc' : Emit ε} {x : α}

theorem mono (h : Decodes wf dec enc x) (hw : wf' → wf) : Decodes wf' dec enc x :=
  ⟨h.only, fun w => h.accepts (hw w)⟩

/-- A decoder that always accepts the encoding is its inverse. -/
theorem of_accepts (h : ∀ {b : Bytes} (rest : Bytes), enc.Yields b →
    dec (b ++ rest) = .ok (x, rest)) : Decodes wf dec enc x where
  only hb hd := by
    rw [h _ hb] at hd
    cases hd
    exact ⟨rfl, rfl⟩
  accepts _ := h

theorem pure (x : α) : Decodes wf (Pure.pure x : Decoder ε α) (Emit.bytes []) x :=
  of_accepts fun rest hb => by
    rw [← Emit.yields_bytes.mp hb]
    rfl

/-- **Sequencing**: field after field. -/
theorem bind {f : α → Decoder ε β} {y : β} (h₁ : Decodes wf dec enc x)
    (h₂ : Decodes wf' (f x) enc' y) :
    Decodes (wf ∧ wf') (dec >>= f) (enc ++ enc') y where
  only hb hd := by
    obtain ⟨a, c, ha, hc, rfl⟩ := Emit.yields_append.mp hb
    obtain ⟨x', rest', hx, hy⟩ := bind_eq_ok hd
    rw [List.append_assoc] at hx
    obtain ⟨rfl, rfl⟩ := h₁.only ha hx
    exact h₂.only hc hy
  accepts hw b rest hb := by
    obtain ⟨a, c, ha, hc, rfl⟩ := Emit.yields_append.mp hb
    rw [List.append_assoc, bind_apply_ok (h₁.accepts hw.1 (c ++ rest) ha)]
    exact h₂.accepts hw.2 rest hc

/-- The last field: what follows only packs the value. -/
theorem map {f : α → β} (h : Decodes wf dec enc x) :
    Decodes wf (dec >>= fun a => Pure.pure (f a)) enc (f x) where
  only hb hd := by
    obtain ⟨x', rest', hx, hy⟩ := bind_eq_ok hd
    obtain ⟨rfl, rfl⟩ := h.only hb hx
    cases hy
    exact ⟨rfl, rfl⟩
  accepts hw b rest hb := by
    rw [bind_apply_ok (h.accepts hw rest hb)]
    rfl

/-- The end of a record: every field has been read. -/
theorem done {y z : α} (h : z = y) :
    Decodes True (Pure.pure z : Decoder ε α) (Emit.concat []) y :=
  h ▸ pure z

/-- One field of a record. -/
theorem field {f : α → Decoder ε β} {y : β} {encs : List (Emit ε)} (h₁ : Decodes wf dec enc x)
    (h₂ : Decodes wf' (f x) (Emit.concat encs) y) :
    Decodes (wf ∧ wf') (dec >>= f) (Emit.concat (enc :: encs)) y :=
  bind h₁ h₂

/-- A sequence that returns on the bytes of a record read its first field. -/
theorem peel {f : α → Decoder ε β} {encs : List (Emit ε)} {b rest r : Bytes} {y : β}
    (h : Decodes wf dec enc x) (hb : (Emit.concat (enc :: encs)).Yields b)
    (hd : (dec >>= f) (b ++ rest) = .ok (y, r)) :
    ∃ c, (Emit.concat encs).Yields c ∧ f x (c ++ rest) = .ok (y, r) := by
  obtain ⟨a, c, ha, hc, rfl⟩ := Emit.yields_concat_cons.mp hb
  obtain ⟨x', rest', hx, hy⟩ := bind_eq_ok hd
  rw [List.append_assoc] at hx
  obtain ⟨rfl, rfl⟩ := h.only ha hx
  exact ⟨c, hc, hy⟩

/-- A converted value. -/
theorem via {f : α → Option β} {err : ε} {y : β} (h : Decodes wf dec enc x)
    (honly : ∀ z, f x = some z → z = y) (haccepts : wf' → f x = some y) :
    Decodes (wf ∧ wf') (decodeVia dec f err) enc y where
  only hb hd := by
    obtain ⟨x', rest', hx, hy⟩ := bind_eq_ok hd
    obtain ⟨rfl, rfl⟩ := h.only hb hx
    cases hf : f x' with
    | none => rw [hf] at hy; cases hy
    | some z =>
      rw [hf] at hy
      cases hy
      exact ⟨honly _ hf, rfl⟩
  accepts hw b rest hb := by
    rw [decodeVia, bind_apply_ok (h.accepts hw.1 rest hb), haccepts hw.2]
    rfl

/-- Continuing with the value of an option reads nothing. -/
theorem option {o : Option α} {err : ε} {f : α → Decoder ε β} {y : β}
    (h : ∀ z, o = some z → Decodes wf (f z) enc y) (hsome : wf' → o.isSome = true) :
    Decodes (wf' ∧ wf) (ofOption o err >>= f) enc y where
  only hb hd := by
    cases o with
    | none => cases hd
    | some z => exact (h z rfl).only hb hd
  accepts hw b rest hb := by
    cases o with
    | none => cases hsome hw.1
    | some z => exact (h z rfl).accepts hw.2 rest hb

/-- A check between two fields reads nothing. -/
theorem check {err : ε} {p : Prop} [Decidable p] {f : Unit → Decoder ε β} {y : β}
    {enc : Emit ε} (h : Decodes wf (f ()) enc y) :
    Decodes (p ∧ wf) (require err p >>= f) enc y where
  only hb hd := by
    obtain ⟨x', rest', hx, hy⟩ := bind_eq_ok hd
    obtain ⟨-, rfl⟩ := require_ok hx
    exact h.only hb hy
  accepts hw b rest hb := by
    rw [bind_apply]
    simp only [require, if_pos hw.1]
    exact h.accepts hw.2 rest hb

/-- A field of a fixed number of raw bytes. -/
theorem takeBytes (err : ε) (b : Bytes) {n : Nat} (hn : b.length = n) :
    Decodes wf (ByteCodec.takeBytes err n) (Emit.bytes b) b :=
  of_accepts fun rest hb => by
    rw [← Emit.yields_bytes.mp hb, ByteCodec.takeBytes, if_pos (by simp [hn]),
      List.take_left' hn, List.drop_left' hn]

/-- A little-endian field. -/
theorem leWord (err : ε) {k n : Nat} (h : n < 256 ^ k) :
    Decodes wf (ByteCodec.leWord err k) (Emit.bytes (leBytes k n)) n :=
  of_accepts fun rest hb => by
    have hk := length_leBytes k n
    rw [← Emit.yields_bytes.mp hb, ByteCodec.leWord, if_pos (by simp),
      List.take_left' hk, List.drop_left' hk, leValue_leBytes h]

/-- A fixed number of elements. -/
theorem many {ok : α → Prop} {enc : α → Emit ε} {xs : List α}
    (h : ∀ x ∈ xs, Decodes (ok x) dec (enc x) x) :
    Decodes (∀ x ∈ xs, ok x) (decodeMany dec xs.length) (Emit.all enc xs) xs := by
  induction xs with
  | nil => exact pure []
  | cons x xs ih =>
    have hx := h x (List.mem_cons_self ..)
    have hxs := ih fun y hy => h y (List.mem_cons_of_mem _ hy)
    exact (hx.bind (hxs.map (f := (x :: ·)))).mono fun hw =>
      ⟨hw x (List.mem_cons_self ..), fun y hy => hw y (List.mem_cons_of_mem _ hy)⟩

end Decodes

/-! ## Counted lists -/

/-- A counted list: a `u32` count, a ceiling on it, the room guard, the
elements. -/
def decodeList (truncated tooMany noRoom : ε) (ceiling size : Nat) (dec : Decoder ε α) :
    Decoder ε (List α) := do
  let count ← leWord truncated 4
  require tooMany (count ≤ ceiling)
  requireRoom noRoom count size
  decodeMany dec count

/-- The encoding of a counted list. -/
def emitList (enc : α → Emit ε) (xs : List α) : Emit ε :=
  Emit.bytes (leBytes 4 xs.length) ++ Emit.all enc xs

section CountedLists

variable {truncated tooMany noRoom : ε} {ceiling size : Nat} {dec : Decoder ε α}
  {enc : α → Emit ε} {ok : α → Prop} {xs : List α}

theorem decodeList_map (f : α → β) :
    decodeList truncated tooMany noRoom ceiling size (dec >>= fun x => pure (f x)) =
      decodeList truncated tooMany noRoom ceiling size dec >>= fun xs => pure (xs.map f) := by
  simp only [decodeList, decodeMany_map, bind_assoc]

theorem leWord_decodes (err : ε) {k n : Nat} (h : n < 256 ^ k) :
    Decodes True (leWord err k) (Emit.bytes (leBytes k n)) n :=
  Decodes.leWord err h

theorem decodeList_apply {b rest : Bytes} (hlen : xs.length < 256 ^ 4) :
    decodeList truncated tooMany noRoom ceiling size dec (leBytes 4 xs.length ++ b ++ rest) =
      if xs.length ≤ ceiling then
        if xs.length * size > (b ++ rest).length then .error noRoom
        else decodeMany dec xs.length (b ++ rest)
      else .error tooMany := by
  have hword : leWord truncated 4 (leBytes 4 xs.length ++ (b ++ rest)) =
      .ok (xs.length, b ++ rest) :=
    (leWord_decodes truncated hlen).accepts trivial _ rfl
  rw [List.append_assoc, decodeList, bind_apply_ok hword, bind_apply]
  by_cases hc : xs.length ≤ ceiling
  · simp only [require, if_pos hc]
    rw [bind_apply]
    by_cases hr : xs.length * size > (b ++ rest).length
    · simp only [requireRoom, if_pos hr]
    · simp only [requireRoom, if_neg hr]
  · simp only [require, if_neg hc]

/-- **Exactly when a counted list is read back**: the count is within the
ceiling and the remaining input has the room that the guard asks for. -/
theorem decodeList_eq {b rest : Bytes} (hlen : xs.length < 256 ^ 4)
    (h : ∀ x ∈ xs, Decodes (ok x) dec (enc x) x) (hok : ∀ x ∈ xs, ok x)
    (hb : (Emit.all enc xs).Yields b) :
    decodeList truncated tooMany noRoom ceiling size dec (leBytes 4 xs.length ++ b ++ rest) =
      if xs.length ≤ ceiling then
        if xs.length * size > (b ++ rest).length then .error noRoom
        else .ok (xs, rest)
      else .error tooMany := by
  rw [decodeList_apply hlen, (Decodes.many h).accepts hok rest hb]

/-- A counted list whose guard counts no more than the smallest element takes is
read back. -/
theorem Decodes.list (hlen : xs.length < 256 ^ 4)
    (h : ∀ x ∈ xs, Decodes (ok x) dec (enc x) x) (hsize : ∀ x ∈ xs, (enc x).AtLeast size) :
    Decodes (xs.length ≤ ceiling ∧ ∀ x ∈ xs, ok x)
      (decodeList truncated tooMany noRoom ceiling size dec) (emitList enc xs) xs where
  only hb hd := by
    obtain ⟨a, c, ha, hc, rfl⟩ := Emit.yields_append.mp hb
    rw [← Emit.yields_bytes.mp ha, decodeList_apply hlen] at hd
    split at hd
    · split at hd
      · cases hd
      · exact (Decodes.many h).only hc hd
    · cases hd
  accepts hw b rest hb := by
    obtain ⟨a, c, ha, hc, rfl⟩ := Emit.yields_append.mp hb
    have hroom := Emit.AtLeast.all hsize c hc
    rw [← Emit.yields_bytes.mp ha, decodeList_eq hlen h hw.2 hc, if_pos hw.1,
      if_neg (by rw [List.length_append]; omega)]

section LooseGuard

variable {β : Type} {f : List α → Decoder ε β} {y : β} {encs : List (Emit ε)} {wf : Prop}
  {width : α → Nat} {n : Nat}

/-- A counted list whose guard may count more than the elements take is read
back when the fields behind it make up for the difference. -/
theorem Decodes.list_field (hlen : xs.length < 256 ^ 4)
    (h : ∀ x ∈ xs, Decodes (ok x) dec (enc x) x) (hwidth : ∀ x ∈ xs, (enc x).Takes (width x))
    (htail : (Emit.concat encs).Takes n) (h₂ : Decodes wf (f xs) (Emit.concat encs) y) :
    Decodes ((xs.length ≤ ceiling ∧ ∀ x ∈ xs, ok x) ∧
        xs.length * size ≤ (xs.map width).sum + n ∧ wf)
      (decodeList truncated tooMany noRoom ceiling size dec >>= f)
      (Emit.concat (emitList enc xs :: encs)) y where
  only hb hd := by
    obtain ⟨l, t, hl, ht, rfl⟩ := Emit.yields_concat_cons.mp hb
    obtain ⟨a, c, ha, hc, rfl⟩ := Emit.yields_append.mp hl
    obtain ⟨xs', rest', hx, hy⟩ := bind_eq_ok hd
    rw [← Emit.yields_bytes.mp ha, List.append_assoc, decodeList_apply hlen] at hx
    split at hx
    · split at hx
      · cases hx
      · obtain ⟨rfl, rfl⟩ := (Decodes.many h).only hc hx
        exact h₂.only ht hy
    · cases hx
  accepts hw b rest hb := by
    obtain ⟨l, t, hl, ht, rfl⟩ := Emit.yields_concat_cons.mp hb
    obtain ⟨a, c, ha, hc, rfl⟩ := Emit.yields_append.mp hl
    have hcl := Emit.Takes.all hwidth c hc
    have htl := htail t ht
    have hlist : decodeList truncated tooMany noRoom ceiling size dec (a ++ c ++ (t ++ rest)) =
        .ok (xs, t ++ rest) := by
      rw [← Emit.yields_bytes.mp ha, decodeList_eq hlen h hw.1.2 hc, if_pos hw.1.1,
        if_neg (by rw [List.length_append, List.length_append]; omega)]
    rw [List.append_assoc, bind_apply_ok hlist]
    exact h₂.accepts hw.2.2 rest ht

/-- And only then, when nothing follows the record. -/
theorem Decodes.list_room (hlen : xs.length < 256 ^ 4)
    (hwidth : ∀ x ∈ xs, (enc x).Takes (width x)) (htail : (Emit.concat encs).Takes n)
    {b r : Bytes} (hb : (Emit.concat (emitList enc xs :: encs)).Yields b)
    (hd : (decodeList truncated tooMany noRoom ceiling size dec >>= f) b = .ok (y, r)) :
    xs.length * size ≤ (xs.map width).sum + n := by
  obtain ⟨l, t, hl, ht, rfl⟩ := Emit.yields_concat_cons.mp hb
  obtain ⟨a, c, ha, hc, rfl⟩ := Emit.yields_append.mp hl
  obtain ⟨xs', rest', hx, -⟩ := bind_eq_ok hd
  have hcl := Emit.Takes.all hwidth c hc
  have htl := htail t ht
  rw [← Emit.yields_bytes.mp ha, decodeList_apply hlen] at hx
  split at hx
  · split at hx
    · cases hx
    · next hroom =>
      rw [List.length_append] at hroom
      omega
  · cases hx

end LooseGuard

/-- The size of a counted list. -/
theorem Emit.Takes.list {width : α → Nat} (h : ∀ x ∈ xs, (enc x).Takes (width x)) :
    (emitList enc xs).Takes (4 + (xs.map width).sum) :=
  (Emit.takes_bytes (length_leBytes _ _)).append (Emit.Takes.all h)

theorem Emit.Emits.list (h : ∀ x ∈ xs, (enc x).Emits) : (emitList enc xs).Emits :=
  (Emit.emits_bytes _).append (Emit.Emits.all h)

/-- The count of an encoded list is bounded by its size when no element is
empty. -/
theorem Emit.AtLeast.list (h : ∀ x ∈ xs, (enc x).AtLeast size) :
    (emitList enc xs).AtLeast (4 + xs.length * size) :=
  (Emit.takes_bytes (length_leBytes _ _)).atLeast.append (Emit.AtLeast.all h)

theorem Emit.AtLeast.list_of_mem {x : α} {n : Nat} (hx : x ∈ xs) (h : (enc x).AtLeast n) :
    (emitList enc xs).AtLeast n :=
  ((Emit.takes_bytes (length_leBytes _ _)).atLeast.append (Emit.AtLeast.of_mem hx h)).mono
    (Nat.le_add_left n 4)

end CountedLists

/-! ## What a decoder returns -/

/-- Everything the decoder returns has the property, whatever the input is. -/
def Returns (P : α → Prop) (dec : Decoder ε α) : Prop :=
  ∀ (b r : Bytes) (x : α), dec b = .ok (x, r) → P x

namespace Returns

variable {P : α → Prop} {Q : β → Prop} {dec : Decoder ε α} {f : α → Decoder ε β}

theorem pure {x : α} (h : P x) : Returns P (Pure.pure x : Decoder ε α) := by
  intro b r y hd
  cases hd
  exact h

/-- **Sequencing**: the rest may use what the first field has. -/
theorem bind (h : Returns P dec) (hf : ∀ x, P x → Returns Q (f x)) : Returns Q (dec >>= f) := by
  intro b r y hd
  obtain ⟨x, rest, hx, hy⟩ := bind_eq_ok hd
  exact hf x (h _ _ x hx) _ _ y hy

/-- A field of which nothing is asked. -/
theorem skip (hf : ∀ x, Returns Q (f x)) : Returns Q (dec >>= f) :=
  bind (P := fun _ => True) (fun _ _ _ _ => trivial) fun x _ => hf x

/-- What is checked holds of the rest. -/
theorem check {err : ε} {p : Prop} [Decidable p] {f : Unit → Decoder ε β}
    (h : p → Returns Q (f ())) : Returns Q (require err p >>= f) := by
  exact bind (P := fun _ => p) (fun b r x hd => (require_ok hd).1) fun _ hp => h hp

/-- A word of `k` bytes is below `256 ^ k`. -/
theorem leWord (err : ε) (k : Nat) : Returns (fun n => n < 256 ^ k) (ByteCodec.leWord err k) := by
  intro b r n hd
  unfold ByteCodec.leWord at hd
  split at hd
  · next hk =>
    cases hd
    have hlt := leValue_lt (b.take k)
    rwa [List.length_take_of_le hk] at hlt
  · cases hd

theorem via {f : α → Option β} {err : ε} (h : ∀ x y, f x = some y → Q y) :
    Returns Q (decodeVia dec f err) := by
  refine skip fun x => ?_
  cases hx : f x with
  | none =>
    intro b r y hd
    cases hd
  | some y => exact pure (h x y hx)

theorem option {o : Option α} {err : ε} (h : ∀ z, o = some z → Returns Q (f z)) :
    Returns Q (ofOption o err >>= f) := by
  cases o with
  | none =>
    intro b r y hd
    cases hd
  | some z => exact h z rfl

theorem many (h : Returns P dec) (n : Nat) :
    Returns (fun xs => xs.length = n ∧ ∀ x ∈ xs, P x) (decodeMany dec n) := by
  induction n with
  | zero => exact pure ⟨rfl, fun _ hx => (nomatch hx)⟩
  | succ n ih =>
    refine bind h fun x hx => bind ih fun xs hxs => pure ⟨?_, ?_⟩
    · rw [List.length_cons, hxs.1]
    · intro y hy
      rcases List.mem_cons.mp hy with rfl | hy
      · exact hx
      · exact hxs.2 y hy

/-- A counted list is within its ceiling. -/
theorem list {truncated tooMany noRoom : ε} {ceiling size : Nat} (h : Returns P dec) :
    Returns (fun xs => xs.length ≤ ceiling ∧ ∀ x ∈ xs, P x)
      (decodeList truncated tooMany noRoom ceiling size dec) := by
  refine skip fun count => check fun hcount => skip fun _ => ?_
  intro b r xs hd
  obtain ⟨hlen, hall⟩ := many h count b r xs hd
  exact ⟨hlen ▸ hcount, hall⟩

end Returns

/-! ## Decoders that accept one encoding only -/

/-- What the decoder consumed is the encoding of what it returned: there is no
second way to write the value. -/
def Inverts (dec : Decoder ε α) (enc : α → Emit ε) : Prop :=
  ∀ (b r : Bytes) (x : α), dec b = .ok (x, r) → ∃ a, (enc x).Yields a ∧ b = a ++ r

/-- The same of the rest of a record, behind the fields `pre` that were read. -/
def InvertsAfter (pre : List (Emit ε)) (dec : Decoder ε α) (enc : α → Emit ε) : Prop :=
  ∀ (b r : Bytes) (x : α), dec b = .ok (x, r) → ∀ p, (Emit.concat pre).Yields p →
    ∃ a, (enc x).Yields (p ++ a) ∧ b = a ++ r

theorem Emit.Yields.concat_snoc {pre : List (Emit ε)} {x : Emit ε} {p a : Bytes}
    (hpre : (Emit.concat pre).Yields p) (hx : x.Yields a) :
    (Emit.concat (pre ++ [x])).Yields (p ++ a) := by
  rw [Emit.concat_append, Emit.concat_single]
  exact hpre.append hx

namespace InvertsAfter

variable {pre : List (Emit ε)} {dec : Decoder ε α} {enc : α → Emit ε} {enc' : β → Emit ε}
  {f : α → Decoder ε β}

/-- The end of a record: the fields that were read are its encoding. -/
theorem done {x : α} (h : enc x = Emit.concat pre) :
    InvertsAfter pre (Pure.pure x : Decoder ε α) enc := by
  intro b r y hd p hp
  cases hd
  exact ⟨[], by rwa [List.append_nil, h], rfl⟩

/-- One field, of which the rest uses what its decoder returns. -/
theorem field_of {P : α → Prop} (h : Inverts dec enc) (hP : Returns P dec)
    (hf : ∀ x, P x → InvertsAfter (pre ++ [enc x]) (f x) enc') :
    InvertsAfter pre (dec >>= f) enc' := by
  intro b r y hd p hp
  obtain ⟨x, rest, hx, hy⟩ := bind_eq_ok hd
  obtain ⟨a, ha, rfl⟩ := h b rest x hx
  obtain ⟨c, hc, rfl⟩ := hf x (hP _ _ x hx) rest r y hy (p ++ a) (hp.concat_snoc ha)
  exact ⟨a ++ c, by rwa [← List.append_assoc], (List.append_assoc _ _ _).symm⟩

/-- One field of a record. -/
theorem field (h : Inverts dec enc) (hf : ∀ x, InvertsAfter (pre ++ [enc x]) (f x) enc') :
    InvertsAfter pre (dec >>= f) enc' :=
  field_of (P := fun _ => True) h (fun _ _ _ _ => trivial) fun x _ => hf x

/-- A check between two fields consumes nothing. -/
theorem check {err : ε} {p : Prop} [Decidable p] {f : Unit → Decoder ε α}
    (h : p → InvertsAfter pre (f ()) enc) : InvertsAfter pre (require err p >>= f) enc := by
  intro b r y hd
  obtain ⟨u, rest, hu, hy⟩ := bind_eq_ok hd
  obtain ⟨hp, rfl⟩ := require_ok hu
  exact h hp b r y hy

/-- A record is its fields. -/
theorem inverts (h : InvertsAfter [] dec enc) : Inverts dec enc :=
  fun b r x hd => h b r x hd [] rfl

end InvertsAfter

namespace Inverts

variable {dec : Decoder ε α} {enc : α → Emit ε}

theorem takeBytes (err : ε) (n : Nat) : Inverts (ByteCodec.takeBytes err n) Emit.bytes := by
  intro b r x hd
  unfold ByteCodec.takeBytes at hd
  split at hd
  · cases hd
    exact ⟨b.take n, rfl, (List.take_append_drop n b).symm⟩
  · cases hd

theorem leWord (err : ε) (k : Nat) :
    Inverts (ByteCodec.leWord err k) fun n => Emit.bytes (leBytes k n) := by
  intro b r n hd
  unfold ByteCodec.leWord at hd
  split at hd
  · next hk =>
    cases hd
    have hlen : (b.take k).length = k := List.length_take_of_le hk
    refine ⟨b.take k, ?_, (List.take_append_drop k b).symm⟩
    have hword := leBytes_leValue (b.take k)
    rw [hlen] at hword
    exact Emit.yields_bytes.mpr hword
  · cases hd

/-- A converted value is written as what it was converted from. -/
theorem via {f : α → Option β} {err : ε} {enc' : β → Emit ε} (h : Inverts dec enc)
    (hf : ∀ x y, f x = some y → enc' y = enc x) : Inverts (decodeVia dec f err) enc' := by
  intro b r y hd
  obtain ⟨x, rest, hx, hy⟩ := bind_eq_ok hd
  obtain ⟨a, ha, rfl⟩ := h b rest x hx
  cases hfx : f x with
  | none =>
    rw [hfx] at hy
    cases hy
  | some z =>
    rw [hfx] at hy
    cases hy
    exact ⟨a, by rwa [hf x y hfx], rfl⟩

/-- A value that is only packed. -/
theorem map {f : α → β} {enc' : β → Emit ε} (h : Inverts dec enc) (hf : ∀ x, enc' (f x) = enc x) :
    Inverts (dec >>= fun x => Pure.pure (f x)) enc' := by
  intro b r y hd
  obtain ⟨x, rest, hx, hy⟩ := bind_eq_ok hd
  obtain ⟨a, ha, rfl⟩ := h b rest x hx
  cases hy
  exact ⟨a, by rwa [hf], rfl⟩

theorem many (h : Inverts dec enc) (n : Nat) :
    Inverts (decodeMany dec n) fun xs => Emit.all enc xs := by
  induction n with
  | zero =>
    intro b r xs hd
    cases hd
    exact ⟨[], rfl, rfl⟩
  | succ n ih =>
    intro b r xs hd
    obtain ⟨x, rest, hx, hrest⟩ := bind_eq_ok hd
    obtain ⟨ys, rest', hys, hdone⟩ := bind_eq_ok hrest
    cases hdone
    obtain ⟨a, ha, rfl⟩ := h b rest x hx
    obtain ⟨c, hc, rfl⟩ := ih rest r ys hys
    exact ⟨a ++ c, Emit.yields_all_cons.mpr ⟨a, c, ha, hc, rfl⟩, (List.append_assoc _ _ _).symm⟩

/-- A counted list. -/
theorem list {truncated tooMany noRoom : ε} {ceiling size : Nat} (h : Inverts dec enc) :
    Inverts (decodeList truncated tooMany noRoom ceiling size dec) (emitList enc) := by
  intro b r xs hd
  obtain ⟨count, rest, hcount, hguard⟩ := bind_eq_ok hd
  obtain ⟨u, rest', hu, hroom⟩ := bind_eq_ok hguard
  obtain ⟨v, rest'', hv, hmany⟩ := bind_eq_ok hroom
  obtain rfl := (require_ok hu).2
  obtain rfl := requireRoom_ok hv
  have hlen : xs.length = count :=
    (Returns.many (P := fun _ => True) (fun _ _ _ _ => trivial) count rest r xs hmany).1
  obtain ⟨a, ha, rfl⟩ := leWord truncated 4 b rest count hcount
  obtain ⟨c, hc, rfl⟩ := many h count rest r xs hmany
  rw [← hlen] at ha
  exact ⟨a ++ c, ha.append hc, (List.append_assoc _ _ _).symm⟩

end Inverts

/-! ## Round trips -/

/-- There is an encoding, and the value is read back from it, whatever follows. -/
def RoundTrips (dec : Decoder ε α) (enc : Emit ε) (x : α) : Prop :=
  ∃ b, enc.Yields b ∧ ∀ rest, dec (b ++ rest) = .ok (x, rest)

namespace RoundTrips

variable {dec : Decoder ε α} {enc enc' : Emit ε} {x : α} {f : α → Decoder ε β} {y : β}
  {encs : List (Emit ε)}

theorem of_decodes {wf : Prop} (h : Decodes wf dec enc x) (hwf : wf) (he : enc.Emits) :
    RoundTrips dec enc x := by
  obtain ⟨b, hb⟩ := he
  exact ⟨b, hb, fun rest => h.accepts hwf rest hb⟩

theorem done {z : α} (h : z = x) :
    RoundTrips (Pure.pure z : Decoder ε α) (Emit.concat []) x :=
  ⟨[], rfl, fun rest => by rw [h]; rfl⟩

/-- **Sequencing**: field after field. -/
theorem bind (h₁ : RoundTrips dec enc x) (h₂ : RoundTrips (f x) enc' y) :
    RoundTrips (dec >>= f) (enc ++ enc') y := by
  obtain ⟨a, ha, hx⟩ := h₁
  obtain ⟨c, hc, hy⟩ := h₂
  refine ⟨a ++ c, ha.append hc, fun rest => ?_⟩
  rw [List.append_assoc, bind_apply_ok (hx (c ++ rest))]
  exact hy rest

/-- One field of a record. -/
theorem field (h₁ : RoundTrips dec enc x) (h₂ : RoundTrips (f x) (Emit.concat encs) y) :
    RoundTrips (dec >>= f) (Emit.concat (enc :: encs)) y :=
  bind h₁ h₂

/-- One value that is written as two fields. -/
theorem fields (h₁ : RoundTrips dec (enc ++ enc') x) (h₂ : RoundTrips (f x) (Emit.concat encs) y) :
    RoundTrips (dec >>= f) (Emit.concat (enc :: enc' :: encs)) y := by
  have h := bind h₁ h₂
  rwa [Emit.append_assoc] at h

/-- A check between two fields. -/
theorem check {err : ε} {p : Prop} [Decidable p] {f : Unit → Decoder ε β} (hp : p)
    (h : RoundTrips (f ()) enc y) : RoundTrips (require err p >>= f) enc y := by
  obtain ⟨b, hb, hy⟩ := h
  refine ⟨b, hb, fun rest => ?_⟩
  rw [bind_apply]
  simp only [require, if_pos hp]
  exact hy rest

/-- A value that is only packed. -/
theorem map {g : α → β} (h : RoundTrips dec enc x) :
    RoundTrips (dec >>= fun a => Pure.pure (g a)) enc (g x) := by
  obtain ⟨b, hb, hx⟩ := h
  refine ⟨b, hb, fun rest => ?_⟩
  rw [bind_apply_ok (hx rest)]
  rfl

/-- A converted value. -/
theorem via {g : α → Option β} {err : ε} (h : RoundTrips dec enc x) (hg : g x = some y) :
    RoundTrips (decodeVia dec g err) enc y := by
  obtain ⟨b, hb, hx⟩ := h
  refine ⟨b, hb, fun rest => ?_⟩
  rw [decodeVia, bind_apply_ok (hx rest), hg]
  rfl

/-- A fixed number of elements. -/
theorem many {enc : α → Emit ε} {xs : List α} (h : ∀ x ∈ xs, RoundTrips dec (enc x) x) :
    RoundTrips (decodeMany dec xs.length) (Emit.all enc xs) xs := by
  induction xs with
  | nil => exact ⟨[], rfl, fun _ => rfl⟩
  | cons x xs ih =>
    have hx := h x (List.mem_cons_self ..)
    have hxs := ih fun y hy => h y (List.mem_cons_of_mem _ hy)
    exact bind hx (map hxs)

end RoundTrips

end ByteCodec
