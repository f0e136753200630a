import Mathlib.Data.List.Basic

/-!
# Frames on a stream that comes in pieces

A stream hands out its bytes in pieces, and how it cuts them is not up to the
reader. A frame is a header of fixed size, which says how long the payload behind
it is, and the payload.

- `Pieces.recv`, `Pieces.fill`: some bytes, and as many as asked for; `fill_eq`:
  what is handed out does not depend on the cuts;
- `Framing.readAll`: all frames of a stream; `readAllBytes`: the same on the bytes;
- `readAll_eq`: the two agree, however the stream is cut;
- `readAllBytes_closed_iff`: a stream that is read to its end without an error is
  a sequence of whole frames, and these are what is read;
- `readAllBytes_cut`: a stream that breaks off inside a frame gives the frames
  before it, and an error.
-/

universe u v w

/-! ## Pieces -/

namespace Pieces

variable {α : Type u}

/-- The next bytes, at most `limit` of them; none where the stream has ended. -/
def recv (limit : Nat) : List (List α) → Option (List α × List (List α))
  | [] => none
  | [] :: pieces => recv limit pieces
  | (a :: piece) :: pieces =>
    some ((a :: piece).take limit, (a :: piece).drop limit :: pieces)

theorem recv_none {limit : Nat} {pieces : List (List α)} :
    recv limit pieces = none ↔ pieces.flatten = [] := by
  induction pieces with
  | nil => exact ⟨fun _ => rfl, fun _ => rfl⟩
  | cons piece pieces ih =>
    cases piece with
    | nil => exact ih
    | cons a piece => exact ⟨fun h => (by cases h), fun h => (by cases h)⟩

theorem recv_some {limit : Nat} {pieces rest : List (List α)} {got : List α}
    (h : recv limit pieces = some (got, rest)) :
    got.length ≤ limit ∧ (0 < limit → got ≠ []) ∧ pieces.flatten = got ++ rest.flatten := by
  induction pieces with
  | nil => cases h
  | cons piece pieces ih =>
    cases piece with
    | nil => exact ih h
    | cons a piece =>
      cases h
      refine ⟨List.length_take_le _ _, fun hlimit => ?_, ?_⟩
      · cases limit with
        | zero => exact absurd hlimit (Nat.lt_irrefl 0)
        | succ limit => exact List.cons_ne_nil _ _
      · rw [List.flatten_cons, List.flatten_cons, ← List.append_assoc, List.take_append_drop]

/-- Bytes until there are `n` of them or the stream ends, at most `ceiling` at a time. -/
def fill (ceiling : Nat) (n : Nat) (pieces : List (List α)) : List α × List (List α) :=
  if n = 0 ∨ ceiling = 0 then ([], pieces)
  else
    match h : recv (min n ceiling) pieces with
    | none => ([], [])
    | some (got, rest) =>
      let (more, rest) := fill ceiling (n - got.length) rest
      (got ++ more, rest)
termination_by n
decreasing_by
  have hgot := (recv_some h).2.1 (by omega)
  have := List.length_pos_iff.mpr hgot
  omega

/-- **What is handed out** are the next bytes, wherever the stream is cut. -/
theorem fill_eq {ceiling : Nat} (hceiling : 0 < ceiling) (n : Nat) (pieces : List (List α)) :
    (fill ceiling n pieces).1 = pieces.flatten.take n ∧
      (fill ceiling n pieces).2.flatten = pieces.flatten.drop n := by
  induction n using Nat.strongRecOn generalizing pieces with
  | ind n ih =>
    rw [fill]
    by_cases hn : n = 0
    · subst hn
      exact ⟨rfl, rfl⟩
    rw [if_neg (by omega)]
    split
    · next hnone =>
      rw [recv_none.mp hnone]
      exact ⟨List.take_nil.symm, List.drop_nil.symm⟩
    · next got rest hsome =>
      obtain ⟨hlength, hgot, hflatten⟩ := recv_some hsome
      have hpos := List.length_pos_iff.mpr (hgot (by omega))
      obtain ⟨hmore, hrest⟩ := ih (n - got.length) (by omega) rest
      have htaken : got.take n = got := List.take_of_length_le (by omega)
      have hdropped : got.drop n = [] := List.drop_of_length_le (by omega)
      rw [hflatten, List.take_append, List.drop_append, htaken, hdropped]
      exact ⟨congrArg (got ++ ·) hmore, hrest⟩

end Pieces

/-! ## Frames -/

/-- How frames are laid out: the size of the header, the length of the payload
that a header announces, and what header and payload make together. `ceiling` is
how many bytes are asked for at once. -/
structure Framing (α : Type u) (ε : Type v) (φ : Type w) where
  ceiling : Nat
  ceiling_pos : 0 < ceiling
  headerSize : Nat
  headerSize_pos : 0 < headerSize
  payloadLength : List α → Except ε Nat
  decode : List α → List α → Except ε φ

/-- What a reader makes of the end of the stream: nothing or an error between two
frames, an error inside a header, and one inside a payload, of which something has
come or not. -/
structure Framing.Ending (ε : Type v) where
  atFrame : Option ε
  inHeader : ε
  inPayload : Bool → ε

namespace Framing

variable {α : Type u} {ε : Type v} {φ : Type w} (F : Framing α ε φ) (ending : Ending ε)

/-- One frame, or the end of the stream. -/
def read (pieces : List (List α)) : Except ε (Option (φ × List (List α))) :=
  let (header, behind) := Pieces.fill F.ceiling F.headerSize pieces
  if header.length < F.headerSize then
    if header.isEmpty then ending.atFrame.elim (.ok none) .error
    else .error ending.inHeader
  else
    match F.payloadLength header with
    | .error e => .error e
    | .ok n =>
      let (payload, rest) := Pieces.fill F.ceiling n behind
      if payload.length < n then .error (ending.inPayload payload.isEmpty)
      else
        match F.decode header payload with
        | .error e => .error e
        | .ok frame => .ok (some (frame, rest))

/-- The same on the bytes of the stream. -/
def readBytes (bytes : List α) : Except ε (Option (φ × List α)) :=
  if bytes.length < F.headerSize then
    if bytes.isEmpty then ending.atFrame.elim (.ok none) .error
    else .error ending.inHeader
  else
    match F.payloadLength (bytes.take F.headerSize) with
    | .error e => .error e
    | .ok n =>
      if bytes.length < F.headerSize + n then
        .error (ending.inPayload (bytes.drop F.headerSize).isEmpty)
      else
        match F.decode (bytes.take F.headerSize) ((bytes.drop F.headerSize).take n) with
        | .error e => .error e
        | .ok frame => .ok (some (frame, bytes.drop (F.headerSize + n)))

section Read

variable {F ending} {pieces behind rest : List (List α)} {header payload : List α} {n : Nat}
  (hfill : Pieces.fill F.ceiling F.headerSize pieces = (header, behind))

include hfill

theorem read_short (hheader : header.length < F.headerSize) :
    F.read ending pieces =
      if header.isEmpty then ending.atFrame.elim (.ok none) .error else .error ending.inHeader := by
  unfold read
  rw [hfill]
  exact if_pos hheader

theorem read_refused {e : ε} (hheader : ¬ header.length < F.headerSize)
    (hlength : F.payloadLength header = .error e) : F.read ending pieces = .error e := by
  unfold read
  rw [hfill]
  dsimp only
  rw [if_neg hheader, hlength]

theorem read_cut (hheader : ¬ header.length < F.headerSize)
    (hlength : F.payloadLength header = .ok n)
    (hbehind : Pieces.fill F.ceiling n behind = (payload, rest)) (hpayload : payload.length < n) :
    F.read ending pieces = .error (ending.inPayload payload.isEmpty) := by
  unfold read
  rw [hfill]
  dsimp only
  rw [if_neg hheader, hlength]
  dsimp only
  rw [hbehind]
  exact if_pos hpayload

theorem read_whole (hheader : ¬ header.length < F.headerSize)
    (hlength : F.payloadLength header = .ok n)
    (hbehind : Pieces.fill F.ceiling n behind = (payload, rest)) (hpayload : ¬ payload.length < n) :
    F.read ending pieces = (F.decode header payload).map fun frame => some (frame, rest) := by
  unfold read
  rw [hfill]
  dsimp only
  rw [if_neg hheader, hlength]
  dsimp only
  rw [hbehind]
  dsimp only
  rw [if_neg hpayload]
  cases F.decode header payload <;> rfl

end Read

/-- What is left behind a frame is less than there was. -/
theorem readBytes_length {F : Framing α ε φ} {ending : Ending ε} {bytes rest : List α} {frame : φ}
    (h : F.readBytes ending bytes = .ok (some (frame, rest))) : rest.length < bytes.length := by
  unfold readBytes at h
  split at h
  · split at h
    · cases hend : ending.atFrame <;> rw [hend] at h <;> cases h
    · cases h
  · next hheader =>
    split at h
    · cases h
    · split at h
      · cases h
      · split at h
        · cases h
        · cases h
          have := F.headerSize_pos
          rw [List.length_drop]
          omega

/-- All frames, and how it ended: with an error, or not. -/
def readAllBytes (bytes : List α) : List φ × Option ε :=
  match h : F.readBytes ending bytes with
  | .error e => ([], some e)
  | .ok none => ([], none)
  | .ok (some (frame, rest)) =>
    (readAllBytes rest).map (frame :: ·) id
termination_by bytes.length
decreasing_by exact readBytes_length h

variable {F ending}

theorem readAllBytes_error {bytes : List α} {e : ε}
    (h : F.readBytes ending bytes = .error e) : F.readAllBytes ending bytes = ([], some e) := by
  rw [readAllBytes]
  split
  · next h' => rw [h'] at h; cases h; rfl
  · next h' => rw [h'] at h; cases h
  · next h' => rw [h'] at h; cases h

theorem readAllBytes_none {bytes : List α} (h : F.readBytes ending bytes = .ok none) :
    F.readAllBytes ending bytes = ([], none) := by
  rw [readAllBytes]
  split
  · next h' => rw [h'] at h; cases h
  · rfl
  · next h' => rw [h'] at h; cases h

theorem readAllBytes_some {bytes rest : List α} {frame : φ}
    (h : F.readBytes ending bytes = .ok (some (frame, rest))) :
    F.readAllBytes ending bytes = (F.readAllBytes ending rest).map (frame :: ·) id := by
  rw [readAllBytes]
  split
  · next h' => rw [h'] at h; cases h
  · next h' => rw [h'] at h; cases h
  · next h' => rw [h'] at h; cases h; rfl

/-- **One frame is read from the pieces as from the bytes.** -/
theorem read_eq (pieces : List (List α)) :
    (F.read ending pieces).map (Option.map (Prod.map id List.flatten)) =
      F.readBytes ending pieces.flatten := by
  obtain ⟨hheader, hbehind⟩ := Pieces.fill_eq F.ceiling_pos F.headerSize pieces
  unfold read readBytes
  generalize Pieces.fill F.ceiling F.headerSize pieces = filled at hheader hbehind
  obtain ⟨header, behind⟩ := filled
  dsimp only at hheader hbehind ⊢
  subst hheader
  by_cases hshort : pieces.flatten.length < F.headerSize
  · have hwhole : pieces.flatten.take F.headerSize = pieces.flatten :=
      List.take_of_length_le (Nat.le_of_lt hshort)
    rw [hwhole, if_pos hshort, if_pos hshort]
    by_cases hnil : pieces.flatten.isEmpty = true
    · rw [if_pos hnil, if_pos hnil]
      cases ending.atFrame <;> rfl
    · rw [if_neg hnil, if_neg hnil]
      rfl
  · have hlength : ¬ (pieces.flatten.take F.headerSize).length < F.headerSize := by
      rw [List.length_take]
      omega
    rw [if_neg hlength, if_neg hshort]
    cases F.payloadLength (pieces.flatten.take F.headerSize) with
    | error e => rfl
    | ok n =>
      dsimp only
      obtain ⟨hpayload, hrest⟩ := Pieces.fill_eq F.ceiling_pos n behind
      generalize Pieces.fill F.ceiling n behind = filled at hpayload hrest
      obtain ⟨payload, rest⟩ := filled
      dsimp only at hpayload hrest ⊢
      rw [hbehind] at hpayload hrest
      subst hpayload
      by_cases hcut : pieces.flatten.length < F.headerSize + n
      · have hmissing : ((pieces.flatten.drop F.headerSize).take n).length < n := by
          rw [List.length_take, List.length_drop]
          omega
        have hall : (pieces.flatten.drop F.headerSize).take n =
            pieces.flatten.drop F.headerSize :=
          List.take_of_length_le (by rw [List.length_drop]; omega)
        rw [if_pos hmissing, if_pos hcut, hall]
        rfl
      · have hthere : ¬ ((pieces.flatten.drop F.headerSize).take n).length < n := by
          rw [List.length_take, List.length_drop]
          omega
        rw [if_neg hthere, if_neg hcut]
        cases F.decode (pieces.flatten.take F.headerSize)
            ((pieces.flatten.drop F.headerSize).take n) with
        | error e => rfl
        | ok frame =>
          show Except.ok (some (frame, rest.flatten)) = _
          rw [hrest, List.drop_drop]

/-- A frame that is read leaves fewer bytes. -/
theorem read_length {pieces rest : List (List α)} {frame : φ}
    (h : F.read ending pieces = .ok (some (frame, rest))) :
    rest.flatten.length < pieces.flatten.length := by
  have hread : F.readBytes ending pieces.flatten = .ok (some (frame, rest.flatten)) := by
    rw [← read_eq, h]
    rfl
  exact readBytes_length hread

variable (F ending)

/-- All frames of the stream, and how it ended. -/
def readAll (pieces : List (List α)) : List φ × Option ε :=
  match h : F.read ending pieces with
  | .error e => ([], some e)
  | .ok none => ([], none)
  | .ok (some (frame, rest)) =>
    (readAll rest).map (frame :: ·) id
termination_by pieces.flatten.length
decreasing_by exact read_length h

/-- **All frames are read from the pieces as from the bytes.** -/
theorem readAll_eq (pieces : List (List α)) :
    F.readAll ending pieces = F.readAllBytes ending pieces.flatten := by
  generalize hlength : pieces.flatten.length = n
  induction n using Nat.strongRecOn generalizing pieces with
  | ind n ih =>
    have hread : (F.read ending pieces).map _ = _ := read_eq pieces
    rw [readAll]
    split
    · next e he =>
      rw [he] at hread
      exact (readAllBytes_error hread.symm).symm
    · next he =>
      rw [he] at hread
      exact (readAllBytes_none hread.symm).symm
    · next frame rest he =>
      have hless := read_length he
      rw [he] at hread
      rw [ih _ (by omega) rest rfl]
      exact (readAllBytes_some hread.symm).symm

/-! ## Whole frames -/

/-- The bytes are those of the frame. -/
def Encodes (frame : φ) (bytes : List α) : Prop :=
  ∃ header payload, bytes = header ++ payload ∧ header.length = F.headerSize ∧
    F.payloadLength header = .ok payload.length ∧ F.decode header payload = .ok frame

variable {F ending}

/-- **A frame is read** exactly where its bytes come first. -/
theorem readBytes_some_iff {bytes rest : List α} {frame : φ} :
    F.readBytes ending bytes = .ok (some (frame, rest)) ↔
      ∃ bytes', F.Encodes frame bytes' ∧ bytes = bytes' ++ rest := by
  constructor
  · intro h
    unfold readBytes at h
    split at h
    · split at h
      · cases hend : ending.atFrame <;> rw [hend] at h <;> cases h
      · cases h
    · next hheader =>
      split at h
      · cases h
      · next n hn =>
        split at h
        · cases h
        · next hpayload =>
          split at h
          · cases h
          · next frame' hdecode =>
            cases h
            have hlength : ((bytes.drop F.headerSize).take n).length = n := by
              rw [List.length_take, List.length_drop]
              omega
            refine ⟨bytes.take F.headerSize ++ (bytes.drop F.headerSize).take n,
              ⟨_, _, rfl, ?_, ?_, hdecode⟩, ?_⟩
            · rw [List.length_take]
              omega
            · rw [hlength]
              exact hn
            · rw [List.append_assoc, ← List.drop_drop, List.take_append_drop, List.take_append_drop]
  · rintro ⟨_, ⟨header, payload, rfl, hsize, hlength, hdecode⟩, rfl⟩
    have htake : (header ++ payload ++ rest).take F.headerSize = header := by
      rw [List.append_assoc]
      exact List.take_left' hsize
    have hdrop : (header ++ payload ++ rest).drop F.headerSize = payload ++ rest := by
      rw [List.append_assoc]
      exact List.drop_left' hsize
    unfold readBytes
    rw [htake, hdrop, hlength]
    rw [if_neg (by rw [List.length_append, List.length_append]; omega)]
    dsimp only
    rw [if_neg (by rw [List.length_append, List.length_append]; omega), List.take_left' rfl, hdecode]
    dsimp only
    rw [← List.drop_drop, hdrop, List.drop_left' rfl]

/-- Behind whole frames the reader goes on. -/
theorem readAllBytes_append {frames : List φ} {chunks : List (List α)}
    (h : List.Forall₂ F.Encodes frames chunks) (rest : List α) :
    F.readAllBytes ending (chunks.flatten ++ rest) =
      (frames ++ (F.readAllBytes ending rest).1, (F.readAllBytes ending rest).2) := by
  induction h with
  | nil => rfl
  | @cons frame chunk frames chunks hframe _ ih =>
    have hread : F.readBytes ending ((chunk :: chunks).flatten ++ rest) =
        .ok (some (frame, chunks.flatten ++ rest)) := by
      refine readBytes_some_iff.mpr ⟨chunk, hframe, ?_⟩
      rw [List.flatten_cons, List.append_assoc]
    rw [readAllBytes_some hread, ih]
    rfl

/-- **What is read are whole frames**; what is left behind them is not one. -/
theorem readAllBytes_spec (bytes : List α) :
    ∃ chunks rest, List.Forall₂ F.Encodes (F.readAllBytes ending bytes).1 chunks ∧
      bytes = chunks.flatten ++ rest ∧
      (F.readBytes ending rest = .ok none ∧ (F.readAllBytes ending bytes).2 = none ∨
        ∃ e, F.readBytes ending rest = .error e ∧ (F.readAllBytes ending bytes).2 = some e) := by
  generalize hlength : bytes.length = n
  induction n using Nat.strongRecOn generalizing bytes with
  | ind n ih =>
    cases he : F.readBytes ending bytes with
    | error e =>
      rw [readAllBytes_error he]
      exact ⟨[], bytes, .nil, rfl, .inr ⟨e, he, rfl⟩⟩
    | ok one =>
      cases one with
      | none =>
        rw [readAllBytes_none he]
        exact ⟨[], bytes, .nil, rfl, .inl ⟨he, rfl⟩⟩
      | some one =>
        obtain ⟨frame, rest⟩ := one
        obtain ⟨chunks, rest', hframes, hrest, hend⟩ :=
          ih _ (hlength ▸ readBytes_length he) rest rfl
        obtain ⟨chunk, hchunk, rfl⟩ := readBytes_some_iff.mp he
        rw [readAllBytes_some he]
        refine ⟨chunk :: chunks, rest', .cons hchunk hframes, ?_, hend⟩
        rw [List.flatten_cons, List.append_assoc, ← hrest]

theorem readBytes_none_iff {bytes : List α} :
    F.readBytes ending bytes = .ok none ↔ bytes = [] ∧ ending.atFrame = none := by
  constructor
  · intro h
    unfold readBytes at h
    split at h
    · split at h
      · next hnil =>
        refine ⟨List.isEmpty_iff.mp hnil, ?_⟩
        cases hend : ending.atFrame with
        | none => rfl
        | some e => rw [hend] at h; cases h
      · cases h
    · split at h
      · cases h
      · split at h
        · cases h
        · split at h <;> cases h
  · rintro ⟨rfl, hnone⟩
    unfold readBytes
    rw [if_pos (show ([] : List α).length < F.headerSize from F.headerSize_pos), if_pos (by rfl), hnone]
    rfl

/-- **A stream that ends well** is a sequence of whole frames. -/
theorem readAllBytes_closed_iff {bytes : List α} {frames : List φ} :
    F.readAllBytes ending bytes = (frames, none) ↔
      ending.atFrame = none ∧ ∃ chunks, List.Forall₂ F.Encodes frames chunks ∧
        bytes = chunks.flatten := by
  constructor
  · intro h
    obtain ⟨chunks, rest, hframes, hbytes, ⟨hnone, -⟩ | ⟨e, -, hsome⟩⟩ :=
      @readAllBytes_spec _ _ _ F ending bytes
    · obtain ⟨rfl, hclosed⟩ := readBytes_none_iff.mp hnone
      rw [h] at hframes
      rw [List.append_nil] at hbytes
      exact ⟨hclosed, chunks, hframes, hbytes⟩
    · rw [h] at hsome
      cases hsome
  · rintro ⟨hclosed, chunks, hframes, rfl⟩
    have hend : F.readAllBytes ending [] = ([], none) :=
      readAllBytes_none (readBytes_none_iff.mpr ⟨rfl, hclosed⟩)
    have happend : F.readAllBytes ending _ = _ := readAllBytes_append hframes []
    rw [hend, List.append_nil, List.append_nil] at happend
    exact happend

/-- **A stream that breaks off inside a frame** gives the frames in front of it and
an error. -/
theorem readAllBytes_cut {frames : List φ} {chunks : List (List α)} {frame : φ}
    {part missing : List α} (h : List.Forall₂ F.Encodes frames chunks)
    (hframe : F.Encodes frame (part ++ missing)) (hpart : part ≠ []) (hmissing : missing ≠ []) :
    F.readAllBytes ending (chunks.flatten ++ part) =
      (frames, some (if part.length < F.headerSize then ending.inHeader
        else ending.inPayload (part.drop F.headerSize).isEmpty)) := by
  obtain ⟨header, payload, hbytes, hsize, hlength, -⟩ := hframe
  have hshort : part.length < header.length + payload.length := by
    have htotal := congrArg List.length hbytes
    rw [List.length_append, List.length_append] at htotal
    have := List.length_pos_iff.mpr hmissing
    omega
  have hread : F.readBytes ending part = .error (if part.length < F.headerSize then
      ending.inHeader else ending.inPayload (part.drop F.headerSize).isEmpty) := by
    unfold readBytes
    by_cases hheader : part.length < F.headerSize
    · rw [if_pos hheader, if_pos hheader, if_neg (by simpa using hpart)]
    · have htake : part.take F.headerSize = header := by
        have hprefix := congrArg (List.take F.headerSize) hbytes
        rw [List.take_left' hsize, List.take_append_of_le_length (by omega)] at hprefix
        exact hprefix
      rw [if_neg hheader, if_neg hheader, htake, hlength]
      dsimp only
      rw [if_pos (by omega)]
  rw [readAllBytes_append h, readAllBytes_error hread, List.append_nil]

end Framing
