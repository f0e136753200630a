import Mathlib.Data.List.Basic

/-!
# Files that are replaced by renaming

A directory maps names to contents. Renaming is atomic, and a file is replaced
by writing a temporary file and renaming it; a crash cuts the commands short
after any one of them.

- `Directory.performAll`: a list of commands; its prefixes are what a crash can
  leave behind;
- `replaceBy`: the commands that replace one file;
- `performAll_replaceBy`, `performAll_take_replaceBy`: the whole replacement,
  and a replacement that was cut short.
-/

universe u v

/-- The contents of the files of a directory, by name. -/
def Directory (ν : Type u) (β : Type v) := ν → Option (List β)

namespace Directory

variable {ν : Type u} {β : Type v}

/-- One operation on the files. Appending goes on where the file ends. -/
inductive Command (ν : Type u) (β : Type v) where
  | create (name : ν)
  | append (name : ν) (contents : List β)
  | rename (source target : ν)

/-- The names a command touches. -/
def Command.names : Command ν β → List ν
  | .create name => [name]
  | .append name _ => [name]
  | .rename source target => [source, target]

section Perform

variable [DecidableEq ν]

/-- The directory with this file in place of what the name stood for. -/
def set (dir : Directory ν β) (name : ν) (file : Option (List β)) : Directory ν β :=
  fun n => if n = name then file else dir n

@[simp] theorem set_self (dir : Directory ν β) (name : ν) (file : Option (List β)) :
    dir.set name file name = file := if_pos rfl

theorem set_other {dir : Directory ν β} {n name : ν} {file : Option (List β)} (h : n ≠ name) :
    dir.set name file n = dir n := if_neg h

/-- A rename of a file that is missing fails and changes nothing. -/
def perform (dir : Directory ν β) : Command ν β → Directory ν β
  | .create name => dir.set name (some [])
  | .append name contents => dir.set name ((dir name).map (· ++ contents))
  | .rename source target =>
    match dir source with
    | some file => (dir.set source none).set target (some file)
    | none => dir

def performAll (dir : Directory ν β) (commands : List (Command ν β)) : Directory ν β :=
  commands.foldl perform dir

@[simp] theorem performAll_nil (dir : Directory ν β) : dir.performAll [] = dir := rfl

@[simp] theorem performAll_cons (dir : Directory ν β) (c : Command ν β) (cs : List (Command ν β)) :
    dir.performAll (c :: cs) = (dir.perform c).performAll cs := rfl

theorem performAll_append (dir : Directory ν β) (cs ds : List (Command ν β)) :
    dir.performAll (cs ++ ds) = (dir.performAll cs).performAll ds := List.foldl_append

/-! ## What is left alone -/

theorem perform_other {dir : Directory ν β} {c : Command ν β} {n : ν} (h : n ∉ c.names) :
    dir.perform c n = dir n := by
  cases c with
  | create name => exact set_other fun hn => h (List.mem_singleton.mpr hn)
  | append name contents => exact set_other fun hn => h (List.mem_singleton.mpr hn)
  | rename source target =>
    have hsource : n ≠ source := by
      rintro rfl
      exact h (List.mem_cons_self ..)
    have htarget : n ≠ target := by
      rintro rfl
      exact h (List.mem_cons_of_mem _ (List.mem_singleton_self _))
    show (match dir source with
      | some file => (dir.set source none).set target (some file)
      | none => dir) n = dir n
    cases dir source with
    | some file => exact (set_other htarget).trans (set_other hsource)
    | none => rfl

/-- A file that no command names is what it was. -/
theorem performAll_other {dir : Directory ν β} {cs : List (Command ν β)} {n : ν}
    (h : ∀ c ∈ cs, n ∉ c.names) : dir.performAll cs n = dir n := by
  induction cs generalizing dir with
  | nil => rfl
  | cons c cs ih =>
    rw [performAll_cons, ih fun c hc => h c (List.mem_cons_of_mem _ hc)]
    exact perform_other (h c (List.mem_cons_self ..))

/-! ## Writing a file -/

/-- Chunks that are appended one after the other. -/
theorem performAll_appends {dir : Directory ν β} {name : ν} {contents : List β}
    (h : dir name = some contents) (chunks : List (List β)) :
    dir.performAll (chunks.map (.append name)) = dir.set name (some (contents ++ chunks.flatten)) := by
  induction chunks generalizing dir contents with
  | nil =>
    funext n
    by_cases hn : n = name
    · subst hn
      rw [List.flatten_nil, List.append_nil, set_self]
      exact h
    · exact (set_other hn).symm
  | cons chunk chunks ih =>
    have hstep : dir.perform (.append name chunk) = dir.set name (some (contents ++ chunk)) := by
      show dir.set name ((dir name).map (· ++ chunk)) = _
      rw [h]
      rfl
    rw [List.map_cons, performAll_cons, hstep, ih (set_self _ _ _), List.flatten_cons,
      List.append_assoc]
    funext n
    by_cases hn : n = name
    · subst hn
      rw [set_self, set_self]
    · rw [set_other hn, set_other hn, set_other hn]

/-- The commands that write a temporary file, chunk by chunk. -/
def writeAll (temporary : ν) (chunks : List (List β)) : List (Command ν β) :=
  .create temporary :: chunks.map (.append temporary)

/-- The commands that replace a file: write the temporary, rename it. -/
def replaceBy (temporary target : ν) (chunks : List (List β)) : List (Command ν β) :=
  writeAll temporary chunks ++ [.rename temporary target]

theorem performAll_writeAll (dir : Directory ν β) (temporary : ν) (chunks : List (List β)) :
    dir.performAll (writeAll temporary chunks) = dir.set temporary (some chunks.flatten) := by
  have hcreate : dir.perform (.create temporary) temporary = some [] := set_self _ _ _
  rw [writeAll, performAll_cons, performAll_appends hcreate]
  funext n
  by_cases hn : n = temporary
  · subst hn
    rw [set_self, set_self, List.nil_append]
  · rw [set_other hn, set_other hn]
    exact set_other hn

theorem perform_rename {dir : Directory ν β} {source target : ν} {file : List β}
    (h : dir source = some file) :
    dir.perform (.rename source target) = (dir.set source none).set target (some file) := by
  simp only [perform, h]

/-- **A replacement that is performed** puts the contents under the target and
touches nothing else but the temporary. -/
theorem performAll_replaceBy (dir : Directory ν β) (temporary target : ν)
    (chunks : List (List β)) :
    dir.performAll (replaceBy temporary target chunks) =
      (dir.set temporary none).set target (some chunks.flatten) := by
  have hwritten : dir.set temporary (some chunks.flatten) temporary = some chunks.flatten :=
    set_self _ _ _
  rw [replaceBy, performAll_append, performAll_writeAll, performAll_cons, performAll_nil,
    perform_rename hwritten]
  funext n
  by_cases hn : n = target
  · subst hn
    rw [set_self, set_self]
  · rw [set_other hn, set_other hn]
    by_cases hn' : n = temporary
    · subst hn'
      rw [set_self, set_self]
    · rw [set_other hn', set_other hn', set_other hn']

/-- **A replacement that was cut short** has touched nothing but the temporary. -/
theorem performAll_take_replaceBy {dir : Directory ν β} {temporary target n : ν}
    {chunks : List (List β)} {k : Nat} (hk : k < (replaceBy temporary target chunks).length)
    (hn : n ≠ temporary) :
    dir.performAll ((replaceBy temporary target chunks).take k) n = dir n := by
  have hlen : (replaceBy temporary target chunks).length = (writeAll temporary chunks).length + 1 := by
    rw [replaceBy, List.length_append, List.length_singleton]
  refine performAll_other fun c hc => ?_
  -- the rename is the last command, so it is not among the first k
  rw [replaceBy, List.take_append_of_le_length (by omega)] at hc
  rcases List.mem_cons.mp (List.mem_of_mem_take hc) with rfl | hmem
  · exact fun h => hn (List.mem_singleton.mp h)
  · obtain ⟨chunk, -, rfl⟩ := List.mem_map.mp hmem
    exact fun h => hn (List.mem_singleton.mp h)

end Perform

end Directory
