/-! # Register file: words by offset

A sparse map from register offsets to 32-bit words, kept in the order of the offsets. A register
that was never set holds zero. What a file is known by is `RegisterFile.get`; `get_set` says what a
write does to it. -/

namespace SocBringup

/-- A sparse register file: the cells that were set, by offset. -/
structure RegisterFile where
  cells : List (Nat × UInt32) := []

namespace RegisterFile

/-- The word of a register; zero if it was never set. -/
def get (file : RegisterFile) (offset : Nat) : UInt32 := (file.cells.lookup offset).getD 0

/-- The cells with one of them set. -/
def setCell (offset : Nat) (word : UInt32) : List (Nat × UInt32) → List (Nat × UInt32)
  | [] => [(offset, word)]
  | (o, w) :: rest =>
    if offset < o then (offset, word) :: (o, w) :: rest
    else if offset = o then (offset, word) :: rest
    else (o, w) :: setCell offset word rest

/-- The file with one register set. -/
def set (file : RegisterFile) (offset : Nat) (word : UInt32) : RegisterFile :=
  ⟨setCell offset word file.cells⟩

/-- The file in which the given registers are set in turn. -/
def ofList (cells : List (Nat × UInt32)) : RegisterFile :=
  cells.foldl (fun file cell => file.set cell.1 cell.2) {}

/-- The registers that hold something other than zero, by offset. -/
def nonzero (file : RegisterFile) : List (Nat × UInt32) := file.cells.filter (·.2 ≠ 0)

theorem lookup_cell (key offset : Nat) (word : UInt32) (rest : List (Nat × UInt32)) :
    ((offset, word) :: rest).lookup key = if key = offset then some word else rest.lookup key := by
  by_cases h : key = offset
  · simp [h]
  · have hb : (key == offset) = false := by simpa using h
    simp [List.lookup_cons, hb, h]

theorem lookup_setCell (offset other : Nat) (word : UInt32) (cells : List (Nat × UInt32)) :
    (setCell offset word cells).lookup other =
      if other = offset then some word else cells.lookup other := by
  induction cells with
  | nil => simp [setCell, lookup_cell]
  | cons cell rest ih =>
    obtain ⟨o, w⟩ := cell
    by_cases hlt : offset < o
    · simp [setCell, hlt, lookup_cell]
    · by_cases heq : offset = o
      · subst heq
        by_cases h : other = offset <;> simp [setCell, lookup_cell, h]
      · by_cases h : other = o
        · simp [setCell, hlt, heq, h, Ne.symm heq]
        · simp [setCell, hlt, heq, lookup_cell, h, ih]

/-- **A write is read back where it was made and changes no other register.** -/
@[simp, grind =] theorem get_set (file : RegisterFile) (offset other : Nat) (word : UInt32) :
    (file.set offset word).get other = if other = offset then word else file.get other := by
  unfold get set
  rw [lookup_setCell]
  split <;> rfl

@[simp, grind =] theorem get_empty (offset : Nat) : ({} : RegisterFile).get offset = 0 := rfl

end RegisterFile

end SocBringup
