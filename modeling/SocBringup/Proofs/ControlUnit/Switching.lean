import SocBringup.Chip.Description
import SocBringup.Proofs.Program.Latest
import SocBringup.Proofs.Register.Bit
import SocBringup.Proofs.Register.Trace

/-! # Lines that are switched in turn

Tables of lines may be of any size and in any disorder: masks of several bits, lines that overlap,
registers that come up again, holes. Still each bit of each register is as the last step left it
whose line has that bit.

* `Table.wired?`: which numbers of a table have a line, shape by shape; `line?_bank` says that the
  bank of the table agrees.
* `Toggle`: a step, which switches the line of a number as a gate or as a reset line.
* `accesses_program`: a step reads and writes the register of its line once, or nothing at all.
* `bit_after`: what a run of steps leaves in a bit.
* `LastDecides`, `lastDecides`: the same with what follows from it. -/

namespace SocBringup

/-! ### Tables -/

/-- A table of lines: the clocks or the reset lines of a flat description, or the gates or the reset
lines of a typed one. -/
inductive Table where
  | clocks (entries : List ClockEntry)
  | resets (lines : List Line)
  | typed (bank : Bank)

namespace Table

/-- The lines of a table by number, as its description has them. -/
def bank : Table → Bank
  | clocks entries => (Description.flat entries []).gates
  | resets lines => (Description.flat [] lines).resets
  | typed bank => bank

/-- The line of a number. Past the end of the table there is none; in a flat table an empty mask is
none, in a typed one a hole. -/
def wired? : Table → Nat → Option Line
  | clocks entries, number => (entries[number]?.map (·.gate)).filter (·.mask ≠ 0)
  | resets lines, number => lines[number]?.filter (·.mask ≠ 0)
  | typed bank, number => bank[number]?.join

theorem join_wired? (l? : Option Line) : (l?.map Line.wired?).join = l?.filter (·.mask ≠ 0) := by
  cases l? with
  | none => rfl
  | some l =>
    show l.wired? = _
    by_cases h : l.mask = 0 <;> simp [Line.wired?, Option.filter, h]

theorem line?_bank (table : Table) (number : Nat) :
    table.bank.line? number = table.wired? number := by
  unfold Bank.line?
  cases table with
  | clocks entries =>
    have hget : (Table.clocks entries).bank[number]? =
        (entries[number]?.map (·.gate)).map Line.wired? := by
      rw [Option.map_map]
      exact List.getElem?_map
    rw [hget, join_wired?]
    rfl
  | resets lines =>
    have hget : (Table.resets lines).bank[number]? = lines[number]?.map Line.wired? :=
      List.getElem?_map
    rw [hget, join_wired?]
    rfl
  | typed bank => rfl

end Table

/-! ### Steps -/

/-- What a line is switched as. -/
inductive Role where
  | gate
  | reset

/-- A step: the line of a number is switched on or off. Every step may be on a table of its own. -/
structure Toggle where
  table : Table
  role : Role
  number : Nat
  on : Bool

namespace Toggle

/-- The program of a step. -/
def program (t : Toggle) : Program Registers Unit :=
  match t.role with
  | .gate => t.table.bank.switchGate t.number t.on
  | .reset => t.table.bank.switchReset t.number t.on

/-- One step after the other. -/
def inTurn : List Toggle → Program Registers Unit
  | [] => return ()
  | t :: rest => do
    t.program
    inTurn rest

/-- The register file after some steps. -/
def after (steps : List Toggle) (file : RegisterFile) : RegisterFile :=
  ((inTurn steps).run RegisterFile.serve file).state

/-- The line that a step switches. -/
def line? (t : Toggle) : Option Line := t.table.wired? t.number

/-- A bit of a register belongs to the line of a step. -/
def Covers (t : Toggle) (offset i : Nat) : Prop := ∃ l ∈ t.line?, l.Covers offset i

instance (t : Toggle) (offset i : Nat) : Decidable (t.Covers offset i) := by
  unfold Covers
  infer_instance

/-- What a step makes of a bit, if it covers it. -/
def sets? (offset i : Nat) (t : Toggle) : Option Bool :=
  if t.Covers offset i then some t.on else none

/-- **What a step says to the registers**: it reads the register of its line and writes it with the
bits of the mask set or cleared. -/
def conversation (t : Toggle) (file : RegisterFile) : List (Exchange Registers) :=
  match t.line? with
  | none => []
  | some l =>
    let word := file.get l.offset
    [⟨.read l.offset, word⟩,
      ⟨.write l.offset (if t.on then word ||| l.mask else word &&& ~~~l.mask), ()⟩]

theorem covers_bank (t : Toggle) (offset i : Nat) :
    t.table.bank.Covers t.number offset i ↔ t.Covers offset i := by
  unfold Bank.Covers Covers line?
  rw [Table.line?_bank]

/-- **A step sets the bits it covers and leaves the others.** -/
theorem bit_program (t : Toggle) (file : RegisterFile) (offset i : Nat) :
    (t.program.run RegisterFile.serve file).state.bit offset i =
      (sets? offset i t).getD (file.bit offset i) := by
  have hswitched : (t.program.run RegisterFile.serve file).state.bit offset i =
      if t.table.bank.Covers t.number offset i then t.on else file.bit offset i := by
    unfold program
    cases t.role with
    | gate => exact Bank.bit_switchGate _ _ _ _ _ _
    | reset => exact Bank.bit_switchReset _ _ _ _ _ _
  rw [hswitched, sets?]
  by_cases h : t.Covers offset i
  · rw [if_pos ((t.covers_bank offset i).mpr h), if_pos h, Option.getD_some]
  · rw [if_neg fun hbank => h ((t.covers_bank offset i).mp hbank), if_neg h, Option.getD_none]

theorem accesses_switch (l : Line) (on : Bool) (file : RegisterFile) :
    Registers.accesses ((l.switch on).run RegisterFile.serve file).trace =
      [⟨.read l.offset, file.get l.offset⟩,
        ⟨.write l.offset
          (if on then file.get l.offset ||| l.mask else file.get l.offset &&& ~~~l.mask), ()⟩] := by
  cases on <;> rfl

/-- **A step accesses the register of its line, once to read and once to write**, and a step without
a line accesses nothing. -/
theorem accesses_program (t : Toggle) (file : RegisterFile) :
    Registers.accesses (t.program.run RegisterFile.serve file).trace = t.conversation file := by
  have hline := t.table.line?_bank t.number
  unfold program conversation line? Bank.switchGate Bank.switchReset
  rw [hline]
  cases t.table.wired? t.number with
  | none => cases t.role <;> rfl
  | some l =>
    -- the report that comes first is no access
    have hswitch := accesses_switch l t.on file
    cases t.role <;> exact hswitch

/-! ### Runs -/

theorem after_cons (t : Toggle) (rest : List Toggle) (file : RegisterFile) :
    after (t :: rest) file = after rest (t.program.run RegisterFile.serve file).state := by
  show ((t.program >>= fun _ => inTurn rest).run RegisterFile.serve file).state = _
  rw [Program.run_bind]
  rfl

/-- **A bit is as the last step left it that covers it**, and as before if none does. -/
theorem bit_after (steps : List Toggle) (file : RegisterFile) (offset i : Nat) :
    (after steps file).bit offset i =
      (latest? (sets? offset i) steps).getD (file.bit offset i) := by
  induction steps generalizing file with
  | nil => rfl
  | cons t rest ih => rw [after_cons, ih, bit_program, latest?, Option.getD_or]

/-- Runs that leave the same decisions leave the same registers. -/
theorem get_after_congr {steps steps' : List Toggle} {offset : Nat}
    (h : ∀ i, latest? (sets? offset i) steps = latest? (sets? offset i) steps')
    (file : RegisterFile) : (after steps file).get offset = (after steps' file).get offset := by
  refine RegisterFile.get_eq_of_bit fun i => ?_
  rw [bit_after, bit_after, h]

/-- **In a run of steps, the last one decides.** -/
structure LastDecides (steps : List Toggle) (file : RegisterFile) : Prop where
  bits : ∀ offset i, (after steps file).bit offset i =
    (latest? (sets? offset i) steps).getD (file.bit offset i)
  /-- The next step, whichever it is, accesses the register of its line only. -/
  next : ∀ t : Toggle, Registers.accesses
    (t.program.run RegisterFile.serve (after steps file)).trace = t.conversation (after steps file)
  /-- Taking a step again changes no register. -/
  again : ∀ t offset,
    (after (steps ++ [t, t]) file).get offset = (after (steps ++ [t]) file).get offset
  /-- Steps without a common bit may be taken in either order. -/
  swap : ∀ t u : Toggle, (∀ offset i, t.Covers offset i → ¬ u.Covers offset i) → ∀ offset,
    (after (steps ++ [t, u]) file).get offset = (after (steps ++ [u, t]) file).get offset
  /-- On and then off again, a line leaves every other bit as it was. -/
  back : ∀ (t : Toggle) (offset i : Nat), ¬ t.Covers offset i →
    (after (steps ++ [{ t with on := true }, { t with on := false }]) file).bit offset i =
      (after steps file).bit offset i

/-- **The last step decides**, whatever the tables and whatever the registers hold. -/
theorem lastDecides (steps : List Toggle) (file : RegisterFile) : LastDecides steps file where
  bits := bit_after steps file
  next t := t.accesses_program (after steps file)
  again t offset := by
    refine get_after_congr (fun i => ?_) file
    have htwice : latest? (sets? offset i) [t, t] = latest? (sets? offset i) [t] := by
      simp only [latest?, Option.none_or, Option.or_self]
    rw [latest?_append, latest?_append, htwice]
  swap t u h offset := by
    refine get_after_congr (fun i => ?_) file
    have hnone : sets? offset i t = none ∨ sets? offset i u = none := by
      by_cases ht : t.Covers offset i
      · exact .inr (if_neg (h offset i ht))
      · exact .inl (if_neg ht)
    have hpair : latest? (sets? offset i) [t, u] = latest? (sets? offset i) [u, t] := by
      simp only [latest?, Option.none_or]
      rcases hnone with hnone | hnone <;> simp only [hnone, Option.or_none, Option.none_or]
    rw [latest?_append, latest?_append, hpair]
  back t offset i h := by
    have hnone : ∀ on, sets? offset i { t with on } = none := fun on => if_neg h
    have hpair :
        latest? (sets? offset i) [{ t with on := true }, { t with on := false }] = none := by
      simp only [latest?, hnone, Option.or_none]
    rw [bit_after, bit_after, latest?_append, hpair, Option.none_or]

/-- Two lines overlap, a third lies apart from the first in the same register, the last number is a
hole. -/
def crowded : Table := .resets [⟨0x10, 0x0f⟩, ⟨0x10, 0x3c⟩, ⟨0x10, 0xc0⟩, ⟨0x10, 0⟩]

/-- Where two lines overlap, the one that was switched last is seen; the hole accesses nothing, and
lines that lie apart may be switched in either order. -/
theorem lastDecides_crowded :
    let steps : List Toggle := [⟨crowded, .reset, 0, true⟩, ⟨crowded, .gate, 1, false⟩]
    let file := RegisterFile.ofList [(0x10, 0x80)]
    let first : Toggle := ⟨crowded, .reset, 0, false⟩
    let third : Toggle := ⟨crowded, .reset, 2, true⟩
    ((after steps file).bit 0x10 1 = true ∧ (after steps file).bit 0x10 2 = false) ∧
      Registers.accesses ((Toggle.program ⟨crowded, .reset, 3, true⟩).run RegisterFile.serve
        (after steps file)).trace = [] ∧
      (∀ offset i, first.Covers offset i → ¬ third.Covers offset i) ∧
      (after (steps ++ [first, third]) file).get 0x10 =
        (after (steps ++ [third, first]) file).get 0x10 := by
  intro steps file first third
  have h := lastDecides steps file
  have hapart : ∀ offset i, first.Covers offset i → ¬ third.Covers offset i := by
    have hlines : Line.Apart ⟨0x10, 0x0f⟩ ⟨0x10, 0xc0⟩ := by decide
    rintro offset i ⟨l, hl, hcovers⟩ ⟨m, hm, hmcovers⟩
    cases hl
    cases hm
    exact hlines.not_covers hcovers hmcovers
  exact ⟨⟨(h.bits 0x10 1).trans (by decide), (h.bits 0x10 2).trans (by decide)⟩,
    h.next ⟨crowded, .reset, 3, true⟩, hapart, h.swap first third hapart 0x10⟩

end Toggle

end SocBringup
