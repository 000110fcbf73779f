import SocBringup.Line
import SocBringup.Proofs.Register.Apart

/-! # The bits of a register file, and the lines that cover them

* `RegisterFile.bit`: a bit of a register; `get_eq_of_bit` says that a register is known by its bits.
* `Line.Covers`: the bits of a line.
* `Line.bit_switch`: switching a line sets its bits and leaves every other bit of every register.
* `Bank.bit_switchGate`, `Bank.bit_switchReset`: the same by number, where a number without a line
  covers nothing. -/

namespace SocBringup

namespace RegisterFile

/-- A bit of a register. -/
def bit (file : RegisterFile) (offset i : Nat) : Bool := (file.get offset).toNat.testBit i

theorem bit_set (file : RegisterFile) (offset other : Nat) (word : UInt32) (i : Nat) :
    (file.set offset word).bit other i =
      if other = offset then word.toNat.testBit i else file.bit other i := by
  unfold bit
  rw [get_set]
  split_ifs <;> rfl

/-- A register is known by its bits. -/
theorem get_eq_of_bit {f g : RegisterFile} {offset : Nat}
    (h : ∀ i, f.bit offset i = g.bit offset i) : f.get offset = g.get offset :=
  UInt32.toNat_inj.mp (Nat.eq_of_testBit_eq h)

end RegisterFile

namespace Line

/-- A bit of a register belongs to the line. -/
def Covers (l : Line) (offset i : Nat) : Prop := l.offset = offset ∧ l.mask.toNat.testBit i = true

instance (l : Line) (offset i : Nat) : Decidable (l.Covers offset i) := by
  unfold Covers
  infer_instance

/-- Two lines without a common bit. -/
def Apart (l m : Line) : Prop := l.offset = m.offset → l.mask &&& m.mask = 0

instance (l m : Line) : Decidable (l.Apart m) := by unfold Apart; infer_instance

theorem Apart.symm {l m : Line} (h : l.Apart m) : m.Apart l := by
  intro ho
  rw [UInt32.and_comm]
  exact h ho.symm

theorem Apart.not_covers {l m : Line} (h : l.Apart m) {offset i : Nat} (hl : l.Covers offset i) :
    ¬ m.Covers offset i := by
  rintro ⟨hm, hmi⟩
  have hclear := Field.and_eq_zero_iff.mp (h (hl.1.trans hm.symm)) i hl.2
  exact Bool.false_ne_true (hclear.symm.trans hmi)

/-- The line of a single bit has that bit. -/
theorem covers_bit {offset position i : Nat} (hp : position < 32) :
    (bit offset position).Covers offset i ↔ i = position := by
  have hlt : 2 ^ position < 2 ^ 32 := Nat.pow_lt_pow_right (by decide) hp
  unfold Covers bit
  rw [Nat.one_shiftLeft, UInt32.toNat_ofNat', Nat.mod_eq_of_lt hlt, Nat.testBit_two_pow]
  simp only [true_and, decide_eq_true_eq]
  exact eq_comm

/-- Writing a word that has `on` under the mask of a line, and is as before elsewhere. -/
theorem bit_set_of_mask {l : Line} {on : Bool} {file : RegisterFile} {word : UInt32}
    (h : ∀ i, word.toNat.testBit i =
      if l.mask.toNat.testBit i then on else (file.get l.offset).toNat.testBit i)
    (offset i : Nat) :
    (file.set l.offset word).bit offset i =
      if l.Covers offset i then on else file.bit offset i := by
  rw [RegisterFile.bit_set]
  by_cases ho : offset = l.offset
  · subst ho
    rw [if_pos rfl, h]
    simp only [Covers, true_and]
    rfl
  · rw [if_neg ho, if_neg fun hcovers => ho hcovers.1.symm]

/-- **Switching a line sets its bits and leaves every other bit of every register.** -/
theorem bit_switch (l : Line) (on : Bool) (file : RegisterFile) (offset i : Nat) :
    ((l.switch on).run RegisterFile.serve file).state.bit offset i =
      if l.Covers offset i then on else file.bit offset i := by
  cases on with
  | true =>
    rw [switch, if_pos rfl, RegisterFile.run_setBits]
    refine bit_set_of_mask (fun j => ?_) offset i
    rw [UInt32.toNat_or, Nat.testBit_or]
    cases l.mask.toNat.testBit j <;> simp
  | false =>
    rw [switch, if_neg (by decide), RegisterFile.run_clearBits]
    refine bit_set_of_mask (fun j => ?_) offset i
    rw [Field.testBit_cleared]
    cases l.mask.toNat.testBit j <;> simp

end Line

namespace Bank

/-- A bit of a register belongs to the line of a number. -/
def Covers (bank : Bank) (number offset i : Nat) : Prop :=
  ∃ l ∈ bank.line? number, l.Covers offset i

instance (bank : Bank) (number offset i : Nat) : Decidable (bank.Covers number offset i) := by
  unfold Covers
  infer_instance

theorem covers_iff {bank : Bank} {number : Nat} {l : Line} (h : bank.line? number = some l)
    {offset i : Nat} : bank.Covers number offset i ↔ l.Covers offset i := by
  simp [Covers, h]

theorem not_covers {bank : Bank} {number : Nat} (h : bank.line? number = none) {offset i : Nat} :
    ¬ bank.Covers number offset i := by
  simp [Covers, h]

variable (bank : Bank) (number : Nat) (on : Bool) (file : RegisterFile) (offset i : Nat)

/-- A line is looked up by its number, reported and switched, or reported to be missing. -/
theorem bit_switched (missing : Diagnostic) (switched : Line → Diagnostic) :
    (Program.run RegisterFile.serve
      (match bank.line? number with
      | none => Registers.note missing
      | some l => do
        Registers.note (switched l)
        l.switch on) file).state.bit offset i =
      if bank.Covers number offset i then on else file.bit offset i := by
  cases h : bank.line? number with
  | none =>
    rw [if_neg (not_covers h)]
    rfl
  | some l =>
    rw [Program.run_bind]
    show ((l.switch on).run RegisterFile.serve file).state.bit offset i = _
    simp only [l.bit_switch, covers_iff h]

/-- **Switching a gate sets the bits of its line and leaves every other bit.** -/
theorem bit_switchGate :
    ((bank.switchGate number on).run RegisterFile.serve file).state.bit offset i =
      if bank.Covers number offset i then on else file.bit offset i :=
  bank.bit_switched number on file offset i _ _

/-- **Switching a reset line sets its bits and leaves every other bit.** -/
theorem bit_switchReset :
    ((bank.switchReset number on).run RegisterFile.serve file).state.bit offset i =
      if bank.Covers number offset i then on else file.bit offset i :=
  bank.bit_switched number on file offset i _ _

end Bank

end SocBringup
