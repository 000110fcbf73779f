import SocBringup.Proofs.Clock.Dependence
import SocBringup.Proofs.ControlUnit.Separation
import SocBringup.Proofs.Program.Latest

/-! # Clocks that gating and resetting leave alone

Gates and reset lines may lie in the registers that say how fast clocks run. As long as they are
other bits of them, no clock runs faster or slower for what is done to gates and reset lines.

* `Chip.Steady`: a chip whose lines have no bit in common with the fields of its clock tree.
* `Chip.raw_serve`: an operation leaves a field of the tree as it was.
* `rate_undisturbed`: whatever a caller does, each clock runs at the rate it ran at before.
* `steady_r40`: the R40 is such a chip. -/

namespace SocBringup

namespace Chip

/-- A chip with a clock tree, none of whose gates and reset lines has a bit in common with a field
by which the tree reads registers. -/
def Steady (chip : Chip) : Prop :=
  ∃ tree ∈ chip.description.tree?, ∀ l ∈ chip.gates.wired ++ chip.resets.wired,
    ∀ p ∈ tree.fields, l.Apart ⟨p.1, p.2.mask⟩

/-- The rate of a clock, as the registers have it. -/
def rateIn (chip : Chip) (file : RegisterFile) (clock : Nat) : Clock.Rate :=
  (chip.serve (.clockRate clock) file).1

section Tree
variable {chip : Chip} {tree : Clock.Tree} (htree : chip.description.tree? = some tree)
include htree

/-- The operations on a chip with a clock tree reach its gates and reset lines. -/
theorem mem_lines {subject : Operation.Subject} {l : Line} (h : chip.reach? subject = some l) :
    l ∈ chip.gates.wired ++ chip.resets.wired := by
  have hreaches : chip.clockReaches = chip.gates := by
    unfold clockReaches gates Description.gates
    unfold Description.tree? at htree
    cases hd : chip.description with
    | flat clocks resets => simp [hd] at htree
    | typed tree gates resets => rfl
  rw [← hreaches]
  exact mem_reaches h

/-- **An operation leaves a field as it was**, if no line has a bit in common with it. -/
theorem raw_serve {p : Nat × Field}
    (h : ∀ l ∈ chip.gates.wired ++ chip.resets.wired, l.Apart ⟨p.1, p.2.mask⟩)
    (op : Operation) (file : RegisterFile) :
    p.2.raw ((chip.serve op file).2.get p.1) = p.2.raw (file.get p.1) := by
  refine Field.raw_congr fun i hi => chip.bit_serve file op ?_
  rintro ⟨l, hl, hcovers⟩
  refine (h l (mem_lines htree hl)).not_covers hcovers ⟨rfl, ?_⟩
  rw [Field.testBit_mask]
  exact decide_eq_true hi

theorem rateIn_eq (file : RegisterFile) (clock : Nat) :
    chip.rateIn file clock = ((tree.rate clock).run RegisterFile.serve file).value := by
  show ((chip.clockRate clock).run RegisterFile.serve file).value = _
  unfold clockRate
  rw [htree]

end Tree

/-- **After a run, each clock of a steady chip runs at the rate it ran at before.** That the fields
of the tree are as they were before is the invariant. -/
theorem Steady.rateIn_run {chip : Chip} (h : chip.Steady) (caller : Program Operations Unit)
    (file : RegisterFile) (clock : Nat) :
    chip.rateIn (caller.run chip.serve file).state clock = chip.rateIn file clock := by
  obtain ⟨tree, htree, hapart⟩ := h
  have hkeep : ∀ op after, tree.Agree after file → tree.Agree (chip.serve op after).2 file :=
    fun op after hagree p hp =>
      (raw_serve htree (fun l hl => hapart l hl p hp) op after).trans (hagree p hp)
  have hagree : tree.Agree (caller.run chip.serve file).state file :=
    Program.run_invariant (fun after => tree.Agree after file) hkeep caller fun _ _ => rfl
  rw [rateIn_eq htree, rateIn_eq htree]
  exact hagree.value_rateWithin _ clock

theorem steady_r40 : r40.Steady := ⟨R40.tree, rfl, by decide +kernel⟩

/-- **Gating and resetting never disturb a clock rate.** On a chip whose gates and reset lines have
no bit in common with the fields of its clock tree, whatever a caller does with clocks and reset
lines, every clock runs at the rate it ran at before. The R40 is such a chip. -/
theorem rate_undisturbed :
    (∀ chip : Chip, chip.Steady → ∀ (caller : Program Operations Unit) file clock,
      chip.rateIn (caller.run chip.serve file).state clock = chip.rateIn file clock) ∧
    r40.Steady ∧ ∀ (caller : Program Operations Unit) file clock,
      r40.rateIn (caller.run r40.serve file).state clock = r40.rateIn file clock :=
  ⟨fun _ h => h.rateIn_run, steady_r40, steady_r40.rateIn_run⟩

/-- A PLL and a module clock with their gates in the registers that say how fast they run, and a
reset line in one of them. -/
def smallChip : Chip where
  description := .typed (some Clock.smallTree)
    [none, some (.bit 0x028 31), some (.bit 0x088 31)] [some (.bit 0x088 30)]
  resetCount := 1

/-- The module clock runs at 288 MHz before its gate is closed, its block held in reset and another
rate asked for, and after. -/
theorem rate_undisturbed_smallChip :
    let caller := Operation.inTurn
      [.disableClock 2, .assertReset 0, .enableClock 1, .setClockRate 2 50000000, .deassertReset 0]
    let before := RegisterFile.ofList [(0x028, 0x1710), (0x088, 0x81010000)]
    smallChip.Steady ∧ (caller.run smallChip.serve before).state.get 0x088 = 0x41010000 ∧
      smallChip.rateIn (caller.run smallChip.serve before).state 2 = 288000000 := by
  intro caller before
  have hsteady : smallChip.Steady := ⟨Clock.smallTree, rfl, by decide⟩
  refine ⟨hsteady, by decide +kernel, ?_⟩
  exact (rate_undisturbed.1 smallChip hsteady caller before 2).trans (by decide +kernel)

end Chip

end SocBringup
