import SocBringup.Chip.H3
import SocBringup.Proofs.Board.Calls

/-! # Controllers that share a control unit

Controllers of which no two hold a common bit of the control unit do not interfere, even where their
gates and reset lines stand in the same registers. Whatever calls are made to them, in whatever
order, the bits of each are as its own last claim or release left them, and its block is as its own
calls alone would have left it.

* `Board.after`: a board after some calls.
* `bit_after`, `blocks_after`: what calls leave in a bit and in a block.
* `Independent`: controllers do not interfere.
* `h3Spi_independent`: the two SPI controllers of the H3. -/

namespace SocBringup.Board

open Spi

section Runs
variable {τ : Type} {n : Nat} (chip : Chip) (controllers : Fin n → Controller)
  (blocks : Nat → Handler Block τ)

/-- A board after some calls, each to the controller of a number. -/
def after : List (Fin n × Call) → State τ → State τ
  | [], s => s
  | (unit, call) :: rest, s =>
    after rest ((perform chip (controllers unit) unit call).run (serve blocks) s).state

/-- The calls to a controller. -/
def own (unit : Fin n) (calls : List (Fin n × Call)) : List (Fin n × Call) :=
  calls.filter (·.1 = unit)

/-- Whether a call claims or releases the bus of a controller. -/
def powers? (unit : Fin n) (call : Fin n × Call) : Option Bool :=
  if call.1 = unit then call.2.power? else none

/-- What a call makes of a bit of the control unit. -/
def sets? (offset i : Nat) (call : Fin n × Call) : Option Bool :=
  if (controllers call.1).Holds chip offset i then call.2.power? else none

/-- **A bit is as the last claim or release left it of a controller that holds it.** -/
theorem bit_after (offset i : Nat) : ∀ (calls : List (Fin n × Call)) (s : State τ),
    (after chip controllers blocks calls s).control.bit offset i =
      (latest? (sets? chip controllers offset i) calls).getD (s.control.bit offset i)
  | [], _ => rfl
  | (unit, call) :: rest, s => by
    have hrest := bit_after offset i rest
      ((perform chip (controllers unit) unit call).run (serve blocks) s).state
    rw [bit_call] at hrest
    rw [after, hrest, latest?, Option.getD_or]
    rfl

/-- **A block is as the calls to its controller alone would have left it.** -/
theorem blocks_after (unit : Fin n) : ∀ (calls : List (Fin n × Call)) (s t : State τ),
    s.blocks unit = t.blocks unit →
    (after chip controllers blocks calls s).blocks unit =
      (after chip controllers blocks (own unit calls) t).blocks unit
  | [], _, _, h => h
  | (other, call) :: rest, s, t, h => by
    by_cases hunit : other = unit
    · subst hunit
      have hown : own other ((other, call) :: rest) = (other, call) :: own other rest :=
        List.filter_cons_of_pos (decide_eq_true rfl)
      rw [hown]
      exact blocks_after other rest _ _
        (blocks_own chip blocks other (controllers other) call s t h)
    · have hown : own unit ((other, call) :: rest) = own unit rest :=
        List.filter_cons_of_neg (by simpa using hunit)
      have hkept := blocks_other chip blocks other (controllers other) call s
        (fun heq => hunit (Fin.val_injective heq).symm)
      rw [hown]
      exact blocks_after unit rest _ _ (hkept.trans h)

/-- **Controllers do not interfere.** -/
structure Independent (lines : Fin n → List (Nat × Nat)) (calls : List (Fin n × Call))
    (s : State τ) : Prop where
  /-- The bits of a controller are as its own last claim or release left them. -/
  own : ∀ unit, ∀ line ∈ lines unit,
    (after chip controllers blocks calls s).control.bit line.1 line.2 =
      (latest? (powers? unit) calls).getD (s.control.bit line.1 line.2)
  rest : ∀ offset i, (∀ unit, (offset, i) ∉ lines unit) →
    (after chip controllers blocks calls s).control.bit offset i = s.control.bit offset i
  /-- A block is as it would be without the calls to other controllers. -/
  alone : ∀ unit : Fin n, (after chip controllers blocks calls s).blocks unit =
    (after chip controllers blocks (Board.own unit calls) s).blocks unit

variable {chip controllers}

/-- Controllers that hold the bits of lists without a common bit do not interfere. -/
theorem independent {lines : Fin n → List (Nat × Nat)}
    (hholds : ∀ unit offset i, (controllers unit).Holds chip offset i ↔ (offset, i) ∈ lines unit)
    (hapart : ∀ unit other, unit ≠ other → ∀ line ∈ lines unit, line ∉ lines other)
    (calls : List (Fin n × Call)) (s : State τ) :
    Independent chip controllers blocks lines calls s where
  own unit line hline := by
    have hsets : sets? chip controllers line.1 line.2 = powers? unit := by
      funext ⟨other, call⟩
      unfold sets? powers?
      refine if_congr ?_ rfl rfl
      rw [hholds]
      constructor
      · intro hother
        by_contra hne
        exact hapart other unit hne line hother hline
      · intro hsame
        have heq : other = unit := hsame
        rwa [heq]
    rw [bit_after, hsets]
  rest offset i hnone := by
    have hsets : ∀ call ∈ calls, sets? chip controllers offset i call = none := fun call _ =>
      if_neg fun hcall => hnone call.1 ((hholds call.1 offset i).mp hcall)
    rw [bit_after, latest?_eq_none hsets]
    rfl
  alone unit := blocks_after chip controllers blocks unit calls s s rfl

end Runs

/-! ### The H3 -/

/-- The two SPI controllers of the H3, with FIFOs of any depth and any patience. -/
def h3Spi (depth patience : Fin 2 → Nat) : Fin 2 → Controller
  | 0 => ⟨depth 0, Chip.H3.busSpi0, Chip.H3.spi0, Chip.H3.resetSpi0, patience 0⟩
  | 1 => ⟨depth 1, Chip.H3.busSpi1, Chip.H3.spi1, Chip.H3.resetSpi1, patience 1⟩

/-- The gates and the reset line of each controller, by register and bit. -/
def h3Lines : Fin 2 → List (Nat × Nat)
  | 0 => [(0x060, 20), (0x0a0, 31), (0x2c0, 20)]
  | 1 => [(0x060, 21), (0x0a4, 31), (0x2c0, 21)]

theorem covers_of_bit {bank : Bank} {number : Nat} {line : Nat × Nat}
    (h : bank.line? number = some (.bit line.1 line.2)) (hposition : line.2 < 32)
    (offset i : Nat) : bank.Covers number offset i ↔ (offset, i) = line := by
  rw [Bank.covers_iff h, Prod.ext_iff]
  constructor
  · intro hcovers
    have hoffset : line.1 = offset := hcovers.1
    subst hoffset
    exact ⟨rfl, (Line.covers_bit hposition).mp hcovers⟩
  · rintro ⟨rfl, rfl⟩
    exact (Line.covers_bit hposition).mpr rfl

theorem holds_of_bits {chip : Chip} {c : Controller} {bus module reset : Nat × Nat}
    (hbus : chip.gates.line? c.busClock = some (.bit bus.1 bus.2))
    (hmodule : chip.gates.line? c.moduleClock = some (.bit module.1 module.2))
    (hreset : chip.resets.line? c.resetLine = some (.bit reset.1 reset.2))
    (hposition : ∀ line ∈ [bus, module, reset], line.2 < 32) (offset i : Nat) :
    c.Holds chip offset i ↔ (offset, i) ∈ [bus, module, reset] := by
  unfold Controller.Holds
  have hbusBit := covers_of_bit hbus (hposition bus (by simp)) offset i
  have hmoduleBit := covers_of_bit hmodule (hposition module (by simp)) offset i
  have hresetBit := covers_of_bit hreset (hposition reset (by simp)) offset i
  rw [hbusBit, hmoduleBit, hresetBit]
  simp

theorem holds_h3Spi (depth patience : Fin 2 → Nat) (unit : Fin 2) (offset i : Nat) :
    (h3Spi depth patience unit).Holds Chip.h3 offset i ↔ (offset, i) ∈ h3Lines unit := by
  have hclocks : Chip.h3.gates.line? Chip.H3.busSpi0 = some (.bit 0x060 20) ∧
      Chip.h3.gates.line? Chip.H3.spi0 = some (.bit 0x0a0 31) ∧
      Chip.h3.gates.line? Chip.H3.busSpi1 = some (.bit 0x060 21) ∧
      Chip.h3.gates.line? Chip.H3.spi1 = some (.bit 0x0a4 31) := by
    decide +kernel
  have hresets : Chip.h3.resets.line? Chip.H3.resetSpi0 = some (.bit 0x2c0 20) ∧
      Chip.h3.resets.line? Chip.H3.resetSpi1 = some (.bit 0x2c0 21) := by
    decide +kernel
  obtain ⟨hbus0, hmodule0, hbus1, hmodule1⟩ := hclocks
  obtain ⟨hreset0, hreset1⟩ := hresets
  match unit with
  | 0 =>
    exact holds_of_bits (c := h3Spi depth patience 0) hbus0 hmodule0 hreset0 (by decide) offset i
  | 1 =>
    exact holds_of_bits (c := h3Spi depth patience 1) hbus1 hmodule1 hreset1 (by decide) offset i

/-- **The two SPI controllers of the H3 do not interfere**, whatever their register blocks are like,
whatever the control unit holds at first, and whatever calls are made to them in whatever order. As
the calls may end anywhere, this is so after each of them. -/
theorem h3Spi_independent {τ : Type} (blocks : Nat → Handler Block τ) (depth patience : Fin 2 → Nat)
    (calls : List (Fin 2 × Call)) (s : State τ) :
    Independent Chip.h3 (h3Spi depth patience) blocks h3Lines calls s := by
  have hapart : ∀ unit other : Fin 2, unit ≠ other →
      ∀ line ∈ h3Lines unit, line ∉ h3Lines other := by
    decide
  exact independent blocks (holds_h3Spi depth patience) hapart calls s

/-- Released, the second controller leaves the first in service and what else the register holds. -/
theorem h3Spi_independent_released :
    let calls : List (Fin 2 × Call) :=
      [(0, .claim { select := 1 }), (1, .direct .claim), (1, .direct .release)]
    let board := after Chip.h3 (h3Spi (fun _ => 64) (fun _ => 8)) (fun _ => Bench.SpiBlock.serve)
      calls ⟨fun _ => {}, RegisterFile.ofList [(0x2c0, 1)]⟩
    (board.control.bit 0x2c0 20 = true ∧ board.control.bit 0x2c0 21 = false) ∧
      board.control.bit 0x2c0 0 = true := by
  intro calls board
  have h := h3Spi_independent (fun _ => Bench.SpiBlock.serve) (fun _ => 64) (fun _ => 8) calls
    ⟨fun _ => {}, RegisterFile.ofList [(0x2c0, 1)]⟩
  have hfirst := h.own 0 (0x2c0, 20) (by decide)
  have hsecond := h.own 1 (0x2c0, 21) (by decide)
  have hrest := h.rest 0x2c0 0 (by decide)
  exact ⟨⟨hfirst, hsecond⟩, hrest⟩

end SocBringup.Board
