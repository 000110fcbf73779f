import SocBringup.Proofs.Clock.Nodes
import SocBringup.Proofs.ControlUnit.Separation

/-! # The registers that operations are about

Every offset that an operation of a control unit reads or writes stands in the tables of its chip.

* `Chip.registers`: the offsets in the tables of a chip.
* `within_perform`: an operation accesses no other register, whatever it is answered. -/

namespace SocBringup

/-- The request is a note, or about a register at an offset of which `P` holds. -/
def Registers.About (P : Nat → Prop) : Register.Request → Prop
  | .read offset => P offset
  | .write offset _ => P offset
  | .note _ => True

variable {P : Nat → Prop}

/-! ### Clock trees -/

namespace Clock.Tree

theorem within_withoutRate (reason : Diagnostic) : (withoutRate reason).Within (Registers.About P) :=
  ⟨trivial, fun _ => trivial⟩

/-- **A walk reads the registers of the fields of its tree.** -/
theorem within_rateWithin {tree : Tree} (h : ∀ p ∈ tree.fields, P p.1) (depth clock : Nat) :
    (tree.rateWithin depth clock).Within (Registers.About P) :=
  within_walk (fun _ _ => True) h (fun _ _ => trivial) (fun _ _ => trivial)
    (fun _ _ _ _ _ _ _ => trivial) depth clock trivial

end Clock.Tree

/-! ### Setters -/

namespace Mmc.Setter

variable (s : Setter) {offset : Nat} (requested : Clock.Rate)

theorem within_finish (hoffset : P offset) (pllRate : Clock.Rate) :
    (s.finish offset requested pllRate).Within (Registers.About P) := by
  unfold finish choose
  cases s.encode pllRate requested with
  | ok setting => exact ⟨trivial, fun _ => ⟨hoffset, fun _ => trivial⟩⟩
  | error refusal => exact ⟨trivial, fun _ => trivial⟩

theorem within_setRate (hoffset : P offset) (hpll : P s.pll.offset) :
    (s.setRate offset requested).Within (Registers.About P) := by
  unfold setRate
  split_ifs
  · exact ⟨hpll, fun word => s.within_finish requested hoffset (s.pll.rateOf word)⟩
  · exact s.within_finish requested hoffset Clock.mainOscillator

end Mmc.Setter

/-! ### Chips -/

/-- The offsets that the setter of an entry needs. -/
def ClockEntry.setterRegisters (entry : ClockEntry) : List Nat :=
  match entry.setter with
  | some s => [entry.gate.offset, s.pll.offset]
  | none => []

namespace Chip

/-- The offsets in the tables of a chip. -/
def registers (chip : Chip) : List Nat :=
  (chip.gates.wired ++ chip.resets.wired).map Line.offset ++
    chip.entries.flatMap ClockEntry.setterRegisters ++
    (chip.description.tree?.elim [] Clock.Tree.fields).map Prod.fst

variable {chip : Chip} (h : ∀ offset ∈ chip.registers, P offset)
include h

theorem of_mem_wired {l : Line} (hl : l ∈ chip.gates.wired ++ chip.resets.wired) : P l.offset :=
  h _ (List.mem_append_left _ (List.mem_append_left _ (List.mem_map_of_mem hl)))

theorem within_switch {l : Line} (hl : l ∈ chip.gates.wired ++ chip.resets.wired) (on : Bool) :
    (l.switch on).Within (Registers.About P) := by
  have hoffset : P l.offset := of_mem_wired h hl
  cases on <;> exact ⟨hoffset, fun _ => ⟨hoffset, fun _ => trivial⟩⟩

theorem within_switchGate (clock : Nat) (on : Bool) :
    (chip.gates.switchGate clock on).Within (Registers.About P) := by
  unfold Bank.switchGate
  cases hl : chip.gates.line? clock with
  | none => exact ⟨trivial, fun _ => trivial⟩
  | some l =>
    exact ⟨trivial, fun _ => within_switch h (List.mem_append_left _ (Bank.mem_wired hl)) on⟩

theorem within_switchReset (line : Nat) (released : Bool) :
    (chip.resets.switchReset line released).Within (Registers.About P) := by
  unfold Bank.switchReset
  cases hl : chip.resets.line? line with
  | none => exact ⟨trivial, fun _ => trivial⟩
  | some l =>
    exact ⟨trivial, fun _ => within_switch h (List.mem_append_right _ (Bank.mem_wired hl)) released⟩

theorem within_clockRate (clock : Nat) : (chip.clockRate clock).Within (Registers.About P) := by
  unfold clockRate
  cases htree : chip.description.tree? with
  | none => exact Clock.Tree.within_withoutRate _
  | some tree =>
    refine Clock.Tree.within_rateWithin (fun p hp => h _ (List.mem_append_right _ ?_)) _ clock
    rw [htree]
    exact List.mem_map_of_mem hp

theorem within_setClockRate (clock : Nat) (rate : Clock.Rate) :
    (chip.setClockRate clock rate).Within (Registers.About P) := by
  have hnote : ∀ reason, (rateNotSet reason).Within (Registers.About P) :=
    fun reason => ⟨trivial, fun _ => trivial⟩
  unfold setClockRate
  cases hd : chip.description with
  | typed tree gates resets => exact hnote _
  | flat clocks resets =>
    dsimp only
    cases hentry : clocks[clock]? with
    | none => exact hnote _
    | some entry =>
      dsimp only
      cases hs : entry.setter with
      | none => exact hnote _
      | some s =>
        have hentries : chip.entries = clocks := by
          unfold entries
          rw [hd]
        have hmem : entry ∈ chip.entries := hentries ▸ List.mem_of_getElem? hentry
        have hsetter : ∀ offset ∈ [entry.gate.offset, s.pll.offset], P offset := by
          intro offset hoffset
          refine h _ (List.mem_append_left _ (List.mem_append_right _ ?_))
          refine List.mem_flatMap.mpr ⟨entry, hmem, ?_⟩
          unfold ClockEntry.setterRegisters
          rw [hs]
          exact hoffset
        exact s.within_setRate rate (hsetter _ List.mem_cons_self)
          (hsetter _ (List.mem_cons_of_mem _ List.mem_cons_self))

/-- **An operation accesses the registers of the tables and no others.** -/
theorem within_perform (op : Operation) : (chip.perform op).Within (Registers.About P) := by
  cases op with
  | enableClock clock => exact (within_switchGate h clock true).bind fun _ => .pure _
  | disableClock clock => exact (within_switchGate h clock false).bind fun _ => .pure _
  | clockRate clock => exact within_clockRate h clock
  | setClockRate clock rate => exact within_setClockRate h clock rate
  | requestReset line => exact ⟨trivial, fun _ => trivial⟩
  | freeReset line => exact ⟨trivial, fun _ => trivial⟩
  | assertReset line => exact (within_switchReset h line false).bind fun _ => .pure _
  | deassertReset line => exact (within_switchReset h line true).bind fun _ => .pure _

end Chip

end SocBringup
