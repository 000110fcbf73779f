import SocBringup.Chip.Catalog
import SocBringup.Proofs.ControlUnit.Operations

/-! # Chips whose clocks and reset lines do not share bits

* `Chip.Separate`: no bit is within reach of two clocks, two reset lines or a clock and a reset line,
  every line is a single bit, and the PLLs that feed the setters are out of reach.
* `Separate.bit_serve`: an operation on one clock or reset line is not seen on another.
* `Separate.setting_serve`: no operation changes what a setter would program.
* `Chip.Shipped.separate`: every chip of the catalog is separate. -/

namespace SocBringup

/-! ### Wired lines -/

/-- The lines of a bank, without the holes. -/
def Bank.wired (bank : Bank) : List Line := bank.reduceOption

theorem Bank.line?_eq_some {bank : Bank} {number : Nat} {l : Line} :
    bank.line? number = some l ↔ bank[number]? = some (some l) := by
  unfold line?
  rw [Option.join_eq_some_iff]

theorem Bank.mem_wired {bank : Bank} {number : Nat} {l : Line}
    (h : bank.line? number = some l) : l ∈ bank.wired :=
  (List.mem_filterMap).mpr ⟨some l, List.mem_of_getElem? (line?_eq_some.mp h), rfl⟩

/-- If the wired lines of a bank are pairwise apart, the lines of two numbers are. -/
theorem Bank.apart_of_ne {bank : Bank} (h : bank.wired.Pairwise Line.Apart) {m n : Nat}
    (hne : m ≠ n) {k l : Line} (hk : bank.line? m = some k) (hl : bank.line? n = some l) :
    k.Apart l := by
  unfold wired List.reduceOption at h
  rw [List.pairwise_filterMap, List.pairwise_iff_getElem] at h
  obtain ⟨hm, hmk⟩ := List.getElem?_eq_some_iff.mp (line?_eq_some.mp hk)
  obtain ⟨hn, hnl⟩ := List.getElem?_eq_some_iff.mp (line?_eq_some.mp hl)
  rcases Nat.lt_or_gt_of_ne hne with hlt | hlt
  · exact h m n hm hn hlt k hmk l hnl
  · exact (h n m hn hm hlt l hnl k hmk).symm

/-- A line is a single bit of a register. -/
def Line.Single (l : Line) : Prop := l.position < 32 ∧ l = .bit l.offset l.position

instance (l : Line) : Decidable l.Single := by unfold Line.Single; infer_instance

theorem Line.Single.covers {l : Line} (h : l.Single) : l.Covers l.offset l.position := by
  have hbit : (bit l.offset l.position).Covers l.offset l.position := (covers_bit h.1).mpr rfl
  rwa [← h.2] at hbit

/-! ### Separate chips -/

namespace Chip

/-- All that operations on the chip may change, clock by clock and reset line by reset line. -/
def reaches (chip : Chip) : List Line := chip.clockReaches.wired ++ chip.resets.wired

theorem mem_reaches {chip : Chip} {subject : Operation.Subject} {l : Line}
    (h : chip.reach? subject = some l) : l ∈ chip.reaches := by
  cases subject with
  | clock number => exact List.mem_append_left _ (Bank.mem_wired h)
  | line number => exact List.mem_append_right _ (Bank.mem_wired h)

/-- No two clocks or reset lines of the chip share a bit, and setters are fed from out of reach. -/
structure Separate (chip : Chip) : Prop where
  apart : chip.reaches.Pairwise Line.Apart
  single : ∀ l ∈ chip.gates.wired ++ chip.resets.wired, l.Single
  /-- The gate of a clock with a setter is the top bit of its control register. -/
  gated : ∀ entry ∈ chip.entries, entry.setter.isSome → entry.gate = .bit entry.gate.offset 31
  /-- The pre-divider of a setter holds every exponent and leaves the gate alone. -/
  setters : ∀ entry ∈ chip.entries, ∀ s ∈ entry.setter,
    Mmc.Control.enableField.Apart s.preDivider ∧ 2 ≤ s.preDivider.width
  plls : ∀ entry ∈ chip.entries, ∀ s ∈ entry.setter, ∀ l ∈ chip.reaches, l.offset ≠ s.pll.offset

namespace Separate

variable {chip : Chip} (hchip : chip.Separate)
include hchip

/-- What two different subjects reach is apart. -/
theorem apart_of_ne {a b : Operation.Subject} (hne : a ≠ b) {k l : Line}
    (hk : chip.reach? a = some k) (hl : chip.reach? b = some l) : k.Apart l := by
  obtain ⟨hclocks, hresets, hcross⟩ := List.pairwise_append.mp hchip.apart
  cases a with
  | clock m =>
    cases b with
    | clock n => exact Bank.apart_of_ne hclocks (fun h => hne (congrArg _ h)) hk hl
    | line n => exact hcross k (Bank.mem_wired hk) l (Bank.mem_wired hl)
  | line m =>
    cases b with
    | clock n => exact (hcross l (Bank.mem_wired hl) k (Bank.mem_wired hk)).symm
    | line n => exact Bank.apart_of_ne hresets (fun h => hne (congrArg _ h)) hk hl

/-- **An operation on one clock or reset line is not seen on another.** -/
theorem bit_serve {subject : Operation.Subject} {offset i : Nat}
    (h : chip.Reaches subject offset i) {op : Operation} (hne : op.subject ≠ subject)
    (file : RegisterFile) : (chip.serve op file).2.bit offset i = file.bit offset i := by
  obtain ⟨l, hl, hcovers⟩ := h
  refine chip.bit_serve file op ?_
  rintro ⟨k, hk, hkcovers⟩
  exact (hchip.apart_of_ne hne hk hl).not_covers hkcovers hcovers

/-- **No operation changes the register of a PLL that feeds a setter.** -/
theorem pll_serve {clock offset : Nat} {s : Mmc.Setter}
    (h : chip.control? clock = some (offset, s)) (op : Operation) (file : RegisterFile) :
    (chip.serve op file).2.get s.pll.offset = file.get s.pll.offset := by
  refine RegisterFile.get_eq_of_bit fun i => chip.bit_serve file op ?_
  rintro ⟨l, hl, hcovers⟩
  obtain ⟨entry, hentry, hs, -⟩ := exists_entry h
  exact hchip.plls entry (List.mem_of_getElem? hentry) s hs l (mem_reaches hl) hcovers.1

/-- **No operation changes what a setter would program.** -/
theorem setting_serve {clock offset : Nat} {s : Mmc.Setter}
    (h : chip.control? clock = some (offset, s)) (op : Operation) (file : RegisterFile)
    (rate : Clock.Rate) : s.setting (chip.serve op file).2 rate = s.setting file rate := by
  unfold Mmc.Setter.setting
  rw [hchip.pll_serve h op file]

theorem gate_of_control? {clock offset : Nat} {s : Mmc.Setter}
    (h : chip.control? clock = some (offset, s)) :
    chip.gates.line? clock = some (.bit offset 31) := by
  obtain ⟨entry, hentry, hs, ho⟩ := exists_entry h
  have hgate := hchip.gated entry (List.mem_of_getElem? hentry) (by rw [hs]; rfl)
  rw [gate_of_entry hentry, hgate, ho]
  rfl

/-- Every setting of a setter of the chip opens the gate. -/
theorem testBit_gate {clock offset : Nat} {s : Mmc.Setter}
    (h : chip.control? clock = some (offset, s)) {file : RegisterFile} {rate : Clock.Rate}
    {setting : Mmc.Setting} (hset : s.setting file rate = .ok setting) :
    setting.control.word.toNat.testBit 31 = true := by
  obtain ⟨entry, hentry, hs, -⟩ := exists_entry h
  obtain ⟨hgate, hwidth⟩ := hchip.setters entry (List.mem_of_getElem? hentry) s hs
  exact Mmc.Setter.testBit_gate hgate hwidth hset

end Separate

/-! ### The chips of the catalog -/

/-- A chip of the catalog. -/
def Shipped (chip : Chip) : Prop := ∃ entry ∈ catalog, entry.data = some chip

theorem apart_catalog : ∀ entry ∈ catalog, ∀ chip ∈ entry.data,
    chip.reaches.Pairwise Line.Apart := by
  decide +kernel

theorem single_catalog : ∀ entry ∈ catalog, ∀ chip ∈ entry.data,
    ∀ l ∈ chip.gates.wired ++ chip.resets.wired, l.Single := by
  decide +kernel

theorem gated_catalog : ∀ entry ∈ catalog, ∀ chip ∈ entry.data, ∀ clock ∈ chip.entries,
    clock.setter.isSome → clock.gate = .bit clock.gate.offset 31 := by
  decide +kernel

theorem setters_catalog : ∀ entry ∈ catalog, ∀ chip ∈ entry.data, ∀ clock ∈ chip.entries,
    ∀ s ∈ clock.setter,
      Mmc.Control.enableField.Apart s.preDivider ∧ 2 ≤ s.preDivider.width := by
  decide +kernel

theorem plls_catalog : ∀ entry ∈ catalog, ∀ chip ∈ entry.data, ∀ clock ∈ chip.entries,
    ∀ s ∈ clock.setter, ∀ l ∈ chip.reaches, l.offset ≠ s.pll.offset := by
  decide +kernel

/-- **Every chip of the catalog is separate.** -/
theorem Shipped.separate {chip : Chip} (h : chip.Shipped) : chip.Separate := by
  obtain ⟨entry, hentry, hchip⟩ := h
  exact {
    apart := apart_catalog entry hentry chip hchip
    single := single_catalog entry hentry chip hchip
    gated := gated_catalog entry hentry chip hchip
    setters := setters_catalog entry hentry chip hchip
    plls := plls_catalog entry hentry chip hchip }

end Chip

end SocBringup
