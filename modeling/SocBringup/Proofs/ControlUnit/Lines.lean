import SocBringup.Proofs.ControlUnit.Separation
import SocBringup.Proofs.Program.Latest

/-! # What a control unit remembers

However the operations of a control unit are mixed, its registers hold for each gate, each reset line
and each rate what was last asked for under that number, and are otherwise as they were.

* `Chip.Remembers`: the registers before and after a conversation, line by line.
* `Shipped.remembers`: every chip of the catalog remembers every conversation. -/

namespace SocBringup.Chip

/-- What the operations of a conversation leave in the registers. -/
structure Remembers (chip : Chip) (before : RegisterFile) (log : List (Exchange Operations))
    (after : RegisterFile) : Prop where
  /-- A gate is a single bit. It is open or closed as its clock was last enabled, disabled or set to
  a rate, and as before if it never was. -/
  gate : ∀ clock l, chip.gates.line? clock = some l →
    ∃ i < 32, l = .bit l.offset i ∧
      after.bit l.offset i = (latest? (chip.gateSet? clock) log).getD (before.bit l.offset i)
  /-- A reset line is a single bit. It is as it was last released or held. -/
  reset : ∀ line l, chip.resets.line? line = some l →
    ∃ i < 32, l = .bit l.offset i ∧
      after.bit l.offset i = (latest? (resetSet? line) log).getD (before.bit l.offset i)
  /-- A control register holds, but for its gate, the setting of the rate that its clock was last
  set to, with the PLL as it was before. -/
  rate : ∀ clock offset s, chip.control? clock = some (offset, s) →
    match latest? (chip.rateSet? clock) log with
    | none => ∀ i, ¬ chip.gates.Covers clock offset i → after.bit offset i = before.bit offset i
    | some rate => ∃ setting, s.setting before rate = .ok setting ∧
      ∀ i, ¬ chip.gates.Covers clock offset i →
        after.bit offset i = setting.control.word.toNat.testBit i
  /-- No other bit of any register is changed. -/
  rest : ∀ offset i, (∀ clock, ¬ chip.gates.Covers clock offset i) →
    (∀ line, ¬ chip.resets.Covers line offset i) →
    (∀ clock s, chip.control? clock ≠ some (offset, s)) →
    after.bit offset i = before.bit offset i

/-! ### What each operation does to what its number stands for -/

/-- Every setter would program what it would have before. -/
def Alike (chip : Chip) (before file : RegisterFile) : Prop :=
  ∀ clock offset s, chip.control? clock = some (offset, s) →
    ∀ rate, s.setting file rate = s.setting before rate

/-- The bit of a setting, if there is one. -/
def settingBit (s : Mmc.Setter) (file : RegisterFile) (i : Nat) (rate : Clock.Rate) : Bool :=
  match s.setting file rate with
  | .ok setting => setting.control.word.toNat.testBit i
  | .error _ => false

/-- What is within reach of a clock is its gate or its control register. -/
theorem gate_or_control {chip : Chip} {clock offset i : Nat}
    (h : chip.Reaches (.clock clock) offset i) :
    chip.gates.Covers clock offset i ∨ ∃ s, chip.control? clock = some (offset, s) := by
  obtain ⟨l, hl, hcovers⟩ := h
  unfold reach? clockReaches Bank.line? at hl
  unfold gates Description.gates Bank.Covers Bank.line? control? entries
  cases hd : chip.description with
  | typed tree gates resets =>
    rw [hd] at hl
    exact Or.inl ⟨l, hl, hcovers⟩
  | flat clocks resets =>
    simp only [hd, List.getElem?_map] at hl ⊢
    cases hc : clocks[clock]? with
    | none => simp [hc] at hl
    | some entry =>
      simp only [hc, Option.map_some, Option.join_some, Option.bind_some] at hl ⊢
      split_ifs at hl with hs
      · obtain ⟨s, hs⟩ := Option.isSome_iff_exists.mp hs
        cases hl
        exact Or.inr ⟨s, by rw [hs, ← hcovers.1]; rfl⟩
      · exact Or.inl ⟨l, hl, hcovers⟩

namespace Separate

variable {chip : Chip} (hchip : chip.Separate) {before : RegisterFile}
include hchip

theorem alike_serve (op : Operation) (file : RegisterFile) (h : chip.Alike before file) :
    chip.Alike before (chip.serve op file).2 := by
  intro clock offset s hs rate
  rw [hchip.setting_serve hs op file rate]
  exact h clock offset s hs rate

/-- **A gate is set by the operations on its clock alone.** -/
theorem gate_serve {clock : Nat} {l : Line} (hl : chip.gates.line? clock = some l) {i : Nat}
    (hi : l.Covers l.offset i) (op : Operation) (file : RegisterFile) :
    (chip.serve op file).2.bit l.offset i =
      (chip.gateSet? clock ⟨op, (chip.serve op file).1⟩).getD (file.bit l.offset i) := by
  have hgate : chip.gates.Covers clock l.offset i := ⟨l, hl, hi⟩
  by_cases hop : op.subject = .clock clock
  · cases op with
    | enableClock c =>
      cases hop
      rw [bit_enableClock, if_pos hgate]
      simp [gateSet?]
    | disableClock c =>
      cases hop
      rw [bit_disableClock, if_pos hgate]
      simp [gateSet?]
    | clockRate c =>
      rw [state_clockRate]
      rfl
    | setClockRate c rate =>
      cases hop
      rw [serve_setClockRate]
      cases hc : chip.control? clock with
      | none => simp [gateSet?, rateSet?, hc]
      | some control =>
        obtain ⟨o, s⟩ := control
        simp only
        cases hset : s.setting file rate with
        | error refusal => rfl
        | ok setting =>
          -- the line is the top bit of the control register, which every setting sets
          have hline := hchip.gate_of_control? hc
          rw [hl, Option.some.injEq] at hline
          subst hline
          have htop : i = 31 := (Line.covers_bit (by decide)).mp hi
          subst htop
          simp [gateSet?, rateSet?, hc, RegisterFile.bit_set, Line.bit,
            hchip.testBit_gate hc hset]
    | _ => cases hop
  · rw [chip.gateSet?_of_ne hop, hchip.bit_serve (reaches_of_gate hgate) hop]
    rfl

/-- **A reset line is set by the operations on it alone.** -/
theorem reset_serve {line : Nat} {l : Line} (hl : chip.resets.line? line = some l) {i : Nat}
    (hi : l.Covers l.offset i) (op : Operation) (file : RegisterFile) :
    (chip.serve op file).2.bit l.offset i =
      (resetSet? line ⟨op, (chip.serve op file).1⟩).getD (file.bit l.offset i) := by
  have hreset : chip.resets.Covers line l.offset i := ⟨l, hl, hi⟩
  have hreach : chip.Reaches (.line line) l.offset i := hreset
  by_cases hop : op.subject = .line line
  · cases op with
    | assertReset n =>
      cases hop
      rw [bit_assertReset, if_pos hreset]
      simp [resetSet?]
    | deassertReset n =>
      cases hop
      rw [bit_deassertReset, if_pos hreset]
      simp [resetSet?]
    | requestReset n => rfl
    | freeReset n => rfl
    | _ => cases hop
  · rw [resetSet?_of_ne hop, hchip.bit_serve hreach hop]
    rfl

/-- **A control register, but for its gate, is set by successful requests for a rate of its clock
alone.** -/
theorem rate_serve {clock offset : Nat} {s : Mmc.Setter}
    (hs : chip.control? clock = some (offset, s)) {i : Nat}
    (hgate : ¬ chip.gates.Covers clock offset i) (op : Operation) (file : RegisterFile)
    (halike : chip.Alike before file) :
    (chip.serve op file).2.bit offset i =
      ((chip.rateSet? clock ⟨op, (chip.serve op file).1⟩).map
        (settingBit s before i)).getD (file.bit offset i) := by
  by_cases hop : op.subject = .clock clock
  · cases op with
    | enableClock c =>
      cases hop
      rw [bit_enableClock, if_neg hgate]
      rfl
    | disableClock c =>
      cases hop
      rw [bit_disableClock, if_neg hgate]
      rfl
    | clockRate c =>
      rw [state_clockRate]
      rfl
    | setClockRate c rate =>
      cases hop
      rw [serve_setClockRate]
      simp only [hs, halike clock offset s hs rate]
      cases hset : s.setting before rate with
      | error refusal => rfl
      | ok setting => simp [rateSet?, hs, RegisterFile.bit_set, settingBit, hset]
    | _ => cases hop
  · rw [chip.rateSet?_of_ne hop]
    by_cases hi : i < 32
    · exact hchip.bit_serve (reaches_of_control? hs hi) hop file
    · show RegisterFile.bit _ offset i = RegisterFile.bit _ offset i
      unfold RegisterFile.bit
      rw [Field.testBit_eq_false _ (by omega), Field.testBit_eq_false _ (by omega)]

/-! ### What a conversation does -/

omit hchip in
/-- A clock was set to a rate only if there was a setting for it. -/
theorem exists_setting {clock offset : Nat} {s : Mmc.Setter}
    (hs : chip.control? clock = some (offset, s)) {op : Operation} {file : RegisterFile}
    {rate : Clock.Rate}
    (h : chip.rateSet? clock ⟨op, (chip.serve op file).1⟩ = some rate) :
    ∃ setting, s.setting file rate = .ok setting := by
  cases op with
  | setClockRate c r =>
    by_cases hc : c = clock
    · subst hc
      rw [serve_setClockRate] at h
      simp only [hs] at h
      cases hset : s.setting file r with
      | error refusal =>
        simp only [hset] at h
        cases h
      | ok setting =>
        simp only [hset, rateSet?, hs, Option.isSome_some, and_self, if_true,
          Option.some.injEq] at h
        subst h
        exact ⟨setting, hset⟩
    · rw [chip.rateSet?_of_ne fun hop => hc (by cases hop; rfl)] at h
      cases h
  | _ => cases h

/-- **A separate chip remembers.** Each line is read as a view of the registers, set by the last
operation that has a say in it. That the PLLs are left alone is the invariant. -/
theorem run_remembers {α : Type} (before : RegisterFile) (caller : Program Operations α) :
    chip.Remembers before (caller.run chip.serve before).trace
      (caller.run chip.serve before).state := by
  have hkeep : ∀ op file, chip.Alike before file → chip.Alike before (chip.serve op file).2 :=
    hchip.alike_serve
  have hstart : chip.Alike before before := fun _ _ _ _ _ => rfl
  refine ⟨fun clock l hl => ?_, fun line l hl => ?_, fun clock offset s hs => ?_,
    fun offset i hgate hreset hrate => ?_⟩
  · have hsingle := hchip.single l (List.mem_append_left _ (Bank.mem_wired hl))
    refine ⟨l.position, hsingle.1, hsingle.2, ?_⟩
    exact Program.run_latest hkeep (·.bit l.offset l.position) (chip.gateSet? clock)
      (fun op file _ => hchip.gate_serve hl hsingle.covers op file) caller hstart
  · have hsingle := hchip.single l (List.mem_append_right _ (Bank.mem_wired hl))
    refine ⟨l.position, hsingle.1, hsingle.2, ?_⟩
    exact Program.run_latest hkeep (·.bit l.offset l.position) (resetSet? line)
      (fun op file _ => hchip.reset_serve hl hsingle.covers op file) caller hstart
  · -- the bits of a control register are views one by one, of the same latest rate
    have hbits : ∀ i, ¬ chip.gates.Covers clock offset i →
        (caller.run chip.serve before).state.bit offset i =
          ((latest? (chip.rateSet? clock) (caller.run chip.serve before).trace).map
            (settingBit s before i)).getD (before.bit offset i) := by
      intro i hi
      rw [← latest?_map]
      exact Program.run_latest hkeep (·.bit offset i)
        (fun x => (chip.rateSet? clock x).map (settingBit s before i))
        (fun op file halike => hchip.rate_serve hs hi op file halike) caller hstart
    cases hlast : latest? (chip.rateSet? clock) (caller.run chip.serve before).trace with
    | none =>
      intro i hi
      rw [hbits i hi, hlast]
      rfl
    | some rate =>
      -- that rate was answered with success at some time, so there is a setting for it
      obtain ⟨x, hx, hrate⟩ := exists_mem_of_latest? hlast
      obtain ⟨op, file, halike, rfl⟩ := Program.exists_state_of_mem_trace hkeep caller hstart x hx
      obtain ⟨setting, hset⟩ := exists_setting hs hrate
      rw [halike clock offset s hs rate] at hset
      refine ⟨setting, hset, fun i hi => ?_⟩
      rw [hbits i hi, hlast]
      simp [settingBit, hset]
  · have hout : ∀ subject, ¬ chip.Reaches subject offset i := by
      rintro (clock | line) hreach
      · rcases gate_or_control hreach with h | ⟨s, hs⟩
        · exact hgate clock h
        · exact hrate clock s hs
      · exact hreset line hreach
    have hleft : ∀ (op : Operation) (file : RegisterFile),
        file.bit offset i = before.bit offset i →
        (chip.serve op file).2.bit offset i = before.bit offset i :=
      fun op file h => (chip.bit_serve file op (hout op.subject)).trans h
    exact Program.run_invariant (fun file : RegisterFile => file.bit offset i = before.bit offset i)
      hleft caller rfl

end Separate

/-- **Every chip of the catalog remembers.** Whatever a caller does with the clocks and reset lines
of the chip, in whatever order and depending on whatever answers, what it did under one number is
never seen under another. -/
theorem Shipped.remembers {chip : Chip} (h : chip.Shipped) {α : Type} (before : RegisterFile)
    (caller : Program Operations α) :
    chip.Remembers before (caller.run chip.serve before).trace
      (caller.run chip.serve before).state :=
  h.separate.run_remembers before caller

/-- On the H3, a bus gate is opened and closed again; in between a reset line is released and an MMC
clock, whose gate opens, is set to 50 MHz from a PLL that runs at 600 MHz. Its control register then
selects the PLL and a divider of twelve, with the delays for that rate. -/
theorem Shipped.remembers_h3 :
    let caller := Operation.inTurn
      [.enableClock 30, .deassertReset 15, .setClockRate 74 50000000, .disableClock 30]
    let after := (caller.run h3.serve (RegisterFile.ofList [(0x028, 0x1810)])).state
    h3.Shipped ∧ after.bit 0x060 20 = false ∧ after.bit 0x2c0 20 = true ∧
      after.bit 0x08c 31 = true ∧ ∀ i < 31, after.bit 0x08c i = (0x8140030b : Nat).testBit i := by
  intro caller after
  let before := RegisterFile.ofList [(0x028, 0x1810)]
  have hshipped : h3.Shipped :=
    ⟨⟨"allwinner,sun8i-h3-ccu", some h3⟩, by simp [catalog], rfl⟩
  have hremembers := hshipped.remembers before caller
  have hposition : ∀ {offset i j : Nat}, i < 32 → j < 32 →
      Line.bit offset i = Line.bit offset j → i = j := by
    intro offset i j hi hj h
    exact (Line.covers_bit hj).mp (h ▸ (Line.covers_bit hi).mpr rfl)
  refine ⟨hshipped, ?_, ?_, ?_, fun i hi => ?_⟩
  · obtain ⟨i, hi, hl, hbit⟩ := hremembers.gate 30 (.bit 0x060 20) (by decide +kernel)
    cases hposition (by decide) hi hl
    exact hbit.trans (by decide +kernel)
  · obtain ⟨i, hi, hl, hbit⟩ := hremembers.reset 15 (.bit 0x2c0 20) (by decide +kernel)
    cases hposition (by decide) hi hl
    exact hbit.trans (by decide +kernel)
  · obtain ⟨i, hi, hl, hbit⟩ := hremembers.gate 74 (.bit 0x08c 31) (by decide +kernel)
    cases hposition (by decide) hi hl
    exact hbit.trans (by decide +kernel)
  · have hrate := hremembers.rate 74 0x08c .sun6i rfl
    have hlast : latest? (h3.rateSet? 74) (caller.run h3.serve before).trace = some 50000000 := by
      decide +kernel
    rw [hlast] at hrate
    obtain ⟨setting, hsetting, hbits⟩ := hrate
    have hword : setting.control.word = 0x8140030b := by
      have hread : (Mmc.Setter.sun6i.setting before 50000000).toOption.map (·.control.word) =
          some 0x8140030b := by
        decide +kernel
      rw [hsetting] at hread
      exact Option.some.inj hread
    have hgate : ¬ h3.gates.Covers 74 0x08c i := by
      rintro ⟨l, hl, hcovers⟩
      cases hl
      have htop := (Line.covers_bit (by decide)).mp hcovers
      omega
    exact (hbits i hgate).trans (by rw [hword]; rfl)

end SocBringup.Chip
