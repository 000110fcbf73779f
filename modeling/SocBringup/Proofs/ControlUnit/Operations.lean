import SocBringup.Controller.Clock
import SocBringup.Controller.Reset
import SocBringup.Proofs.Clock.Climb
import SocBringup.Proofs.Mmc.Programming

/-! # The operations of a control unit

The clock controller and the reset controller of a chip share one register file. Their operations
are the requests of an interface, which the register file answers by way of the chip's tables; a
caller is any program over that interface.

* `Chip.serve`: an operation carried out on a register file.
* `Chip.reach?`: the bits that operations on a clock or on a reset line may change.
* `Chip.bit_serve`: an operation changes no bit out of its reach.
* `Chip.gateSet?`, `Chip.rateSet?`, `resetSet?`: what an answered operation makes of a gate, a rate
  and a reset line. -/

namespace SocBringup

/-- An operation of the clock controller or the reset controller of a chip. -/
inductive Operation where
  | enableClock (clock : Nat)
  | disableClock (clock : Nat)
  | clockRate (clock : Nat)
  | setClockRate (clock : Nat) (rate : Clock.Rate)
  | requestReset (line : Nat)
  | freeReset (line : Nat)
  | assertReset (line : Nat)
  | deassertReset (line : Nat)

/-- What an operation answers. -/
abbrev Operation.Answer : Operation → Type
  | clockRate _ => Clock.Rate
  | setClockRate _ _ => Except Fault Clock.Rate
  | enableClock _ | disableClock _ | requestReset _ | freeReset _ | assertReset _
  | deassertReset _ => Except Fault Unit

/-- Use of a control unit. -/
abbrev Operations : Interface := ⟨Operation, Operation.Answer⟩

/-- What an operation is about. -/
inductive Operation.Subject where
  | clock (number : Nat)
  | line (number : Nat)
  deriving DecidableEq

/-- The clock or reset line that an operation names. -/
def Operation.subject : Operation → Subject
  | enableClock clock | disableClock clock | clockRate clock | setClockRate clock _ => .clock clock
  | requestReset line | freeReset line | assertReset line | deassertReset line => .line line

/-- The caller that carries out the operations of a list in turn, whatever they answer. -/
def Operation.inTurn : List Operation → Program Operations Unit
  | [] => .done ()
  | op :: rest => .ask op fun _ => inTurn rest

namespace Chip

/-- The program of an operation. -/
def perform (chip : Chip) : (op : Operation) → Program Registers op.Answer
  | .enableClock clock => chip.enableClock clock
  | .disableClock clock => chip.disableClock clock
  | .clockRate clock => chip.clockRate clock
  | .setClockRate clock rate => chip.setClockRate clock rate
  | .requestReset line => chip.requestReset line
  | .freeReset line => chip.freeReset line
  | .assertReset line => chip.assertReset line
  | .deassertReset line => chip.deassertReset line

/-- A register file answers the operations of a chip. -/
def serve (chip : Chip) : Handler Operations RegisterFile := fun op file =>
  let r := (chip.perform op).run RegisterFile.serve file
  (r.value, r.state)

/-! ### Rate setters -/

/-- The entries of the clocks of a flat description; a typed one has no setters. -/
def entries (chip : Chip) : List ClockEntry :=
  match chip.description with
  | .flat clocks _ => clocks
  | .typed .. => []

/-- The control register and the setter of a clock. -/
def control? (chip : Chip) (clock : Nat) : Option (Nat × Mmc.Setter) :=
  chip.entries[clock]?.bind fun entry => entry.setter.map fun s => (entry.gate.offset, s)

theorem exists_entry {chip : Chip} {clock offset : Nat} {s : Mmc.Setter}
    (h : chip.control? clock = some (offset, s)) :
    ∃ entry, chip.entries[clock]? = some entry ∧ entry.setter = some s ∧
      entry.gate.offset = offset := by
  obtain ⟨entry, hentry, hmap⟩ := Option.bind_eq_some_iff.mp h
  obtain ⟨t, ht, hpair⟩ := Option.map_eq_some_iff.mp hmap
  obtain ⟨ho, hs⟩ := Prod.mk.inj hpair
  exact ⟨entry, hentry, hs ▸ ht, ho⟩

theorem description_of_entries {chip : Chip} {clock : Nat} {entry : ClockEntry}
    (h : chip.entries[clock]? = some entry) :
    ∃ clocks resets, chip.description = .flat clocks resets ∧ clocks[clock]? = some entry := by
  unfold entries at h
  cases hd : chip.description with
  | typed tree gates resets => simp [hd] at h
  | flat clocks resets =>
    rw [hd] at h
    exact ⟨clocks, resets, rfl, h⟩

/-- **A rate is set through the setter of the clock**, and a clock without one keeps its registers. -/
theorem serve_setClockRate (chip : Chip) (clock : Nat) (rate : Clock.Rate) (file : RegisterFile) :
    chip.serve (.setClockRate clock rate) file =
      match chip.control? clock with
      | none => (.ok 0, file)
      | some (offset, s) =>
        match s.setting file rate with
        | .ok setting => (.ok setting.rate, file.set offset setting.control.word)
        | .error _ => (.error .invalidArgument, file) := by
  unfold serve perform setClockRate control? entries
  cases chip.description with
  | typed tree gates resets => rfl
  | flat clocks resets =>
    simp only
    cases clocks[clock]? with
    | none => rfl
    | some entry =>
      cases hs : entry.setter with
      | none =>
        simp only [hs, Option.bind_some, Option.map_none]
        rfl
      | some s =>
        simp only [hs, Option.bind_some, Option.map_some]
        exact s.run_setRate file entry.gate.offset rate

theorem state_clockRate (chip : Chip) (clock : Nat) (file : RegisterFile) :
    (chip.serve (.clockRate clock) file).2 = file := by
  show ((chip.clockRate clock).run RegisterFile.serve file).state = file
  unfold clockRate
  split
  · exact Clock.state_rateWithin _ _ _ _
  · rfl

/-! ### Reaches -/

/-- The gates of a chip. -/
abbrev gates (chip : Chip) : Bank := chip.description.gates

/-- The reset lines of a chip. -/
abbrev resets (chip : Chip) : Bank := chip.description.resets

/-- The bits that the operations on each clock may change: the whole control register of a clock
with a setter, the line of the gate otherwise. -/
def clockReaches (chip : Chip) : Bank :=
  match chip.description with
  | .flat clocks _ => clocks.map fun entry =>
    if entry.setter.isSome then some ⟨entry.gate.offset, ~~~0⟩ else entry.gate.wired?
  | .typed _ gates _ => gates

/-- The bits that the operations on a clock or on a reset line may change. -/
def reach? (chip : Chip) : Operation.Subject → Option Line
  | .clock clock => chip.clockReaches.line? clock
  | .line line => chip.resets.line? line

/-- A bit of a register is within reach of the operations on a clock or a reset line. -/
def Reaches (chip : Chip) (subject : Operation.Subject) (offset i : Nat) : Prop :=
  ∃ l ∈ chip.reach? subject, l.Covers offset i

theorem covers_allOnes {offset i : Nat} (hi : i < 32) : (⟨offset, ~~~0⟩ : Line).Covers offset i := by
  refine ⟨rfl, ?_⟩
  show (~~~(0 : UInt32)).toNat.testBit i = true
  rw [Field.testBit_not _ hi]
  simp

/-- A clock with a setter reaches its whole control register. -/
theorem reach?_of_control? {chip : Chip} {clock offset : Nat} {s : Mmc.Setter}
    (h : chip.control? clock = some (offset, s)) :
    chip.reach? (.clock clock) = some ⟨offset, ~~~0⟩ := by
  obtain ⟨entry, hentry, hs, ho⟩ := exists_entry h
  obtain ⟨clocks, resets, hd, hc⟩ := description_of_entries hentry
  unfold reach? clockReaches Bank.line?
  simp [hd, hc, hs, ho]

/-- The gate of a clock with a setter is that of its entry. -/
theorem gate_of_entry {chip : Chip} {clock : Nat} {entry : ClockEntry}
    (h : chip.entries[clock]? = some entry) : chip.gates.line? clock = entry.gate.wired? := by
  obtain ⟨clocks, resets, hd, hc⟩ := description_of_entries h
  unfold gates Description.gates Bank.line?
  simp [hd, hc]

theorem reaches_of_control? {chip : Chip} {clock offset : Nat} {s : Mmc.Setter}
    (h : chip.control? clock = some (offset, s)) {i : Nat} (hi : i < 32) :
    chip.Reaches (.clock clock) offset i :=
  ⟨_, reach?_of_control? h, covers_allOnes hi⟩

/-- The gate of a clock is within reach of its clock. -/
theorem reaches_of_gate {chip : Chip} {clock offset i : Nat}
    (h : chip.gates.Covers clock offset i) : chip.Reaches (.clock clock) offset i := by
  obtain ⟨l, hl, hcovers⟩ := h
  have hi : i < 32 := by
    by_contra hge
    rw [Line.Covers, Field.testBit_eq_false _ (by omega)] at hcovers
    cases hcovers.2
  unfold gates Description.gates Bank.line? at hl
  unfold Reaches reach? clockReaches Bank.line?
  cases hd : chip.description with
  | typed tree gates resets =>
    rw [hd] at hl
    exact ⟨l, hl, hcovers⟩
  | flat clocks resets =>
    simp only [hd, List.getElem?_map] at hl ⊢
    cases hc : clocks[clock]? with
    | none => simp [hc] at hl
    | some entry =>
      simp only [hc, Option.map_some, Option.join_some] at hl ⊢
      split_ifs with hs
      · refine ⟨_, rfl, ?_⟩
        have hgate : l = entry.gate := by
          unfold Line.wired? at hl
          split_ifs at hl with h0
          · cases hl
          · exact (Option.some.inj hl).symm
        rw [← hgate, hcovers.1]
        exact covers_allOnes hi
      · exact ⟨l, hl, hcovers⟩

/-! ### Operations, bit by bit -/

section Bits
variable (chip : Chip) (file : RegisterFile) (offset i : Nat)

theorem state_answer {α : Type} (p : Program Registers Unit) (a : α) :
    ((p >>= fun _ => pure a : Program Registers α).run RegisterFile.serve file).state =
      (p.run RegisterFile.serve file).state := by
  rw [Program.run_bind]
  rfl

theorem bit_enableClock (clock : Nat) :
    (chip.serve (.enableClock clock) file).2.bit offset i =
      if chip.gates.Covers clock offset i then true else file.bit offset i := by
  rw [← Bank.bit_switchGate]
  exact congrArg (·.bit offset i) (state_answer file _ _)

theorem bit_disableClock (clock : Nat) :
    (chip.serve (.disableClock clock) file).2.bit offset i =
      if chip.gates.Covers clock offset i then false else file.bit offset i := by
  rw [← Bank.bit_switchGate]
  exact congrArg (·.bit offset i) (state_answer file _ _)

theorem bit_assertReset (line : Nat) :
    (chip.serve (.assertReset line) file).2.bit offset i =
      if chip.resets.Covers line offset i then false else file.bit offset i := by
  rw [← Bank.bit_switchReset]
  exact congrArg (·.bit offset i) (state_answer file _ _)

theorem bit_deassertReset (line : Nat) :
    (chip.serve (.deassertReset line) file).2.bit offset i =
      if chip.resets.Covers line offset i then true else file.bit offset i := by
  rw [← Bank.bit_switchReset]
  exact congrArg (·.bit offset i) (state_answer file _ _)

variable {offset i}

/-- **An operation changes no bit out of its reach.** -/
theorem bit_serve (op : Operation) (h : ¬ chip.Reaches op.subject offset i) :
    (chip.serve op file).2.bit offset i = file.bit offset i := by
  cases op with
  | enableClock clock => rw [bit_enableClock, if_neg fun hc => h (reaches_of_gate hc)]
  | disableClock clock => rw [bit_disableClock, if_neg fun hc => h (reaches_of_gate hc)]
  | clockRate clock => rw [state_clockRate]
  | requestReset line => rfl
  | freeReset line => rfl
  | assertReset line => exact (chip.bit_assertReset file offset i line).trans (if_neg h)
  | deassertReset line => exact (chip.bit_deassertReset file offset i line).trans (if_neg h)
  | setClockRate clock rate =>
    rw [serve_setClockRate]
    cases hc : chip.control? clock with
    | none => rfl
    | some control =>
      obtain ⟨o, s⟩ := control
      simp only
      cases s.setting file rate with
      | error refusal => rfl
      | ok setting =>
        simp only [RegisterFile.bit_set]
        split_ifs with ho
        · subst ho
          -- only bits that no word has are out of reach in a control register
          have hi : ¬ i < 32 := fun hi => h (reaches_of_control? hc hi)
          unfold RegisterFile.bit
          rw [Field.testBit_eq_false _ (by omega), Field.testBit_eq_false _ (by omega)]
        · rfl

end Bits

/-! ### What an answered operation makes of the lines -/

/-- The rate that an operation set a clock to. -/
def rateSet? (chip : Chip) (clock : Nat) : Exchange Operations → Option Clock.Rate
  | ⟨.setClockRate c rate, .ok _⟩ =>
    if c = clock ∧ (chip.control? c).isSome then some rate else none
  | _ => none

/-- Whether an operation opened or closed the gate of a clock; setting its rate opens it. -/
def gateSet? (chip : Chip) (clock : Nat) : Exchange Operations → Option Bool
  | ⟨.enableClock c, _⟩ => if c = clock then some true else none
  | ⟨.disableClock c, _⟩ => if c = clock then some false else none
  | x => (chip.rateSet? clock x).map fun _ => true

end Chip

/-- Whether an operation released a reset line or held it in reset. -/
def resetSet? (line : Nat) : Exchange Operations → Option Bool
  | ⟨.deassertReset n, _⟩ => if n = line then some true else none
  | ⟨.assertReset n, _⟩ => if n = line then some false else none
  | _ => none

/-- Operations on something else have no say in the rate of a clock. -/
theorem Chip.rateSet?_of_ne (chip : Chip) {clock : Nat} {op : Operation}
    (h : op.subject ≠ .clock clock) (answer : op.Answer) :
    chip.rateSet? clock ⟨op, answer⟩ = none := by
  cases op with
  | setClockRate c rate =>
    have hc : c ≠ clock := fun hc => h (congrArg _ hc)
    cases answer with
    | ok r => exact if_neg fun hand => hc hand.1
    | error e => rfl
  | _ => rfl

theorem Chip.gateSet?_of_ne (chip : Chip) {clock : Nat} {op : Operation}
    (h : op.subject ≠ .clock clock) (answer : op.Answer) :
    chip.gateSet? clock ⟨op, answer⟩ = none := by
  have hrate := chip.rateSet?_of_ne h answer
  cases op with
  | enableClock c => exact if_neg fun hc => h (congrArg _ hc)
  | disableClock c => exact if_neg fun hc => h (congrArg _ hc)
  | _ => exact congrArg (Option.map fun _ => true) hrate

theorem resetSet?_of_ne {line : Nat} {op : Operation} (h : op.subject ≠ .line line)
    (answer : op.Answer) : resetSet? line ⟨op, answer⟩ = none := by
  cases op with
  | deassertReset n => exact if_neg fun hn => h (congrArg _ hn)
  | assertReset n => exact if_neg fun hn => h (congrArg _ hn)
  | _ => rfl

end SocBringup
