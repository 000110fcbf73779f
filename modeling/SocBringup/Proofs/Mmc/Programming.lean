import SocBringup.Mmc.Setter
import SocBringup.Proofs.Register.Bit

/-! # Programming an MMC module clock

What a request for a rate leaves in the registers, and that it opens the gate.

* `Setter.setting`: the setting for a request, given a register file.
* `run_setRate`: the answer to a request, and the register file it leaves.
* `exists_setting_of_answer`: an answer is the rate of a setting.
* `testBit_gate`: a setting has the gate bit set, wherever the pre-divider lies apart from it. -/

namespace SocBringup.Mmc

/-- A store in another field is not seen. -/
theorem Control.raw_store_apart {f g : Field} (h : f.Apart g) (c : Control) (contents : Nat) :
    f.raw (c.store g contents).word = f.raw c.word :=
  Field.raw_store_apart h c.word contents

theorem Control.raw_store_self (f : Field) (c : Control) {contents : Nat}
    (h : contents < 2 ^ f.width) : f.raw (c.store f contents).word = contents :=
  (Field.raw_store f c.word contents).trans (Nat.mod_eq_of_lt h)

namespace Setter

open Clock (Rate mainOscillator)

variable (s : Setter) (file : RegisterFile) (offset : Nat) (requested : Rate)

/-- The setting for a requested rate, with the PLL as a register file has it. -/
def setting : Except Refusal Setting :=
  s.encode (s.pll.rateOf (file.get s.pll.offset)) requested

/-! ### The run of a request -/

/-- A request up to the rate of the oscillator does not depend on the PLL. -/
theorem encode_of_le {requested : Rate} (h : ¬ mainOscillator < requested) (p q : Rate) :
    s.encode p requested = s.encode q requested := by
  have hle : requested ≤ mainOscillator := UInt64.not_lt.mp h
  unfold encode source
  simp only [hle, if_true]

/-- What is left to do for a request once the rate of the PLL is known. -/
def finish (pllRate : Rate) : Program Registers (Except Fault Rate) := do
  match ← s.choose pllRate requested with
  | .error fault => return .error fault
  | .ok setting =>
    Registers.note (.mmcProgrammed offset requested setting.rate setting.control)
    Registers.write offset setting.control.word
    return .ok setting.rate

theorem run_finish (pllRate : Rate) :
    (((s.finish offset requested pllRate).run RegisterFile.serve file).value,
      ((s.finish offset requested pllRate).run RegisterFile.serve file).state) =
      match s.encode pllRate requested with
      | .ok setting => (.ok setting.rate, file.set offset setting.control.word)
      | .error _ => (.error .invalidArgument, file) := by
  unfold finish choose
  rw [Program.run_bind]
  cases s.encode pllRate requested <;> rfl

/-- **A request is answered with the rate of its setting and writes the word of it**, or is refused
and writes nothing if it has none. -/
theorem run_setRate :
    (((s.setRate offset requested).run RegisterFile.serve file).value,
      ((s.setRate offset requested).run RegisterFile.serve file).state) =
      match s.setting file requested with
      | .ok setting => (.ok setting.rate, file.set offset setting.control.word)
      | .error _ => (.error .invalidArgument, file) := by
  unfold setRate
  split_ifs with h
  · exact s.run_finish file offset requested _
  · rw [setting, s.encode_of_le h _ mainOscillator]
    exact s.run_finish file offset requested _

variable {s file offset requested}

/-- **An answer is the rate of a setting**, whose word was written. -/
theorem exists_setting_of_answer {actual : Rate}
    (h : ((s.setRate offset requested).run RegisterFile.serve file).value = .ok actual) :
    ∃ setting, s.setting file requested = .ok setting ∧ setting.rate = actual ∧
      ((s.setRate offset requested).run RegisterFile.serve file).state =
        file.set offset setting.control.word := by
  have hrun := s.run_setRate file offset requested
  cases hset : s.setting file requested with
  | error refusal =>
    rw [hset] at hrun
    cases h.symm.trans (Prod.mk.inj hrun).1
  | ok setting =>
    rw [hset] at hrun
    obtain ⟨hvalue, hstate⟩ := Prod.mk.inj hrun
    exact ⟨setting, rfl, Except.ok.inj (hvalue.symm.trans h), hstate⟩

/-! ### The gate -/

theorem insert_eq_store (f : Field) (c : Control) {contents : Nat} (h : contents < 2 ^ f.width) :
    c.insert f contents = c.store f contents := by
  unfold Control.insert Control.store
  rw [Field.store_eq, Nat.mod_eq_of_lt h]

/-- **A control register is built with its gate open.** -/
theorem enableField_control (hgate : Control.enableField.Apart s.preDivider)
    (source : Nat) {exponent : Nat} (he : exponent < 2 ^ s.preDivider.width) (divider : Nat)
    (requested : Rate) :
    Control.enableField.raw (s.control source exponent divider requested).word = 1 := by
  have hsource : Control.enableField.Apart Control.sourceField := by decide
  have hdivider : Control.enableField.Apart Control.dividerField := by decide
  have houtput : Control.enableField.Apart Control.outputDelayField := by decide
  have hsample : Control.enableField.Apart Control.sampleDelayField := by decide
  have hbase : Control.enableField.raw (({} : Control).store Control.enableField 1).word = 1 :=
    Field.raw_store _ _ _
  simp only [control, insert_eq_store _ _ he]
  split_ifs
  · rw [Control.raw_store_apart hdivider, Control.raw_store_apart hgate,
      Control.raw_store_apart hsource, hbase]
  · rw [Control.raw_store_apart hsample, Control.raw_store_apart houtput,
      Control.raw_store_apart hdivider, Control.raw_store_apart hgate,
      Control.raw_store_apart hsource, hbase]

/-- **Every setting opens the gate**, if the pre-divider holds every exponent and lies apart from
the gate. -/
theorem testBit_gate (hgate : Control.enableField.Apart s.preDivider)
    (hwidth : 2 ≤ s.preDivider.width) {pllRate : Rate} {setting : Setting}
    (h : s.encode pllRate requested = .ok setting) :
    setting.control.word.toNat.testBit 31 = true := by
  have hraw : Control.enableField.raw setting.control.word = 1 := by
    unfold encode at h
    split_ifs at h with h0
    simp only at h
    split_ifs at h with hexp
    cases h
    refine enableField_control hgate _ ?_ _ _
    calc _ ≤ maxExponent := not_lt.mp hexp
      _ < 2 ^ 2 := by decide
      _ ≤ 2 ^ s.preDivider.width := Nat.pow_le_pow_right (by decide) hwidth
  have hbit := Field.testBit_raw Control.enableField setting.control.word 0
  rw [hraw] at hbit
  simpa [Control.enableField] using hbit.symm

end Setter

end SocBringup.Mmc
