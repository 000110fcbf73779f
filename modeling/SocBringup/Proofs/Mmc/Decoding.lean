import SocBringup.Proofs.Mmc.Programming

/-! # What a setting holds

The control register of a setting is built field by field, and every field is read back as it was
stored, wherever the pre-divider lies apart from the others.

* `halve_snd_le`: halving ends with a ratio that fits the divider.
* `exists_of_encode`: what a setting is made of, an exponent and a divider that fit their fields.
* `source_control`, `exponent_control`, `divider_control`: the fields of a control register. -/

namespace SocBringup.Mmc

open Clock (Rate)

/-- **Halving ends with a ratio that fits the divider.** -/
theorem halve_snd_le (exponent ratio : Nat) : (halve exponent ratio).2 ≤ maxDivider := by
  induction exponent, ratio using halve.induct with
  | case1 exponent ratio h ih =>
    rw [halve, if_pos h]
    exact ih
  | case2 exponent ratio h =>
    rw [halve, if_neg h]
    exact not_lt.mp h

namespace Setter

variable {s : Setter}

/-- **What a setting is made of**: an exponent and a divider that fit, the control register with
both, and the rate of the source divided by both. -/
theorem exists_of_encode {pllRate requested : Rate} {setting : Setting}
    (h : s.encode pllRate requested = .ok setting) :
    ∃ exponent divider, exponent ≤ maxExponent ∧ 1 ≤ divider ∧ divider ≤ maxDivider ∧
      setting.control = s.control (source pllRate requested).1 exponent divider requested ∧
      setting.rate = Rate.divided (source pllRate requested).2 exponent divider := by
  unfold encode at h
  split_ifs at h with h0
  simp only at h
  split_ifs at h with hexponent
  cases h
  refine ⟨_, _, not_lt.mp hexponent, le_max_right _ _, ?_, rfl, rfl⟩
  exact max_le (halve_snd_le _ _) (by decide)

/-! ### The fields of a control register -/

section Fields
variable {exponent : Nat} (hexponent : exponent < 2 ^ s.preDivider.width)
  (number divider : Nat) (requested : Rate)
include hexponent

/-- The source is read back. -/
theorem source_control (h : Control.sourceField.Apart s.preDivider) (hnumber : number < 4) :
    (s.control number exponent divider requested).source = number := by
  have hdivider : Control.sourceField.Apart Control.dividerField := by decide
  have houtput : Control.sourceField.Apart Control.outputDelayField := by decide
  have hsample : Control.sourceField.Apart Control.sampleDelayField := by decide
  have hbase : Control.sourceField.raw ((({} : Control).store Control.enableField 1).store
      Control.sourceField number).word = number := Control.raw_store_self _ _ hnumber
  unfold Control.source control
  simp only [insert_eq_store _ _ hexponent]
  split_ifs
  · rw [Control.raw_store_apart hdivider, Control.raw_store_apart h, hbase]
  · rw [Control.raw_store_apart hsample, Control.raw_store_apart houtput,
      Control.raw_store_apart hdivider, Control.raw_store_apart h, hbase]

/-- The exponent of the pre-divider is read back, unless a phase delay lies in its place. -/
theorem exponent_control (h : s.preDivider.Apart Control.dividerField)
    (hdelays : s.newTiming = false → s.preDivider.Apart Control.outputDelayField ∧
      s.preDivider.Apart Control.sampleDelayField) :
    s.exponent (s.control number exponent divider requested) = exponent := by
  unfold Setter.exponent control
  simp only [insert_eq_store _ _ hexponent]
  split_ifs with hnew
  · rw [Control.raw_store_apart h, Control.raw_store_self _ _ hexponent]
  · obtain ⟨houtput, hsample⟩ := hdelays (by simpa using hnew)
    rw [Control.raw_store_apart hsample, Control.raw_store_apart houtput,
      Control.raw_store_apart h, Control.raw_store_self _ _ hexponent]

/-- The divider is read back, less one. -/
theorem divider_control (hdivider : divider ≤ maxDivider) :
    (s.control number exponent divider requested).divider = divider - 1 := by
  have houtput : Control.dividerField.Apart Control.outputDelayField := by decide
  have hsample : Control.dividerField.Apart Control.sampleDelayField := by decide
  have hfits : divider - 1 < 2 ^ Control.dividerField.width := by
    unfold maxDivider at hdivider
    show divider - 1 < 16
    omega
  unfold Control.divider control
  simp only [insert_eq_store _ _ hexponent]
  split_ifs
  · rw [Control.raw_store_self _ _ hfits]
  · rw [Control.raw_store_apart hsample, Control.raw_store_apart houtput,
      Control.raw_store_self _ _ hfits]

end Fields

end Setter

end SocBringup.Mmc
