import SocBringup.Proofs.Mmc.Reach

/-! # A setting in one word

The fields of a setting are stored in one word, one after the other. Where the pre-divider of a
setter has a place of its own, none is lost to another.

* `Setter.Fitted`: the pre-divider has room for every exponent, apart from the other fields.
* `Setter.fields`: the fields that a setter stores.
* `delays_control`, `testBit_control`: the phase delays are read back, and no bit is set beside the
  fields.
* `made_of_encode`, `Fitted.holds_of_encode`: the exponent, the divider and the source that a setting
  is made of, and holds.
* `Packed`, `packed_of_encode`: all that the word of a setting holds. -/

namespace SocBringup.Mmc

open Clock (Rate)

namespace Setter

/-- **The pre-divider has room for every exponent and a place of its own**: it has no bit in common
with the fields that are always stored, nor with the phase delays where there are any. -/
structure Fitted (s : Setter) : Prop where
  wide : 2 ≤ s.preDivider.width
  apart_divider : s.preDivider.Apart Control.dividerField
  apart_source : s.preDivider.Apart Control.sourceField
  apart_enable : s.preDivider.Apart Control.enableField
  apart_delays : s.newTiming = false → s.preDivider.Apart Control.outputDelayField ∧
    s.preDivider.Apart Control.sampleDelayField

/-- The fields that a setter stores. -/
def fields (s : Setter) : List Field :=
  [s.preDivider, Control.dividerField, Control.sourceField, Control.enableField] ++
    if s.newTiming then [] else [Control.outputDelayField, Control.sampleDelayField]

theorem fitted_shipped : ∀ s ∈ shipped, s.Fitted := by
  have hcheck : ∀ s ∈ shipped, 2 ≤ s.preDivider.width ∧
      s.preDivider.Apart Control.dividerField ∧ s.preDivider.Apart Control.sourceField ∧
      s.preDivider.Apart Control.enableField ∧
      (s.newTiming = false → s.preDivider.Apart Control.outputDelayField ∧
        s.preDivider.Apart Control.sampleDelayField) := by decide
  intro s hs
  obtain ⟨hwide, hdivider, hsource, henable, hdelays⟩ := hcheck s hs
  exact ⟨hwide, hdivider, hsource, henable, hdelays⟩

variable {s : Setter} {pllRate requested : Rate}

/-! ### The control register -/

theorem Fitted.exponent_lt (hs : s.Fitted) {exponent : Nat} (h : exponent ≤ maxExponent) :
    exponent < 2 ^ s.preDivider.width := by
  calc exponent < 2 ^ 2 := Nat.lt_succ_of_le h
    _ ≤ 2 ^ s.preDivider.width := Nat.pow_le_pow_right (by decide) hs.wide

section Control
variable {exponent : Nat} (number divider : Nat)

/-- The phase delays are read back, where there are any. -/
theorem delays_control (h : s.newTiming = false) (exponent : Nat) (requested : Rate) :
    let c := s.control number exponent divider requested
    (c.outputDelay, c.sampleDelay) = delays requested := by
  have hapart : Control.outputDelayField.Apart Control.sampleDelayField := by decide
  have hfits : (delays requested).1 < 2 ^ 3 ∧ (delays requested).2 < 2 ^ 3 := by
    unfold delays
    split_ifs <;> decide
  unfold Control.outputDelay Control.sampleDelay control
  simp only [h, Bool.false_eq_true, if_false]
  rw [Control.raw_store_apart hapart, Control.raw_store_self _ _ hfits.1,
    Control.raw_store_self _ _ hfits.2]

/-- **No bit is set beside the fields.** -/
theorem testBit_control (hexponent : exponent < 2 ^ s.preDivider.width) (requested : Rate) {i : Nat}
    (h : ∀ f ∈ s.fields, ¬ f.Covers i) :
    (s.control number exponent divider requested).word.toNat.testBit i = false := by
  have hstore : ∀ (c : Control) (f : Field) (contents : Nat), f ∈ s.fields →
      (c.store f contents).word.toNat.testBit i = c.word.toNat.testBit i := fun c f contents hf =>
    (f.testBit_store c.word contents i).trans (if_neg (h f hf))
  have hempty : ({} : Control).word.toNat.testBit i = false := Nat.zero_testBit i
  unfold control
  simp only [insert_eq_store _ _ hexponent]
  split_ifs with hnew
  · rw [hstore, hstore, hstore, hstore, hempty] <;> simp [fields]
  · rw [hstore, hstore, hstore, hstore, hstore, hstore, hempty] <;> simp [fields, hnew]

end Control

/-! ### Settings -/

theorem source_eq (pllRate requested : Rate) :
    (source pllRate requested).1 = (if requested ≤ 24000000 then 0 else 1) ∧
      (source pllRate requested).2.toNat =
        if requested ≤ 24000000 then 24000000 else pllRate.toNat := by
  unfold source
  by_cases h : requested ≤ 24000000
  · rw [if_pos h, if_pos h, if_pos (show requested ≤ Clock.mainOscillator from h)]
    exact ⟨rfl, rfl⟩
  · rw [if_neg h, if_neg h, if_neg (show ¬ requested ≤ Clock.mainOscillator from h)]
    exact ⟨rfl, rfl⟩

theorem pos_of_encode {setting : Setting} (h : s.encode pllRate requested = .ok setting) :
    0 < requested := by
  refine UInt64.pos_iff_ne_zero.mpr ?_
  rintro rfl
  cases h

/-- **What a setting is made of**: the control register for the exponent and the divider of the ratio
halved, which are not too large, and the rate of the source divided by both. -/
theorem made_of_encode (hpos : 0 < requested) {setting : Setting}
    (h : s.encode pllRate requested = .ok setting) :
    let source := source pllRate requested
    let halved := halve 0 (ratio source.2 requested)
    halved.1 ≤ maxExponent ∧ max halved.2 1 ≤ maxDivider ∧
      setting.control = s.control source.1 halved.1 (max halved.2 1) requested ∧
      setting.rate = Rate.divided source.2 halved.1 (max halved.2 1) := by
  intro source halved
  rw [s.encode_eq pllRate hpos] at h
  simp only at h
  split_ifs at h with hexponent
  cases h
  exact ⟨not_lt.mp hexponent, max_le (halve_snd_le 0 _) (by decide), rfl, rfl⟩

/-- **What a setting holds**: the exponent and the divider of the ratio halved, and the number of the
source, whose rate it divides by both. -/
theorem Fitted.holds_of_encode (hs : s.Fitted) (hpos : 0 < requested) {setting : Setting}
    (h : s.encode pllRate requested = .ok setting) :
    let source := source pllRate requested
    let halved := halve 0 (ratio source.2 requested)
    s.exponent setting.control = halved.1 ∧ setting.control.divider + 1 = max halved.2 1 ∧
      setting.control.source = source.1 ∧
      setting.rate.toNat = source.2.toNat / (max halved.2 1 * 2 ^ halved.1) := by
  intro source halved
  obtain ⟨hexponent, hle, hcontrol, hrate⟩ := made_of_encode hpos h
  have hfits := hs.exponent_lt hexponent
  have hnumber : source.1 < 4 := by
    rw [(source_eq pllRate requested).1]
    split_ifs <;> decide
  rw [hcontrol, hrate]
  refine ⟨exponent_control hfits _ _ _ hs.apart_divider hs.apart_delays, ?_,
    source_control hfits _ _ _ hs.apart_source.symm hnumber, ?_⟩
  · rw [divider_control hfits _ _ _ hle]
    exact Nat.sub_add_cancel (le_max_right _ _)
  · rw [Clock.toNat_divided, Nat.mul_comm]

/-- **All that the word of a setting holds.** -/
structure Packed (s : Setter) (pllRate requested : Rate) (setting : Setting) : Prop where
  /-- The gate is open. -/
  enabled : setting.control.enabled = true
  /-- The source is the oscillator for requests up to its rate, and the PLL above. -/
  source : setting.control.source = if requested ≤ 24000000 then 0 else 1
  /-- The exponent and the divider are those of the ratio halved. -/
  halved : (s.exponent setting.control, setting.control.divider + 1) =
    ((halve 0 (ratio (Setter.source pllRate requested).2 requested)).1,
      max (halve 0 (ratio (Setter.source pllRate requested).2 requested)).2 1)
  /-- The rate is that of the source, halved and divided by what the word holds. -/
  rate : setting.rate.toNat = (if requested ≤ 24000000 then 24000000 else pllRate.toNat) >>>
    s.exponent setting.control / (setting.control.divider + 1)
  /-- The phase delays depend on the request. -/
  delays : s.newTiming = false → (setting.control.outputDelay, setting.control.sampleDelay) =
    if requested ≤ 400000 then (0, 0)
    else if requested ≤ 25000000 then (0, 5)
    else if requested ≤ 52000000 then (3, 4)
    else (1, 4)
  /-- In the new timing mode they are zero, unless the pre-divider lies in their place. -/
  undelayed : s.newTiming = true → ∀ f ∈ [Control.outputDelayField, Control.sampleDelayField],
    f.Apart s.preDivider → f.raw setting.control.word = 0
  /-- No bit is set beside the fields that are stored. -/
  rest : ∀ i, (∀ f ∈ s.fields, ¬ f.Covers i) → setting.control.word.toNat.testBit i = false

/-- A field apart from all that are stored is empty. -/
theorem raw_eq_zero {f : Field} {word : UInt32}
    (hrest : ∀ i, (∀ g ∈ s.fields, ¬ g.Covers i) → word.toNat.testBit i = false)
    (hf : ∀ g ∈ s.fields, f.Apart g) : f.raw word = 0 := by
  have hempty : f.raw word = f.raw 0 := by
    refine Field.raw_congr fun i hi => ?_
    rw [hrest i fun g hg => (hf g hg).not_covers hi]
    exact (Nat.zero_testBit i).symm
  rw [hempty, Field.raw_eq]
  simp

/-- In the new timing mode, a phase delay is apart from all fields if it is from the pre-divider. -/
theorem apart_fields (hnew : s.newTiming = true) {f : Field}
    (hf : f ∈ [Control.outputDelayField, Control.sampleDelayField]) (h : f.Apart s.preDivider) :
    ∀ g ∈ s.fields, f.Apart g := by
  have hothers : ∀ f ∈ [Control.outputDelayField, Control.sampleDelayField],
      ∀ g ∈ [Control.dividerField, Control.sourceField, Control.enableField], f.Apart g := by decide
  have hfields : s.fields =
      [s.preDivider, Control.dividerField, Control.sourceField, Control.enableField] := by
    rw [fields, hnew, if_pos rfl, List.append_nil]
  rw [hfields, List.forall_mem_cons]
  exact ⟨h, hothers f hf⟩

/-- **A setting is read back from its word**, for every setter whose pre-divider has a place of its
own, as it has on all generations. -/
theorem packed_of_encode :
    (∀ s ∈ shipped, s.Fitted) ∧
    ∀ s : Setter, s.Fitted → ∀ pllRate requested setting,
      s.encode pllRate requested = .ok setting → s.Packed pllRate requested setting := by
  refine ⟨fitted_shipped, fun s hs pllRate requested setting h => ?_⟩
  have hpos := pos_of_encode h
  obtain ⟨hle, -, hcontrol, -⟩ := made_of_encode hpos h
  have hfits := hs.exponent_lt hle
  obtain ⟨hexponent, hdivider, hsource, hrate⟩ := hs.holds_of_encode hpos h
  obtain ⟨hnumber, hsourceRate⟩ := source_eq pllRate requested
  have hrest : ∀ i, (∀ f ∈ s.fields, ¬ f.Covers i) →
      setting.control.word.toNat.testBit i = false := by
    rw [hcontrol]
    exact fun _ => testBit_control _ _ hfits requested
  refine ⟨?_, hsource.trans hnumber, Prod.ext hexponent hdivider, ?_, fun hold => ?_,
    fun hnew f hf hapart => raw_eq_zero hrest (apart_fields hnew hf hapart), hrest⟩
  · rw [hcontrol, Control.enabled, enableField_control hs.apart_enable.symm _ hfits]
    rfl
  · rw [hexponent, hdivider, hrate, hsourceRate, Nat.shiftRight_eq_div_pow,
      Nat.div_div_eq_div_mul, Nat.mul_comm]
  · rw [hcontrol]
    exact delays_control _ _ hold _ requested

/-- A setter whose pre-divider takes all the place between the phase delays. -/
def wideSetter : Setter := ⟨.a83t, { shift := 11, width := 9 }, false⟩

/-- Asked for 30 MHz from a PLL at 1200 MHz, it stores an exponent of two and a divider of ten between
phase delays of three and four. -/
theorem packed_of_encode_wide :
    wideSetter.Fitted ∧ ∃ setting, wideSetter.encode 1200000000 30000000 = .ok setting ∧
      setting.control.word = 0x81401309 ∧ setting.control.source = 1 ∧
      (setting.control.outputDelay, setting.control.sampleDelay) = (3, 4) ∧
      setting.rate = 30000000 ∧ setting.control.word.toNat.testBit 23 = false := by
  have hs : wideSetter.Fitted := ⟨by decide, by decide, by decide, by decide, by decide⟩
  have hmap : (wideSetter.encode 1200000000 30000000).toOption.map (·.control.word) =
      some 0x81401309 := by decide +kernel
  cases hset : wideSetter.encode 1200000000 30000000 with
  | error refusal =>
    rw [hset] at hmap
    cases hmap
  | ok setting =>
    rw [hset] at hmap
    have hword : setting.control.word = 0x81401309 := Option.some.inj hmap
    have packed := packed_of_encode.2 wideSetter hs _ _ setting hset
    have hexponent : wideSetter.exponent setting.control = 2 := by
      rw [exponent, hword]
      decide
    have hdivider : setting.control.divider = 9 := by
      rw [Control.divider, hword]
      decide
    have hrate := packed.rate
    rw [hexponent, hdivider] at hrate
    exact ⟨hs, setting, rfl, hword, packed.source, packed.delays rfl, UInt64.toNat_inj.mp hrate,
      packed.rest 23 (by decide)⟩

end Setter

end SocBringup.Mmc
