import SocBringup.Register.Field
import Mathlib.Tactic

/-! # The bits of a field

What the operations on a field do to the single bits of a word.

* `mask_eq`, `raw_eq`, `insert_eq`, `store_eq`: the operations by powers of two.
* `testBit_mask`, `testBit_raw`: the mask and the contents, bit by bit.
* `testBit_cleared`, `and_eq_zero_iff`: words under a mask, and words without a common bit.
* `testBit_insert`: inserting contents that fit sets the bits of the field and leaves the others.
* `raw_insert`: what was inserted is read back. -/

namespace SocBringup.Field

/-- A bit of the word lies in the field. -/
def Covers (f : Field) (i : Nat) : Prop := f.shift ≤ i ∧ i < f.shift + f.width

instance (f : Field) (i : Nat) : Decidable (f.Covers i) := by unfold Covers; infer_instance

/-- The place of a covered bit among the contents. -/
theorem Covers.sub_lt {f : Field} {i : Nat} (h : f.Covers i) : i - f.shift < f.width := by
  unfold Covers at h
  omega

theorem shift_lt (f : Field) : f.shift < 32 := (of_decide_eq_true f.fits).1

theorem span_le (f : Field) : f.shift + f.width ≤ 32 := by
  have := of_decide_eq_true f.fits
  omega

/-! ### Powers of two -/

theorem mask_eq (f : Field) : f.mask = UInt32.ofNat ((2 ^ f.width - 1) * 2 ^ f.shift) := by
  rw [mask, Nat.one_shiftLeft, Nat.shiftLeft_eq]

theorem raw_eq (f : Field) (word : UInt32) :
    f.raw word = word.toNat / 2 ^ f.shift % 2 ^ f.width := by
  rw [raw, Nat.one_shiftLeft, Nat.shiftRight_eq_div_pow]

theorem insert_eq (f : Field) (word : UInt32) (contents : Nat) :
    f.insert word contents = (word &&& ~~~f.mask) ||| UInt32.ofNat (contents * 2 ^ f.shift) := by
  rw [insert, Nat.shiftLeft_eq]

theorem store_eq (f : Field) (word : UInt32) (contents : Nat) :
    f.store word contents = f.insert word (contents % 2 ^ f.width) := by
  rw [store, Nat.one_shiftLeft]

theorem raw_lt (f : Field) (word : UInt32) : f.raw word < 2 ^ f.width := by
  rw [raw_eq]
  exact Nat.mod_lt _ (Nat.two_pow_pos _)

theorem pow_mul_pow_le (f : Field) : 2 ^ f.width * 2 ^ f.shift ≤ 2 ^ 32 := by
  rw [← Nat.pow_add]
  exact Nat.pow_le_pow_right (by decide) (by have := f.span_le; omega)

theorem mul_pow_lt (f : Field) {contents : Nat} (h : contents < 2 ^ f.width) :
    contents * 2 ^ f.shift < 2 ^ 32 :=
  Nat.lt_of_lt_of_le (Nat.mul_lt_mul_of_pos_right h (Nat.two_pow_pos _)) f.pow_mul_pow_le

theorem toNat_mask (f : Field) : f.mask.toNat = (2 ^ f.width - 1) * 2 ^ f.shift := by
  have := Nat.two_pow_pos f.width
  rw [mask_eq, UInt32.toNat_ofNat', Nat.mod_eq_of_lt (f.mul_pow_lt (by omega))]

/-- **The mask has the bits of the field.** -/
theorem testBit_mask (f : Field) (i : Nat) : f.mask.toNat.testBit i = decide (f.Covers i) := by
  rw [toNat_mask, Nat.testBit_mul_two_pow, Nat.testBit_two_pow_sub_one]
  by_cases h : f.shift ≤ i
  · simp only [Covers, h, decide_true, Bool.true_and, true_and, decide_eq_decide]
    omega
  · simp [Covers, h]

/-- **The contents are the bits of the word from the shift up.** -/
theorem testBit_raw (f : Field) (word : UInt32) (i : Nat) :
    (f.raw word).testBit i = (decide (i < f.width) && word.toNat.testBit (f.shift + i)) := by
  rw [raw_eq, Nat.testBit_mod_two_pow, Nat.testBit_div_two_pow, Nat.add_comm]

theorem testBit_not (word : UInt32) {i : Nat} (h : i < 32) :
    (~~~word).toNat.testBit i = !word.toNat.testBit i := by
  rw [← UInt32.toNat_toBitVec, UInt32.toBitVec_not, BitVec.testBit_toNat, BitVec.getLsbD_not,
    ← BitVec.testBit_toNat, UInt32.toNat_toBitVec]
  simp [h]

theorem testBit_eq_false (word : UInt32) {i : Nat} (h : 32 ≤ i) : word.toNat.testBit i = false :=
  Nat.testBit_lt_two_pow (Nat.lt_of_lt_of_le word.toNat_lt (Nat.pow_le_pow_right (by decide) h))

/-- Clearing the bits of a mask leaves the others. -/
theorem testBit_cleared (word mask : UInt32) (i : Nat) :
    (word &&& ~~~mask).toNat.testBit i = (word.toNat.testBit i && !mask.toNat.testBit i) := by
  rw [UInt32.toNat_and, Nat.testBit_and]
  by_cases hi : i < 32
  · rw [testBit_not mask hi]
  · rw [testBit_eq_false word (by omega), Bool.false_and, Bool.false_and]

/-- Two words have no bit in common if no bit is set in both. -/
theorem and_eq_zero_iff {a b : UInt32} :
    a &&& b = 0 ↔ ∀ i, a.toNat.testBit i = true → b.toNat.testBit i = false := by
  have hbit : ∀ i, (a &&& b).toNat.testBit i = (a.toNat.testBit i && b.toNat.testBit i) := by
    intro i
    rw [UInt32.toNat_and, Nat.testBit_and]
  constructor
  · intro h i ha
    have hi := hbit i
    rw [h, ha, Bool.true_and] at hi
    exact hi.symm.trans (Nat.zero_testBit i)
  · intro h
    refine UInt32.toNat_inj.mp (Nat.eq_of_testBit_eq fun i => ?_)
    rw [hbit]
    cases ha : a.toNat.testBit i with
    | false => exact (Nat.zero_testBit i).symm
    | true =>
      rw [h i ha]
      exact (Nat.zero_testBit i).symm

/-- **Inserting contents that fit sets the bits of the field and leaves the others.** -/
theorem testBit_insert (f : Field) (word : UInt32) {contents : Nat} (h : contents < 2 ^ f.width)
    (i : Nat) : (f.insert word contents).toNat.testBit i =
      if f.Covers i then contents.testBit (i - f.shift) else word.toNat.testBit i := by
  rw [insert_eq, UInt32.toNat_or, Nat.testBit_or, testBit_cleared, UInt32.toNat_ofNat',
    Nat.mod_eq_of_lt (f.mul_pow_lt h), Nat.testBit_mul_two_pow, testBit_mask]
  by_cases hc : f.Covers i
  · simp [hc, hc.1]
  · rw [Covers, not_and] at hc
    by_cases hl : f.shift ≤ i
    · have hout : contents.testBit (i - f.shift) = false :=
        Nat.testBit_lt_two_pow (Nat.lt_of_lt_of_le h
          (Nat.pow_le_pow_right (by decide) (by have := hc hl; omega)))
      simp [Covers, hl, hc hl, hout]
    · simp [Covers, hl]

/-- **What was inserted is read back.** -/
theorem raw_insert (f : Field) (word : UInt32) {contents : Nat} (h : contents < 2 ^ f.width) :
    f.raw (f.insert word contents) = contents := by
  refine Nat.eq_of_testBit_eq fun i => ?_
  rw [testBit_raw, testBit_insert f word h]
  by_cases hi : i < f.width
  · rw [if_pos ⟨Nat.le_add_right _ _, Nat.add_lt_add_left hi _⟩]
    simp [hi]
  · rw [Nat.testBit_lt_two_pow (Nat.lt_of_lt_of_le h
      (Nat.pow_le_pow_right (by decide) (Nat.le_of_not_lt hi)))]
    simp [hi]

end SocBringup.Field
