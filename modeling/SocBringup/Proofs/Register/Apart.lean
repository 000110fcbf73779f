import SocBringup.Register.FieldBits
import Mathlib.Tactic

/-! # Fields that lie apart

Storing in a field is seen in that field and in no field apart from it.

* `raw_congr`, `testBit_of_raw`: a field is known by its bits, and they by it.
* `testBit_store`: a store, bit by bit.
* `raw_store`: what was stored is read back, cut to the width of the field.
* `raw_store_apart`: the other fields read as before. -/

namespace SocBringup.Field

variable {f g : Field}

/-- Two fields without a common bit, one above the other. -/
def Apart (f g : Field) : Prop := f.shift + f.width ≤ g.shift ∨ g.shift + g.width ≤ f.shift

instance (f g : Field) : Decidable (f.Apart g) := by unfold Apart; infer_instance

theorem Apart.symm (h : f.Apart g) : g.Apart f := Or.symm h

theorem Apart.not_covers (h : f.Apart g) {i : Nat} (hi : f.Covers i) : ¬ g.Covers i := by
  unfold Apart at h
  unfold Covers at hi ⊢
  omega

/-- Two words that agree on the bits of a field hold the same in it. -/
theorem raw_congr {a b : UInt32}
    (h : ∀ i, f.Covers i → a.toNat.testBit i = b.toNat.testBit i) : f.raw a = f.raw b := by
  refine Nat.eq_of_testBit_eq fun i => ?_
  rw [testBit_raw, testBit_raw]
  by_cases hi : i < f.width
  · rw [h (f.shift + i) ⟨Nat.le_add_right _ _, Nat.add_lt_add_left hi _⟩]
  · simp [hi]

/-- Two words that hold the same in a field agree on its bits. -/
theorem testBit_of_raw {a b : UInt32} (h : f.raw a = f.raw b) {i : Nat} (hi : f.Covers i) :
    a.toNat.testBit i = b.toNat.testBit i := by
  have hbit := congrArg (·.testBit (i - f.shift)) h
  simpa only [testBit_raw, hi.sub_lt, decide_true, Bool.true_and, Nat.add_sub_cancel' hi.1]
    using hbit

/-- **A store sets the bits of the field and leaves the others.** -/
theorem testBit_store (f : Field) (word : UInt32) (contents i : Nat) :
    (f.store word contents).toNat.testBit i =
      if f.Covers i then contents.testBit (i - f.shift) else word.toNat.testBit i := by
  rw [store_eq, testBit_insert f word (Nat.mod_lt _ (Nat.two_pow_pos _))]
  split_ifs with h
  · simp [Nat.testBit_mod_two_pow, h.sub_lt]
  · rfl

/-- **What was stored is read back**, cut to the width of the field. -/
theorem raw_store (f : Field) (word : UInt32) (contents : Nat) :
    f.raw (f.store word contents) = contents % 2 ^ f.width := by
  rw [store_eq]
  exact f.raw_insert word (Nat.mod_lt _ (Nat.two_pow_pos _))

/-- **A store in one field is not seen in another.** -/
theorem raw_store_apart (h : f.Apart g) (word : UInt32) (contents : Nat) :
    f.raw (g.store word contents) = f.raw word := by
  refine raw_congr fun i hi => ?_
  rw [testBit_store, if_neg (h.not_covers hi)]

end SocBringup.Field
