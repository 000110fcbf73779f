import SocBringup.Register.FieldBits
import Mathlib.Tactic

/-! # The factor a field stands for

* `value_congr`: a factor is known by the contents of its field.
* `factor`, `value_eq_factor`: how, by the rule of the field alone.
* `value_mono`, `value_lt`, `value_le_max`, `min_le_value`: greater contents never stand for a smaller
  factor, no factor is too much for a word, and the bounds hold, of which the upper one goes first.
* `value_absent`: a field without bits stands for one.
* `value_le`: the largest factor of a field without a lower bound.
* `value_eq_max`: a field with an offset of one stands for its contents plus one, raised to the lower
  bound; `value_eq_succ` where the lower bound does not raise it. -/

namespace SocBringup.Field

theorem value_congr {f : Field} {a b : UInt32} (h : f.raw a = f.raw b) :
    f.value a = f.value b := by
  unfold value
  rw [h]

/-! ### The rule -/

/-- The factor that some contents of the field stand for. -/
def factor (f : Field) (contents : Nat) : Nat :=
  let sum := Nat.max (Nat.min (contents + f.offset.toNat) ceiling) 1
  let raised := Nat.max sum f.min.toNat
  if f.max = 0 then raised else Nat.min raised f.max.toNat

/-- **A factor is what its contents stand for.** A lower bound of zero raises nothing. -/
theorem value_eq_factor (f : Field) (word : UInt32) : f.value word = f.factor (f.raw word) := by
  have hone : ∀ sum : Nat, (if sum = 0 then 1 else sum) = Nat.max sum 1 := by
    intro sum
    split_ifs with hzero
    · rw [hzero]; rfl
    · exact (max_eq_left (Nat.one_le_iff_ne_zero.mpr hzero)).symm
  have hraise : ∀ sum : Nat, (if f.min ≠ 0 ∧ sum < f.min.toNat then f.min.toNat else sum) =
      Nat.max sum f.min.toNat := by
    intro sum
    by_cases hzero : f.min = 0
    · rw [if_neg fun h => h.1 hzero, hzero]
      exact (max_eq_left (Nat.zero_le sum)).symm
    · split_ifs with h
      · exact (max_eq_right h.2.le).symm
      · exact (max_eq_left (not_lt.mp fun hlt => h ⟨hzero, hlt⟩)).symm
  have hcut : ∀ sum : Nat, (if f.max ≠ 0 ∧ f.max.toNat < sum then f.max.toNat else sum) =
      if f.max = 0 then sum else Nat.min sum f.max.toNat := by
    intro sum
    split_ifs with h hzero hzero
    · exact absurd hzero h.1
    · exact (min_eq_right h.2.le).symm
    · rfl
    · exact (min_eq_left (not_lt.mp fun hlt => h ⟨hzero, hlt⟩)).symm
  unfold value factor
  simp only [hone, hraise, hcut]

/-- **Greater contents never stand for a smaller factor**: a sum that is too much for a word stops at
the ceiling. -/
theorem factor_mono (f : Field) : Monotone f.factor := by
  intro a b h
  have hsum : Nat.min (a + f.offset.toNat) ceiling ≤ Nat.min (b + f.offset.toNat) ceiling :=
    min_le_min_right _ (Nat.add_le_add_right h _)
  have hraised := max_le_max_right f.min.toNat (max_le_max_right 1 hsum)
  unfold factor
  split_ifs
  · exact hraised
  · exact min_le_min_right _ hraised

theorem value_mono {f : Field} {a b : UInt32} (h : f.raw a ≤ f.raw b) : f.value a ≤ f.value b := by
  rw [value_eq_factor, value_eq_factor]
  exact f.factor_mono h

/-- **No factor is too much for a word.** -/
theorem value_lt (f : Field) (word : UInt32) : f.value word < 2 ^ 32 := by
  have hsum : Nat.min (f.raw word + f.offset.toNat) ceiling < 2 ^ 32 :=
    lt_of_le_of_lt (min_le_right _ _) (by decide)
  have hraised := max_lt (max_lt hsum (by decide : 1 < 2 ^ 32)) f.min.toNat_lt
  rw [value_eq_factor, factor]
  split_ifs
  · exact hraised
  · exact lt_of_le_of_lt (min_le_left _ _) hraised

/-- **The upper bound holds**, also where the lower one is above it. -/
theorem value_le_max {f : Field} (hmax : f.max ≠ 0) (word : UInt32) :
    f.value word ≤ f.max.toNat := by
  rw [value_eq_factor, factor, if_neg hmax]
  exact Nat.min_le_right _ _

/-- **The lower bound holds**, unless it is above the upper one. -/
theorem min_le_value {f : Field} (h : f.max = 0 ∨ f.min ≤ f.max) (word : UInt32) :
    f.min.toNat ≤ f.value word := by
  rw [value_eq_factor, factor]
  split_ifs with hmax
  · exact Nat.le_max_right _ _
  · exact Nat.le_min_of_le_of_le (Nat.le_max_right _ _)
      (UInt32.le_iff_toNat_le.mp (h.resolve_left hmax))

/-! ### Fields of one kind -/

theorem value_absent (word : UInt32) : absent.value word = 1 := by
  unfold value
  rw [raw_absent]
  rfl

/-- The largest factor that the bits of a field and its offset can make. -/
def largest (f : Field) : Nat := Nat.max 1 (2 ^ f.width - 1 + f.offset.toNat)

/-- **No factor is above the largest**, unless a lower bound raises it. -/
theorem value_le {f : Field} (hmin : f.min = 0) (word : UInt32) : f.value word ≤ f.largest := by
  have hraw : f.raw word < 2 ^ f.width := f.raw_lt word
  have hsum : Nat.min (f.raw word + f.offset.toNat) ceiling ≤ f.largest := by
    refine (min_le_left _ _).trans (le_max_of_le_right ?_)
    omega
  have hraised : Nat.max (Nat.max (Nat.min (f.raw word + f.offset.toNat) ceiling) 1) f.min.toNat ≤
      f.largest := by
    rw [hmin]
    exact max_le (max_le hsum (le_max_left _ _)) (Nat.zero_le _)
  rw [value_eq_factor, factor]
  split_ifs
  · exact hraised
  · exact (min_le_left _ _).trans hraised

/-- **Contents plus one, raised to the lower bound.** The sum never comes near the ceiling as long as
a bit of the word is outside the field. -/
theorem value_eq_max {f : Field} {word : UInt32} (hoffset : f.offset = 1) (hwidth : f.width < 32)
    (hmax : f.max = 0) : f.value word = Nat.max f.min.toNat (f.raw word + 1) := by
  have hraw : f.raw word + 1 ≤ ceiling := by
    have hpow : 2 ^ f.width ≤ 2 ^ 31 := Nat.pow_le_pow_right (by decide) (by omega)
    have hlt := f.raw_lt word
    have hceiling : ceiling = 2 ^ 32 - 1 := rfl
    omega
  have hsum : Nat.max (Nat.min (f.raw word + f.offset.toNat) ceiling) 1 = f.raw word + 1 := by
    rw [hoffset]
    exact (max_eq_left (le_min (Nat.le_add_left _ _) (by decide))).trans (min_eq_left hraw)
  rw [value_eq_factor, factor, hmax, if_pos rfl, hsum]
  exact max_comm _ _

/-- **Contents plus one**, where the lower bound does not raise it. -/
theorem value_eq_succ {f : Field} {word : UInt32} (hoffset : f.offset = 1) (hwidth : f.width < 32)
    (hmin : f.min.toNat ≤ f.raw word + 1) (hmax : f.max = 0) :
    f.value word = f.raw word + 1 := by
  rw [value_eq_max hoffset hwidth hmax]
  exact max_eq_right hmin

end SocBringup.Field
