import SocBringup.Proofs.Clock.Climb
import SocBringup.Proofs.Mmc.Decoding

/-! # How far a source can be divided

The ratio of source and request is rounded up and halved, rounding up, until it fits the divider.
What comes of it is as good as the exact ratio: the exponent is the least one that lets the divider
reach the request, and source over both does not exceed it.

* `ratio_le_iff`: what the ratio is at most, in spite of the wrap of 64-bit arithmetic.
* `halve_fst_le_iff`, `halve_snd_le_iff`: how often a ratio is halved, and what comes of it.
* `encode_eq`: a setting is made of the ratio halved.
* `exists_encode_iff`: there is a setting for the requests that the largest divider reaches.
* `rate_le_of_encode`: a setting never exceeds its request. -/

namespace SocBringup.Mmc

open Clock (Rate)

/-! ### The ratio -/

/-- The ratio of source and request, rounded up in 64-bit arithmetic, which wraps. -/
def ratio (source requested : Rate) : Nat := ((source + requested - 1) / requested).toNat

/-- The sum that rounds a ratio up either does not wrap, or the request is above the source. -/
def Tame (source requested : Rate) : Prop :=
  source ≤ requested ∨ source.toNat + requested.toNat ≤ 2 ^ 64

theorem tame_of_le {source : Rate} (h : source.toNat ≤ 2 ^ 63) (requested : Rate) :
    Tame source requested := by
  by_cases hle : source ≤ requested
  · exact Or.inl hle
  · have hlt : requested.toNat < source.toNat := UInt64.lt_iff_toNat_lt.mp (UInt64.not_le.mp hle)
    exact Or.inr (by omega)

variable {source requested : Rate}

theorem toNat_roundingSum (hpos : 0 < requested) :
    (source + requested - 1).toNat = (source.toNat + (requested.toNat - 1)) % 2 ^ 64 := by
  have hrequested : 0 < requested.toNat := UInt64.lt_iff_toNat_lt.mp hpos
  have hlt : requested.toNat < 2 ^ 64 := requested.toNat_lt
  have hone : (1 : UInt64).toNat = 1 := rfl
  rw [UInt64.toNat_sub, UInt64.toNat_add, hone]
  omega

/-- **The ratio is rounded up.** Where the sum wraps the ratio is zero, but one would do. -/
theorem ratio_le_iff (hpos : 0 < requested) (htame : Tame source requested) {c : Nat}
    (hc : 1 ≤ c) : ratio source requested ≤ c ↔ source.toNat ≤ c * requested.toNat := by
  have hrequested : 0 < requested.toNat := UInt64.lt_iff_toNat_lt.mp hpos
  have hsource : source.toNat < 2 ^ 64 := source.toNat_lt
  have hlt : requested.toNat < 2 ^ 64 := requested.toNat_lt
  have hmul : requested.toNat ≤ c * requested.toNat := Nat.le_mul_of_pos_left _ hc
  rw [ratio, UInt64.toNat_div, toNat_roundingSum hpos]
  by_cases hwraps : source.toNat + (requested.toNat - 1) < 2 ^ 64
  · rw [Nat.mod_eq_of_lt hwraps, Nat.div_le_iff_le_mul_add_pred hrequested, Nat.mul_comm]
    omega
  · -- the request is so large that it is above the source
    have hle : source.toNat ≤ requested.toNat := by
      rcases htame with h | h
      · exact UInt64.le_iff_toNat_le.mp h
      · omega
    have hsmall : (source.toNat + (requested.toNat - 1)) % 2 ^ 64 < requested.toNat := by omega
    rw [Nat.div_eq_of_lt hsmall]
    exact iff_of_true (Nat.zero_le _) (hle.trans hmul)

/-! ### Halving -/

theorem le_halve_fst (exponent ratio : Nat) : exponent ≤ (halve exponent ratio).1 := by
  induction exponent, ratio using halve.induct with
  | case1 exponent ratio h ih =>
    rw [halve, if_pos h]
    omega
  | case2 exponent ratio h => rw [halve, if_neg h]

/-- **A ratio is halved as often as it takes to fit the divider**, and not more often. -/
theorem halve_fst_le_iff (exponent ratio k : Nat) :
    (halve exponent ratio).1 ≤ exponent + k ↔ ratio ≤ maxDivider * 2 ^ k := by
  induction exponent, ratio using halve.induct generalizing k with
  | case1 exponent ratio h ih =>
    rw [halve, if_pos h]
    cases k with
    | zero =>
      have hle := le_halve_fst (exponent + 1) ((ratio + 1) / 2)
      omega
    | succ k =>
      have hk : exponent + (k + 1) = exponent + 1 + k := by omega
      rw [hk, ih k, Nat.pow_succ, ← Nat.mul_assoc]
      omega
  | case2 exponent ratio h =>
    rw [halve, if_neg h]
    have hone : 1 ≤ 2 ^ k := Nat.one_le_two_pow
    have hmul : maxDivider * 1 ≤ maxDivider * 2 ^ k := Nat.mul_le_mul_left _ hone
    exact iff_of_true (Nat.le_add_right _ _) (by omega)

/-- **A ratio is rounded up as if it were divided once**, by all the halvings together. -/
theorem halve_snd_le_iff (exponent ratio c : Nat) :
    (halve exponent ratio).2 ≤ c ↔ ratio ≤ c * 2 ^ ((halve exponent ratio).1 - exponent) := by
  induction exponent, ratio using halve.induct with
  | case1 exponent ratio h ih =>
    rw [halve, if_pos h, ih]
    have hle := le_halve_fst (exponent + 1) ((ratio + 1) / 2)
    have hexponent : (halve (exponent + 1) ((ratio + 1) / 2)).1 - exponent =
        (halve (exponent + 1) ((ratio + 1) / 2)).1 - (exponent + 1) + 1 := by omega
    rw [hexponent, Nat.pow_succ, ← Nat.mul_assoc]
    omega
  | case2 exponent ratio h => rw [halve, if_neg h, Nat.sub_self, Nat.pow_zero, Nat.mul_one]

/-! ### Settings -/

namespace Setter

variable (s : Setter) {pllRate : Rate}

/-- **A setting is made of the ratio halved.** -/
theorem encode_eq (pllRate : Rate) (hpos : 0 < requested) :
    s.encode pllRate requested =
      let source := Setter.source pllRate requested
      let halved := halve 0 (ratio source.2 requested)
      if maxExponent < halved.1 then .error (.unreachable requested source.2)
      else .ok ⟨s.control source.1 halved.1 (max halved.2 1) requested,
        Rate.divided source.2 halved.1 (max halved.2 1)⟩ := by
  unfold encode
  rw [if_neg (UInt64.pos_iff_ne_zero.mp hpos)]
  rfl

/-- **There is a setting for the requests that the largest divider reaches**, a hundred and
twenty-eighth of the source or more. -/
theorem exists_encode_iff (htame : Tame (Setter.source pllRate requested).2 requested) :
    (∃ setting, s.encode pllRate requested = .ok setting) ↔
      0 < requested ∧ (Setter.source pllRate requested).2.toNat ≤ 128 * requested.toNat := by
  by_cases h0 : requested = 0
  · subst h0
    exact iff_of_false (fun ⟨_, h⟩ => nomatch h) fun h => absurd h.1 (lt_irrefl 0)
  · have hpos : 0 < requested := UInt64.pos_iff_ne_zero.mpr h0
    have hreach : (halve 0 (ratio (Setter.source pllRate requested).2 requested)).1 ≤ maxExponent ↔
        (Setter.source pllRate requested).2.toNat ≤ 128 * requested.toNat := by
      rw [← ratio_le_iff hpos htame (c := 128) (by decide), ← Nat.zero_add maxExponent,
        halve_fst_le_iff]
      rfl
    rw [← hreach, and_iff_right hpos, s.encode_eq pllRate hpos]
    simp only
    split_ifs with hexponent
    · exact iff_of_false (fun ⟨_, h⟩ => nomatch h) (not_le.mpr hexponent)
    · exact iff_of_true ⟨_, rfl⟩ (not_lt.mp hexponent)

/-- A source is not above its request times what it is divided by. -/
theorem le_divisor_mul {source : Rate} (hpos : 0 < requested) (htame : Tame source requested) :
    let halved := halve 0 (ratio source requested)
    source.toNat ≤ 2 ^ halved.1 * max halved.2 1 * requested.toNat := by
  intro halved
  have hratio : ratio source requested ≤ 2 ^ halved.1 * halved.2 := by
    have hle := (halve_snd_le_iff 0 (ratio source requested) halved.2).mp le_rfl
    rwa [Nat.sub_zero, Nat.mul_comm] at hle
  have hdivisor : max (ratio source requested) 1 ≤ 2 ^ halved.1 * max halved.2 1 := by
    refine max_le (hratio.trans (Nat.mul_le_mul_left _ (le_max_left _ _))) ?_
    exact Nat.mul_pos (Nat.two_pow_pos _) (le_max_right halved.2 1)
  calc source.toNat
      ≤ max (ratio source requested) 1 * requested.toNat :=
        (ratio_le_iff hpos htame (le_max_right _ _)).mp (le_max_left _ _)
    _ ≤ 2 ^ halved.1 * max halved.2 1 * requested.toNat := Nat.mul_le_mul_right _ hdivisor

/-- **A setting never exceeds its request.** -/
theorem rate_le_of_encode (htame : Tame (Setter.source pllRate requested).2 requested)
    {setting : Setting} (h : s.encode pllRate requested = .ok setting) :
    setting.rate ≤ requested := by
  have hpos : 0 < requested := ((s.exists_encode_iff htame).mp ⟨_, h⟩).1
  have hle := le_divisor_mul hpos htame
  rw [s.encode_eq pllRate hpos] at h
  simp only at h
  split_ifs at h with hexponent
  cases h
  refine UInt64.le_iff_toNat_le.mpr ?_
  show (Rate.divided (Setter.source pllRate requested).2 _ _).toNat ≤ _
  rw [Clock.toNat_divided]
  exact Nat.div_le_of_le_mul hle

/-- **A setting never stops the clock**, if the source runs at a hundred and twenty-eight Hz or
faster. -/
theorem rate_pos_of_encode {setting : Setting} (h : s.encode pllRate requested = .ok setting)
    (hfast : 128 ≤ (Setter.source pllRate requested).2.toNat) : 0 < setting.rate := by
  obtain ⟨exponent, divider, hexponent, hpos, hle, -, hrate⟩ := exists_of_encode h
  have hdivisor : 2 ^ exponent * divider ≤ 128 := by
    calc 2 ^ exponent * divider
        ≤ 2 ^ 3 * 16 := Nat.mul_le_mul (Nat.pow_le_pow_right (by decide) hexponent) hle
      _ = 128 := rfl
  refine UInt64.lt_iff_toNat_lt.mpr ?_
  rw [hrate, Clock.toNat_divided]
  exact Nat.div_pos (hdivisor.trans hfast) (Nat.mul_pos (Nat.two_pow_pos _) hpos)

end Setter

end SocBringup.Mmc
