import SocBringup.Proofs.Mmc.Packing

/-! # The setting that is chosen is the fastest

Of the exponents and dividers that a control register holds, many may keep a source within a
request. The ratio that is halved, rounding up each time, ends with those that divide the least.

* `Keeps`: an exponent and a divider that keep a source within a request.
* `exists_keeps_iff`: there are some for the requests that the largest divisor reaches.
* `halve_fst_le`, `divisor_halve_le`: halving ends with the least exponent and the least divisor.
* `Fastest`: an exponent and a divider whose divisor is the least.
* `Setter.choose_fastest`: what is chosen for a request is the fastest setting of its source. -/

namespace SocBringup.Mmc

open Clock (Rate)

/-! ### Exponents and dividers -/

/-- **An exponent and a divider keep a source within a request**, and a control register holds
both. -/
structure Keeps (source requested n m : Nat) : Prop where
  exponent_le : n ≤ 3
  pos : 1 ≤ m
  divider_le : m ≤ 16
  within : source ≤ requested * m * 2 ^ n

/-- **The fastest way to keep a source within a request**: the divisor is the least there is, and of
those that make the same divisor it has the least exponent. -/
structure Fastest (source requested n m : Nat) : Prop where
  keeps : Keeps source requested n m
  least : ∀ n' m', Keeps source requested n' m' → m * 2 ^ n ≤ m' * 2 ^ n'
  first : ∀ n' m', Keeps source requested n' m' → m' * 2 ^ n' = m * 2 ^ n → n ≤ n'

theorem exists_keeps_iff (source requested : Nat) :
    (∃ n m, Keeps source requested n m) ↔ source ≤ 128 * requested := by
  constructor
  · rintro ⟨n, m, hn, -, hm, hwithin⟩
    calc source
        ≤ requested * m * 2 ^ n := hwithin
      _ ≤ requested * 16 * 2 ^ 3 :=
        Nat.mul_le_mul (Nat.mul_le_mul_left _ hm) (Nat.pow_le_pow_right (by decide) hn)
      _ = 128 * requested := by omega
  · intro h
    exact ⟨3, 16, le_rfl, by decide, le_rfl, by omega⟩

/-! ### Halving -/

section Halving
variable {ratio n m : Nat}

/-- **Halving ends with the least exponent.** -/
theorem halve_fst_le (hm : m ≤ 16) (h : ratio ≤ m * 2 ^ n) : (halve 0 ratio).1 ≤ n := by
  rw [← Nat.zero_add n, halve_fst_le_iff]
  exact h.trans (Nat.mul_le_mul_right _ hm)

/-- **Halving ends with the least divisor.** Every divisor that does is a multiple of the power of
two that halving ends with, as its exponent is no less, and halving rounds up to such a multiple. -/
theorem divisor_halve_le (hpos : 1 ≤ m) (hm : m ≤ 16) (h : ratio ≤ m * 2 ^ n) :
    max (halve 0 ratio).2 1 * 2 ^ (halve 0 ratio).1 ≤ m * 2 ^ n := by
  obtain ⟨more, hmore⟩ := Nat.exists_eq_add_of_le (halve_fst_le hm h)
  have hsplit : m * 2 ^ n = m * 2 ^ more * 2 ^ (halve 0 ratio).1 := by
    rw [hmore, Nat.pow_add, Nat.mul_comm (2 ^ _) (2 ^ more), Nat.mul_assoc]
  rw [hsplit] at h ⊢
  refine Nat.mul_le_mul_right _ (max_le ?_ (Nat.mul_pos hpos (Nat.two_pow_pos more)))
  exact (halve_snd_le_iff 0 ratio _).mpr h

end Halving

section Ratio
variable {source requested : Rate} (hpos : 0 < requested) (htame : Tame source requested)
include hpos htame

/-- What keeps a source within a request is not below their ratio. -/
theorem ratio_le_of_keeps {n m : Nat} (h : Keeps source.toNat requested.toNat n m) :
    ratio source requested ≤ m * 2 ^ n := by
  have hproduct : 1 ≤ m * 2 ^ n := Nat.mul_pos h.pos (Nat.two_pow_pos n)
  rw [ratio_le_iff hpos htame hproduct, Nat.mul_comm, ← Nat.mul_assoc]
  exact h.within

/-- **The ratio halved is the fastest way**, if there is any. -/
theorem fastest_halve (h : source.toNat ≤ 128 * requested.toNat) :
    Fastest source.toNat requested.toNat (halve 0 (ratio source requested)).1
      (max (halve 0 (ratio source requested)).2 1) where
  keeps := by
    have hle := Setter.le_divisor_mul hpos htame
    refine ⟨?_, le_max_right _ _, max_le (halve_snd_le 0 _) (by decide), ?_⟩
    · have hratio : ratio source requested ≤ 16 * 2 ^ 3 := (ratio_le_iff hpos htame (by decide)).mpr h
      exact halve_fst_le le_rfl hratio
    · rwa [Nat.mul_assoc, Nat.mul_comm, Nat.mul_comm (max _ _)]
  least n' m' h' := divisor_halve_le h'.pos h'.divider_le (ratio_le_of_keeps hpos htame h')
  first n' m' h' _ := halve_fst_le h'.divider_le (ratio_le_of_keeps hpos htame h')

end Ratio

/-! ### Settings -/

namespace Setter

variable {s : Setter} {pllRate requested : Rate}

/-- A refusal is answered as an invalid argument. -/
theorem value_choose {σ : Type} (serve : Handler Registers σ) (state : σ) :
    ((s.choose pllRate requested).run serve state).value =
      (s.encode pllRate requested).mapError fun _ => .invalidArgument := by
  unfold choose
  cases s.encode pllRate requested <;> rfl

/-- **What a setting holds**: the exponent and the divider of the ratio halved, and the number of the
source, whose rate it divides by both. -/
theorem holds_of_encode (hs : s ∈ shipped) (hpos : 0 < requested) {setting : Setting}
    (h : s.encode pllRate requested = .ok setting) :
    let source := source pllRate requested
    let halved := halve 0 (ratio source.2 requested)
    s.exponent setting.control = halved.1 ∧ setting.control.divider + 1 = max halved.2 1 ∧
      setting.control.source = source.1 ∧
      setting.rate.toNat = source.2.toNat / (max halved.2 1 * 2 ^ halved.1) :=
  (fitted_shipped s hs).holds_of_encode hpos h

/-- **What is chosen for a request is the fastest setting of its source.** The source is the
oscillator for requests up to its rate and the PLL above. As long as source and request do not sum to
more than a rate can be, there is a setting if and only if some exponent and divider keep the source
within the request, that is if the source is at most a hundred and twenty-eight times the request;
if not, the request is an invalid argument. The exponent and the divider that a setting holds are the
fastest way to keep the source within the request; it names the source, and its rate is that of the
source divided by both. -/
theorem choose_fastest (hs : s ∈ shipped) (pllRate : Rate) (hpos : 0 < requested) {σ : Type}
    (serve : Handler Registers σ) (state : σ) :
    let number := if requested ≤ 24000000 then 0 else 1
    let sourceRate := if requested ≤ 24000000 then 24000000 else pllRate.toNat
    let answer := ((s.choose pllRate requested).run serve state).value
    sourceRate + requested.toNat - 1 < 2 ^ 64 →
    ((∃ setting, answer = .ok setting) ↔ ∃ n m, Keeps sourceRate requested.toNat n m) ∧
    ((∃ n m, Keeps sourceRate requested.toNat n m) ↔ sourceRate ≤ 128 * requested.toNat) ∧
    ((¬ ∃ n m, Keeps sourceRate requested.toNat n m) → answer = .error .invalidArgument) ∧
    ∀ setting, answer = .ok setting →
      let n := s.exponent setting.control
      let m := setting.control.divider + 1
      Fastest sourceRate requested.toNat n m ∧ setting.control.source = number ∧
        setting.rate.toNat = sourceRate / (m * 2 ^ n) := by
  intro number sourceRate answer hwrap
  obtain ⟨hnumber, hrate⟩ := source_eq pllRate requested
  have hrequested : 0 < requested.toNat := UInt64.lt_iff_toNat_lt.mp hpos
  have htame : Tame (source pllRate requested).2 requested := by
    refine Or.inr ?_
    rw [hrate]
    show sourceRate + requested.toNat ≤ 2 ^ 64
    omega
  have hreach := exists_keeps_iff sourceRate requested.toNat
  have hiff := s.exists_encode_iff htame
  rw [and_iff_right hpos, hrate, ← hreach] at hiff
  have hanswer : answer = (s.encode pllRate requested).mapError fun _ => .invalidArgument :=
    value_choose serve state
  cases hset : s.encode pllRate requested with
  | error refusal =>
    rw [hset] at hanswer hiff
    have hnone : ¬ ∃ n m, Keeps sourceRate requested.toNat n m :=
      mt hiff.mpr fun ⟨_, h⟩ => nomatch h
    refine ⟨iff_of_false (fun ⟨_, h⟩ => ?_) hnone, hreach, fun _ => hanswer, fun _ h => ?_⟩
    · exact nomatch h.symm.trans hanswer
    · exact nomatch h.symm.trans hanswer
  | ok setting =>
    rw [hset] at hanswer hiff
    have hsome : ∃ n m, Keeps sourceRate requested.toNat n m := hiff.mp ⟨_, rfl⟩
    refine ⟨iff_of_true ⟨_, hanswer⟩ hsome, hreach, fun hnone => absurd hsome hnone, ?_⟩
    intro setting' h
    cases h.symm.trans hanswer
    obtain ⟨hexponent, hdivider, hsource, hdivided⟩ := holds_of_encode hs hpos hset
    have hfastest := fastest_halve hpos htame (hrate ▸ hreach.mp hsome)
    rw [hrate] at hfastest hdivided
    rw [hexponent, hdivider]
    exact ⟨hfastest, hsource.trans hnumber, hdivided⟩

/-- The H6 is asked for 25.5 MHz with its PLL at 840 MHz, about thirty-three times as fast. Of what
is that or more, four times nine is the least that can be made, and the clock runs at 23.3 MHz. -/
theorem choose_fastest_h6 :
    let answer := ((h6.choose 840000000 25500000).run RegisterFile.serve {}).value
    h6 ∈ shipped ∧ (0 : Rate) < 25500000 ∧ 840000000 + 25500000 - 1 < 2 ^ 64 ∧
      Fastest 840000000 25500000 2 9 ∧
      ∃ setting, answer = .ok setting ∧ setting.control.source = 1 ∧ setting.rate = 23333333 := by
  intro answer
  have hs : h6 ∈ shipped := by decide
  have hpos : (0 : Rate) < 25500000 := by decide
  obtain ⟨hiff, hreach, -, hchosen⟩ :=
    choose_fastest hs 840000000 hpos RegisterFile.serve {} (by decide)
  obtain ⟨setting, hset⟩ := hiff.mpr (hreach.mpr (by decide))
  have hmap : answer.map (·.control.word) = .ok 0x81000208 := by decide +kernel
  rw [show answer = .ok setting from hset] at hmap
  have hword : setting.control.word = 0x81000208 := Except.ok.inj hmap
  obtain ⟨hfastest, hsource, hrate⟩ := hchosen setting hset
  have hexponent : h6.exponent setting.control = 2 := by
    unfold exponent
    rw [hword]
    decide
  have hdivider : setting.control.divider + 1 = 9 := by
    unfold Control.divider
    rw [hword]
    decide
  rw [hexponent, hdivider] at hfastest hrate
  exact ⟨hs, hpos, by decide, hfastest, setting, hset, hsource, UInt64.toNat_inj.mp hrate⟩

end Setter

end SocBringup.Mmc
