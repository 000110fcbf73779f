import SocBringup.Proofs.Mmc.Fastest

/-! # Asking for more

A clock runs at the greatest rate to which its source can be divided within the request. So on one
source, a greater request is never answered with less. The PLL is divided in steps of its own,
though: a request above the oscillator may be answered with less than one below it.

* `Attains`: a source can be divided to a rate, or a greater one, within a request.
* `Fastest.attains_iff`: the fastest way gives the greatest of these rates.
* `Fastest.half_le`: it gives no less than half of the request, if the source has that.
* `Setter.le_rate_iff`: what a setting is known to give.
* `Setter.answers_ordered`: when a greater request is answered with as much or more. -/

namespace SocBringup.Mmc

open Clock (Rate mainOscillator)

/-! ### Rates within a request -/

/-- **A source can be divided to a rate, or a greater one,** and is kept within a request. -/
def Attains (source requested rate : Nat) : Prop :=
  ∃ n m, Keeps source requested n m ∧ rate ≤ source / (m * 2 ^ n)

section Within
variable {source requested rate n m : Nat}

theorem Keeps.mono {requested' : Nat} (h : Keeps source requested n m)
    (hle : requested ≤ requested') : Keeps source requested' n m where
  exponent_le := h.exponent_le
  pos := h.pos
  divider_le := h.divider_le
  within := h.within.trans (Nat.mul_le_mul_right _ (Nat.mul_le_mul_right _ hle))

theorem Keeps.divisor_pos (h : Keeps source requested n m) : 0 < m * 2 ^ n :=
  Nat.mul_pos h.pos (Nat.two_pow_pos n)

/-- **A greater request attains what a smaller one does.** -/
theorem Attains.mono {requested' : Nat} (h : Attains source requested rate)
    (hle : requested ≤ requested') : Attains source requested' rate := by
  obtain ⟨n, m, hkeeps, hrate⟩ := h
  exact ⟨n, m, hkeeps.mono hle, hrate⟩

/-- **The fastest way gives the greatest rate** within a request. -/
theorem Fastest.attains_iff (h : Fastest source requested n m) :
    Attains source requested rate ↔ rate ≤ source / (m * 2 ^ n) := by
  constructor
  · rintro ⟨n', m', hkeeps, hrate⟩
    exact hrate.trans (Nat.div_le_div_left (h.least n' m' hkeeps) h.keeps.divisor_pos)
  · exact fun hrate => ⟨n, m, h.keeps, hrate⟩

/-- Every divisor but one has another below it, and not below its half. -/
theorem exists_smaller_divisor (hn : n ≤ 3) (hpos : 1 ≤ m) (hm : m ≤ 16) (hne : m * 2 ^ n ≠ 1) :
    ∃ n' m', n' ≤ 3 ∧ 1 ≤ m' ∧ m' ≤ 16 ∧ m' * 2 ^ n' < m * 2 ^ n ∧
      m * 2 ^ n ≤ 2 * (m' * 2 ^ n') := by
  cases n with
  | zero =>
    rw [pow_zero, mul_one] at hne ⊢
    exact ⟨0, m - 1, hn, by omega, by omega, by omega, by omega⟩
  | succ k =>
    have hk : 0 < m * 2 ^ k := Nat.mul_pos hpos (Nat.two_pow_pos k)
    rw [pow_succ, ← mul_assoc]
    exact ⟨k, m, by omega, hpos, hm, by omega, by omega⟩

/-- **The fastest way gives half of the request or more**, if the source has that. A divisor below
the least one would exceed the request, and there is one that is no less than its half. -/
theorem Fastest.half_le (h : Fastest source requested n m) :
    min source (requested / 2) ≤ source / (m * 2 ^ n) := by
  by_cases hone : m * 2 ^ n = 1
  · rw [hone, Nat.div_one]
    exact min_le_left _ _
  · obtain ⟨n', m', hn, hpos, hm, hlt, hhalf⟩ :=
      exists_smaller_divisor h.keeps.exponent_le h.keeps.pos h.keeps.divider_le hone
    have hexceeds : requested * (m' * 2 ^ n') < source := by
      by_contra hwithin
      rw [not_lt, ← mul_assoc] at hwithin
      exact absurd (h.least n' m' ⟨hn, hpos, hm, hwithin⟩) (not_le.mpr hlt)
    refine (min_le_right _ _).trans ((Nat.le_div_iff_mul_le h.keeps.divisor_pos).mpr ?_)
    calc requested / 2 * (m * 2 ^ n)
        ≤ requested / 2 * (2 * (m' * 2 ^ n')) := Nat.mul_le_mul_left _ hhalf
      _ = requested / 2 * 2 * (m' * 2 ^ n') := (mul_assoc _ _ _).symm
      _ ≤ requested * (m' * 2 ^ n') := Nat.mul_le_mul_right _ (Nat.div_mul_le_self _ _)
      _ ≤ source := hexceeds.le

end Within

/-! ### Settings -/

namespace Setter

variable {s : Setter} {file : RegisterFile} {offset : Nat}

/-- **A setting divides its source in the fastest way.** -/
theorem exists_fastest (hs : s ∈ shipped) {requested : Rate} {setting : Setting}
    (h : s.setting file requested = .ok setting) :
    let source := (source (s.pll.rateOf (file.get s.pll.offset)) requested).2.toNat
    ∃ n m, Fastest source requested.toNat n m ∧ setting.rate.toNat = source / (m * 2 ^ n) := by
  have hpos := pos_of_encode h
  have htame := tame_of_le (source_bounds hs (file.get s.pll.offset) requested).2 requested
  have hreach := ((s.exists_encode_iff htame).mp ⟨setting, h⟩).2
  obtain ⟨-, -, -, hrate⟩ := holds_of_encode hs hpos h
  exact ⟨_, _, fastest_halve hpos htame hreach, hrate⟩

/-- **The rate of a setting is the greatest that its source attains** within the request. -/
theorem le_rate_iff (hs : s ∈ shipped) {requested : Rate} {setting : Setting}
    (h : s.setting file requested = .ok setting) {rate : Nat} :
    rate ≤ setting.rate.toNat ↔
      Attains (source (s.pll.rateOf (file.get s.pll.offset)) requested).2.toNat requested.toNat
        rate := by
  obtain ⟨n, m, hfastest, hrate⟩ := exists_fastest hs h
  rw [hrate, hfastest.attains_iff]

/-- **A setting gives half of its request or more**, if the source has that. -/
theorem half_le_rate (hs : s ∈ shipped) {requested : Rate} {setting : Setting}
    (h : s.setting file requested = .ok setting) :
    min (source (s.pll.rateOf (file.get s.pll.offset)) requested).2.toNat (requested.toNat / 2) ≤
      setting.rate.toNat := by
  obtain ⟨n, m, hfastest, hrate⟩ := exists_fastest hs h
  rw [hrate]
  exact hfastest.half_le

theorem source_of_le (pllRate : Rate) {requested : Rate} (h : requested ≤ mainOscillator) :
    (source pllRate requested).2 = mainOscillator := by
  rw [source, if_pos h]

theorem source_of_lt (pllRate : Rate) {requested : Rate} (h : mainOscillator < requested) :
    (source pllRate requested).2 = pllRate := by
  rw [source, if_neg (UInt64.not_le.mpr h)]

/-- **Asking for more yields no less on the same source.** Of two requests that are answered, the
greater one is answered with as much or more if both are up to the rate of the oscillator, or both
above it. If only the greater one is above, it is so exactly where the PLL attains, within the
greater request, what the smaller one was answered with; that is the case wherever the PLL runs that
fast and the greater request is twice as much. -/
theorem answers_ordered (hs : s ∈ shipped) {requested requested' actual actual' : Rate}
    (hle : requested ≤ requested')
    (h : ((s.setRate offset requested).run RegisterFile.serve file).value = .ok actual)
    (h' : ((s.setRate offset requested').run RegisterFile.serve file).value = .ok actual') :
    let pllRate := s.pll.rateOf (file.get s.pll.offset)
    (requested' ≤ mainOscillator ∨ mainOscillator < requested → actual ≤ actual') ∧
    (requested ≤ mainOscillator → mainOscillator < requested' →
      (actual ≤ actual' ↔ Attains pllRate.toNat requested'.toNat actual.toNat) ∧
      (actual ≤ pllRate → 2 * actual.toNat ≤ requested'.toNat → actual ≤ actual')) := by
  intro pllRate
  obtain ⟨setting, hset, rfl, -⟩ := exists_setting_of_answer h
  obtain ⟨setting', hset', rfl, -⟩ := exists_setting_of_answer h'
  have hle' : requested.toNat ≤ requested'.toNat := UInt64.le_iff_toNat_le.mp hle
  have hattains := (le_rate_iff hs hset).mp le_rfl
  refine ⟨fun hside => ?_, fun hlow habove => ?_⟩
  · -- both requests are answered from the same source
    have hsame : (source pllRate requested).2 = (source pllRate requested').2 := by
      rcases hside with hlow | habove
      · rw [source_of_le _ hlow, source_of_le _ (UInt64.le_trans hle hlow)]
      · rw [source_of_lt _ habove, source_of_lt _ (UInt64.lt_of_lt_of_le habove hle)]
    refine UInt64.le_iff_toNat_le.mpr ((le_rate_iff hs hset').mpr ?_)
    rw [← hsame]
    exact hattains.mono hle'
  · have hhalf := half_le_rate hs hset'
    rw [source_of_lt _ habove] at hhalf
    refine ⟨?_, fun hpll htwice => UInt64.le_iff_toNat_le.mpr ?_⟩
    · rw [UInt64.le_iff_toNat_le, le_rate_iff hs hset', source_of_lt _ habove]
    · have hpll' : setting.rate.toNat ≤ pllRate.toNat := UInt64.le_iff_toNat_le.mp hpll
      exact (le_min hpll' (by omega)).trans hhalf

/-- From a PLL at 600 MHz, 50 MHz is attained within a request for 52 MHz, which is more than twice
the rate of the oscillator. -/
theorem answers_ordered_52MHz :
    let file := RegisterFile.ofList [(0x028, 0x1810)]
    sun6i ∈ shipped ∧ (24000000 : Rate) ≤ 52000000 ∧
      ((sun6i.setRate 0x088 24000000).run RegisterFile.serve file).value = .ok 24000000 ∧
      ((sun6i.setRate 0x088 52000000).run RegisterFile.serve file).value = .ok 50000000 ∧
      Attains 600000000 52000000 24000000 := by
  intro file
  have hs : sun6i ∈ shipped := by decide
  have hle : (24000000 : Rate) ≤ 52000000 := by decide
  have h : ((sun6i.setRate 0x088 24000000).run RegisterFile.serve file).value = .ok 24000000 := by
    decide +kernel
  have h' : ((sun6i.setRate 0x088 52000000).run RegisterFile.serve file).value = .ok 50000000 := by
    decide +kernel
  have hpll : (sun6i.pll.rateOf (file.get sun6i.pll.offset)).toNat = 600000000 := by decide +kernel
  obtain ⟨hiff, hordered⟩ := (answers_ordered hs hle h h').2 (by decide) (by decide)
  have hattains := hiff.mp (hordered (by decide +kernel) (by decide))
  rw [hpll] at hattains
  exact ⟨hs, hle, h, h', hattains⟩

/-- From the same PLL, a request for one Hz more than the oscillator gives is answered with a
twenty-sixth of 600 MHz, which is less than the oscillator gives. -/
theorem answer_falls :
    let file := RegisterFile.ofList [(0x028, 0x1810)]
    sun6i ∈ shipped ∧ (0 : Rate) < 24000000 ∧ (24000000 : Rate) ≤ 24000001 ∧
      ((sun6i.setRate 0x088 24000000).run RegisterFile.serve file).value = .ok 24000000 ∧
      ((sun6i.setRate 0x088 24000001).run RegisterFile.serve file).value = .ok 23076923 ∧
      ¬ (24000000 : Rate) ≤ 23076923 := by
  decide +kernel

end Setter

end SocBringup.Mmc
