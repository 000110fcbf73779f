import SocBringup.Proofs.Mmc.Order

/-! # Asking for what was answered

A caller that kept the rate it was answered with may ask for that rate. It is always answered, and
never with more. The rate itself comes back exactly where nothing was rounded: the ratio of source
and request is rounded up, so a rate that was rounded down gets a greater divisor the next time.

* `Fastest.eq_requested_iff`: the requests that are met to the Hz.
* `Setter.exists_setting_again`: there is a setting for the rate of every setting.
* `Setter.repeated`: what comes of asking for what was answered. -/

namespace SocBringup.Mmc

open Clock (Rate mainOscillator)

/-! ### Exponents and dividers -/

section Ways
variable {source requested n m : Nat}

theorem Keeps.divisor_le (h : Keeps source requested n m) : m * 2 ^ n ≤ 128 :=
  calc m * 2 ^ n
      ≤ 16 * 2 ^ 3 :=
        Nat.mul_le_mul h.divider_le (Nat.pow_le_pow_right (by decide) h.exponent_le)
    _ = 128 := rfl

/-- **A request is met to the Hz** exactly where the source is a multiple of it, by an exponent and a
divider that a control register holds. -/
theorem Fastest.eq_requested_iff (h : Fastest source requested n m) :
    source / (m * 2 ^ n) = requested ↔
      ∃ n' m', n' ≤ 3 ∧ 1 ≤ m' ∧ m' ≤ 16 ∧ source = requested * m' * 2 ^ n' := by
  constructor
  · intro heq
    refine ⟨n, m, h.keeps.exponent_le, h.keeps.pos, h.keeps.divider_le,
      h.keeps.within.antisymm ?_⟩
    calc requested * m * 2 ^ n
        = source / (m * 2 ^ n) * (m * 2 ^ n) := by rw [heq, mul_assoc]
      _ ≤ source := Nat.div_mul_le_self _ _
  · rintro ⟨n', m', hn, hpos, hm, hsource⟩
    have hkeeps : Keeps source requested n' m' := ⟨hn, hpos, hm, hsource.le⟩
    have hexact : requested ≤ source / (m' * 2 ^ n') := by
      rw [hsource, mul_assoc, Nat.mul_div_cancel _ hkeeps.divisor_pos]
    refine le_antisymm (Nat.div_le_of_le_mul ?_) (h.attains_iff.mp ⟨n', m', hkeeps, hexact⟩)
    calc source
        ≤ requested * m * 2 ^ n := h.keeps.within
      _ = m * 2 ^ n * requested := by rw [mul_assoc, mul_comm]

/-- There is no divisor between 120 and 128. -/
theorem divisor_le_or_eq (hn : n ≤ 3) (hm : m ≤ 16) : m * 2 ^ n ≤ 120 ∨ m * 2 ^ n = 128 := by
  interval_cases n <;> omega

/-- A source that the greatest divisor divides is not above what that divisor reaches from the rate
that was made of it. The smaller divisors leave room for what was rounded off. -/
theorem Keeps.le_of_dvd (h : Keeps source requested n m) (hdvd : 128 ∣ source)
    (hrate : 15 ≤ source / (m * 2 ^ n)) : source ≤ 128 * (source / (m * 2 ^ n)) := by
  rcases divisor_le_or_eq h.exponent_le h.divider_le with hsmall | hgreatest
  · have hlt : source < m * 2 ^ n * (source / (m * 2 ^ n) + 1) :=
      Nat.lt_mul_div_succ source h.divisor_pos
    have hle : m * 2 ^ n * (source / (m * 2 ^ n) + 1) ≤ 120 * (source / (m * 2 ^ n) + 1) :=
      Nat.mul_le_mul_right _ hsmall
    linarith [hlt, hle, hrate]
  · rw [hgreatest, Nat.mul_div_cancel' hdvd]

end Ways

/-! ### Settings -/

/-- The greatest divisor divides every rate of the PLL of the A83T. -/
theorem Pll.dvd_rateOf_a83t (word : UInt32) : 128 ∣ (Pll.a83t.rateOf word).toNat := by
  have hplain : Pll.a83t.Plain := Setter.plain_shipped .a83t (by decide)
  have hdiv : ∀ f ∈ [Pll.a83t.div1, Pll.a83t.div2], f.value word = 1 ∨ f.value word = 2 := by
    have hsingle : ∀ f ∈ [Pll.a83t.div1, Pll.a83t.div2],
        f.offset = 1 ∧ f.width = 1 ∧ f.min = 0 ∧ f.max = 0 := by decide
    intro f hf
    obtain ⟨hoffset, hwidth, hmin, hmax⟩ := hsingle f hf
    have hraw := f.raw_lt word
    rw [hwidth] at hraw
    rw [Field.value_eq_succ hoffset (by omega) (by simp [hmin]) hmax]
    omega
  have hpost : Pll.a83t.postDivider = 1 := rfl
  have hmultiplier : Pll.a83t.multiplier = 1 := rfl
  have hmain : mainOscillator.toNat = 24000000 := rfl
  rw [hplain.toNat_rateOf, hpost, hmultiplier, hmain, mul_one, mul_one]
  generalize Pll.a83t.n.value word * Pll.a83t.k.value word = factor
  rcases hdiv Pll.a83t.div1 (by simp) with h1 | h1 <;>
    rcases hdiv Pll.a83t.div2 (by simp) with h2 | h2 <;> rw [h1, h2] <;> omega

namespace Setter

variable {s : Setter} {file : RegisterFile} {offset : Nat}

/-- **A setting gives no less than the slowest request asks for.** -/
theorem slowest_le_rate (hs : s ∈ shipped) {requested : Rate} {setting : Setting}
    (h : s.setting file requested = .ok setting) : 187500 ≤ setting.rate.toNat := by
  by_cases hle : requested ≤ mainOscillator
  · obtain ⟨n, m, hfastest, hrate⟩ := exists_fastest hs h
    rw [source_of_le _ hle] at hfastest hrate
    calc 187500
        = mainOscillator.toNat / 128 := rfl
      _ ≤ mainOscillator.toNat / (m * 2 ^ n) :=
        Nat.div_le_div_left hfastest.keeps.divisor_le hfastest.keeps.divisor_pos
      _ = setting.rate.toNat := hrate.symm
  · have habove := UInt64.not_le.mp hle
    have hhalf := half_le_rate hs h
    rw [source_of_lt _ habove] at hhalf
    have hrequested : 24000000 < requested.toNat := UInt64.lt_iff_toNat_lt.mp habove
    obtain ⟨hpll, -⟩ := (plain_shipped s hs).rateOf_bounds (file.get s.pll.offset)
    have hslowest : ∀ s ∈ shipped, 187500 ≤ s.pll.slowest := by decide
    have hlow := hslowest s hs
    exact (le_min (hlow.trans hpll) (by omega)).trans hhalf

/-- **There is a setting for the rate of every setting.** -/
theorem exists_setting_again (hs : s ∈ shipped) {requested : Rate} {setting : Setting}
    (h : s.setting file requested = .ok setting) :
    ∃ setting', s.setting file setting.rate = .ok setting' := by
  have hslowest := slowest_le_rate hs h
  rw [exists_setting_iff hs]
  rintro (hslow | ⟨rfl, habove, hfar⟩)
  · exact absurd (UInt64.lt_iff_toNat_lt.mp hslow) (not_lt.mpr hslowest)
  · -- a rate above the oscillator was made of the PLL
    have hpll := UInt64.lt_of_lt_of_le habove (rate_le_of_setting hs h)
    obtain ⟨n, m, hfastest, hrate⟩ := exists_fastest hs h
    rw [source_of_lt _ hpll] at hfastest hrate
    rw [hrate] at hfar hslowest
    refine absurd hfar (not_lt.mpr (hfastest.keeps.le_of_dvd ?_ (by omega)))
    exact Pll.dvd_rateOf_a83t _

/-- A request does not depend on any register but that of the PLL. -/
theorem setting_set (hoffset : offset ≠ s.pll.offset) (word : UInt32) (requested : Rate) :
    s.setting (file.set offset word) requested = s.setting file requested := by
  unfold setting
  rw [RegisterFile.get_set, if_neg hoffset.symm]

/-- **Asking for what was answered.** A rate that a request was answered with can be asked for, and
is answered with no more. It is answered with itself exactly where the source for it, the oscillator
up to its rate and the PLL above, is a multiple of it by an exponent and a divider that a control
register holds. -/
theorem repeated (hs : s ∈ shipped) (hoffset : offset ≠ s.pll.offset) {requested actual : Rate}
    (h : ((s.setRate offset requested).run RegisterFile.serve file).value = .ok actual) :
    let after := ((s.setRate offset requested).run RegisterFile.serve file).state
    let sourceRate :=
      if actual ≤ mainOscillator then mainOscillator else s.pll.rateOf (file.get s.pll.offset)
    ∃ actual', ((s.setRate offset actual).run RegisterFile.serve after).value = .ok actual' ∧
      actual' ≤ actual ∧
      (actual' = actual ↔
        ∃ n m, n ≤ 3 ∧ 1 ≤ m ∧ m ≤ 16 ∧ sourceRate.toNat = actual.toNat * m * 2 ^ n) := by
  intro after sourceRate
  obtain ⟨setting, hset, rfl, hafter⟩ := exists_setting_of_answer h
  obtain ⟨setting', hset'⟩ := exists_setting_again hs hset
  have hagain : s.setting after setting.rate = .ok setting' := by
    show s.setting ((s.setRate offset requested).run RegisterFile.serve file).state _ = _
    rw [hafter, setting_set hoffset, hset']
  have hrun := s.run_setRate after offset setting.rate
  rw [hagain] at hrun
  obtain ⟨n, m, hfastest, hrate⟩ := exists_fastest hs hset'
  have hsource : (source (s.pll.rateOf (file.get s.pll.offset)) setting.rate).2 = sourceRate :=
    apply_ite Prod.snd _ _ _
  rw [hsource] at hfastest hrate
  refine ⟨setting'.rate, (Prod.mk.inj hrun).1, rate_le_of_setting hs hset', ?_⟩
  rw [← UInt64.toNat_inj, hrate]
  exact hfastest.eq_requested_iff

/-- From a PLL at 600 MHz, a request for 52 MHz is answered with a twelfth of that, and so is a
request for the answer. -/
theorem repeated_52MHz :
    let r := (sun6i.setRate 0x088 52000000).run RegisterFile.serve (.ofList [(0x028, 0x1810)])
    sun6i ∈ shipped ∧ 0x088 ≠ sun6i.pll.offset ∧ r.value = .ok 50000000 ∧
      ((sun6i.setRate 0x088 50000000).run RegisterFile.serve r.state).value = .ok 50000000 := by
  intro r
  have hs : sun6i ∈ shipped := by decide
  have hoffset : 0x088 ≠ sun6i.pll.offset := by decide
  have h : r.value = .ok 50000000 := by decide +kernel
  obtain ⟨actual, hagain, -, hiff⟩ := repeated hs hoffset h
  obtain rfl := hiff.mpr ⟨0, 12, by decide, by decide, by decide, by decide +kernel⟩
  exact ⟨hs, hoffset, h, hagain⟩

/-- A seventh of the oscillator's rate is no whole number of Hz. It is reported rounded down, and
asking for that takes an eighth. -/
theorem answer_drifts :
    let r := (sun6i.setRate 0x088 3500000).run RegisterFile.serve {}
    sun6i ∈ shipped ∧ 0x088 ≠ sun6i.pll.offset ∧ r.value = .ok 3428571 ∧
      ((sun6i.setRate 0x088 3428571).run RegisterFile.serve r.state).value = .ok 3000000 ∧
      (3000000 : Rate) ≠ 3428571 := by
  decide +kernel

end Setter

end SocBringup.Mmc
