import SocBringup.Proofs.Spi.Speed

/-! # How the clock of a bus follows its speed

Two dividers share the range of speeds: a linear one for fast speeds and a power of two for slow ones.
The clock that comes of them is within a factor of two of the speed, and a higher speed never gives a
slower clock, not even where one divider takes over from the other.

* `divisor_anti`: a higher speed does not give a larger divisor.
* `half_le_selectedClock`: the clock is not below half the speed.
* `Uncut`: both dividers hold what was computed for them.
* `clockControl_setSpeed`: the word that a block holds once a speed is set.
* `Controller.clock_follows`: so the clock of a bus follows each speed that is set. -/

namespace SocBringup.Spi

variable {σ : Type} {serve : Handler Host σ}

/-! ### The divisor by the speed -/

theorem log2_mono {m n : Nat} (h : m ≤ n) : m.log2 ≤ n.log2 := by
  rw [Nat.log2_eq_log_two, Nat.log2_eq_log_two]
  exact Nat.log_mono_right h

section Divisor
variable {hz hz' : Nat} (hmin : minSpeed ≤ hz)
include hmin

theorem speed_pos : 0 < hz := lt_of_lt_of_le (by decide) hmin

theorem divisor_of_fast (h : fastestPower < hz) :
    divisor (clockWord hz) = 2 * max 1 (moduleRate / (2 * hz)) :=
  divisor_linear ((ratio_le_iff (speed_pos hmin)).mpr h)

theorem divisor_of_slow (h : hz ≤ fastestPower) :
    divisor (clockWord hz) = 2 ^ (moduleRate.log2 - hz.log2) :=
  divisor_power hmin (not_le.mp fun hle =>
    absurd ((ratio_le_iff (speed_pos hmin)).mp hle) (not_lt.mpr h))

/-- **A higher speed does not give a larger divisor.** Where the linear divider takes over, its
divisor is at most 512, and the last of the powers of two is no less. -/
theorem divisor_anti (hle : hz ≤ hz') : divisor (clockWord hz') ≤ divisor (clockWord hz) := by
  have hmin' : minSpeed ≤ hz' := hmin.trans hle
  rcases Nat.lt_or_ge fastestPower hz with hfast | hslow
  · rw [divisor_of_fast hmin hfast, divisor_of_fast hmin' (hfast.trans_le hle)]
    have hratio : moduleRate / (2 * hz') ≤ moduleRate / (2 * hz) :=
      Nat.div_le_div_left (Nat.mul_le_mul_left 2 hle) (Nat.mul_pos two_pos (speed_pos hmin))
    omega
  · rw [divisor_of_slow hmin hslow]
    rcases Nat.lt_or_ge fastestPower hz' with hfast' | hslow'
    · have hratio : moduleRate / (2 * hz') ≤ 256 := (ratio_le_iff (speed_pos hmin')).mpr hfast'
      have hlog : hz.log2 ≤ fastestPower.log2 := log2_mono hslow
      have hswitch : 9 ≤ moduleRate.log2 - hz.log2 := by
        have hlast : moduleRate.log2 - fastestPower.log2 = 9 := by decide
        omega
      rw [divisor_of_fast hmin' hfast']
      calc 2 * max 1 (moduleRate / (2 * hz')) ≤ 2 * 256 :=
            Nat.mul_le_mul_left 2 (max_le (by decide) hratio)
        _ = 2 ^ 9 := by decide
        _ ≤ 2 ^ (moduleRate.log2 - hz.log2) := Nat.pow_le_pow_right two_pos hswitch
    · rw [divisor_of_slow hmin' hslow']
      exact Nat.pow_le_pow_right two_pos (Nat.sub_le_sub_left (log2_mono hle) _)

/-- A divided module clock is not below half the speed. -/
theorem mul_divisor_le (hmax : hz ≤ moduleRate) :
    hz * divisor (clockWord hz) ≤ 2 * moduleRate := by
  rcases Nat.lt_or_ge fastestPower hz with hfast | hslow
  · have hratio : 2 * hz * (moduleRate / (2 * hz)) ≤ moduleRate := Nat.mul_div_le _ _
    have hpart : hz * (moduleRate / (2 * hz)) ≤ moduleRate :=
      le_trans (Nat.mul_le_mul_right _ (Nat.le_mul_of_pos_left hz two_pos)) hratio
    rw [divisor_of_fast hmin hfast]
    calc hz * (2 * max 1 (moduleRate / (2 * hz)))
        = 2 * max hz (hz * (moduleRate / (2 * hz))) := by
          rw [Nat.mul_left_comm, ← Nat.mul_max_mul_left, Nat.mul_one]
      _ ≤ 2 * moduleRate := Nat.mul_le_mul_left 2 (max_le hmax hpart)
  · have hlog : hz.log2 ≤ moduleRate.log2 := log2_mono hmax
    have hself : hz ≤ 2 ^ (hz.log2 + 1) := Nat.lt_log2_self.le
    rw [divisor_of_slow hmin hslow]
    calc hz * 2 ^ (moduleRate.log2 - hz.log2)
        ≤ 2 ^ (hz.log2 + 1) * 2 ^ (moduleRate.log2 - hz.log2) := Nat.mul_le_mul_right _ hself
      _ = 2 ^ (moduleRate.log2 + 1) := by
          rw [← Nat.pow_add]
          congr 1
          omega
      _ ≤ 2 * moduleRate := by decide

end Divisor

/-! ### The clock by the speed -/

theorem minSpeed_le_clampSpeed (hz : Nat) : minSpeed ≤ clampSpeed hz := le_max_left _ _

theorem clampSpeed_le_moduleRate (hz : Nat) : clampSpeed hz ≤ moduleRate :=
  max_le (by decide) (min_le_right _ _)

theorem clampSpeed_mono {hz hz' : Nat} (h : hz ≤ hz') : clampSpeed hz ≤ clampSpeed hz' :=
  max_le_max le_rfl (min_le_min h le_rfl)

/-- A smaller divisor gives a faster clock. -/
theorem selectedClock_le {word word' : UInt32} (h : divisor word' ≤ divisor word) :
    selectedClock word ≤ selectedClock word' := by
  have hpos : (0 : ℚ) < divisor word' := Nat.cast_pos.mpr (divisor_pos word')
  exact div_le_div_of_nonneg_left (Nat.cast_nonneg _) hpos (Nat.cast_le.mpr h)

/-- The clock is not below half the speed, up to the rate of the module clock. -/
theorem half_le_selectedClock {hz : Nat} (hmin : minSpeed ≤ hz) (hmax : hz ≤ moduleRate) :
    (hz : ℚ) / 2 ≤ selectedClock (clockWord hz) := by
  have hpos : (0 : ℚ) < divisor (clockWord hz) := Nat.cast_pos.mpr (divisor_pos _)
  rw [selectedClock, div_le_div_iff₀ two_pos hpos, mul_comm (moduleRate : ℚ)]
  exact_mod_cast mul_divisor_le hmin hmax

/-- **Both dividers hold what was computed for them**: it fits their fields, so that nothing of it is
cut off. -/
structure Uncut (hz : Nat) (word : UInt32) : Prop where
  linear : moduleRate / (2 * hz) ≤ maxLinear + 1 →
    moduleRate / (2 * hz) - 1 < 2 ^ 8 ∧ Block.linearSelected.raw word = 1 ∧
      Block.linearDivider.raw word = moduleRate / (2 * hz) - 1
  power : maxLinear + 1 < moduleRate / (2 * hz) →
    moduleRate.log2 - hz.log2 < 2 ^ 4 ∧ Block.linearSelected.raw word = 0 ∧
      Block.powerDivider.raw word = moduleRate.log2 - hz.log2

theorem uncut_clockWord {hz : Nat} (hmin : minSpeed ≤ hz) : Uncut hz (clockWord hz) where
  linear h := by
    obtain ⟨hselected, hdivider⟩ := raw_linear h
    exact ⟨hdivider ▸ Field.raw_lt _ _, hselected, hdivider⟩
  power h := by
    obtain ⟨hselected, hdivider⟩ := raw_power hmin h
    exact ⟨hdivider ▸ Field.raw_lt _ _, hselected, hdivider⟩

/-! ### The clock of a bus -/

/-- **Once a speed is set, the block holds its word.** -/
theorem clockControl_setSpeed (S : Storing serve) (hz : Nat) (s : σ) :
    S.word ((Controller.setSpeed hz).run serve s).state Block.clockControl =
      clockWord (clampSpeed hz) := by
  have hmem : (⟨Block.clockControl, wholeWord, clockSet?⟩ : Decision) ∈ decisions := by
    simp [decisions]
  have hfield : S.field Block.clockControl wholeWord
      ((Controller.setSpeed hz).run serve s).state =
        (clockWord (clampSpeed hz)).toNat % 2 ^ 32 :=
    Storing.makes_setSpeed (settled_decisions _ hmem) hz s
  rw [Storing.field, raw_wholeWord, Nat.mod_eq_of_lt (UInt32.toNat_lt _)] at hfield
  exact UInt32.toNat_inj.mp hfield

theorem clock_setSpeed (S : Storing serve) (hz : Nat) (s : σ) :
    S.clock ((Controller.setSpeed hz).run serve s).state =
      selectedClock (clockWord (clampSpeed hz)) := by
  rw [Storing.clock, clockControl_setSpeed]

/-- **The clock of a bus follows its speed.** A speed that is set is taken to be within 3 kHz and
24 MHz; the clock is not below half of that, and below twice as much. The dividers hold what was
computed for them. A higher speed never gives a slower clock, whichever dividers the two take. -/
theorem Controller.clock_follows (S : Storing serve) :
    (∀ hz s,
      let limit := max 3000 (min hz 24000000)
      let s' := ((setSpeed hz).run serve s).state
      (limit : ℚ) / 2 ≤ S.clock s' ∧ S.clock s' < 2 * limit ∧
        Uncut limit (S.word s' Block.clockControl)) ∧
    ∀ hz hz' s s', hz ≤ hz' →
      S.clock ((setSpeed hz).run serve s).state ≤ S.clock ((setSpeed hz').run serve s').state := by
  constructor
  · intro hz s limit s'
    have hmin : minSpeed ≤ limit := minSpeed_le_clampSpeed hz
    have hmax : limit ≤ moduleRate := clampSpeed_le_moduleRate hz
    have hclock : S.clock s' = selectedClock (clockWord limit) := clock_setSpeed S hz s
    have hword : S.word s' Block.clockControl = clockWord limit := clockControl_setSpeed S hz s
    have hclocked : Clocked limit (selectedClock (clockWord limit)) := by
      have h := clocked_clockWord hmin
      rwa [clampSpeed_of_le hmin hmax] at h
    rw [hclock, hword]
    refine ⟨half_le_selectedClock hmin hmax, ?_, uncut_clockWord hmin⟩
    exact_mod_cast hclocked.lt_double
  · intro hz hz' s s' hle
    rw [clock_setSpeed, clock_setSpeed]
    exact selectedClock_le (divisor_anti (minSpeed_le_clampSpeed hz) (clampSpeed_mono hle))

/-- The two speeds at which the dividers meet: the first takes the power of two, the second the linear
divider. -/
theorem Controller.clock_follows_switch :
    let clock := fun hz => (Bench.storing []).clock
      ((setSpeed hz).run (Bench.host []) unselected).state
    (46692 : ℚ) / 2 ≤ clock 46692 ∧ clock 46692 ≤ clock 46693 ∧ clock 46693 < 2 * 46693 := by
  intro clock
  obtain ⟨hnear, hmono⟩ := Controller.clock_follows (Bench.storing [])
  exact ⟨(hnear 46692 unselected).1, hmono 46692 46693 unselected unselected (by decide),
    (hnear 46693 unselected).2.1⟩

end SocBringup.Spi
