import SocBringup.Proofs.ControlUnit.Separation
import SocBringup.Proofs.Mmc.Halving
import SocBringup.Proofs.Register.Factor
import SocBringup.Proofs.Register.Trace

/-! # The rates that a module clock can be set to

The peripheral PLL of every generation runs within bounds, whatever its register holds. So a request
is refused only where it is too slow for the largest divider on the oscillator, or, on the A83T, too
slow for it on a fast PLL.

* `Pll.rateOf_bounds`: the bounds of a PLL.
* `Setter.exists_setting_iff`: the requests for which there is a setting.
* `Setter.reach`: what comes of a request, on every generation and every chip. -/

namespace SocBringup.Mmc

open Clock (Rate mainOscillator)

/-! ### The PLL -/

namespace Pll

/-- The highest rate of a PLL. -/
def fastest (pll : Pll) : Nat :=
  mainOscillator.toNat * (pll.n.largest * pll.k.largest) / pll.postDivider * pll.multiplier

/-- The lowest rate of a PLL. -/
def slowest (pll : Pll) : Nat :=
  mainOscillator.toNat / (pll.div1.largest * pll.div2.largest * pll.postDivider) * pll.multiplier

/-- No factor of the PLL is raised to a lower bound, and no product is too large for a rate. -/
structure Plain (pll : Pll) : Prop where
  unbounded : ∀ f ∈ [pll.n, pll.k, pll.div1, pll.div2], f.min = 0
  small : mainOscillator.toNat * (pll.n.largest * pll.k.largest) * pll.multiplier < 2 ^ 64
  multiplied : 0 < pll.multiplier
  divided : 0 < pll.postDivider

section Plain
variable {pll : Pll} (h : pll.Plain) (word : UInt32)
include h

theorem Plain.multiplied_le : mainOscillator.toNat * (pll.n.value word * pll.k.value word) ≤
    mainOscillator.toNat * (pll.n.largest * pll.k.largest) :=
  Nat.mul_le_mul_left _ (Nat.mul_le_mul (Field.value_le (h.unbounded pll.n (by simp)) word)
    (Field.value_le (h.unbounded pll.k (by simp)) word))

theorem Plain.toNat_rateOf : (pll.rateOf word).toNat =
    mainOscillator.toNat * (pll.n.value word * pll.k.value word) /
      (pll.div1.value word * pll.div2.value word * pll.postDivider) * pll.multiplier := by
  have hlarge := h.multiplied_le word
  have hfits := (Nat.le_mul_of_pos_right _ h.multiplied).trans_lt h.small
  have hproduct : min (mainOscillator.toNat * (pll.n.value word * pll.k.value word)) (2 ^ 64 - 1) =
      mainOscillator.toNat * (pll.n.value word * pll.k.value word) := min_eq_left (by omega)
  unfold rateOf
  simp only [Clock.toNat_times, hproduct, Nat.div_div_eq_div_mul]
  rw [UInt64.toNat_ofNat', Nat.mod_eq_of_lt]
  calc _ ≤ mainOscillator.toNat * (pll.n.value word * pll.k.value word) * pll.multiplier :=
        Nat.mul_le_mul_right _ (Nat.div_le_self _ _)
    _ ≤ mainOscillator.toNat * (pll.n.largest * pll.k.largest) * pll.multiplier :=
        Nat.mul_le_mul_right _ hlarge
    _ < 2 ^ 64 := h.small

/-- **A PLL runs between its lowest and its highest rate**, whatever its register holds. -/
theorem Plain.rateOf_bounds :
    pll.slowest ≤ (pll.rateOf word).toNat ∧ (pll.rateOf word).toNat ≤ pll.fastest := by
  have hdiv1 := Field.value_le (h.unbounded pll.div1 (by simp)) word
  have hdiv2 := Field.value_le (h.unbounded pll.div2 (by simp)) word
  have hfactor : 0 < pll.n.value word * pll.k.value word :=
    Nat.mul_pos (Field.value_pos _ _) (Field.value_pos _ _)
  have hdivisor : 0 < pll.div1.value word * pll.div2.value word :=
    Nat.mul_pos (Field.value_pos _ _) (Field.value_pos _ _)
  rw [h.toNat_rateOf]
  constructor
  · refine Nat.mul_le_mul_right _ (Nat.div_le_div ?_ ?_ (Nat.mul_pos hdivisor h.divided).ne')
    · exact Nat.le_mul_of_pos_right _ hfactor
    · exact Nat.mul_le_mul_right _ (Nat.mul_le_mul hdiv1 hdiv2)
  · refine Nat.mul_le_mul_right _ (Nat.div_le_div (h.multiplied_le word) ?_ h.divided.ne')
    exact Nat.le_mul_of_pos_left _ hdivisor

end Plain

end Pll

deriving instance DecidableEq for Field, Pll, Setter

/-! ### Settings -/

namespace Setter

/-- The setters of all generations. -/
def shipped : List Setter := [.sun6i, .a83t, .h6]

theorem plain_shipped : ∀ s ∈ shipped, s.pll.Plain := by
  simp only [shipped, List.forall_mem_cons]
  exact ⟨⟨by decide, by decide, by decide, by decide⟩, ⟨by decide, by decide, by decide, by decide⟩,
    ⟨by decide, by decide, by decide, by decide⟩, fun _ h => absurd h List.not_mem_nil⟩

/-- The source runs neither so slow that it could be divided down to nothing, nor so fast that the
ratio to a request could wrap above one. -/
theorem source_bounds {s : Setter} (hs : s ∈ shipped) (word : UInt32) (requested : Rate) :
    128 ≤ (source (s.pll.rateOf word) requested).2.toNat ∧
      (source (s.pll.rateOf word) requested).2.toNat ≤ 2 ^ 63 := by
  obtain ⟨hlower, hupper⟩ := (plain_shipped s hs).rateOf_bounds word
  have hslowest : ∀ s ∈ shipped, 128 ≤ s.pll.slowest := by decide
  have hfastest : ∀ s ∈ shipped, s.pll.fastest ≤ 2 ^ 63 := by decide
  unfold source
  split_ifs
  · exact ⟨by decide, by decide⟩
  · exact ⟨(hslowest s hs).trans hlower, hupper.trans (hfastest s hs)⟩

/-- **The requests for which there is a setting.** Up to the rate of the oscillator they are those
that the largest divider reaches; above, only the PLL of the A83T can be too fast. -/
theorem exists_setting_iff {s : Setter} (hs : s ∈ shipped) (file : RegisterFile)
    (requested : Rate) :
    (∃ setting, s.setting file requested = .ok setting) ↔
      ¬ (requested < 187500 ∨ s = a83t ∧ mainOscillator < requested ∧
        128 * requested.toNat < (s.pll.rateOf (file.get s.pll.offset)).toNat) := by
  have hbounds := source_bounds hs (file.get s.pll.offset) requested
  obtain ⟨-, hupper⟩ := (plain_shipped s hs).rateOf_bounds (file.get s.pll.offset)
  have hmain : mainOscillator.toNat = 24000000 := rfl
  have hlow : (187500 : UInt64).toNat = 187500 := rfl
  unfold setting
  rw [s.exists_encode_iff (tame_of_le hbounds.2 requested)]
  unfold source
  by_cases hle : requested ≤ mainOscillator
  · simp only [hle, if_true, UInt64.not_lt.mpr hle, false_and, and_false, or_false,
      UInt64.lt_iff_toNat_lt, hmain, hlow, UInt64.toNat_zero]
    omega
  · simp only [hle, if_false, UInt64.not_le.mp hle, true_and]
    have habove : 24000000 < requested.toNat := UInt64.lt_iff_toNat_lt.mp (UInt64.not_le.mp hle)
    have hslow : ¬ requested < 187500 := by
      rw [UInt64.lt_iff_toNat_lt, hlow]
      omega
    have hpos : 0 < requested := UInt64.lt_iff_toNat_lt.mpr (by rw [UInt64.toNat_zero]; omega)
    have hfastest : ∀ s ∈ shipped, s ≠ a83t → s.pll.fastest ≤ 128 * 24000000 := by decide
    rw [and_iff_right hpos, or_iff_right hslow]
    by_cases ha83t : s = a83t
    · rw [and_iff_right ha83t, not_lt]
    · have hmax := hfastest s hs ha83t
      exact iff_of_true (by omega) fun h => ha83t h.1

/-! ### The run of a request -/

open Registers (reads writes)

variable (s : Setter) (file : RegisterFile) (offset : Nat) (requested : Rate)

/-- What is left to do once the rate of the PLL is known needs no read, and one write if there is a
setting. -/
theorem accesses_finish (pllRate : Rate) :
    let trace := ((s.finish offset requested pllRate).run RegisterFile.serve file).trace
    reads trace = [] ∧ writes trace =
      match s.encode pllRate requested with
      | .ok setting => [(offset, setting.control.word)]
      | .error _ => [] := by
  unfold finish choose
  rw [Program.run_bind]
  cases s.encode pllRate requested <;> exact ⟨rfl, rfl⟩

/-- **The PLL is read where it is the source, and the register is written once** if there is a
setting. -/
theorem accesses_setRate :
    let trace := ((s.setRate offset requested).run RegisterFile.serve file).trace
    reads trace = (if mainOscillator < requested then [s.pll.offset] else []) ∧ writes trace =
      match s.setting file requested with
      | .ok setting => [(offset, setting.control.word)]
      | .error _ => [] := by
  unfold setRate
  split_ifs with h
  · obtain ⟨hreads, hwrites⟩ :=
      s.accesses_finish file offset requested (s.pll.rateOf (file.get s.pll.offset))
    exact ⟨congrArg (s.pll.offset :: ·) hreads, hwrites⟩
  · rw [setting, s.encode_of_le h _ mainOscillator]
    exact s.accesses_finish file offset requested mainOscillator

variable {s file requested}

theorem rate_pos_of_setting (hs : s ∈ shipped) {setting : Setting}
    (h : s.setting file requested = .ok setting) : 0 < setting.rate :=
  s.rate_pos_of_encode h (source_bounds hs _ _).1

theorem rate_le_of_setting (hs : s ∈ shipped) {setting : Setting}
    (h : s.setting file requested = .ok setting) : setting.rate ≤ requested :=
  s.rate_le_of_encode (tame_of_le (source_bounds hs _ _).2 _) h

end Setter

/-! ### The chips -/

theorem setters_shipped : ∀ entry ∈ Chip.catalog, ∀ chip ∈ entry.data, ∀ clock ∈ chip.entries,
    ∀ s ∈ clock.setter, s ∈ Setter.shipped := by
  decide +kernel

/-- **Through a chip, zero is answered for the clocks without a setter**, and for no others. -/
theorem serve_eq_zero_iff {chip : Chip} (h : chip.Shipped) (clock : Nat) (requested : Rate)
    (file : RegisterFile) :
    (chip.serve (.setClockRate clock requested) file).1 = .ok 0 ↔ chip.control? clock = none := by
  rw [Chip.serve_setClockRate]
  cases hc : chip.control? clock with
  | none => exact iff_of_true rfl rfl
  | some control =>
    obtain ⟨offset, s⟩ := control
    refine iff_of_false ?_ (nomatch ·)
    simp only
    cases hset : s.setting file requested with
    | error refusal => exact (nomatch ·)
    | ok setting =>
      obtain ⟨catalogued, hcatalogued, hchip⟩ := h
      obtain ⟨entry, hentry, hsetter, -⟩ := Chip.exists_entry hc
      have hs := setters_shipped catalogued hcatalogued chip hchip entry
        (List.mem_of_getElem? hentry) s hsetter
      have hne : setting.rate ≠ 0 := UInt64.pos_iff_ne_zero.mp (Setter.rate_pos_of_setting hs hset)
      exact fun hzero => hne (Except.ok.inj hzero)

open Registers (reads writes) in
/-- **The rates that a module clock can be set to.** Whatever the registers hold, a request is refused
only if it is below 187500 Hz, or on the A83T above the oscillator and still below a hundred and
twenty-eighth of the rate of the PLL. A refused request writes nothing; an answered one writes the
word of its setting to the control register, once, and is answered with the rate of the setting,
which is above zero and does not exceed the request. The PLL is read for requests above the
oscillator only. So on every chip, zero is the answer for the clocks without a setter. -/
theorem Setter.reach :
    (∀ s ∈ shipped, ∀ (file : RegisterFile) (offset : Nat) (requested : Rate),
      let r := (s.setRate offset requested).run RegisterFile.serve file
      let pllRate := s.pll.rateOf (file.get s.pll.offset)
      (r.value = .error .invalidArgument ↔ requested < 187500 ∨
        s = a83t ∧ mainOscillator < requested ∧ 128 * requested.toNat < pllRate.toNat) ∧
      (s ≠ a83t → 187500 ≤ requested → ∃ actual, r.value = .ok actual) ∧
      (∀ fault, r.value = .error fault → fault = .invalidArgument ∧ writes r.trace = []) ∧
      (∀ actual, r.value = .ok actual → 0 < actual ∧ actual ≤ requested ∧
        ∃ setting, s.setting file requested = .ok setting ∧ setting.rate = actual ∧
          writes r.trace = [(offset, setting.control.word)]) ∧
      reads r.trace = if mainOscillator < requested then [s.pll.offset] else []) ∧
    ∀ chip : Chip, chip.Shipped → ∀ clock requested file,
      (chip.serve (.setClockRate clock requested) file).1 = .ok 0 ↔
        chip.control? clock = none := by
  refine ⟨?_, fun chip h => serve_eq_zero_iff h⟩
  intro s hs file offset requested r pllRate
  have hiff := exists_setting_iff hs file requested
  have hrun := s.run_setRate file offset requested
  obtain ⟨hreads, hwrites⟩ := s.accesses_setRate file offset requested
  cases hset : s.setting file requested with
  | error refusal =>
    rw [hset] at hrun hiff hwrites
    have hvalue : r.value = .error .invalidArgument := (Prod.mk.inj hrun).1
    have hrefused := not_not.mp (mt hiff.mpr fun ⟨_, h⟩ => nomatch h)
    refine ⟨iff_of_true hvalue hrefused, fun hne hge => ?_, fun fault h => ?_, fun actual h => ?_,
      hreads⟩
    · rcases hrefused with hlt | ⟨ha83t, -⟩
      · exact absurd hlt (UInt64.not_lt.mpr hge)
      · exact absurd ha83t hne
    · exact ⟨Except.error.inj (h.symm.trans hvalue), hwrites⟩
    · exact nomatch h.symm.trans hvalue
  | ok setting =>
    rw [hset] at hrun hiff hwrites
    have hvalue : r.value = .ok setting.rate := (Prod.mk.inj hrun).1
    have hanswered := hiff.mp ⟨setting, rfl⟩
    refine ⟨iff_of_false (fun h => ?_) hanswered, fun _ _ => ⟨_, hvalue⟩, fun fault h => ?_,
      fun actual h => ?_, hreads⟩
    · exact nomatch h.symm.trans hvalue
    · exact nomatch h.symm.trans hvalue
    · cases h.symm.trans hvalue
      exact ⟨rate_pos_of_setting hs hset, rate_le_of_setting hs hset, setting, rfl, rfl, hwrites⟩

/-- With the PLL at its fastest, the A83T refuses a request for 25 MHz, while the H6 answers one just
above the oscillator. A bus gate of the H6 has no setter. -/
theorem Setter.reach_fastestPll :
    ((a83t.setRate 0x088 25000000).run RegisterFile.serve (.ofList [(0x028, 0xff00)])).value =
        .error .invalidArgument ∧
      (∃ actual, ((h6.setRate 0x830 24000001).run RegisterFile.serve
        (.ofList [(0x020, 0xff00)])).value = .ok actual ∧ 0 < actual ∧ actual ≤ 24000001) ∧
      (Chip.h6.serve (.setClockRate 67 24000001) {}).1 = .ok 0 := by
  obtain ⟨refused, -⟩ := reach.1 a83t (by decide) (.ofList [(0x028, 0xff00)]) 0x088 25000000
  obtain ⟨-, answered, -, bounded, -⟩ :=
    reach.1 h6 (by decide) (.ofList [(0x020, 0xff00)]) 0x830 24000001
  obtain ⟨actual, hactual⟩ := answered (by decide) (by decide)
  refine ⟨refused.mpr (Or.inr ⟨rfl, by decide, by decide⟩), ⟨actual, hactual, ?_⟩, ?_⟩
  · obtain ⟨hpos, hle, -⟩ := bounded actual hactual
    exact ⟨hpos, hle⟩
  · have hshipped : Chip.h6.Shipped :=
      ⟨⟨"allwinner,sun50i-h6-ccu", some Chip.h6⟩, by simp [Chip.catalog], rfl⟩
    exact (reach.2 Chip.h6 hshipped 67 24000001 {}).mpr rfl

end SocBringup.Mmc
