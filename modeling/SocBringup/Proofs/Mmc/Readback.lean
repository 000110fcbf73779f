import SocBringup.Chip.R40
import SocBringup.Proofs.Clock.Nodes
import SocBringup.Proofs.Mmc.Decoding
import SocBringup.Proofs.Register.Factor

/-! # The rate that was set is the rate that is read

The setter of a module clock chooses a rate and writes a register; a clock tree reads the registers
and computes a rate. Both know the layout of the control register and of the PLL for themselves.

* `Feeds`: a tree has a module clock that takes the main oscillator or the peripheral PLL.
* `toNat_rateOf_sun6i`: the PLL runs at the same rate for the setter and for a tree.
* `rate_of_setting`: a tree finds the rate of a setting in the registers that hold it.
* `Setter.rate_readback`: after a rate was set, a tree finds the rate that was answered. -/

namespace SocBringup.Mmc

open Clock (Node Rate Tree mainOscillator)

/-! ### A module clock in a tree -/

/-- The peripheral PLL in a tree, fed by the clock `oscillator` and halved; `k` is its second
multiplier. -/
def pllNode (oscillator : Nat) (k : Field) : Node :=
  .postDivided {
    offset := 0x028
    n := { shift := 8, width := 5, offset := 1 }
    k
    postDivider := 2
    parent := oscillator }

/-- A module clock in a tree, with its control register at `offset`. -/
def moduleNode (offset : Nat) (parents : List Nat) : Node :=
  .ready (.divider {
    offset
    m := { shift := 0, width := 4, offset := 1 }
    p := { shift := 16, width := 2 }
    mux := { shift := 24, width := 2 }
    parents })

/-- The second multiplier of the peripheral PLL. -/
def pllK : Field := { shift := 4, width := 2, offset := 1 }

/-- **A module clock that takes the main oscillator or the peripheral PLL**, or perhaps others,
among the clocks of a tree. -/
structure Feeds (tree : Tree) (oscillator pll clock offset : Nat) (k : Field)
    (others : List Nat) : Prop where
  fixed : tree[oscillator]? = some (.ready (.fixed mainOscillator))
  multiplied : tree[pll]? = some (pllNode oscillator k)
  divided : tree[clock]? = some (moduleNode offset (oscillator :: pll :: others))

/-! ### The PLL -/

theorem toNat_rateOf_sun6i (word : UInt32) :
    (Pll.sun6i.rateOf word).toNat =
      min (mainOscillator.toNat * Pll.sun6i.n.value word * Pll.sun6i.k.value word)
        (2 ^ 64 - 1) / 2 := by
  have hdiv1 : Pll.sun6i.div1.value word = 1 := Field.value_absent word
  have hdiv2 : Pll.sun6i.div2.value word = 1 := Field.value_absent word
  have hpost : Pll.sun6i.postDivider = 2 := rfl
  have hmultiplier : Pll.sun6i.multiplier = 1 := rfl
  have hlt : min (mainOscillator.toNat * Pll.sun6i.n.value word * Pll.sun6i.k.value word)
      (2 ^ 64 - 1) / 2 < 2 ^ 64 := by omega
  unfold Pll.rateOf
  simp only [hdiv1, hdiv2, hpost, hmultiplier, Clock.toNat_times, Nat.div_one, Nat.mul_one,
    ← Nat.mul_assoc]
  rw [UInt64.toNat_ofNat', Nat.mod_eq_of_lt hlt]

/-- **The PLL of a tree runs at the rate that the setter takes it to run at.** -/
theorem exact_pllNode {oscillator : Nat} {k : Field} {file : RegisterFile}
    (hk : k.value (file.get 0x028) = Pll.sun6i.k.value (file.get 0x028)) :
    (pllNode oscillator k).exact file mainOscillator.toNat =
      (Pll.sun6i.rateOf (file.get Pll.sun6i.offset)).toNat := by
  rw [toNat_rateOf_sun6i]
  show min (_ * _ * k.value (file.get 0x028)) _ / 2 = _
  rw [hk]
  rfl

/-! ### The module clock -/

section Reading
variable {tree : Tree} {oscillator pll clock offset : Nat} {k : Field} {others : List Nat}
  {file : RegisterFile} (feeds : Feeds tree oscillator pll clock offset k others)
  (hk : k.value (file.get 0x028) = Pll.sun6i.k.value (file.get 0x028))
include feeds

theorem reading_fixed (depth : Nat) :
    tree.reading file (depth + 1) oscillator = mainOscillator.toNat :=
  Clock.reading_fixed feeds.fixed depth

include hk

theorem reading_multiplied (depth : Nat) :
    tree.reading file (depth + 2) pll =
      (Pll.sun6i.rateOf (file.get Pll.sun6i.offset)).toNat := by
  have step : tree.step? file pll = some (pllNode oscillator k, oscillator) :=
    Clock.step?_eq_some.mpr ⟨feeds.multiplied, rfl, rfl⟩
  rw [Clock.reading_step step, reading_fixed feeds, exact_pllNode hk]

/-- The number of the source names a parent that runs at the rate of the source. -/
theorem exists_source (requested : Rate) (depth : Nat) :
    let source := Setter.source (Setter.sun6i.pll.rateOf (file.get Setter.sun6i.pll.offset))
      requested
    source.1 < 2 ∧ ∃ parent, (oscillator :: pll :: others)[source.1]? = some parent ∧
      tree.reading file (depth + 2) parent = source.2.toNat := by
  unfold Setter.source
  split_ifs
  · exact ⟨Nat.zero_lt_two, oscillator, rfl, reading_fixed feeds (depth + 1)⟩
  · exact ⟨Nat.one_lt_two, pll, rfl, reading_multiplied feeds hk depth⟩

/-- **A tree finds the rate of a setting** in the registers that hold its control word. -/
theorem rate_of_setting {requested : Rate} {setting : Setting}
    (hsetting : Setter.sun6i.setting file requested = .ok setting)
    (hword : file.get offset = setting.control.word) :
    ((tree.rate clock).run RegisterFile.serve file).value = setting.rate := by
  obtain ⟨exponent, divider, hexponent, hpos, hle, hcontrol, hrate⟩ :=
    Setter.exists_of_encode hsetting
  obtain ⟨hnumber, parent, hparent, hreading⟩ := exists_source feeds hk requested 13
  have hfits : exponent < 2 ^ Setter.sun6i.preDivider.width := Nat.lt_succ_of_le hexponent
  -- the fields of the node are those of the control register
  have hmux : ({ shift := 24, width := 2 } : Field).raw (file.get offset) =
      (Setter.source (Setter.sun6i.pll.rateOf (file.get Setter.sun6i.pll.offset)) requested).1 := by
    rw [hword, hcontrol]
    exact Setter.source_control hfits _ _ _ (by decide) (by omega)
  have hp : ({ shift := 16, width := 2 } : Field).raw (file.get offset) = exponent := by
    rw [hword, hcontrol]
    exact Setter.exponent_control hfits _ _ _ (by decide) fun _ => by decide
  have hm : ({ shift := 0, width := 4, offset := 1 } : Field).value (file.get offset) = divider := by
    have hraw : ({ shift := 0, width := 4, offset := 1 } : Field).raw (file.get offset) =
        divider - 1 := by
      rw [hword, hcontrol]
      exact Setter.divider_control hfits _ _ _ hle
    rw [Field.value_eq_succ rfl (by decide) (Nat.zero_le _) rfl, hraw]
    omega
  have step : tree.step? file clock =
      some (moduleNode offset (oscillator :: pll :: others), parent) := by
    refine Clock.step?_eq_some.mpr ⟨feeds.divided, rfl, ?_⟩
    show (oscillator :: pll :: others)[_]? = _
    rw [hmux, hparent]
  apply UInt64.toNat_inj.mp
  calc tree.reading file 16 clock
      = (moduleNode offset (oscillator :: pll :: others)).exact file
          (tree.reading file 15 parent) := Clock.reading_step step 15
    _ = tree.reading file 15 parent / (2 ^ exponent * divider) := by
        show _ / (2 ^ Field.raw _ _ * Field.value _ _) = _
        rw [hp, hm]
    _ = setting.rate.toNat := by rw [hreading, hrate, Clock.toNat_divided]

end Reading

/-! ### Setting and reading -/

/-- A module clock fed by the PLL with both multipliers as the setter has them. -/
def ModuleClock (tree : Tree) (clock offset : Nat) : Prop :=
  ∃ oscillator pll others, Feeds tree oscillator pll clock offset pllK others

/-- The MMC module clocks of the R40, with their control registers. -/
def r40Clocks : List (Nat × Nat) := [(127, 0x088), (128, 0x08c), (129, 0x090), (130, 0x094)]

theorem feeds_r40 : ∀ entry ∈ r40Clocks,
    Feeds Chip.R40.tree Chip.R40.mainOscillator Chip.R40.pllPeriph0 entry.1 entry.2
      Chip.R40.pllK [Chip.R40.pllPeriph1] := by
  have hfixed : Chip.R40.tree[Chip.R40.mainOscillator]? =
      some (.ready (.fixed mainOscillator)) := rfl
  have hmultiplied : Chip.R40.tree[Chip.R40.pllPeriph0]? =
      some (pllNode Chip.R40.mainOscillator Chip.R40.pllK) := rfl
  simp only [r40Clocks, List.forall_mem_cons]
  exact ⟨⟨hfixed, hmultiplied, rfl⟩, ⟨hfixed, hmultiplied, rfl⟩, ⟨hfixed, hmultiplied, rfl⟩,
    ⟨hfixed, hmultiplied, rfl⟩, fun _ h => absurd h List.not_mem_nil⟩

/-- The multiplier of the R40 is raised to two, which is the setter's but where the field is zero. -/
theorem value_r40K {word : UInt32} (h : pllK.raw word ≠ 0) :
    Chip.R40.pllK.value word = Pll.sun6i.k.value word := by
  have hraw : Chip.R40.pllK.raw word = Pll.sun6i.k.raw word := rfl
  have hraised : Chip.R40.pllK.min.toNat ≤ Chip.R40.pllK.raw word + 1 :=
    Nat.succ_le_succ (Nat.one_le_iff_ne_zero.mpr h)
  rw [Field.value_eq_succ (f := Chip.R40.pllK) rfl (by decide) hraised rfl,
    Field.value_eq_succ (f := Pll.sun6i.k) rfl (by decide) (Nat.zero_le _) rfl, hraw]

/-- **The rate that was set is the rate that is read.** After a request for a rate of the module
clock with its control register at `offset` was answered with `actual`, every clock tree that has
the module clock finds it to run at `actual`. So does the tree of the R40, where the second
multiplier of the PLL is not raised to its lower bound. -/
theorem Setter.rate_readback {file : RegisterFile} {offset : Nat} {requested actual : Rate}
    (hoffset : offset ≠ 0x028)
    (hset : ((sun6i.setRate offset requested).run RegisterFile.serve file).value = .ok actual) :
    let after := ((sun6i.setRate offset requested).run RegisterFile.serve file).state
    (∀ tree clock, ModuleClock tree clock offset →
      ((tree.rate clock).run RegisterFile.serve after).value = actual) ∧
    (∀ clock, (clock, offset) ∈ r40Clocks → pllK.raw (file.get 0x028) ≠ 0 →
      ((Chip.R40.tree.rate clock).run RegisterFile.serve after).value = actual) := by
  intro after
  obtain ⟨setting, hsetting, rfl, hstate⟩ := exists_setting_of_answer hset
  have hafter : after = file.set offset setting.control.word := hstate
  have hword : after.get offset = setting.control.word := by
    rw [hafter, RegisterFile.get_set, if_pos rfl]
  have hpll : after.get 0x028 = file.get 0x028 := by
    rw [hafter, RegisterFile.get_set, if_neg (Ne.symm hoffset)]
  have hagain : sun6i.setting after requested = .ok setting := by
    rw [← hsetting]
    show sun6i.encode (sun6i.pll.rateOf (after.get 0x028)) requested = _
    rw [hpll]
    rfl
  constructor
  · rintro tree clock ⟨oscillator, pll, others, feeds⟩
    exact rate_of_setting feeds rfl hagain hword
  · intro clock hclock hk
    exact rate_of_setting (feeds_r40 _ hclock) (value_r40K (hpll ▸ hk)) hagain hword

/-- An oscillator, the PLL on it and a module clock on either. -/
def threeClocks : Tree := [.ready (.fixed mainOscillator), pllNode 0 pllK, moduleNode 0x088 [0, 1]]

/-- A request for 52 MHz from a PLL at 600 MHz is answered with 50 MHz, and read back so. -/
theorem Setter.rate_readback_52MHz :
    let r := (sun6i.setRate 0x088 52000000).run RegisterFile.serve (.ofList [(0x028, 0x1810)])
    r.value = .ok 50000000 ∧
      ((threeClocks.rate 2).run RegisterFile.serve r.state).value = 50000000 ∧
      ((Chip.R40.tree.rate 127).run RegisterFile.serve r.state).value = 50000000 := by
  intro r
  have hset : r.value = .ok 50000000 := by decide +kernel
  obtain ⟨hread, hread'⟩ := rate_readback (by decide) hset
  refine ⟨hset, hread threeClocks 2 ⟨0, 1, [], rfl, rfl, rfl⟩, ?_⟩
  exact hread' 127 (by decide) (by decide)

end SocBringup.Mmc
