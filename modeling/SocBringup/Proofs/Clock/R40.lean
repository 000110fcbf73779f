import SocBringup.Chip.R40
import SocBringup.Proofs.Clock.Nodes
import SocBringup.Proofs.ControlUnit.Steadiness
import SocBringup.Proofs.Register.Factor

/-! # The rates of the R40

The clock tree of the R40 is a table of nodes, each with its fields and its parents. Here is what
its clocks run at, straight from the bits of the registers.

* `pllRate`, `ahb1PllRate`, `ahb1Rate`, `apb2Rate`, `moduleRate`: the rates by the register contents.
* `Role`: which of these a clock runs at; `roles` lists the clocks that have one.
* `closedForm`: the rate of a clock number.
* `Role.rate_eq_zero_iff`, `Role.rate_le`: how small and how large the rates are.
* `reading_role`: a walk finds the rate of its role at every clock that has one.
* `rateIn_closedForm`: the control unit answers with the closed form, for all contents of the
  registers and all clock numbers. -/

namespace SocBringup

/-- The contents of the bits `high` to `low` of the register at `offset`. -/
def RegisterFile.bits (file : RegisterFile) (offset high low : Nat) : Nat :=
  ((file.get offset).toNat >>> low) % 2 ^ (high + 1 - low)

theorem RegisterFile.bits_lt (file : RegisterFile) (offset high low : Nat) :
    file.bits offset high low < 2 ^ (high + 1 - low) := Nat.mod_lt _ (Nat.two_pow_pos _)

namespace Chip.R40

open Clock (Node)

/-! ### The closed form -/

section ClosedForm
variable (file : RegisterFile)

/-- A peripheral PLL with its register at `offset`: 12 MHz times both multipliers. -/
def pllRate (offset : Nat) : Nat :=
  12000000 * (file.bits offset 12 8 + 1) * max 2 (file.bits offset 5 4 + 1)

/-- The first peripheral PLL behind the pre-divider of AHB1. -/
def ahb1PllRate : Nat := pllRate file 0x028 / (file.bits 0x054 7 6 + 1)

/-- AHB1. Its third input is a bus that is not in the tree. -/
def ahb1Rate : Nat :=
  ([32768, 24000000, 0, ahb1PllRate file][file.bits 0x054 13 12]?.getD 0) >>> file.bits 0x054 5 4

/-- APB2, two inputs of which are the same PLL. -/
def apb2Rate : Nat :=
  ([32768, 24000000, pllRate file 0x028, pllRate file 0x028][file.bits 0x058 25 24]?.getD 0) >>>
    file.bits 0x058 17 16 / (file.bits 0x058 4 0 + 1)

/-- A module clock with its control register at `offset`. It has no fourth input. -/
def moduleRate (offset : Nat) : Nat :=
  ([24000000, pllRate file 0x028, pllRate file 0x02c, 0][file.bits offset 25 24]?.getD 0) >>>
    file.bits offset 17 16 / (file.bits offset 3 0 + 1)

end ClosedForm

/-- What a clock runs at. -/
inductive Role where
  | mainOscillator
  | slowOscillator
  | pll (offset : Nat)
  | ahb1Pll
  | ahb1
  | apb2
  | moduleClock (offset : Nat)

namespace Role

/-- The rate by the contents of the registers. -/
def rate (file : RegisterFile) : Role → Nat
  | mainOscillator => 24000000
  | slowOscillator => 32768
  | pll offset => pllRate file offset
  | ahb1Pll => ahb1PllRate file
  | ahb1 => ahb1Rate file
  | apb2 => apb2Rate file
  | moduleClock offset => moduleRate file offset

/-- The registers select an input without a clock. -/
def Hole (file : RegisterFile) : Role → Prop
  | ahb1 => file.bits 0x054 13 12 = 2
  | moduleClock offset => file.bits offset 25 24 = 3
  | _ => False

end Role

/-- The bus gates of MMC, SPI and the USB controllers. -/
def ahb1Gates : List Nat := [39, 40, 41, 42, 47, 48, 49, 50, 52, 53, 54, 55, 56, 57, 58]

def uart0 : Nat := 97

/-- The module clocks of MMC and SPI, with their control registers. -/
def moduleClocks : List (Nat × Nat) :=
  [(127, 0x088), (128, 0x08c), (129, 0x090), (130, 0x094),
   (133, 0x0a0), (134, 0x0a4), (135, 0x0a8), (136, 0x0ac)]

/-- The clocks of the USB controllers and their PHYs. -/
def usbClocks : List Nat := [140, 141, 142, 143, 144, 145]

/-- The clocks of the R40 and what they run at. -/
def roles : List (Nat × Role) := List.flatten [
  [(mainOscillator, .mainOscillator), (slowOscillator, .slowOscillator),
   (pllPeriph0, .pll 0x028), (pllPeriph1, .pll 0x02c), (ahb1Pll, .ahb1Pll), (ahb1, .ahb1),
   (apb2, .apb2), (uart0, .apb2)],
  ahb1Gates.map (·, .ahb1),
  usbClocks.map (·, .mainOscillator),
  moduleClocks.map fun entry => (entry.1, .moduleClock entry.2)]

/-- **The rate of a clock** by the contents of the registers; zero if it has no role. -/
def closedForm (file : RegisterFile) (clock : Nat) : Nat :=
  (roles.lookup clock).elim 0 (Role.rate file)

/-! ### The nodes of the tree -/

theorem mainOscillator_node : tree[mainOscillator]? = some (.ready (.fixed Clock.mainOscillator)) :=
  rfl

theorem slowOscillator_node : tree[slowOscillator]? = some (.ready (.fixed Clock.slowOscillator)) :=
  rfl

theorem pllPeriph0_node : tree[pllPeriph0]? = some (pll 0x028) := rfl

theorem pllPeriph1_node : tree[pllPeriph1]? = some (pll 0x02c) := rfl

theorem ahb1Pll_node : tree[ahb1Pll]? = some ahb1PllNode := rfl

theorem ahb1_node : tree[ahb1]? = some ahb1Node := rfl

theorem apb2_node : tree[apb2]? = some apb2Node := rfl

theorem uart0_node : tree[uart0]? = some (fedBy apb2) := rfl

theorem ahb1Gates_node : ∀ clock ∈ ahb1Gates, tree[clock]? = some (fedBy ahb1) := by
  intro clock h
  fin_cases h <;> rfl

theorem usbClocks_node : ∀ clock ∈ usbClocks, tree[clock]? = some (fedBy mainOscillator) := by
  intro clock h
  fin_cases h <;> rfl

theorem moduleClocks_node : ∀ entry ∈ moduleClocks, tree[entry.1]? = some (moduleClock entry.2) := by
  intro entry h
  fin_cases h <;> rfl

/-- **A clock without a role is absent** from the tree. -/
theorem absent_of_lookup {clock : Nat} (h : roles.lookup clock = none) : tree.Absent clock := by
  have hpending : ∀ entry ∈ tree.zipIdx, roles.lookup entry.2 = none →
      entry.1.flags.ready = false := by decide +kernel
  rcases hnode : tree[clock]? with _ | node
  · exact Or.inl hnode
  · have hready := hpending (node, clock) (List.mem_zipIdx_iff_getElem?.mpr hnode) h
    exact Or.inr ⟨node, hnode, Or.inr hready⟩

/-! ### The size of the rates -/

section Size
variable (file : RegisterFile)

theorem pllRate_bounds (offset : Nat) :
    24000000 ≤ pllRate file offset ∧ pllRate file offset ≤ 1536000000 := by
  have hn : file.bits offset 12 8 < 32 := file.bits_lt offset 12 8
  have hk : file.bits offset 5 4 < 4 := file.bits_lt offset 5 4
  unfold pllRate
  constructor
  · calc 24000000 = 12000000 * 1 * 2 := by norm_num
      _ ≤ _ := Nat.mul_le_mul (Nat.mul_le_mul_left _ (by omega)) (by omega)
  · calc _ ≤ 12000000 * 32 * 4 := Nat.mul_le_mul (Nat.mul_le_mul_left _ (by omega)) (by omega)
      _ = 1536000000 := by norm_num

theorem ahb1PllRate_bounds : 6000000 ≤ ahb1PllRate file ∧ ahb1PllRate file ≤ 1536000000 := by
  obtain ⟨hlow, hhigh⟩ := pllRate_bounds file 0x028
  have hm : file.bits 0x054 7 6 < 4 := file.bits_lt 0x054 7 6
  unfold ahb1PllRate
  constructor
  · rw [Nat.le_div_iff_mul_le (Nat.succ_pos _)]
    omega
  · exact (Nat.div_le_self _ _).trans hhigh

section Selected
variable {inputs : List Nat} (index : Nat)

theorem selected_le {bound : Nat} (h : ∀ rate ∈ inputs, rate ≤ bound) (halvings divisor : Nat) :
    (inputs[index]?.getD 0) >>> halvings / divisor ≤ bound := by
  refine (Nat.div_le_self _ _).trans ((Nat.shiftRight_le _ _).trans ?_)
  cases hinput : inputs[index]? with
  | none => exact Nat.zero_le _
  | some rate => exact h rate (List.mem_of_getElem? hinput)

/-- What is halved at most three times and divided by at most 32 does not vanish. -/
theorem selected_eq_zero_iff {halvings contents : Nat} (h : ∀ rate ∈ inputs, rate = 0 ∨ 256 ≤ rate)
    (hhalvings : halvings < 4) (hcontents : contents < 32) :
    (inputs[index]?.getD 0) >>> halvings / (contents + 1) = 0 ↔ inputs[index]?.getD 0 = 0 := by
  have hpow : 2 ^ halvings ≤ 2 ^ 3 := Nat.pow_le_pow_right two_pos (by omega)
  have hle : 2 ^ halvings * (contents + 1) ≤ 2 ^ 3 * 32 := Nat.mul_le_mul hpow hcontents
  have hpos : 0 < 2 ^ halvings * (contents + 1) := Nat.mul_pos (Nat.two_pow_pos _) (Nat.succ_pos _)
  have hselected : inputs[index]?.getD 0 = 0 ∨ 256 ≤ inputs[index]?.getD 0 := by
    cases hinput : inputs[index]? with
    | none => exact Or.inl rfl
    | some rate => exact h rate (List.mem_of_getElem? hinput)
  rw [Nat.shiftRight_eq_div_pow, Nat.div_div_eq_div_mul, Nat.div_eq_zero_iff_lt hpos]
  omega

end Selected

theorem ahb1Rate_eq_zero_iff : ahb1Rate file = 0 ↔ file.bits 0x054 13 12 = 2 := by
  have hp : file.bits 0x054 5 4 < 4 := file.bits_lt 0x054 5 4
  have hmux : file.bits 0x054 13 12 < 4 := file.bits_lt 0x054 13 12
  have hpll : 256 ≤ ahb1PllRate file := le_trans (by norm_num) (ahb1PllRate_bounds file).1
  have hinputs : ∀ rate ∈ [32768, 24000000, 0, ahb1PllRate file], rate = 0 ∨ 256 ≤ rate := by
    simp [hpll]
  have hselected : ∀ pll index : Nat, 256 ≤ pll → index < 4 →
      ([32768, 24000000, 0, pll][index]?.getD 0 = 0 ↔ index = 2) := by
    intro pll index hpll hindex
    interval_cases index <;> simp
    omega
  unfold ahb1Rate
  rw [← Nat.div_one (_ >>> _), selected_eq_zero_iff _ hinputs hp (Nat.succ_pos _)]
  exact hselected _ _ hpll hmux

theorem apb2Rate_ne_zero : apb2Rate file ≠ 0 := by
  have hp : file.bits 0x058 17 16 < 4 := file.bits_lt 0x058 17 16
  have hm : file.bits 0x058 4 0 < 32 := file.bits_lt 0x058 4 0
  have hmux : file.bits 0x058 25 24 < 4 := file.bits_lt 0x058 25 24
  have hpll : 256 ≤ pllRate file 0x028 := le_trans (by norm_num) (pllRate_bounds file 0x028).1
  have hinputs : ∀ rate ∈ [32768, 24000000, pllRate file 0x028, pllRate file 0x028],
      rate = 0 ∨ 256 ≤ rate := by
    simp [hpll]
  have hselected : ∀ pll index : Nat, 256 ≤ pll → index < 4 →
      [32768, 24000000, pll, pll][index]?.getD 0 ≠ 0 := by
    intro pll index hpll hindex
    interval_cases index <;> simp <;> omega
  unfold apb2Rate
  rw [ne_eq, selected_eq_zero_iff _ hinputs hp hm]
  exact hselected _ _ hpll hmux

theorem moduleRate_eq_zero_iff (offset : Nat) :
    moduleRate file offset = 0 ↔ file.bits offset 25 24 = 3 := by
  have hp : file.bits offset 17 16 < 4 := file.bits_lt offset 17 16
  have hm : file.bits offset 3 0 < 16 := file.bits_lt offset 3 0
  have hmux : file.bits offset 25 24 < 4 := file.bits_lt offset 25 24
  have hpll : ∀ pll, 256 ≤ pllRate file pll :=
    fun pll => le_trans (by norm_num) (pllRate_bounds file pll).1
  have hinputs : ∀ rate ∈ [24000000, pllRate file 0x028, pllRate file 0x02c, 0],
      rate = 0 ∨ 256 ≤ rate := by
    simp [hpll]
  have hselected : ∀ pll0 pll1 index : Nat, 256 ≤ pll0 → 256 ≤ pll1 → index < 4 →
      ([24000000, pll0, pll1, 0][index]?.getD 0 = 0 ↔ index = 3) := by
    intro pll0 pll1 index hpll0 hpll1 hindex
    interval_cases index <;> simp <;> omega
  unfold moduleRate
  rw [selected_eq_zero_iff _ hinputs hp (hm.trans (by norm_num))]
  exact hselected _ _ _ (hpll _) (hpll _) hmux

namespace Role

/-- **No role runs at more than 1536 MHz**, the rate of a PLL at its largest multipliers. -/
theorem rate_le (role : Role) : role.rate file ≤ 1536000000 := by
  have hpll := fun offset => (pllRate_bounds file offset).2
  have hahb1Pll := (ahb1PllRate_bounds file).2
  cases role with
  | mainOscillator => norm_num [rate]
  | slowOscillator => norm_num [rate]
  | pll offset => exact hpll offset
  | ahb1Pll => exact hahb1Pll
  | ahb1 =>
    show ahb1Rate file ≤ _
    rw [ahb1Rate, ← Nat.div_one (_ >>> _)]
    exact selected_le _ (by simp [hahb1Pll]) _ _
  | apb2 => exact selected_le _ (by simp [hpll]) _ _
  | moduleClock offset => exact selected_le _ (by simp [hpll]) _ _

/-- **A role comes to a stop at a hole only.** -/
theorem rate_eq_zero_iff (role : Role) : role.rate file = 0 ↔ role.Hole file := by
  cases role with
  | mainOscillator => simp [rate, Hole]
  | slowOscillator => simp [rate, Hole]
  | pll offset =>
    have hlow := (pllRate_bounds file offset).1
    exact iff_of_false (show pllRate file offset ≠ 0 by omega) id
  | ahb1Pll =>
    have hlow := (ahb1PllRate_bounds file).1
    exact iff_of_false (show ahb1PllRate file ≠ 0 by omega) id
  | ahb1 => exact ahb1Rate_eq_zero_iff file
  | apb2 => exact iff_of_false (apb2Rate_ne_zero file) id
  | moduleClock offset => exact moduleRate_eq_zero_iff file offset

end Role

end Size

/-! ### The walk finds the closed form -/

section Reading
variable {file : RegisterFile} {clock offset : Nat}

theorem reading_mainOscillator (depth : Nat) :
    tree.reading file (depth + 1) mainOscillator = 24000000 :=
  Clock.reading_fixed mainOscillator_node depth

theorem reading_slowOscillator (depth : Nat) :
    tree.reading file (depth + 1) slowOscillator = 32768 :=
  Clock.reading_fixed slowOscillator_node depth

/-- A PLL does not come near the largest rate there is, so that nothing is lost before the
post-divider. -/
theorem reading_pll (h : tree[clock]? = some (pll offset)) (depth : Nat) :
    tree.reading file (depth + 2) clock = pllRate file offset := by
  have hn : pllN.value (file.get offset) = file.bits offset 12 8 + 1 :=
    Field.value_eq_succ rfl (by decide) (Nat.zero_le _) rfl
  have hk : pllK.value (file.get offset) = max 2 (file.bits offset 5 4 + 1) :=
    Field.value_eq_max rfl (by decide) rfl
  have hproduct : 24000000 * (file.bits offset 12 8 + 1) * max 2 (file.bits offset 5 4 + 1) =
      2 * pllRate file offset := by
    unfold pllRate
    ring
  have hle : pllRate file offset ≤ 1536000000 := (pllRate_bounds file offset).2
  rw [Clock.reading_step (Clock.step?_eq_some.mpr ⟨h, rfl, rfl⟩), reading_mainOscillator]
  show min (24000000 * pllN.value (file.get offset) * pllK.value (file.get offset)) (2 ^ 64 - 1) /
    max 2 1 = _
  rw [hn, hk, hproduct, min_eq_left (by omega), max_eq_left (by decide),
    Nat.mul_div_cancel_left _ two_pos]

theorem reading_ahb1Pll (depth : Nat) :
    tree.reading file (depth + 3) ahb1Pll = ahb1PllRate file := by
  rw [Clock.reading_divider ahb1Pll_node]
  show ([tree.reading file (depth + 2) pllPeriph0][Field.absent.raw _]?.getD 0) >>>
    Field.absent.raw _ / Field.value _ (file.get 0x054) = _
  rw [Field.raw_absent, reading_pll pllPeriph0_node,
    Field.value_eq_succ rfl (by decide) (Nat.zero_le _) rfl]
  rfl

theorem reading_axi (depth : Nat) : tree.reading file depth axi = 0 :=
  Clock.reading_absent (absent_of_lookup rfl) depth

theorem reading_ahb1 (depth : Nat) : tree.reading file (depth + 4) ahb1 = ahb1Rate file := by
  rw [Clock.reading_divider ahb1_node]
  show ([tree.reading file (depth + 3) slowOscillator, tree.reading file (depth + 3) mainOscillator,
    tree.reading file (depth + 3) axi, tree.reading file (depth + 3) ahb1Pll][_]?.getD 0) >>> _ /
      Field.absent.value _ = _
  rw [reading_slowOscillator, reading_mainOscillator, reading_axi, reading_ahb1Pll,
    Field.value_absent, Nat.div_one]
  rfl

theorem reading_apb2 (depth : Nat) : tree.reading file (depth + 3) apb2 = apb2Rate file := by
  rw [Clock.reading_divider apb2_node]
  show ([tree.reading file (depth + 2) slowOscillator, tree.reading file (depth + 2) mainOscillator,
    tree.reading file (depth + 2) pllPeriph0, tree.reading file (depth + 2) pllPeriph0][_]?.getD 0) >>>
      _ / Field.value _ (file.get 0x058) = _
  rw [reading_slowOscillator, reading_mainOscillator, reading_pll pllPeriph0_node,
    Field.value_eq_succ rfl (by decide) (Nat.zero_le _) rfl]
  rfl

/-- The fourth input, which the closed form lists with nothing on it, is past the end of the
parents. -/
theorem reading_moduleClock (h : tree[clock]? = some (moduleClock offset)) (depth : Nat) :
    tree.reading file (depth + 3) clock = moduleRate file offset := by
  rw [Clock.reading_divider h]
  show ([tree.reading file (depth + 2) mainOscillator, tree.reading file (depth + 2) pllPeriph0,
    tree.reading file (depth + 2) pllPeriph1][file.bits offset 25 24]?.getD 0) >>> _ /
      Field.value _ (file.get offset) = _
  have hmux : file.bits offset 25 24 < 4 := file.bits_lt offset 25 24
  have hinputs : ∀ a b c index : Nat, index < 4 →
      [a, b, c][index]?.getD 0 = [a, b, c, 0][index]?.getD 0 := by
    intro a b c index hindex
    interval_cases index <;> rfl
  rw [reading_mainOscillator, reading_pll pllPeriph0_node, reading_pll pllPeriph1_node,
    Field.value_eq_succ rfl (show 4 < 32 by decide) (Nat.zero_le _) rfl, hinputs _ _ _ _ hmux]
  rfl

/-- **A walk finds the rate of the role** at every clock that has one. -/
theorem reading_role (depth : Nat) :
    ∀ entry ∈ roles, tree.reading file (depth + 5) entry.1 = entry.2.rate file := by
  have hahb1 : ∀ clock ∈ ahb1Gates, tree.reading file (depth + 5) clock = ahb1Rate file :=
    fun clock h => (Clock.reading_copyOf (ahb1Gates_node clock h) _).trans (reading_ahb1 depth)
  have husb : ∀ clock ∈ usbClocks, tree.reading file (depth + 5) clock = 24000000 :=
    fun clock h => (Clock.reading_copyOf (usbClocks_node clock h) _).trans
      (reading_mainOscillator (depth + 3))
  have huart0 : tree.reading file (depth + 5) uart0 = apb2Rate file :=
    (Clock.reading_copyOf uart0_node _).trans (reading_apb2 (depth + 1))
  have hmodule : ∀ entry ∈ moduleClocks,
      tree.reading file (depth + 5) entry.1 = moduleRate file entry.2 :=
    fun entry h => reading_moduleClock (moduleClocks_node entry h) (depth + 2)
  simp only [roles, List.flatten_cons, List.flatten_nil, List.forall_mem_append,
    List.forall_mem_cons, List.forall_mem_map]
  exact ⟨⟨reading_mainOscillator _, reading_slowOscillator _, reading_pll pllPeriph0_node _,
    reading_pll pllPeriph1_node _, reading_ahb1Pll _, reading_ahb1 _, reading_apb2 _, huart0,
    fun _ h => absurd h List.not_mem_nil⟩, hahb1, husb, hmodule,
    fun _ h => absurd h List.not_mem_nil⟩

/-- **A walk of five nodes or more finds the closed form** at every clock number. -/
theorem reading_closedForm (depth clock : Nat) :
    tree.reading file (depth + 5) clock = closedForm file clock := by
  unfold closedForm
  cases hrole : roles.lookup clock with
  | none => exact Clock.reading_absent (absent_of_lookup hrole) _
  | some role =>
    obtain ⟨before, after, hroles, -⟩ := List.lookup_eq_some_iff.mp hrole
    refine reading_role depth (clock, role) ?_
    rw [hroles]
    exact List.mem_append_right _ List.mem_cons_self

/-- **The closed form is zero** at a clock that is absent from the tree and at a hole, and nowhere
else. -/
theorem closedForm_eq_zero_iff : closedForm file clock = 0 ↔
    tree.Absent clock ∨ ∃ role, roles.lookup clock = some role ∧ role.Hole file := by
  constructor
  · intro h
    unfold closedForm at h
    cases hrole : roles.lookup clock with
    | none => exact Or.inl (absent_of_lookup hrole)
    | some role =>
      rw [hrole] at h
      exact Or.inr ⟨role, rfl, (role.rate_eq_zero_iff file).mp h⟩
  · rintro (habsent | ⟨role, hrole, hhole⟩)
    · rw [← reading_closedForm 0]
      exact Clock.reading_absent habsent _
    · unfold closedForm
      rw [hrole]
      exact (role.rate_eq_zero_iff file).mpr hhole

theorem closedForm_le : closedForm file clock ≤ 1536000000 := by
  unfold closedForm
  cases roles.lookup clock with
  | none => exact Nat.zero_le _
  | some role => exact role.rate_le file

end Reading

/-! ### The depth of the tree -/

/-- At least the number of nodes that a walk passes before it comes to its last. -/
def rank (clock : Nat) : Nat :=
  if clock ∈ [mainOscillator, slowOscillator, axi] then 0
  else if clock ∈ [pllPeriph0, pllPeriph1] then 1
  else if clock = ahb1Pll then 2
  else if clock ∈ [ahb1, apb2] then 3
  else 4

theorem rank_le (clock : Nat) : rank clock ≤ 4 := by
  unfold rank
  split_ifs <;> decide

theorem ranked : tree.Ranked rank := by decide +kernel

/-! ### The answers of the control unit -/

/-- **The R40 runs at the rates of the closed form.** For all contents of the registers and all clock
numbers, the control unit answers with the closed form. The rate is zero at a clock that is absent
from the tree and at an input without a clock, and nowhere else, and it is never above 1536 MHz.
Of the `maxDepth` nodes that a walk may take, five are enough: whatever the budget above that, a walk
finds the same rate and is not given up. -/
theorem rateIn_closedForm (file : RegisterFile) (clock : Nat) :
    (r40.rateIn file clock).toNat = closedForm file clock ∧
    (r40.rateIn file clock = 0 ↔
      tree.Absent clock ∨ ∃ role, roles.lookup clock = some role ∧ role.Hole file) ∧
    r40.rateIn file clock ≤ 1536000000 ∧
    ∀ depth, let walk := (tree.rateWithin (depth + 5) clock).run RegisterFile.serve file
      walk.value = r40.rateIn file clock ∧ ∀ x ∈ walk.trace, Clock.NotGivenUp x.request := by
  have hrate : r40.rateIn file clock = ((tree.rate clock).run RegisterFile.serve file).value :=
    rateIn_eq rfl file clock
  have hclosed : (r40.rateIn file clock).toNat = closedForm file clock := by
    rw [hrate]
    exact reading_closedForm 11 clock
  refine ⟨hclosed, ?_, ?_, fun depth => ⟨?_, ?_⟩⟩
  · rw [← closedForm_eq_zero_iff, ← hclosed]
    exact UInt64.toNat_inj.symm
  · rw [UInt64.le_iff_toNat_le, hclosed]
    exact closedForm_le
  · apply UInt64.toNat_inj.mp
    rw [hclosed]
    exact reading_closedForm depth clock
  · have hrank : rank clock < depth + 5 := lt_of_le_of_lt (rank_le clock) (by omega)
    exact (ranked.within_rateWithin hrank).of_mem_trace RegisterFile.serve file

/-- The gate of SPI0 with AHB1 on a PLL of 600 MHz, behind a pre-divider of three. -/
example : r40.rateIn (.ofList [(0x028, 0x1810), (0x054, 0x3180)]) 47 = 200000000 := by
  decide +kernel

end Chip.R40

end SocBringup
