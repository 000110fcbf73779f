import SocBringup.Mmc.Pll
import SocBringup.Proofs.Register.Apart
import SocBringup.Proofs.Register.Factor

/-! # No rate divides by zero

The rate of a clock is found by shifting the words of registers down and by dividing. Neither always
has a result: a word cannot be shifted down by its whole width or more, and nothing can be divided by
zero. Here the rates are computed once more by operations that have a result only where there is
one, and there always is.

* `shifted?`, `quotient?`: the two operations.
* `Field.value?_eq`: the bits of a field lie inside the word, so its factor has a result.
* `Multiplier.output?_eq`, `Divider.output?_eq`: no factor is zero, so nodes have a result.
* `Tree.rateWithin?_eq`: neither stops a walk through a tree, node by node.
* `Pll.rateOf?_eq`: a PLL is stopped by nothing but its own post-divider.
* `rates_defined`: fields hold to their bounds, and all rates have a result. -/

namespace SocBringup

/-! ### Shifts and quotients -/

/-- A word shifted down, by less than its width. -/
def shifted? (word : UInt32) (amount : Nat) : Option Nat :=
  if amount < 32 then some (word.toNat >>> amount) else none

/-- A quotient, by a divisor other than zero. -/
def quotient? (dividend divisor : Nat) : Option Nat :=
  if divisor = 0 then none else some (dividend / divisor)

theorem shifted?_of_lt (word : UInt32) {amount : Nat} (h : amount < 32) :
    shifted? word amount = some (word.toNat >>> amount) := if_pos h

theorem quotient?_of_pos (dividend : Nat) {divisor : Nat} (h : 0 < divisor) :
    quotient? dividend divisor = some (dividend / divisor) := if_neg h.ne'

/-! ### Fields -/

namespace Field

theorem isSome_at? (shift width : Nat) :
    (at? shift width).isSome ↔ shift < 32 ∧ width ≤ 32 - shift := by
  unfold at?
  split_ifs with h
  · exact iff_of_true rfl (of_decide_eq_true h)
  · exact iff_of_false Bool.false_ne_true fun hfits => h (decide_eq_true hfits)

/-- The contents of the field in a register word, by a shift that may have no result. -/
def raw? (f : Field) (word : UInt32) : Option Nat := do
  let bits ← shifted? word f.shift
  return bits % (1 <<< f.width)

/-- The factor a register word gives, by a shift that may have no result. -/
def value? (f : Field) (word : UInt32) : Option Nat := do
  let contents ← f.raw? word
  return f.factor contents

theorem raw?_eq (f : Field) (word : UInt32) : f.raw? word = some (f.raw word) := by
  rw [raw?, shifted?_of_lt word f.shift_lt]
  rfl

/-- **The bits of a field lie inside the word**, so that its factor has a result. -/
theorem value?_eq (f : Field) (word : UInt32) : f.value? word = some (f.value word) := by
  rw [value?, raw?_eq, value_eq_factor]
  rfl

end Field

/-! ### Nodes -/

namespace Clock

/-- A rate halved a number of times and divided, if it can be. -/
def Rate.divided? (rate : Rate) (halvings divisor : Nat) : Option Rate := do
  let quotient ← quotient? (rate.toNat >>> halvings) divisor
  return UInt64.ofNat quotient

theorem Rate.divided?_of_pos (rate : Rate) (halvings : Nat) {divisor : Nat} (h : 0 < divisor) :
    rate.divided? halvings divisor = some (rate.divided halvings divisor) := by
  rw [divided?, quotient?_of_pos _ h]
  rfl

/-- What a multiplier makes of its parent's rate, by operations that may have no result. -/
def Multiplier.output? (m : Multiplier) (flags : Flags) (word : UInt32) (parent : Rate) :
    Option Rate := do
  let n ← m.n.value? word
  let k ← m.k.value? word
  let rate := Rate.times (Rate.times parent n) k
  if flags.postDivided then Rate.divided? rate 0 (Nat.max m.postDivider.toNat 1) else return rate

/-- What a divider makes of its parent's rate, by operations that may have no result. -/
def Divider.output? (d : Divider) (word : UInt32) (parent : Rate) : Option Rate := do
  let p ← d.p.raw? word
  let m ← d.m.value? word
  Rate.divided? parent p m

/-- **A multiplier has a result**: a post-divider of zero divides by one. -/
theorem Multiplier.output?_eq (m : Multiplier) (flags : Flags) (word : UInt32) (parent : Rate) :
    m.output? flags word parent = some (m.output flags word parent) := by
  have hpost : 0 < Nat.max m.postDivider.toNat 1 := Nat.le_max_right _ _
  simp only [output?, output, Field.value?_eq, Option.bind_eq_bind, Option.bind_some,
    Rate.divided?_of_pos _ _ hpost]
  split_ifs <;> rfl

/-- **A divider has a result**: no factor is zero. -/
theorem Divider.output?_eq (d : Divider) (word : UInt32) (parent : Rate) :
    d.output? word parent = some (d.output word parent) := by
  rw [output?, Field.raw?_eq, Field.value?_eq]
  exact parent.divided?_of_pos _ (d.m.value_pos word)

/-! ### Walks -/

namespace Tree

/-- The rate of a clock, by a walk whose operations may have no result. -/
def rateWithin? (tree : Tree) : (depth : Nat) → (clock : Nat) → Program Registers (Option Rate)
  | 0, clock =>
    match tree[clock]? with
    | none => some <$> withoutRate (.outsideTree clock)
    | some _ => some <$> withoutRate (.treeTooDeep clock)
  | depth + 1, clock =>
    match tree[clock]? with
    | none => some <$> withoutRate (.outsideTree clock)
    | some node =>
      if node.flags.ready then
        match node.kind with
        | .unset => some <$> withoutRate (.nodeUnset clock)
        | .copyOf parent => rateWithin? tree depth parent
        | .fixed rate => return some rate
        | .multiplier m => do
          let parent ← rateWithin? tree depth m.parent
          let word ← Registers.read m.offset
          return parent.bind (m.output? node.flags word)
        | .divider d => do
          let word ← Registers.read d.offset
          match d.mux.raw? word with
          | none => return none
          | some index =>
            match d.parents[index]? with
            | none => some <$> withoutRate (.noParent clock index)
            | some parent => do
              let rate ← rateWithin? tree depth parent
              return rate.bind (d.output? word)
      else some <$> withoutRate (.nodePending clock)

/-- The rate of a clock in Hz, by a walk whose operations may have no result. -/
def rate? (tree : Tree) (clock : Nat) : Program Registers (Option Rate) :=
  tree.rateWithin? maxDepth clock

/-- **No walk is stopped.** By induction on its depth, one case for each kind of node. -/
theorem rateWithin?_eq (tree : Tree) (depth clock : Nat) :
    tree.rateWithin? depth clock = some <$> tree.rateWithin depth clock := by
  induction depth generalizing clock with
  | zero =>
    unfold rateWithin? rateWithin
    cases tree[clock]? <;> rfl
  | succ depth ih =>
    unfold rateWithin? rateWithin
    cases tree[clock]? with
    | none => rfl
    | some node =>
      obtain ⟨kind, flags⟩ := node
      by_cases hready : flags.ready = true
      · simp only [hready, if_true]
        cases kind with
        | unset => rfl
        | copyOf parent => exact ih parent
        | fixed rate => rfl
        | multiplier m =>
          simp only [ih, map_eq_pure_bind, bind_assoc, pure_bind, Option.bind_some,
            Multiplier.output?_eq]
        | divider d =>
          simp only [map_eq_pure_bind, bind_assoc, Field.raw?_eq]
          refine bind_congr fun word => ?_
          cases d.parents[d.mux.raw word]? with
          | none => rfl
          | some parent =>
            simp only [ih, map_eq_pure_bind, bind_assoc, pure_bind, Option.bind_some,
              Divider.output?_eq]
      · simp only [hready]
        rfl

end Tree

end Clock

/-! ### The PLL -/

namespace Mmc

open Clock (Rate)

/-- The rate of the PLL when its register holds `word`, by operations that may have no result. -/
def Pll.rateOf? (pll : Pll) (word : UInt32) : Option Rate := do
  let n ← pll.n.value? word
  let k ← pll.k.value? word
  let div1 ← pll.div1.value? word
  let div2 ← pll.div2.value? word
  let product := Rate.times Clock.mainOscillator (n * k)
  let once ← quotient? product.toNat div1
  let twice ← quotient? once div2
  let divided ← quotient? twice pll.postDivider
  return UInt64.ofNat (divided * pll.multiplier)

/-- **The PLL has a result**, whatever its register holds, unless its layout says to divide by
zero. -/
theorem Pll.rateOf?_eq (pll : Pll) (word : UInt32) :
    pll.rateOf? word = if pll.postDivider = 0 then none else some (pll.rateOf word) := by
  simp only [rateOf?, Field.value?_eq, Option.bind_eq_bind, Option.bind_some,
    quotient?_of_pos _ (Field.value_pos _ word)]
  unfold quotient?
  split_ifs <;> rfl

end Mmc

/-! ### All fields, all rates -/

/-- **Fields hold to their bounds, and all rates have a result.** A field is accepted where its bits
lie inside the word. Whatever its offset and bounds, its factor is between one and the greatest word,
up to its upper bound, and down to its lower bound unless that is above the upper one; it is known by
the bits of the field, and greater contents never give less. So no walk through a tree divides by
zero or shifts a word out, whatever the registers hold, and a PLL divides by zero only where its
layout has zero for a constant to divide by. -/
theorem rates_defined :
    (∀ shift width, (Field.at? shift width).isSome ↔ shift < 32 ∧ width ≤ 32 - shift) ∧
    (∀ (f : Field) (word : UInt32), 1 ≤ f.value word ∧ f.value word < 2 ^ 32 ∧
      (f.max ≠ 0 → f.value word ≤ f.max.toNat) ∧
      (f.min ≠ 0 → f.max = 0 ∨ f.min ≤ f.max → f.min.toNat ≤ f.value word)) ∧
    (∀ (f : Field) (a b : UInt32),
      ((∀ i, f.Covers i → a.toNat.testBit i = b.toNat.testBit i) → f.value a = f.value b) ∧
      (f.raw a ≤ f.raw b → f.value a ≤ f.value b)) ∧
    (∀ (tree : Clock.Tree) (clock : Nat), tree.rate? clock = some <$> tree.rate clock) ∧
    ∀ (pll : Mmc.Pll) (word : UInt32),
      pll.rateOf? word = if pll.postDivider = 0 then none else some (pll.rateOf word) := by
  refine ⟨Field.isSome_at?, fun f word => ?_, fun f a b => ⟨fun h => ?_, Field.value_mono⟩,
    fun tree clock => tree.rateWithin?_eq _ clock, Mmc.Pll.rateOf?_eq⟩
  · exact ⟨f.value_pos word, f.value_lt word, fun hmax => Field.value_le_max hmax word,
      fun _ h => Field.min_le_value h word⟩
  · exact Field.value_congr (Field.raw_congr h)

/-- A field of a whole word, with an offset. The sum of the greatest word and the offset does not
wrap, but stops at the upper bound. -/
theorem rates_defined_wholeWord :
    let f : Field := { shift := 0, width := 32, offset := 5, min := 6, max := 9 }
    (f.max ≠ 0 ∧ f.value 0xffffffff ≤ 9) ∧ (f.min ≠ 0 ∧ f.min ≤ f.max ∧ 6 ≤ f.value 0) ∧
      f.raw 0 ≤ f.raw 0xffffffff ∧ f.value 0 ≤ f.value 0xffffffff := by
  intro f
  obtain ⟨-, hbounds, hraw, -⟩ := rates_defined
  have hmax : f.max ≠ 0 := by decide
  have hmin : f.min ≠ 0 := by decide
  have hle : f.min ≤ f.max := by decide
  have hcontents : f.raw 0 ≤ f.raw 0xffffffff := by decide
  obtain ⟨-, -, hupper, -⟩ := hbounds f 0xffffffff
  obtain ⟨-, -, -, hlower⟩ := hbounds f 0
  exact ⟨⟨hmax, hupper hmax⟩, ⟨hmin, hle, hlower hmin (.inr hle)⟩, hcontents,
    (hraw f 0 0xffffffff).2 hcontents⟩

end SocBringup
