import SocBringup.Proofs.Register.Apart
import Mathlib.Tactic

/-! # Fields as lenses on words

A field parts a word in two: what the field holds, and the bits outside its mask. A word is known by
both parts, and an insertion makes the one word that has a new first part and the old second one.

* `eq_of_parts`: a word by its parts.
* `insert_raw`, `cleared_insert`, `insert_insert`: what comes of inserting the same, or once more.
* `disjoint_iff`, `raw_insert_iff`: the fields in which no insertion is seen.
* `lowest`, `maskWord`, `rawWord`: mask and contents in 32-bit arithmetic, which cannot shift a word
  by its whole width. `maskWord_eq`, `toNat_rawWord` and `insert_eq_words` say that the operations
  are the same in it, and `rawWord_shiftLeft` what the contents are in their place.
* `Lens`, `lens`: the laws of a field, from one without bits to one of a whole word. -/

namespace SocBringup.Field

variable (f : Field) {g : Field} (word : UInt32)

/-! ### The parts of a word -/

theorem testBit_mask_eq_false {i : Nat} : f.mask.toNat.testBit i = false ↔ ¬ f.Covers i := by
  rw [testBit_mask, decide_eq_false_iff_not]

/-- **A word is known by its parts.** -/
theorem eq_of_parts {a b : UInt32} (hraw : f.raw a = f.raw b)
    (houtside : ∀ i, ¬ f.Covers i → a.toNat.testBit i = b.toNat.testBit i) : a = b := by
  refine UInt32.toNat_inj.mp (Nat.eq_of_testBit_eq fun i => ?_)
  by_cases hi : f.Covers i
  · exact testBit_of_raw hraw hi
  · exact houtside i hi

variable {contents : Nat}

/-- An insertion leaves the bits outside the field. -/
theorem testBit_insert_outside (h : contents < 2 ^ f.width) {i : Nat} (hi : ¬ f.Covers i) :
    (f.insert word contents).toNat.testBit i = word.toNat.testBit i :=
  (f.testBit_insert word h i).trans (if_neg hi)

/-- Inserting what the field holds changes nothing. -/
theorem insert_raw : f.insert word (f.raw word) = word :=
  f.eq_of_parts (f.raw_insert word (f.raw_lt word)) fun _ hi =>
    f.testBit_insert_outside word (f.raw_lt word) hi

/-- An insertion leaves the part outside the mask. -/
theorem cleared_insert (h : contents < 2 ^ f.width) :
    f.insert word contents &&& ~~~f.mask = word &&& ~~~f.mask := by
  refine UInt32.toNat_inj.mp (Nat.eq_of_testBit_eq fun i => ?_)
  rw [testBit_cleared, testBit_cleared, testBit_mask]
  by_cases hi : f.Covers i
  · simp [hi]
  · rw [f.testBit_insert_outside word h hi]

/-- **The second of two insertions overrides the first.** -/
theorem insert_insert (h : contents < 2 ^ f.width) (second : Nat) :
    f.insert (f.insert word contents) second = f.insert word second := by
  rw [insert, f.cleared_insert word h]
  rfl

/-! ### Other fields -/

/-- Masks have no bit in common exactly if no bit is covered twice. -/
theorem disjoint_iff : f.mask &&& g.mask = 0 ↔ ∀ i, f.Covers i → ¬ g.Covers i := by
  rw [and_eq_zero_iff]
  simp only [testBit_mask, decide_eq_true_eq, decide_eq_false_iff_not]

/-- **No insertion is seen in another field**, exactly if the masks have no bit in common. A common
bit shows when all bits of the field are set in a word without any. -/
theorem raw_insert_iff : (∀ word contents, contents < 2 ^ f.width →
    g.raw (f.insert word contents) = g.raw word) ↔ f.mask &&& g.mask = 0 := by
  rw [disjoint_iff]
  constructor
  · intro h i hf hg
    have hall : 2 ^ f.width - 1 < 2 ^ f.width := Nat.sub_lt (Nat.two_pow_pos _) one_pos
    have hset : (f.insert 0 (2 ^ f.width - 1)).toNat.testBit i = true := by
      rw [f.testBit_insert 0 hall, if_pos hf, Nat.testBit_two_pow_sub_one,
        decide_eq_true hf.sub_lt]
    have hclear : (f.insert 0 (2 ^ f.width - 1)).toNat.testBit i = false :=
      (testBit_of_raw (h 0 _ hall) hg).trans (Nat.zero_testBit i)
    exact Bool.false_ne_true (hclear.symm.trans hset)
  · intro h word contents hfits
    exact raw_congr fun i hi => f.testBit_insert_outside word hfits fun hf => h i hf hi

/-! ### In words -/

/-- The word whose lowest bits are set. A word cannot be shifted by its whole width, so all of its
bits are a case of their own. -/
def lowest (width : Nat) : UInt32 :=
  if 32 ≤ width then 0xffffffff else (1 <<< UInt32.ofNat width) - 1

/-- The mask, in 32-bit arithmetic. A field without bits is a case of its own. -/
def maskWord : UInt32 := if f.width = 0 then 0 else lowest f.width <<< UInt32.ofNat f.shift

/-- The contents, in 32-bit arithmetic. A field without bits is a case of its own. -/
def rawWord : UInt32 :=
  if f.width = 0 then 0 else (word >>> UInt32.ofNat f.shift) &&& lowest f.width

section Shifts
variable {amount : Nat} (h : amount < 32)
include h

theorem toNat_amount : (UInt32.ofNat amount).toNat % 32 = amount := by
  rw [UInt32.toNat_ofNat', Nat.mod_eq_of_lt (h.trans (by decide)), Nat.mod_eq_of_lt h]

theorem toNat_shiftLeft :
    (word <<< UInt32.ofNat amount).toNat = word.toNat * 2 ^ amount % 2 ^ 32 := by
  rw [UInt32.toNat_shiftLeft, toNat_amount h, Nat.shiftLeft_eq]

theorem toNat_shiftRight : (word >>> UInt32.ofNat amount).toNat = word.toNat / 2 ^ amount := by
  rw [UInt32.toNat_shiftRight, toNat_amount h, Nat.shiftRight_eq_div_pow]

end Shifts

theorem toNat_lowest {width : Nat} (h : width ≤ 32) : (lowest width).toNat = 2 ^ width - 1 := by
  unfold lowest
  split_ifs with hwhole
  · rw [Nat.le_antisymm h hwhole]
    rfl
  · have hlt : width < 32 := not_le.mp hwhole
    have hshift : ((1 : UInt32) <<< UInt32.ofNat width).toNat = 2 ^ width := by
      rw [toNat_shiftLeft 1 hlt, UInt32.toNat_one, one_mul]
      exact Nat.mod_eq_of_lt (Nat.pow_lt_pow_right (by decide) hlt)
    have hone : (1 : UInt32) ≤ 1 <<< UInt32.ofNat width := by
      rw [UInt32.le_iff_toNat_le, hshift]
      exact Nat.one_le_two_pow
    rw [UInt32.toNat_sub_of_le _ _ hone, hshift]
    rfl

theorem width_le : f.width ≤ 32 := (Nat.le_add_left _ _).trans f.span_le

/-- **The mask is the same in words.** -/
theorem maskWord_eq : f.maskWord = f.mask := by
  refine UInt32.toNat_inj.mp ?_
  rw [toNat_mask, maskWord]
  split_ifs with hempty
  · rw [hempty, pow_zero, Nat.sub_self, zero_mul]
    rfl
  · rw [toNat_shiftLeft _ f.shift_lt, toNat_lowest f.width_le]
    exact Nat.mod_eq_of_lt (f.mul_pow_lt (Nat.sub_lt (Nat.two_pow_pos _) one_pos))

/-- **The contents are the same in words.** -/
theorem toNat_rawWord : (f.rawWord word).toNat = f.raw word := by
  rw [raw_eq, rawWord]
  split_ifs with hempty
  · rw [hempty, pow_zero, Nat.mod_one]
    rfl
  · rw [UInt32.toNat_and, toNat_shiftRight word f.shift_lt, toNat_lowest f.width_le,
      Nat.and_two_pow_sub_one_eq_mod]

/-- **An insertion is the same in words.** -/
theorem insert_eq_words (contents : UInt32) : f.insert word contents.toNat =
    (word &&& ~~~f.maskWord) ||| (contents <<< UInt32.ofNat f.shift) := by
  have hplace : UInt32.ofNat (contents.toNat * 2 ^ f.shift) =
      contents <<< UInt32.ofNat f.shift := by
    refine UInt32.toNat_inj.mp ?_
    rw [toNat_shiftLeft _ f.shift_lt, UInt32.toNat_ofNat']
  rw [insert_eq, maskWord_eq, hplace]

/-- **The contents, moved to their place, are the bits under the mask.** -/
theorem rawWord_shiftLeft : f.rawWord word <<< UInt32.ofNat f.shift = word &&& f.mask := by
  have hplace : (f.rawWord word <<< UInt32.ofNat f.shift).toNat = f.raw word * 2 ^ f.shift := by
    rw [toNat_shiftLeft _ f.shift_lt, toNat_rawWord]
    exact Nat.mod_eq_of_lt (f.mul_pow_lt (f.raw_lt word))
  refine UInt32.toNat_inj.mp (Nat.eq_of_testBit_eq fun i => ?_)
  rw [hplace, Nat.testBit_mul_two_pow, testBit_raw, UInt32.toNat_and, Nat.testBit_and, testBit_mask]
  by_cases hle : f.shift ≤ i
  · have hwidth : i - f.shift < f.width ↔ f.Covers i := by
      unfold Covers
      omega
    rw [Nat.add_sub_cancel' hle, decide_eq_true hle, Bool.true_and, decide_eq_decide.mpr hwidth,
      Bool.and_comm]
  · have hout : ¬ f.Covers i := fun hi => hle hi.1
    rw [decide_eq_false hle, decide_eq_false hout, Bool.false_and, Bool.and_false]

/-! ### The laws -/

/-- **The laws of a field.** Contents that are to be read back, or to leave the rest of the word,
have to fit. -/
structure Lens : Prop where
  /-- What was inserted is read back. -/
  inserted : ∀ word contents, contents < 2 ^ f.width → f.raw (f.insert word contents) = contents
  /-- The bits outside the mask are left. -/
  outside : ∀ word contents, contents < 2 ^ f.width → ∀ i, f.mask.toNat.testBit i = false →
    (f.insert word contents).toNat.testBit i = word.toNat.testBit i
  /-- No other word has the new contents and the old bits outside the mask. -/
  determined : ∀ word new : UInt32, (∀ i, f.mask.toNat.testBit i = false →
    new.toNat.testBit i = word.toNat.testBit i) → new = f.insert word (f.raw new)
  /-- No insertion is seen in another field, exactly if the masks have no bit in common. -/
  others : ∀ g : Field, (∀ word contents, contents < 2 ^ f.width →
    g.raw (f.insert word contents) = g.raw word) ↔ f.mask &&& g.mask = 0
  /-- The second of two insertions overrides the first. -/
  overridden : ∀ word first second, first < 2 ^ f.width →
    f.insert (f.insert word first) second = f.insert word second
  /-- Inserting what the field holds changes nothing. -/
  unchanged : ∀ word, f.insert word (f.raw word) = word

/-- **A field is a lens on words**, and its operations are those of 32-bit arithmetic: an insertion
clears the mask and sets the contents moved to their place, where contents that were read are the
bits under the mask. None of it goes wrong for a field without bits or for one of a whole word. -/
theorem lens : f.Lens ∧ f.maskWord = f.mask ∧ ∀ word : UInt32,
    (f.rawWord word).toNat = f.raw word ∧
    f.rawWord word <<< UInt32.ofNat f.shift = word &&& f.mask ∧
    ∀ contents : UInt32, f.insert word contents.toNat =
      (word &&& ~~~f.maskWord) ||| (contents <<< UInt32.ofNat f.shift) := by
  refine ⟨⟨fun word _ h => f.raw_insert word h, fun word _ h i hi => ?_, fun word new h => ?_,
    fun _ => f.raw_insert_iff, fun word _ second h => f.insert_insert word h second, f.insert_raw⟩,
    f.maskWord_eq, fun word =>
      ⟨f.toNat_rawWord word, f.rawWord_shiftLeft word, f.insert_eq_words word⟩⟩
  · exact f.testBit_insert_outside word h (f.testBit_mask_eq_false.mp hi)
  · have hfits := f.raw_lt new
    refine f.eq_of_parts (f.raw_insert word hfits).symm fun i hi => ?_
    rw [f.testBit_insert_outside word hfits hi, h i (f.testBit_mask_eq_false.mpr hi)]

/-- A field of a whole word takes the greatest contents, and no insertion in a field of two bits is
seen in one without bits, although that lies between the two. -/
theorem lens_wholeWord :
    let whole : Field := { shift := 0, width := 32 }
    let pair : Field := { shift := 8, width := 2 }
    let between : Field := { shift := 9, width := 0 }
    (0xffffffff < 2 ^ whole.width ∧ whole.raw (whole.insert 0x12345678 0xffffffff) = 0xffffffff) ∧
      (pair.mask &&& between.mask = 0 ∧ 3 < 2 ^ pair.width ∧
        between.raw (pair.insert 0x81000504 3) = between.raw 0x81000504) ∧
      pair.insert (pair.insert 0x81000504 3) 2 = 0x81000604 ∧
      whole.insert 0x12345678 0xfedcba98 =
        ((0x12345678 : UInt32) &&& ~~~whole.maskWord) ||| ((0xfedcba98 : UInt32) <<< 0) := by
  intro whole pair between
  obtain ⟨hwhole, -, hwords⟩ := lens whole
  obtain ⟨hpair, -, -⟩ := lens pair
  have hgreatest : 0xffffffff < 2 ^ whole.width := by decide
  have hthree : 3 < 2 ^ pair.width := by decide
  have hdisjoint : pair.mask &&& between.mask = 0 := by decide
  have hoverridden : pair.insert (pair.insert 0x81000504 3) 2 = 0x81000604 :=
    (hpair.overridden 0x81000504 3 2 hthree).trans (by decide)
  obtain ⟨-, -, hinsert⟩ := hwords 0x12345678
  exact ⟨⟨hgreatest, hwhole.inserted 0x12345678 _ hgreatest⟩,
    ⟨hdisjoint, hthree, (hpair.others between).mpr hdisjoint 0x81000504 3 hthree⟩, hoverridden,
    hinsert 0xfedcba98⟩

end SocBringup.Field
