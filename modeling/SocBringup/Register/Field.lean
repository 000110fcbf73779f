/-! # Fields of a register word

A `Field` is a run of bits in a 32-bit register together with the rule that turns its contents into
a factor: an offset is added, zero stands for one, and the result is held between two bounds.

* `Field.at?`: a field is accepted exactly when its bits lie inside the word.
* `Field.raw`: the bare contents.
* `Field.value`: the factor; it is never zero (`value_pos`).
* `Field.insert`: the word with the contents replaced. -/

namespace SocBringup

/-- A run of `width` bits from bit `shift` up, with the rule for the factor it stands for. A bound
of zero leaves that side open. That the bits lie inside the word is a check which has passed. -/
structure Field where
  shift : Nat
  width : Nat
  offset : UInt32 := 0
  min : UInt32 := 0
  max : UInt32 := 0
  fits : decide (shift < 32 ∧ width ≤ 32 - shift) = true := by exact Eq.refl true

namespace Field

/-- The field at the given bits, if they lie inside the word. -/
def at? (shift width : Nat) : Option Field :=
  if h : decide (shift < 32 ∧ width ≤ 32 - shift) = true then some { shift, width, fits := h }
  else none

/-- A field without bits: its contents are zero and its factor is one. -/
def absent : Field := { shift := 0, width := 0 }

/-- The bits of the field, set. -/
def mask (f : Field) : UInt32 := UInt32.ofNat (((1 <<< f.width) - 1) <<< f.shift)

/-- The contents of the field in a register word. -/
def raw (f : Field) (word : UInt32) : Nat := (word.toNat >>> f.shift) % (1 <<< f.width)

/-- The largest factor there is. -/
def ceiling : Nat := UInt32.size - 1

/-- The factor a register word gives: contents plus offset, where zero stands for one, then raised
to the lower bound and last cut to the upper bound. -/
def value (f : Field) (word : UInt32) : Nat :=
  let sum := Nat.min (f.raw word + f.offset.toNat) ceiling
  let factor := if sum = 0 then 1 else sum
  let raised := if f.min ≠ 0 ∧ factor < f.min.toNat then f.min.toNat else factor
  if f.max ≠ 0 ∧ f.max.toNat < raised then f.max.toNat else raised

/-- The word with `contents` in place of what the field held. Contents wider than the field run
into the bits above it. -/
def insert (f : Field) (word : UInt32) (contents : Nat) : UInt32 :=
  (word &&& ~~~f.mask) ||| UInt32.ofNat (contents <<< f.shift)

/-- The word with `contents`, cut to the width of the field, in place of what the field held. -/
def store (f : Field) (word : UInt32) (contents : Nat) : UInt32 :=
  f.insert word (contents % (1 <<< f.width))

theorem raw_absent (word : UInt32) : absent.raw word = 0 := by
  simp [raw, absent, Nat.mod_one]

/-- **No factor is zero.** -/
theorem value_pos (f : Field) (word : UInt32) : 0 < f.value word := by
  have hmin : f.min ≠ 0 → 0 < f.min.toNat := fun h =>
    Nat.pos_of_ne_zero fun h0 => h (UInt32.toNat_inj.mp h0)
  have hmax : f.max ≠ 0 → 0 < f.max.toNat := fun h =>
    Nat.pos_of_ne_zero fun h0 => h (UInt32.toNat_inj.mp h0)
  unfold value
  grind

end Field

end SocBringup
