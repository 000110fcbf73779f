import SocBringup.Proofs.Program.Latest
import SocBringup.Proofs.Register.Apart

/-! # Stores, one after the other

What a field holds after a series of stores in fields of registers that either are that field or
have no bit in common with it.

* `Store.apply`: a word after some stores.
* `Store.held`: what the last store in a field left in it.
* `raw_apply`: the two agree. -/

namespace SocBringup

namespace Field

/-- Two fields of the same bits. -/
def Same (f g : Field) : Prop := f.shift = g.shift ∧ f.width = g.width

instance (f g : Field) : Decidable (f.Same g) := by unfold Same; infer_instance

theorem Same.raw {f g : Field} (h : f.Same g) (word : UInt32) : f.raw word = g.raw word := by
  rw [Field.raw, Field.raw, h.1, h.2]

end Field

/-- A store in a field of a register. -/
structure Store where
  offset : Nat
  field : Field
  contents : Nat

namespace Store

/-- The word of a register after some stores. -/
def apply (offset : Nat) : List Store → UInt32 → UInt32
  | [], word => word
  | x :: rest, word =>
    apply offset rest (if x.offset = offset then x.field.store word x.contents else word)

/-- What a store puts into a field, if it is one in that field. -/
def into? (offset : Nat) (f : Field) (x : Store) : Option Nat :=
  if x.offset = offset ∧ f.Same x.field then some (x.contents % 2 ^ f.width) else none

/-- What a field holds after some stores: what the last one in it put there, or what it held
before. -/
def held (offset : Nat) (f : Field) (stores : List Store) (before : Nat) : Nat :=
  (latest? (into? offset f) stores).getD before

/-- No store is in a part of the field only. -/
def Clear (offset : Nat) (f : Field) (stores : List Store) : Prop :=
  ∀ x ∈ stores, x.offset = offset → f.Same x.field ∨ f.Apart x.field

variable {offset : Nat} {f : Field} {stores : List Store}

theorem held_append (more : List Store) (before : Nat) :
    held offset f (stores ++ more) before = held offset f more (held offset f stores before) := by
  rw [held, latest?_append, Option.getD_or]
  rfl

/-- Without a store in it, a field is left as it is. -/
theorem held_none (h : ∀ x ∈ stores, into? offset f x = none) (before : Nat) :
    held offset f stores before = before := by
  rw [held, latest?_eq_none h, Option.getD_none]

theorem into?_other {x : Store} (h : x.offset ≠ offset) : into? offset f x = none :=
  if_neg fun hin => h hin.1

theorem raw_step {x : Store} (h : x.offset = offset → f.Same x.field ∨ f.Apart x.field)
    (word : UInt32) :
    f.raw (if x.offset = offset then x.field.store word x.contents else word) =
      (into? offset f x).getD (f.raw word) := by
  by_cases hat : x.offset = offset
  · rw [if_pos hat]
    by_cases hsame : f.Same x.field
    · rw [into?, if_pos ⟨hat, hsame⟩, hsame.raw, Field.raw_store, hsame.2]
      rfl
    · rw [into?, if_neg fun hin => hsame hin.2,
        Field.raw_store_apart ((h hat).resolve_left hsame)]
      rfl
  · rw [if_neg hat, into?_other hat]
    rfl

/-- **A field holds what the last store in it put there.** -/
theorem raw_apply (h : Clear offset f stores) (word : UInt32) :
    f.raw (apply offset stores word) = held offset f stores (f.raw word) := by
  induction stores generalizing word with
  | nil => rfl
  | cons x rest ih =>
    rw [apply, ih fun y hy => h y (List.mem_cons_of_mem _ hy), raw_step (h x List.mem_cons_self),
      held, held, latest?, Option.getD_or]

end Store

end SocBringup
