import SocBringup.Register.Field

/-! # Clock trees

A clock tree lists a node for each clock number: an oscillator, an alias of another clock, a
multiplier fed by one parent, or a divider that selects its parent by a register field. A node that
was declared but not validated for the chip is *pending* and has no rate. -/

namespace SocBringup.Clock

/-- A rate in Hz. -/
abbrev Rate := UInt64

/-- The main crystal oscillator. -/
def mainOscillator : Rate := 24000000

/-- The low speed oscillator. -/
def slowOscillator : Rate := 32768

/-- Marks of a tree node. -/
structure Flags where
  /-- The node is specified in full and safe to use. -/
  ready : Bool := false
  /-- The output of the node goes through its post-divider. -/
  postDivided : Bool := false
  deriving DecidableEq

namespace Flags

/-- The flags as a number, one bit per flag. -/
def bits (f : Flags) : Nat := f.ready.toNat + 2 * f.postDivided.toNat

/-- The flags that are in either set. -/
def union (f g : Flags) : Flags := ⟨f.ready || g.ready, f.postDivided || g.postDivided⟩

/-- The flags of the first set that are not in the second. -/
def difference (f g : Flags) : Flags := ⟨f.ready && !g.ready, f.postDivided && !g.postDivided⟩

/-- Whether the first set has every flag of the second. -/
def contains (f g : Flags) : Bool := (f.ready || !g.ready) && (f.postDivided || !g.postDivided)

end Flags

/-- A multiplier: `parent * n * k`, over the post-divider where the node is so marked. -/
structure Multiplier where
  offset : Nat
  n : Field
  k : Field
  postDivider : UInt32 := 1
  parent : Nat

/-- A divider: the selected parent's rate, halved `p` times and divided by `m`. -/
structure Divider where
  offset : Nat
  m : Field
  p : Field
  mux : Field
  parents : List Nat

/-- What a node of a clock tree is. -/
inductive Kind where
  /-- No node at this number. -/
  | unset
  /-- Another name for a clock, as a bus gate has it for its bus. -/
  | copyOf (parent : Nat)
  /-- An oscillator of known rate. -/
  | fixed (rate : Rate)
  | multiplier (m : Multiplier)
  | divider (d : Divider)

/-- A node of a clock tree. -/
structure Node where
  kind : Kind
  flags : Flags

namespace Node

/-- The entry of a clock number without a node. -/
def unset : Node := ⟨.unset, {}⟩

/-- A node that is ready for use. -/
def ready (kind : Kind) : Node := ⟨kind, { ready := true }⟩

/-- A multiplier whose output goes through its post-divider. -/
def postDivided (m : Multiplier) : Node :=
  ⟨.multiplier m, { ready := true, postDivided := true }⟩

/-- The node, declared but not validated for the chip. -/
def pending (n : Node) : Node := ⟨n.kind, n.flags.difference { ready := true }⟩

end Node

/-- A clock tree: the node of each clock number. -/
abbrev Tree := List Node

/-- The tree of a given size with the listed nodes at their numbers. -/
def Tree.ofList (size : Nat) (nodes : List (Nat × Node)) : Tree :=
  (List.range size).map fun number => (nodes.lookup number).getD .unset

end SocBringup.Clock
