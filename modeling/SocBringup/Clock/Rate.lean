import SocBringup.Clock.Tree
import SocBringup.Register.Space

/-! # The rate of a clock

Rates are never stored: each query walks from the clock up to an oscillator and reads the register
of every multiplier and divider on the way. A walk visits at most `maxDepth` nodes, so that a cyclic
tree cannot hold up its caller.

* `Tree.rate`: the rate of a clock, zero if it cannot be determined. -/

namespace SocBringup.Clock

/-- The largest rate there is. -/
def Rate.ceiling : Nat := UInt64.size - 1

/-- A rate times a factor, or the largest rate if that is too much. -/
def Rate.times (rate : Rate) (factor : Nat) : Rate :=
  UInt64.ofNat (Nat.min (rate.toNat * factor) Rate.ceiling)

/-- A rate halved a number of times and divided, both rounding down. -/
def Rate.divided (rate : Rate) (halvings divisor : Nat) : Rate :=
  UInt64.ofNat ((rate.toNat >>> halvings) / divisor)

namespace Multiplier

/-- What a multiplier makes of its parent's rate when its register holds `word`. -/
def output (m : Multiplier) (flags : Flags) (word : UInt32) (parent : Rate) : Rate :=
  let rate := Rate.times (Rate.times parent (m.n.value word)) (m.k.value word)
  if flags.postDivided then Rate.divided rate 0 (Nat.max m.postDivider.toNat 1) else rate

end Multiplier

namespace Divider

/-- What a divider makes of its parent's rate when its register holds `word`. -/
def output (d : Divider) (word : UInt32) (parent : Rate) : Rate :=
  Rate.divided parent (d.p.raw word) (d.m.value word)

end Divider

/-- The longest walk through a clock tree, in nodes. -/
def maxDepth : Nat := 16

namespace Tree

/-- Report why a clock has no rate. -/
def withoutRate (reason : Diagnostic) : Program Registers Rate := do
  Registers.note reason
  return 0

/-- The rate of a clock, by a walk of at most `depth` nodes. A divider is read before its parent is
visited, a multiplier after. -/
def rateWithin (tree : Tree) : (depth : Nat) → (clock : Nat) → Program Registers Rate
  | 0, clock =>
    match tree[clock]? with
    | none => withoutRate (.outsideTree clock)
    | some _ => withoutRate (.treeTooDeep clock)
  | depth + 1, clock =>
    match tree[clock]? with
    | none => withoutRate (.outsideTree clock)
    | some node =>
      if node.flags.ready then
        match node.kind with
        | .unset => withoutRate (.nodeUnset clock)
        | .copyOf parent => rateWithin tree depth parent
        | .fixed rate => return rate
        | .multiplier m => do
          let parent ← rateWithin tree depth m.parent
          let word ← Registers.read m.offset
          return m.output node.flags word parent
        | .divider d => do
          let word ← Registers.read d.offset
          let index := d.mux.raw word
          match d.parents[index]? with
          | none => withoutRate (.noParent clock index)
          | some parent => do
            let rate ← rateWithin tree depth parent
            return d.output word rate
      else withoutRate (.nodePending clock)

/-- The rate of a clock in Hz. It is zero for a clock outside the tree, a node that is unset or
pending, and a multiplexer without a parent at its index. -/
def rate (tree : Tree) (clock : Nat) : Program Registers Rate := tree.rateWithin maxDepth clock

end Tree

end SocBringup.Clock
