import SocBringup.Proofs.Clock.Climb
import Mathlib.Algebra.Order.Floor.Semifield

/-! # Rounding on a climb

Dividers and post-dividers round their rate down, and there may be many of them on a climb. As long
as everything is multiplied before anything is divided, they lose no more together than a single
division by all of their divisors would.

* `Node.ideal`, `idealAlong`: what a node, and all nodes of a climb, make of a rate without rounding.
* `factors`, `divisors`, `postDivisors`: what a climb multiplies and divides by.
* `DividesLast`: no node of a climb divides before another multiplies.
* `exactAlong_eq_div`: then the nodes of the climb make of a rate what one division makes of it.
* `rate_eq_floor`: the rate of a clock with such a climb is its ideal rate, rounded down once. -/

namespace SocBringup.Clock

open RegisterFile (serve)

/-! ### What a node multiplies and divides by -/

namespace Node

/-- The node is a multiplier. -/
def multiplies (node : Node) : Bool :=
  match node.kind with
  | .multiplier _ => true
  | _ => false

/-- The node is a divider. -/
def divides (node : Node) : Bool :=
  match node.kind with
  | .divider _ => true
  | _ => false

/-- What the node multiplies by, which is one but for a multiplier. -/
def factor (file : RegisterFile) (node : Node) : Nat :=
  match node.kind with
  | .multiplier m => m.n.value (file.get m.offset) * m.k.value (file.get m.offset)
  | _ => 1

/-- What the node divides by, which is one but for a divider. -/
def divisor (file : RegisterFile) (node : Node) : Nat :=
  match node.kind with
  | .divider d => d.m.value (file.get d.offset) * 2 ^ d.p.raw (file.get d.offset)
  | _ => 1

/-- What the post-divider of the node divides by, which is one where it is not in use. -/
def postDivisor (node : Node) : Nat :=
  match node.kind with
  | .multiplier m => if node.flags.postDivided then max m.postDivider.toNat 1 else 1
  | _ => 1

/-- **What the node makes of its parent's rate without rounding.** -/
def ideal (file : RegisterFile) (node : Node) (rate : ℚ) : ℚ :=
  rate * node.factor file / (node.postDivisor * node.divisor file)

variable {node : Node}

theorem factor_pos (file : RegisterFile) (node : Node) : 0 < node.factor file := by
  unfold factor
  split
  · exact Nat.mul_pos (Field.value_pos _ _) (Field.value_pos _ _)
  · exact Nat.one_pos

theorem factor_of_not_multiplies (h : node.multiplies = false) (file : RegisterFile) :
    node.factor file = 1 := by
  obtain ⟨kind, flags⟩ := node
  cases kind <;> first | rfl | cases h

theorem divisor_of_not_divides (h : node.divides = false) (file : RegisterFile) :
    node.divisor file = 1 := by
  obtain ⟨kind, flags⟩ := node
  cases kind <;> first | rfl | cases h

theorem postDivisor_of_not_multiplies (h : node.multiplies = false) : node.postDivisor = 1 := by
  obtain ⟨kind, flags⟩ := node
  cases kind <;> first | rfl | cases h

theorem postDivisor_of_not_postDivided (h : node.flags.postDivided = false) :
    node.postDivisor = 1 := by
  unfold postDivisor
  split
  · rw [h]; rfl
  · rfl

/-- **A node rounds once**, if what it multiplies is not too much for a rate. -/
theorem exact_eq_div (file : RegisterFile) {rate : Nat} (h : rate * node.factor file < 2 ^ 64) :
    node.exact file rate = rate * node.factor file / (node.postDivisor * node.divisor file) := by
  obtain ⟨kind, flags⟩ := node
  cases kind with
  | unset | copyOf parent | fixed source =>
    show rate = rate * 1 / (1 * 1)
    omega
  | multiplier m =>
    have hproduct : min (rate * m.n.value (file.get m.offset) * m.k.value (file.get m.offset))
        (2 ^ 64 - 1) = rate * (m.n.value (file.get m.offset) * m.k.value (file.get m.offset)) := by
      rw [Nat.mul_assoc]
      exact min_eq_left (Nat.le_sub_one_of_lt h)
    simp only [Node.exact, factor, divisor, postDivisor, hproduct, Nat.mul_one]
    split_ifs
    · rfl
    · rw [Nat.div_one]
  | divider d =>
    simp only [Node.exact, factor, divisor, postDivisor, Nat.mul_one, Nat.one_mul]
    rw [Nat.mul_comm]

end Node

/-! ### What a climb multiplies and divides by -/

/-- What the multipliers of a climb multiply by together. -/
def factors (file : RegisterFile) (path : List Node) : Nat := (path.map (Node.factor file)).prod

/-- What the dividers of a climb divide by together. -/
def divisors (file : RegisterFile) (path : List Node) : Nat := (path.map (Node.divisor file)).prod

/-- What the post-dividers of a climb divide by together. -/
def postDivisors (path : List Node) : Nat := (path.map Node.postDivisor).prod

/-- What the last multiplier of a climb, the one nearest to the clock, post-divides by. -/
def lastPostDivisor (path : List Node) : Nat :=
  ((path.find? Node.multiplies).map Node.postDivisor).getD 1

/-- **What the nodes of a climb make of the rate at its top without rounding.** -/
def idealAlong (file : RegisterFile) (path : List Node) (rate : ℚ) : ℚ :=
  path.foldr (Node.ideal file) rate

/-- **No node of a climb divides before another multiplies.** A rate comes down from the top, so that
what is nearer to the clock is later. -/
structure DividesLast (path : List Node) : Prop where
  /-- Every divider is nearer to the clock than every multiplier. -/
  dividers : path.Pairwise fun nearer farther => nearer.multiplies → ¬ farther.divides
  /-- No multiplier but the last, the nearest to the clock, has its post-divider in use. -/
  postDividers : path.Pairwise fun nearer farther =>
    nearer.multiplies → farther.multiplies → ¬ farther.flags.postDivided

section Path
variable {node : Node} {path : List Node} (file : RegisterFile)

theorem factors_cons : factors file (node :: path) = node.factor file * factors file path :=
  List.prod_cons

theorem divisors_cons : divisors file (node :: path) = node.divisor file * divisors file path :=
  List.prod_cons

theorem postDivisors_cons : postDivisors (node :: path) = node.postDivisor * postDivisors path :=
  List.prod_cons

theorem DividesLast.tail (h : DividesLast (node :: path)) : DividesLast path :=
  ⟨h.dividers.of_cons, h.postDividers.of_cons⟩

/-- **Nothing is divided before a multiplier multiplies.** -/
theorem DividesLast.undivided (h : DividesLast (node :: path)) (hnode : node.multiplies) :
    divisors file path = 1 ∧ postDivisors path = 1 := by
  constructor
  · refine List.prod_eq_one fun x hx => ?_
    obtain ⟨farther, hfarther, rfl⟩ := List.mem_map.mp hx
    have hdivides := List.rel_of_pairwise_cons h.dividers hfarther hnode
    exact Node.divisor_of_not_divides (by simpa using hdivides) file
  · refine List.prod_eq_one fun x hx => ?_
    obtain ⟨farther, hfarther, rfl⟩ := List.mem_map.mp hx
    by_cases hmultiplies : farther.multiplies = true
    · have hpost := List.rel_of_pairwise_cons h.postDividers hfarther hnode hmultiplies
      exact Node.postDivisor_of_not_postDivided (by simpa using hpost)
    · exact Node.postDivisor_of_not_multiplies (by simpa using hmultiplies)

/-- The last multiplier is the only one to post-divide. -/
theorem DividesLast.postDivisors_eq (h : DividesLast path) :
    postDivisors path = lastPostDivisor path := by
  induction path with
  | nil => rfl
  | cons node path ih =>
    rw [postDivisors_cons, lastPostDivisor]
    by_cases hnode : node.multiplies = true
    · rw [(h.undivided {} hnode).2, List.find?_cons_of_pos hnode, Nat.mul_one]
      rfl
    · rw [List.find?_cons_of_neg hnode, ih h.tail,
        Node.postDivisor_of_not_multiplies (by simpa using hnode), Nat.one_mul]
      rfl

/-- Without rounding, it does not matter what is multiplied and divided first. -/
theorem idealAlong_eq_div (path : List Node) (rate : ℚ) :
    idealAlong file path rate =
      rate * factors file path / (postDivisors path * divisors file path) := by
  induction path with
  | nil => simp [idealAlong, factors, divisors, postDivisors]
  | cons node path ih =>
    show node.ideal file (idealAlong file path rate) = _
    rw [ih, Node.ideal, factors_cons, divisors_cons, postDivisors_cons]
    push_cast
    rw [div_mul_eq_mul_div, div_div]
    congr 1 <;> ring

/-- **Rounding down at every node is rounding down once**, if nothing is divided before all is
multiplied. A divider may divide what was divided before, as division by divisors in turn is division
by their product; a multiplier finds what was only multiplied. -/
theorem exactAlong_eq_div (h : DividesLast path) {rate : Nat}
    (hfits : rate * factors file path < 2 ^ 64) :
    exactAlong file path rate =
      rate * factors file path / (postDivisors path * divisors file path) := by
  induction path with
  | nil => simp [exactAlong, factors, divisors, postDivisors]
  | cons node path ih =>
    rw [factors_cons, Nat.mul_left_comm, Nat.mul_comm] at hfits
    have hbelow : exactAlong file path rate =
        rate * factors file path / (postDivisors path * divisors file path) :=
      ih h.tail ((Nat.le_mul_of_pos_right _ (node.factor_pos file)).trans_lt hfits)
    have hnode : exactAlong file path rate * node.factor file < 2 ^ 64 := by
      rw [hbelow]
      exact (Nat.mul_le_mul_right _ (Nat.div_le_self _ _)).trans_lt hfits
    show node.exact file (exactAlong file path rate) = _
    rw [node.exact_eq_div file hnode, hbelow, factors_cons, divisors_cons, postDivisors_cons]
    by_cases hmultiplies : node.multiplies = true
    · obtain ⟨hdivisors, hpost⟩ := h.undivided file hmultiplies
      rw [hdivisors, hpost, Nat.mul_one, Nat.mul_one, Nat.mul_one, Nat.div_one, Nat.mul_assoc,
        Nat.mul_comm (factors file path)]
    · have hfalse : node.multiplies = false := by simpa using hmultiplies
      rw [Node.factor_of_not_multiplies hfalse, Nat.mul_one, Nat.one_mul, Nat.div_div_eq_div_mul]
      congr 1
      ring

end Path

/-! ### The rate of a clock -/

/-- **No rounding adds up.** Where nothing on the climb to an oscillator is divided before all is
multiplied, and the product is not too much for a rate, the rate of the clock is its ideal rate,
rounded down once: it is less than 1 Hz below, however many dividers there are. -/
theorem rate_eq_floor {tree : Tree} {file : RegisterFile} {clock top : Nat} {path : List Node}
    {source : Rate} (climb : Climb tree file clock path top)
    (hsource : tree.oscillator? top = some source) (hlength : path.length + 1 ≤ maxDepth)
    (hlast : DividesLast path) (hfits : source.toNat * factors file path < 2 ^ 64) :
    let frequency : ℚ :=
      source.toNat * factors file path / (lastPostDivisor path * divisors file path)
    let rate := ((tree.rate clock).run serve file).value.toNat
    idealAlong file path source.toNat = frequency ∧ rate = ⌊frequency⌋₊ ∧
      (rate : ℚ) ≤ frequency ∧ frequency < rate + 1 := by
  intro frequency rate
  have hideal : idealAlong file path source.toNat = frequency := by
    rw [idealAlong_eq_div, hlast.postDivisors_eq]
  have hrate : rate = exactAlong file path source.toNat := by
    obtain ⟨more, hmore⟩ := Nat.exists_eq_add_of_le hlength
    show tree.reading file maxDepth clock = _
    rw [hmore, Nat.add_assoc, Nat.add_comm 1, reading_climb climb, reading_oscillator hsource]
  have hfloor : rate = ⌊frequency⌋₊ := by
    have hcast : frequency = (source.toNat * factors file path : ℕ) /
        (lastPostDivisor path * divisors file path : ℕ) := by
      push_cast
      rfl
    rw [hrate, exactAlong_eq_div file hlast hfits, hlast.postDivisors_eq, hcast,
      Nat.floor_div_eq_div]
  have hnonneg : 0 ≤ frequency := by positivity
  refine ⟨hideal, hfloor, ?_, ?_⟩
  · rw [hfloor]
    exact Nat.floor_le hnonneg
  · rw [hfloor]
    exact Nat.lt_floor_add_one frequency

/-- An oscillator, two multipliers in turn, two dividers in turn, and a copy of the last. -/
def chainedTree : Tree := [
  .ready (.fixed mainOscillator),
  .ready (.multiplier { offset := 0x010, n := { shift := 8, width := 5, offset := 1 },
                        k := { shift := 4, width := 2, offset := 1 }, parent := 0 }),
  .postDivided { offset := 0x028, n := { shift := 8, width := 5, offset := 1 },
                 k := { shift := 4, width := 2, offset := 1 }, postDivider := 3, parent := 1 },
  .ready (.divider { offset := 0x088, m := { shift := 0, width := 4, offset := 1 },
                     p := { shift := 16, width := 2 }, mux := { shift := 24, width := 2 },
                     parents := [2] }),
  .ready (.divider { offset := 0x08c, m := { shift := 0, width := 4, offset := 1 },
                     p := { shift := 16, width := 2 }, mux := { shift := 24, width := 2 },
                     parents := [0, 3] }),
  .ready (.copyOf 4)]

/-- Registers by which that is `24 MHz * 50 * 7 / 3 / 18 / 44`. -/
def chainedRegisters : RegisterFile :=
  .ofList [(0x010, 0x1810), (0x028, 0x600), (0x088, 0x10008), (0x08c, 0x0102000a)]

/-- The copy runs at no whole number of Hz. -/
theorem rate_eq_floor_chained :
    let path := (chainedTree.drop 1).reverse
    DividesLast path ∧ mainOscillator.toNat * factors chainedRegisters path < 2 ^ 64 ∧
      idealAlong chainedRegisters path mainOscillator.toNat = 350000000 / 99 ∧
      ((chainedTree.rate 5).run serve chainedRegisters).value.toNat = 3535353 := by
  intro path
  have hlast : DividesLast path := ⟨by decide, by decide⟩
  have hfits : mainOscillator.toNat * factors chainedRegisters path < 2 ^ 64 := by decide +kernel
  have climb : Climb chainedTree chainedRegisters 5 path 0 :=
    .up rfl (.up rfl (.up rfl (.up rfl (.up rfl (.here 0)))))
  obtain ⟨hideal, hfloor, -⟩ := rate_eq_floor climb rfl (by decide) hlast hfits
  have hfactors : factors chainedRegisters path = 350 := by decide +kernel
  have hdivisors : divisors chainedRegisters path = 792 := by decide +kernel
  have hpost : lastPostDivisor path = 3 := by decide +kernel
  have hsource : mainOscillator.toNat = 24000000 := rfl
  have hfrequency : idealAlong chainedRegisters path mainOscillator.toNat = 350000000 / 99 := by
    rw [hideal, hfactors, hdivisors, hpost, hsource]
    norm_num
  refine ⟨hlast, hfits, hfrequency, ?_⟩
  rw [hfloor, ← hideal, hfrequency]
  norm_num

end SocBringup.Clock
