import SocBringup.Clock.Rate
import Mathlib.Tactic

/-! # Climbing a clock tree

`Tree.rate` walks up a clock tree with a budget of nodes and combines rates of 64 bits on its way
back. Here the walk is a relation without a budget and the arithmetic is that of the natural numbers.

* `Climb`: from a clock, along the parents that the nodes name, through nodes that are ready.
* `Node.exact`: what a node makes of its parent's rate.
* `climb_or_end`: every climb goes on for as many nodes as one likes or comes to an end before.
* `Lost`: the ways in which a climb fails to reach an oscillator within `maxDepth` nodes.
* `reading_climb`: a walk that has the budget for a climb folds what it finds at the end of the climb
  back along the nodes of the climb.
* `toNat_rate`: the rate of a clock is the rate of the oscillator it climbs to, folded back, if the
  climb has at most `maxDepth` nodes with the oscillator; in every other case it is zero. -/

namespace SocBringup.Clock

open RegisterFile (serve)

/-! ### The walk -/

/-- The parent a node names, by its register where it is a multiplexer. -/
def Node.parent? (node : Node) (file : RegisterFile) : Option Nat :=
  match node.kind with
  | .unset | .fixed _ => none
  | .copyOf parent => some parent
  | .multiplier m => some m.parent
  | .divider d => d.parents[d.mux.raw (file.get d.offset)]?

/-- The node of a clock, if it is inside the tree and ready. -/
def Tree.ready? (tree : Tree) (clock : Nat) : Option Node := tree[clock]?.filter (·.flags.ready)

/-- The rate of a clock that is a ready oscillator. -/
def Tree.oscillator? (tree : Tree) (clock : Nat) : Option Rate :=
  match tree.ready? clock with
  | some ⟨.fixed rate, _⟩ => some rate
  | _ => none

/-- The node of a clock together with the parent it names. -/
def Tree.step? (tree : Tree) (file : RegisterFile) (clock : Nat) : Option (Node × Nat) :=
  (tree.ready? clock).bind fun node => (node.parent? file).map (node, ·)

/-- **The climb** from a clock to a clock `top`, with the nodes it passes before `top`. -/
inductive Climb (tree : Tree) (file : RegisterFile) : Nat → List Node → Nat → Prop
  | here (clock : Nat) : Climb tree file clock [] clock
  | up {clock parent top : Nat} {node : Node} {path : List Node}
      (step : tree.step? file clock = some (node, parent))
      (rest : Climb tree file parent path top) : Climb tree file clock (node :: path) top

section Ready
variable {tree : Tree} {file : RegisterFile} {clock : Nat} {node : Node}

theorem ready?_outside (h : tree[clock]? = none) : tree.ready? clock = none := by
  rw [Tree.ready?, h]; rfl

theorem ready?_pending (h : tree[clock]? = some node) (hready : node.flags.ready = false) :
    tree.ready? clock = none := by
  rw [Tree.ready?, h]
  exact Option.filter_some_neg (by simp [hready])

theorem ready?_ready (h : tree[clock]? = some node) (hready : node.flags.ready = true) :
    tree.ready? clock = some node := by
  rw [Tree.ready?, h]
  exact Option.filter_some_pos hready

theorem step?_ready (h : tree.ready? clock = some node) :
    tree.step? file clock = (node.parent? file).map (node, ·) := by
  rw [Tree.step?, h]; rfl

theorem step?_eq_some {parent : Nat} :
    tree.step? file clock = some (node, parent) ↔
      tree[clock]? = some node ∧ node.flags.ready = true ∧ node.parent? file = some parent := by
  simp only [Tree.step?, Tree.ready?, Option.bind_eq_some_iff, Option.filter_eq_some_iff,
    Option.map_eq_some_iff, Prod.mk.injEq]
  constructor
  · rintro ⟨_, ⟨hnode, hready⟩, _, hparent, rfl, rfl⟩
    exact ⟨hnode, hready, hparent⟩
  · rintro ⟨hnode, hready, hparent⟩
    exact ⟨node, ⟨hnode, hready⟩, parent, hparent, rfl, rfl⟩

end Ready

/-! ### The meaning of a node -/

/-- What a node makes of its parent's rate, in unbounded arithmetic. -/
def Node.exact (node : Node) (file : RegisterFile) (rate : Nat) : Nat :=
  match node.kind with
  | .multiplier m =>
    let word := file.get m.offset
    let product := min (rate * m.n.value word * m.k.value word) (2 ^ 64 - 1)
    if node.flags.postDivided then product / max m.postDivider.toNat 1 else product
  | .divider d =>
    let word := file.get d.offset
    rate / (2 ^ d.p.raw word * d.m.value word)
  | _ => rate

/-- What the nodes of a climb make of the rate at its top. -/
def exactAlong (file : RegisterFile) (path : List Node) (rate : Nat) : Nat :=
  path.foldr (fun node rate => node.exact file rate) rate

theorem Node.exact_zero (node : Node) (file : RegisterFile) : node.exact file 0 = 0 := by
  unfold Node.exact
  split
  · simp
  · simp
  · rfl

/-- **Nothing is made of nothing**: a rate of zero stays zero all the way. -/
theorem exactAlong_zero (file : RegisterFile) (path : List Node) : exactAlong file path 0 = 0 := by
  induction path with
  | nil => rfl
  | cons node path ih =>
    show node.exact file (exactAlong file path 0) = 0
    rw [ih, Node.exact_zero]

theorem toNat_times (rate : Rate) (factor : Nat) :
    (Rate.times rate factor).toNat = min (rate.toNat * factor) (2 ^ 64 - 1) := by
  have hlt : min (rate.toNat * factor) (2 ^ 64 - 1) < 2 ^ 64 := by omega
  show (UInt64.ofNat (min (rate.toNat * factor) (2 ^ 64 - 1))).toNat = _
  rw [UInt64.toNat_ofNat', Nat.mod_eq_of_lt hlt]

theorem toNat_divided (rate : Rate) (halvings divisor : Nat) :
    (Rate.divided rate halvings divisor).toNat = rate.toNat / (2 ^ halvings * divisor) := by
  have hlt : rate.toNat / (2 ^ halvings * divisor) < 2 ^ 64 :=
    lt_of_le_of_lt (Nat.div_le_self _ _) rate.toNat_lt
  rw [Rate.divided, Nat.shiftRight_eq_div_pow, Nat.div_div_eq_div_mul, UInt64.toNat_ofNat',
    Nat.mod_eq_of_lt hlt]

/-- Saturating twice is saturating once, as no factor is zero. -/
theorem toNat_times_times (rate : Rate) (n : Nat) {k : Nat} (hk : 0 < k) :
    (Rate.times (Rate.times rate n) k).toNat = min (rate.toNat * n * k) (2 ^ 64 - 1) := by
  rw [toNat_times, toNat_times]
  rcases Nat.le_total (rate.toNat * n) (2 ^ 64 - 1) with h | h
  · rw [min_eq_left h]
  · have h1 : 2 ^ 64 - 1 ≤ (2 ^ 64 - 1) * k := Nat.le_mul_of_pos_right _ hk
    have h2 : (2 ^ 64 - 1) * k ≤ rate.toNat * n * k := Nat.mul_le_mul_right k h
    rw [min_eq_right h, min_eq_right h1, min_eq_right (h1.trans h2)]

theorem Multiplier.toNat_output (m : Multiplier) (flags : Flags) (file : RegisterFile)
    (parent : Rate) :
    (m.output flags (file.get m.offset) parent).toNat =
      (Node.mk (.multiplier m) flags).exact file parent.toNat := by
  have hk := m.k.value_pos (file.get m.offset)
  unfold Multiplier.output Node.exact
  cases flags.postDivided with
  | false => exact toNat_times_times parent _ hk
  | true =>
    show (Rate.divided _ 0 (max m.postDivider.toNat 1)).toNat = _
    rw [toNat_divided, toNat_times_times parent _ hk, pow_zero, one_mul]
    rfl

theorem Divider.toNat_output (d : Divider) (flags : Flags) (file : RegisterFile) (parent : Rate) :
    (d.output (file.get d.offset) parent).toNat =
      (Node.mk (.divider d) flags).exact file parent.toNat :=
  toNat_divided parent _ _

/-! ### The walk of the library -/

/-- The rate that a walk with a budget of `depth` nodes finds, as a number. -/
def Tree.reading (tree : Tree) (file : RegisterFile) (depth clock : Nat) : Nat :=
  ((tree.rateWithin depth clock).run serve file).value.toNat

/-- **A walk changes no register.** -/
theorem state_rateWithin (tree : Tree) (file : RegisterFile) :
    ∀ depth clock, ((tree.rateWithin depth clock).run serve file).state = file
  | 0, clock => by unfold Tree.rateWithin; split <;> rfl
  | depth + 1, clock => by
    have ih := state_rateWithin tree file depth
    unfold Tree.rateWithin
    split
    · rfl
    · split
      · split
        · rfl
        · exact ih _
        · rfl
        · rw [Program.run_bind]
          exact ih _
        · rw [Program.run_bind]
          simp only [Registers.read, Program.run, serve]
          split
          · rfl
          · rw [Program.run_bind]
            exact ih _
      · rfl

theorem reading_zero (tree : Tree) (file : RegisterFile) (clock : Nat) :
    tree.reading file 0 clock = 0 := by
  unfold Tree.reading Tree.rateWithin
  split <;> rfl

/-- **One step of a walk** makes of the parent's rate what the node makes of it. -/
theorem reading_step {tree : Tree} {file : RegisterFile} {clock parent : Nat} {node : Node}
    (step : tree.step? file clock = some (node, parent)) (depth : Nat) :
    tree.reading file (depth + 1) clock = node.exact file (tree.reading file depth parent) := by
  obtain ⟨hnode, hready, hparent⟩ := step?_eq_some.mp step
  have hstate := state_rateWithin tree file depth
  obtain ⟨kind, flags⟩ := node
  simp only at hready
  unfold Tree.reading
  rw [Tree.rateWithin]
  simp only [hnode, hready, if_true]
  cases kind with
  | unset => simp [Node.parent?] at hparent
  | fixed rate => simp [Node.parent?] at hparent
  | copyOf p =>
    simp only [Node.parent?, Option.some.injEq] at hparent
    subst hparent
    rfl
  | multiplier m =>
    simp only [Node.parent?, Option.some.injEq] at hparent
    subst hparent
    simp only [Program.run_bind, Registers.read, Program.run, serve, hstate, pure]
    exact m.toNat_output flags file _
  | divider d =>
    simp only [Node.parent?] at hparent
    simp only [Program.run_bind, Registers.read, Program.run, serve, hparent, pure]
    exact d.toNat_output flags file _

/-! ### The walk follows the climb -/

variable {tree : Tree} {file : RegisterFile} {clock top : Nat} {path : List Node}

/-- **A walk with the budget for a climb** folds what it finds at the top back along the climb. -/
theorem reading_climb (climb : Climb tree file clock path top) (depth : Nat) :
    tree.reading file (path.length + depth) clock =
      exactAlong file path (tree.reading file depth top) := by
  induction climb with
  | here clock => simp [exactAlong]
  | @up clock parent top node path step _ ih =>
    rw [List.length_cons, Nat.add_right_comm, reading_step step, ih]
    rfl

/-- A walk whose budget ends on a climb finds nothing. -/
theorem reading_of_le_length (climb : Climb tree file clock path top) :
    ∀ depth, depth ≤ path.length → tree.reading file depth clock = 0 := by
  induction climb with
  | here clock =>
    intro depth h
    obtain rfl : depth = 0 := Nat.le_zero.mp h
    exact reading_zero tree file clock
  | @up clock parent top node path step _ ih =>
    rintro (_ | depth) h
    · exact reading_zero tree file clock
    · rw [reading_step step, ih depth (Nat.le_of_succ_le_succ h), Node.exact_zero]

/-- The climb ends here, and not at an oscillator. -/
def Stuck (tree : Tree) (file : RegisterFile) (clock : Nat) : Prop :=
  tree.step? file clock = none ∧ tree.oscillator? clock = none

theorem reading_stuck (stuck : Stuck tree file clock) (depth : Nat) :
    tree.reading file depth clock = 0 := by
  obtain ⟨hstep, hsource⟩ := stuck
  rcases depth with _ | depth
  · exact reading_zero tree file clock
  unfold Tree.reading
  rw [Tree.rateWithin]
  rcases hnode : tree[clock]? with _ | ⟨kind, flags⟩
  · rfl
  simp only
  split_ifs with hready
  swap; · rfl
  have hready? := ready?_ready hnode hready
  rw [step?_ready hready?] at hstep
  simp only [Tree.oscillator?, hready?] at hsource
  cases kind with
  | unset => rfl
  | copyOf parent => simp [Node.parent?] at hstep
  | fixed rate => simp at hsource
  | multiplier m => simp [Node.parent?] at hstep
  | divider d =>
    rcases hparent : d.parents[d.mux.raw (file.get d.offset)]? with _ | parent
    · simp only [Program.run_bind, Registers.read, Program.run, serve, hparent]
      rfl
    · simp [Node.parent?, hparent] at hstep

theorem reading_oscillator {source : Rate} (h : tree.oscillator? clock = some source)
    (depth : Nat) : tree.reading file (depth + 1) clock = source.toNat := by
  unfold Tree.oscillator? at h
  split at h
  case h_2 => simp at h
  case h_1 rate flags hready? =>
    simp only [Option.some.injEq] at h
    subst h
    rw [Tree.ready?, Option.filter_eq_some_iff] at hready?
    obtain ⟨hnode, hready⟩ := hready?
    simp only at hready
    unfold Tree.reading
    rw [Tree.rateWithin]
    simp only [hnode, hready, if_true]
    rfl

/-! ### The two ends of a climb -/

theorem Climb.snoc {next : Nat} {node : Node} (climb : Climb tree file clock path top)
    (step : tree.step? file top = some (node, next)) :
    Climb tree file clock (path ++ [node]) next := by
  induction climb with
  | here clock => exact .up step (.here next)
  | up first _ ih => exact .up first (ih step)

theorem Climb.append {last : Nat} {more : List Node} (climb : Climb tree file clock path top)
    (rest : Climb tree file top more last) : Climb tree file clock (path ++ more) last := by
  induction climb with
  | here clock => exact rest
  | up step _ ih => exact .up step (ih rest)

/-- **A climb goes on for as many nodes as one likes, or comes to an end before.** -/
theorem climb_or_end (tree : Tree) (file : RegisterFile) (clock : Nat) :
    ∀ length, (∃ path top, Climb tree file clock path top ∧ path.length = length) ∨
      ∃ path top, Climb tree file clock path top ∧ path.length < length ∧
        tree.step? file top = none
  | 0 => Or.inl ⟨[], clock, .here clock, rfl⟩
  | length + 1 => by
    rcases climb_or_end tree file clock length with ⟨path, top, climb, hlength⟩ | h
    · rcases hstep : tree.step? file top with _ | ⟨node, next⟩
      · exact Or.inr ⟨path, top, climb, by omega, hstep⟩
      · exact Or.inl ⟨path ++ [node], next, climb.snoc hstep, by simp [hlength]⟩
    · obtain ⟨path, top, climb, hlength, hend⟩ := h
      exact Or.inr ⟨path, top, climb, by omega, hend⟩

/-- A climb that comes back to where it has been goes on for ever. -/
theorem Climb.exists_longer {loop : List Node} (climb : Climb tree file clock path top)
    (back : Climb tree file top loop top) (hloop : loop ≠ []) :
    ∀ length, ∃ longer, Climb tree file clock longer top ∧ length ≤ longer.length
  | 0 => ⟨path, climb, Nat.zero_le _⟩
  | length + 1 => by
    obtain ⟨longer, hlonger, hlength⟩ := climb.exists_longer back hloop length
    have hpos := List.length_pos_iff.mpr hloop
    exact ⟨longer ++ loop, hlonger.append back, by rw [List.length_append]; omega⟩

/-- **The ways a climb fails** to reach an oscillator within `maxDepth` nodes. -/
inductive Lost (tree : Tree) (file : RegisterFile) (clock : Nat) : Prop
  /-- It leaves the tree. -/
  | outside {path : List Node} {top : Nat} (climb : Climb tree file clock path top)
      (h : tree[top]? = none)
  /-- It comes to a node that is pending. -/
  | pending {path : List Node} {top : Nat} {node : Node} (climb : Climb tree file clock path top)
      (h : tree[top]? = some node) (hready : node.flags.ready = false)
  /-- It comes to an entry without a node. -/
  | unset {path : List Node} {top : Nat} {flags : Flags} (climb : Climb tree file clock path top)
      (h : tree[top]? = some ⟨.unset, flags⟩)
  /-- It comes to a multiplexer that selects none of its parents. -/
  | noParent {path : List Node} {top : Nat} {d : Divider} {flags : Flags}
      (climb : Climb tree file clock path top) (h : tree[top]? = some ⟨.divider d, flags⟩)
      (hparent : d.parents.length ≤ d.mux.raw (file.get d.offset))
  /-- It goes round in a circle. -/
  | cycle {path loop : List Node} {top : Nat} (climb : Climb tree file clock path top)
      (back : Climb tree file top loop top) (hloop : loop ≠ [])
  /-- It passes `maxDepth` nodes and is not at an oscillator yet. -/
  | tooLong {path : List Node} {top : Nat} (climb : Climb tree file clock path top)
      (h : maxDepth ≤ path.length)

theorem reading_climb_stuck (climb : Climb tree file clock path top)
    (stuck : Stuck tree file top) (depth : Nat) : tree.reading file depth clock = 0 := by
  rcases Nat.le_total depth path.length with h | h
  · exact reading_of_le_length climb depth h
  · obtain ⟨more, rfl⟩ := Nat.exists_eq_add_of_le h
    rw [reading_climb climb, reading_stuck stuck, exactAlong_zero]

theorem stuck_of_ready? (h : tree.ready? top = none) : Stuck tree file top := by
  constructor
  · rw [Tree.step?, h]; rfl
  · rw [Tree.oscillator?, h]

/-- A node that is no oscillator and names no parent is the end. -/
theorem stuck_of_parent? {node : Node} (h : tree[top]? = some node)
    (hparent : node.parent? file = none) (hkind : ∀ rate, node.kind ≠ .fixed rate) :
    Stuck tree file top := by
  by_cases hready : node.flags.ready = true
  swap; · exact stuck_of_ready? (ready?_pending h (by simpa using hready))
  have hready? := ready?_ready h hready
  constructor
  · rw [step?_ready hready?, hparent]; rfl
  · unfold Tree.oscillator?
    rw [hready?]
    split
    · next rate flags heq =>
      cases heq
      exact absurd rfl (hkind rate)
    · rfl

/-- **What is lost has no rate.** -/
theorem reading_lost (lost : Lost tree file clock) : tree.reading file maxDepth clock = 0 := by
  cases lost with
  | outside climb h => exact reading_climb_stuck climb (stuck_of_ready? (ready?_outside h)) _
  | pending climb h hready =>
    exact reading_climb_stuck climb (stuck_of_ready? (ready?_pending h hready)) _
  | unset climb h => exact reading_climb_stuck climb (stuck_of_parent? h rfl (by simp)) _
  | noParent climb h hparent =>
    exact reading_climb_stuck climb
      (stuck_of_parent? h (List.getElem?_eq_none hparent) (by simp)) _
  | cycle climb back hloop =>
    obtain ⟨longer, hlonger, hlength⟩ := climb.exists_longer back hloop maxDepth
    exact reading_of_le_length hlonger _ hlength
  | tooLong climb h => exact reading_of_le_length climb _ h

/-- **A climb that comes to an end** within the depth is at an oscillator or lost. -/
theorem oscillator_or_lost (climb : Climb tree file clock path top)
    (hend : tree.step? file top = none) :
    (∃ source, tree.oscillator? top = some source) ∨ Lost tree file clock := by
  rcases hnode : tree[top]? with _ | ⟨kind, flags⟩
  · exact Or.inr (.outside climb hnode)
  by_cases hready : flags.ready = true
  swap; · exact Or.inr (.pending climb hnode (by simpa using hready))
  have hready? := ready?_ready hnode hready
  rw [step?_ready hready?, Option.map_eq_none_iff] at hend
  cases kind with
  | unset => exact Or.inr (.unset climb hnode)
  | copyOf parent => simp [Node.parent?] at hend
  | fixed rate => exact Or.inl ⟨rate, by rw [Tree.oscillator?, hready?]⟩
  | multiplier m => simp [Node.parent?] at hend
  | divider d => exact Or.inr (.noParent climb hnode (List.getElem?_eq_none_iff.mp hend))

/-! ### The rate of a clock -/

/-- **The rate of a clock is what its climb makes of the oscillator it comes to**, if the climb has
at most `maxDepth` nodes, the oscillator included. Every other climb is lost, and the rate zero. -/
theorem toNat_rate (tree : Tree) (file : RegisterFile) (clock : Nat) :
    (∀ path top source, Climb tree file clock path top → tree.oscillator? top = some source →
      path.length + 1 ≤ maxDepth →
      ((tree.rate clock).run serve file).value.toNat = exactAlong file path source.toNat) ∧
    (Lost tree file clock → ((tree.rate clock).run serve file).value = 0) ∧
    ((∃ path top source, Climb tree file clock path top ∧ tree.oscillator? top = some source ∧
      path.length + 1 ≤ maxDepth) ∨ Lost tree file clock) := by
  refine ⟨fun path top source climb hsource hlength => ?_, fun lost => ?_, ?_⟩
  · obtain ⟨more, hmore⟩ := Nat.exists_eq_add_of_le hlength
    show tree.reading file maxDepth clock = _
    rw [hmore, Nat.add_assoc, Nat.add_comm 1, reading_climb climb, reading_oscillator hsource]
  · exact UInt64.toNat_inj.mp (reading_lost lost)
  · rcases climb_or_end tree file clock maxDepth with ⟨path, top, climb, hlength⟩ | h
    · exact Or.inr (.tooLong climb hlength.ge)
    · obtain ⟨path, top, climb, hlength, hend⟩ := h
      rcases oscillator_or_lost climb hend with ⟨source, hsource⟩ | lost
      · exact Or.inl ⟨path, top, source, climb, hsource, hlength⟩
      · exact Or.inr lost

/-- An oscillator, a PLL on it, a module clock on either, its gate, and a clock on itself. -/
def smallTree : Tree := [
  .ready (.fixed mainOscillator),
  .postDivided { offset := 0x028, n := { shift := 8, width := 5, offset := 1 },
                 k := { shift := 4, width := 2, offset := 1 }, postDivider := 2, parent := 0 },
  .ready (.divider { offset := 0x088, m := { shift := 0, width := 4, offset := 1 },
                     p := { shift := 16, width := 2 }, mux := { shift := 24, width := 2 },
                     parents := [0, 1] }),
  .ready (.copyOf 2),
  .ready (.copyOf 4)]

/-- The gate runs at `24 MHz * 24 * 2 / 2 / 2 / 2`, and a clock on itself has no rate. -/
theorem toNat_rate_smallTree :
    ((smallTree.rate 3).run serve (.ofList [(0x028, 0x1710), (0x088, 0x01010001)])).value.toNat =
        144000000 ∧
      ((smallTree.rate 4).run serve (.ofList [(0x028, 0x1710), (0x088, 0x01010001)])).value =
        0 := by
  refine ⟨((toNat_rate smallTree _ 3).1 _ 0 mainOscillator (.up rfl (.up rfl (.up rfl (.here 0))))
    rfl (by decide)).trans (by decide), ?_⟩
  exact (toNat_rate smallTree _ 4).2.1 (.cycle (.here 4) (.up rfl (.here 4)) (by simp))

end SocBringup.Clock
