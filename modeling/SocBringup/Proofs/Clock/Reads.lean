import SocBringup.Proofs.Clock.Climb
import SocBringup.Proofs.Register.Trace

/-! # What a walk reads

A walk reads the register of a divider on its way up, since it has to know which parent is selected,
and the register of a multiplier on its way back. The nodes it visits tell all that it reads.

* `Tree.visited`: the nodes that a walk visits, from its clock up.
* `visited_climb`, `visited_end`: these are the nodes of the climb, as far as the budget goes.
* `readsAlong`: the registers of the nodes, in the order in which they are read.
* `readsAlong_eq`, `readsAlong_perm`: the dividers' in the order of the visit and then the
  multipliers' in the opposite order; each once for each visit.
* `reads_rate`: a query for a rate reads the registers of the nodes it visits, and writes none. -/

namespace SocBringup.Clock

open RegisterFile (serve)
open Registers (reads writes)

/-! ### The nodes that are visited -/

/-- **The nodes that a walk visits** with a budget of `depth` nodes, along the parents that the nodes
name, for as long as they are inside the tree and ready. -/
def Tree.visited (tree : Tree) (file : RegisterFile) : (depth : Nat) → (clock : Nat) → List Node
  | 0, _ => []
  | depth + 1, clock =>
    match tree.ready? clock with
    | none => []
    | some node => node :: (node.parent? file).elim [] (tree.visited file depth)

section Visited
variable {tree : Tree} {file : RegisterFile} {clock : Nat}

theorem length_visited : ∀ depth clock, (tree.visited file depth clock).length ≤ depth
  | 0, clock => le_rfl
  | depth + 1, clock => by
    unfold Tree.visited
    cases tree.ready? clock with
    | none => exact Nat.zero_le _
    | some node =>
      refine Nat.succ_le_succ ?_
      cases node.parent? file with
      | none => exact Nat.zero_le _
      | some parent => exact length_visited depth parent

theorem visited_step {parent : Nat} {node : Node} (step : tree.step? file clock = some (node, parent))
    (depth : Nat) :
    tree.visited file (depth + 1) clock = node :: tree.visited file depth parent := by
  obtain ⟨hnode, hready, hparent⟩ := step?_eq_some.mp step
  rw [Tree.visited, ready?_ready hnode hready]
  simp only [hparent, Option.elim_some]

/-- **A walk visits the nodes of a climb**, and goes on from its top with what is left of its
budget. -/
theorem visited_climb {path : List Node} {top : Nat} (climb : Climb tree file clock path top)
    (depth : Nat) :
    tree.visited file (path.length + depth) clock = path ++ tree.visited file depth top := by
  induction climb with
  | here clock => rw [List.length_nil, Nat.zero_add, List.nil_append]
  | up step _ ih => rw [List.length_cons, Nat.add_right_comm, visited_step step, ih, List.cons_append]

/-- Where a climb ends, the node is the last, if it is there and ready. -/
theorem visited_end (hend : tree.step? file clock = none) (depth : Nat) :
    tree.visited file (depth + 1) clock = (tree.ready? clock).toList := by
  rw [Tree.visited]
  cases hready : tree.ready? clock with
  | none => rfl
  | some node =>
    rw [step?_ready hready, Option.map_eq_none_iff] at hend
    simp only [hend, Option.elim_none, Option.toList_some]

end Visited

/-! ### The registers that are read -/

namespace Node

/-- The register that is read before anything is read for the parent: that of a divider. -/
def readFirst? (node : Node) : Option Nat :=
  match node.kind with
  | .divider d => some d.offset
  | _ => none

/-- The register that is read after everything is read for the parent: that of a multiplier. -/
def readLast? (node : Node) : Option Nat :=
  match node.kind with
  | .multiplier m => some m.offset
  | _ => none

/-- The register of a node, if it has one. -/
def register? (node : Node) : Option Nat := node.readFirst?.or node.readLast?

end Node

/-- **The registers of the nodes of a walk, in the order in which they are read.** -/
def readsAlong (path : List Node) : List Nat :=
  path.foldr (fun node above => node.readFirst?.toList ++ above ++ node.readLast?.toList) []

theorem readsAlong_cons (node : Node) (path : List Node) :
    readsAlong (node :: path) =
      node.readFirst?.toList ++ readsAlong path ++ node.readLast?.toList := rfl

/-- **First the dividers' in the order of the walk, then the multipliers' in the opposite order.** -/
theorem readsAlong_eq (path : List Node) :
    readsAlong path =
      path.filterMap Node.readFirst? ++ (path.filterMap Node.readLast?).reverse := by
  induction path with
  | nil => rfl
  | cons node path ih =>
    rw [readsAlong_cons, ih, List.filterMap_cons, List.filterMap_cons]
    cases node.readFirst? <;> cases node.readLast? <;> simp

/-- **The register of a node is read once for each visit.** -/
theorem readsAlong_perm (path : List Node) :
    (readsAlong path).Perm (path.filterMap Node.register?) := by
  induction path with
  | nil => exact .nil
  | cons node path ih =>
    obtain ⟨kind, flags⟩ := node
    cases kind with
    | unset | copyOf parent | fixed rate =>
      rw [readsAlong_cons]
      simpa [Node.readFirst?, Node.readLast?, Node.register?] using ih
    | multiplier m => exact (List.perm_append_singleton _ _).trans (ih.cons _)
    | divider d =>
      rw [readsAlong_cons]
      simpa [Node.readFirst?, Node.readLast?, Node.register?] using ih.cons d.offset

/-! ### The walk -/

/-- **A walk reads the registers of the nodes it visits**, and writes none. -/
theorem accesses_rateWithin (tree : Tree) (file : RegisterFile) : ∀ depth clock,
    let trace := ((tree.rateWithin depth clock).run serve file).trace
    reads trace = readsAlong (tree.visited file depth clock) ∧ writes trace = []
  | 0, clock => by
    unfold Tree.rateWithin
    split <;> exact ⟨rfl, rfl⟩
  | depth + 1, clock => by
    have ih := accesses_rateWithin tree file depth
    have hstate := state_rateWithin tree file depth
    unfold Tree.rateWithin Tree.visited
    rcases hnode : tree[clock]? with _ | ⟨kind, flags⟩
    · rw [ready?_outside hnode]
      exact ⟨rfl, rfl⟩
    simp only
    split_ifs with hready
    swap
    · rw [ready?_pending hnode (by simpa using hready)]
      exact ⟨rfl, rfl⟩
    rw [ready?_ready hnode hready]
    simp only [readsAlong_cons]
    cases kind with
    | unset => exact ⟨rfl, rfl⟩
    | fixed rate => exact ⟨rfl, rfl⟩
    | copyOf parent =>
      obtain ⟨hreads, hwrites⟩ := ih parent
      refine ⟨?_, hwrites⟩
      rw [hreads]
      simp [Node.parent?, Node.readFirst?, Node.readLast?]
    | multiplier m =>
      obtain ⟨hreads, hwrites⟩ := ih m.parent
      simp only [Program.run_bind, Registers.read, Program.run, serve, hstate, pure]
      rw [Registers.reads_append, Registers.writes_append, hreads, hwrites]
      exact ⟨rfl, rfl⟩
    | divider d =>
      simp only [Program.run_bind, Registers.read, Program.run, serve]
      cases hparent : d.parents[d.mux.raw (file.get d.offset)]? with
      | none =>
        simp only [Node.parent?, hparent]
        exact ⟨rfl, rfl⟩
      | some parent =>
        obtain ⟨hreads, hwrites⟩ := ih parent
        simp only [Program.run_bind, Program.run, pure, Node.parent?, hparent, List.append_nil]
        refine ⟨?_, hwrites⟩
        show d.offset :: reads ((tree.rateWithin depth parent).run serve file).trace = _
        rw [hreads]
        simp [Node.readFirst?, Node.readLast?]

/-! ### The query for a rate -/

/-- **What a query for a rate reads** is told by the nodes it visits. It writes no register. It reads
the register of every divider and multiplier it visits once for each visit, whatever the rate turns
out to be, and no other: that of a divider before anything is read for its parent, that of a
multiplier after. So copies and oscillators are not read at all. The nodes it visits are those of the
climb from the clock: the first `maxDepth`, or all together with the last if that is there and
ready. -/
theorem reads_rate (tree : Tree) (file : RegisterFile) (clock : Nat) :
    let visited := tree.visited file maxDepth clock
    let trace := ((tree.rate clock).run serve file).trace
    writes trace = [] ∧ reads trace = readsAlong visited ∧
    readsAlong visited =
      visited.filterMap Node.readFirst? ++ (visited.filterMap Node.readLast?).reverse ∧
    (reads trace).Perm (visited.filterMap Node.register?) ∧
    ((∀ node ∈ visited, (∃ parent, node.kind = .copyOf parent) ∨ ∃ rate, node.kind = .fixed rate) →
      reads trace = []) ∧
    visited.length ≤ maxDepth ∧
    ∀ path top, Climb tree file clock path top →
      (path.length = maxDepth → visited = path) ∧
      (path.length < maxDepth → tree.step? file top = none →
        visited = path ++ (tree.ready? top).toList) := by
  intro visited trace
  obtain ⟨hreads, hwrites⟩ := accesses_rateWithin tree file maxDepth clock
  have hperm : (reads trace).Perm (visited.filterMap Node.register?) :=
    hreads ▸ readsAlong_perm visited
  refine ⟨hwrites, hreads, readsAlong_eq visited, hperm, fun hplain => ?_,
    length_visited maxDepth clock, fun path top climb => ⟨fun hlength => ?_, fun hlength hend => ?_⟩⟩
  · have hnone : visited.filterMap Node.register? = [] := by
      refine List.filterMap_eq_nil_iff.mpr fun node hnode => ?_
      obtain ⟨kind, flags⟩ := node
      rcases hplain _ hnode with ⟨parent, rfl⟩ | ⟨rate, rfl⟩ <;> rfl
    rw [hnone] at hperm
    exact hperm.eq_nil
  · have hvisited := visited_climb climb 0
    rw [Nat.add_zero, hlength, Tree.visited, List.append_nil] at hvisited
    exact hvisited
  · obtain ⟨more, hmore⟩ := Nat.exists_eq_add_of_lt hlength
    have hvisited := visited_climb climb (more + 1)
    rw [visited_end hend, ← Nat.add_assoc, ← hmore] at hvisited
    exact hvisited

/-- An oscillator, a copy of it, a divider on it, a multiplier on that, a divider on either, and a
multiplier on itself. -/
def loopedTree : Tree := [
  .ready (.fixed mainOscillator),
  .ready (.copyOf 0),
  .ready (.divider { offset := 0x088, m := { shift := 0, width := 4, offset := 1 },
                     p := { shift := 16, width := 2 }, mux := { shift := 24, width := 2 },
                     parents := [0] }),
  .ready (.multiplier { offset := 0x028, n := { shift := 8, width := 5, offset := 1 },
                        k := { shift := 4, width := 2, offset := 1 }, parent := 2 }),
  .ready (.divider { offset := 0x08c, m := { shift := 0, width := 4, offset := 1 },
                     p := { shift := 16, width := 2 }, mux := { shift := 24, width := 2 },
                     parents := [0, 3] }),
  .ready (.multiplier { offset := 0x02c, n := { shift := 8, width := 5, offset := 1 },
                        k := { shift := 4, width := 2, offset := 1 }, parent := 5 })]

/-- Both dividers select their second parent, which the first does not have. -/
def loopedRegisters : RegisterFile := .ofList [(0x088, 0x01000000), (0x08c, 0x01000000)]

/-- A divider over a multiplier over a divider without a parent are all read; a multiplier on itself
is read for each of its `maxDepth` visits, and a copy of an oscillator not at all. -/
theorem reads_rate_looped :
    let trace (clock : Nat) := ((loopedTree.rate clock).run serve loopedRegisters).trace
    ((loopedTree.rate 4).run serve loopedRegisters).value = 0 ∧
      reads (trace 4) = [0x08c, 0x088, 0x028] ∧ reads (trace 5) = List.replicate 16 0x02c ∧
      writes (trace 5) = [] ∧ reads (trace 1) = [] := by
  intro trace
  obtain ⟨-, hreads, -⟩ := reads_rate loopedTree loopedRegisters 4
  obtain ⟨hwrites, hround, -, -, -, -, -⟩ := reads_rate loopedTree loopedRegisters 5
  obtain ⟨-, -, -, -, hplain, -, hclimb⟩ := reads_rate loopedTree loopedRegisters 1
  have hvisited := (hclimb _ 0 (.up rfl (.here 0))).2 (by decide) rfl
  refine ⟨by decide +kernel, hreads.trans (by decide +kernel), hround.trans (by decide +kernel),
    hwrites, hplain ?_⟩
  rw [hvisited]
  intro node hnode
  fin_cases hnode
  · exact Or.inl ⟨0, rfl⟩
  · exact Or.inr ⟨mainOscillator, rfl⟩

end SocBringup.Clock
