import SocBringup.Proofs.Clock.Climb
import SocBringup.Proofs.Register.Factor

/-! # What the rate of a clock depends on

A walk through a clock tree chooses its way by the registers it reads, and folds rates back by them.
Of all it reads, only the fields of its multipliers and dividers matter.

* `Tree.fields`: the fields by which a tree reads registers.
* `Tree.Agree`: two register files that hold the same in all of them.
* `Agree.value_rateWithin`: every walk comes to the same rate on both. -/

namespace SocBringup.Clock

open RegisterFile (serve)

/-- The fields by which a node reads its register, with the offset of the register. -/
def Node.fields (node : Node) : List (Nat × Field) :=
  match node.kind with
  | .multiplier m => [(m.offset, m.n), (m.offset, m.k)]
  | .divider d => [(d.offset, d.m), (d.offset, d.p), (d.offset, d.mux)]
  | .unset | .copyOf _ | .fixed _ => []

/-- The fields by which a tree reads registers. -/
def Tree.fields (tree : Tree) : List (Nat × Field) := tree.flatMap Node.fields

/-- Two register files that hold the same in every field of the tree. -/
def Tree.Agree (tree : Tree) (f g : RegisterFile) : Prop :=
  ∀ p ∈ tree.fields, p.2.raw (f.get p.1) = p.2.raw (g.get p.1)

theorem Tree.mem_fields {tree : Tree} {clock : Nat} {node : Node} (h : tree[clock]? = some node)
    {p : Nat × Field} (hp : p ∈ node.fields) : p ∈ tree.fields :=
  List.mem_flatMap.mpr ⟨node, List.mem_of_getElem? h, hp⟩

namespace Tree.Agree

variable {tree : Tree} {f g : RegisterFile} (h : tree.Agree f g) {clock : Nat} {flags : Flags}
include h

theorem output_multiplier {m : Multiplier} (hnode : tree[clock]? = some ⟨.multiplier m, flags⟩)
    (rate : Rate) :
    m.output flags (f.get m.offset) rate = m.output flags (g.get m.offset) rate := by
  have hn := Field.value_congr (h _ (mem_fields hnode (List.mem_cons_self)))
  have hk := Field.value_congr (h _ (mem_fields hnode
    (List.mem_cons_of_mem _ List.mem_cons_self)))
  unfold Multiplier.output
  rw [hn, hk]

theorem output_divider {d : Divider} (hnode : tree[clock]? = some ⟨.divider d, flags⟩)
    (rate : Rate) : d.output (f.get d.offset) rate = d.output (g.get d.offset) rate := by
  have hm := Field.value_congr (h _ (mem_fields hnode (List.mem_cons_self)))
  have hp := h _ (mem_fields hnode (List.mem_cons_of_mem _ List.mem_cons_self))
  unfold Divider.output
  rw [hm, hp]

theorem mux_divider {d : Divider} (hnode : tree[clock]? = some ⟨.divider d, flags⟩) :
    d.mux.raw (f.get d.offset) = d.mux.raw (g.get d.offset) :=
  h _ (mem_fields hnode (List.mem_cons_of_mem _ (List.mem_cons_of_mem _ List.mem_cons_self)))

/-- **Walks on registers that agree come to the same rate**, whatever their budget. -/
theorem value_rateWithin : ∀ depth clock,
    ((tree.rateWithin depth clock).run serve f).value =
      ((tree.rateWithin depth clock).run serve g).value
  | 0, clock => by unfold rateWithin; split <;> rfl
  | depth + 1, clock => by
    have ih := value_rateWithin depth
    unfold rateWithin
    rcases hnode : tree[clock]? with _ | ⟨kind, flags⟩
    · rfl
    simp only
    split_ifs
    swap; · rfl
    cases kind with
    | unset => rfl
    | copyOf parent => exact ih parent
    | fixed rate => rfl
    | multiplier m =>
      simp only [Program.run_bind, Registers.read, Program.run, serve, state_rateWithin, pure]
      rw [ih m.parent, h.output_multiplier hnode]
    | divider d =>
      -- both walks choose the same parent, as the multiplexer is one of the fields
      simp only [Program.run_bind, Registers.read, Program.run, serve, h.mux_divider hnode]
      cases d.parents[d.mux.raw (g.get d.offset)]? with
      | none => rfl
      | some parent =>
        simp only [Program.run_bind, Program.run, pure]
        rw [ih parent, h.output_divider hnode]

end Tree.Agree

end SocBringup.Clock
