import SocBringup.Proofs.Clock.Dependence
import SocBringup.Proofs.Program.Within

/-! # A clock tree, node by node

What a walk finds at a clock by the kind of its node, for a tree whose nodes are known one by one, and
how deep it goes in a tree whose clocks are ranked.

* `Tree.Absent`: the clocks without a usable node; they have no rate (`reading_absent`).
* `reading_fixed`, `reading_copyOf`, `reading_divider`: the rate of an oscillator, of a copy, and of
  a divider by what its multiplexer selects.
* `Tree.within_walk`: what a walk asks for.
* `Tree.Ranked`: every clock has a higher rank than the parents it may name.
* `Ranked.within_rateWithin`: a walk whose budget is above the rank of its clock is never given up. -/

namespace SocBringup.Clock

/-- The clock is outside the tree, its entry is without a node, or its node is pending. -/
def Tree.Absent (tree : Tree) (clock : Nat) : Prop :=
  tree[clock]? = none ∨
    ∃ node, tree[clock]? = some node ∧ (node.kind = .unset ∨ node.flags.ready = false)

/-! ### Rates -/

section Reading
variable {tree : Tree} {file : RegisterFile} {clock : Nat}

theorem reading_absent (h : tree.Absent clock) (depth : Nat) : tree.reading file depth clock = 0 := by
  rcases h with hnone | ⟨node, hnode, hkind | hready⟩
  · exact reading_stuck (stuck_of_ready? (ready?_outside hnone)) depth
  · refine reading_stuck (stuck_of_parent? hnode ?_ (by simp [hkind])) depth
    simp [Node.parent?, hkind]
  · exact reading_stuck (stuck_of_ready? (ready?_pending hnode hready)) depth

theorem reading_fixed {rate : Rate} (h : tree[clock]? = some (.ready (.fixed rate))) (depth : Nat) :
    tree.reading file (depth + 1) clock = rate.toNat := by
  refine reading_oscillator ?_ depth
  rw [Tree.oscillator?, ready?_ready h rfl]
  rfl

theorem reading_copyOf {parent : Nat} (h : tree[clock]? = some (.ready (.copyOf parent)))
    (depth : Nat) : tree.reading file (depth + 1) clock = tree.reading file depth parent :=
  reading_step (step?_eq_some.mpr ⟨h, rfl, rfl⟩) depth

/-- **A divider divides what its multiplexer selects**, which is nothing where there is no parent. -/
theorem reading_divider {d : Divider} (h : tree[clock]? = some (.ready (.divider d))) (depth : Nat) :
    let word := file.get d.offset
    tree.reading file (depth + 1) clock =
      ((d.parents.map (tree.reading file depth))[d.mux.raw word]?.getD 0) >>> d.p.raw word /
        d.m.value word := by
  intro word
  rw [List.getElem?_map]
  cases hparent : d.parents[d.mux.raw word]? with
  | none =>
    rw [reading_stuck (stuck_of_parent? h hparent (by simp [Node.ready])), Option.map_none,
      Option.getD_none, Nat.zero_shiftRight, Nat.zero_div]
  | some parent =>
    rw [reading_step (step?_eq_some.mpr ⟨h, rfl, hparent⟩), Option.map_some, Option.getD_some,
      Nat.shiftRight_eq_div_pow, Nat.div_div_eq_div_mul]
    rfl

end Reading

/-! ### Requests -/

/-- The parents a node may name, whatever its register holds. -/
def Node.parents (node : Node) : List Nat :=
  match node.kind with
  | .unset | .fixed _ => []
  | .copyOf parent => [parent]
  | .multiplier m => [m.parent]
  | .divider d => d.parents

/-- The diagnostic is about something other than a walk that was given up. -/
def Explains (reason : Diagnostic) : Prop := ∀ clock, reason ≠ .treeTooDeep clock

/-- **What a walk asks for.** It reads the registers of the fields of its tree and explains why a
clock has no rate; it is given up where its budget is spent, and `Left` is an invariant of budget and
clock that tells where this may be. -/
theorem Tree.within_walk {tree : Tree} {P : Register.Request → Prop} (Left : Nat → Nat → Prop)
    (hread : ∀ p ∈ tree.fields, P (.read p.1)) (hnote : ∀ reason, Explains reason → P (.note reason))
    (hspent : ∀ clock, Left 0 clock → P (.note (.treeTooDeep clock)))
    (hstep : ∀ depth clock node, tree[clock]? = some node → Left (depth + 1) clock →
      ∀ parent ∈ node.parents, Left depth parent) :
    ∀ depth clock, Left depth clock → (tree.rateWithin depth clock).Within P := by
  have hwithout : ∀ reason, Explains reason → (withoutRate reason).Within P :=
    fun reason h => ⟨hnote reason h, fun _ => trivial⟩
  intro depth
  induction depth with
  | zero =>
    intro clock hleft
    unfold rateWithin
    cases tree[clock]? with
    | none => exact hwithout _ (by simp [Explains])
    | some node => exact ⟨hspent clock hleft, fun _ => trivial⟩
  | succ depth ih =>
    intro clock hleft
    unfold rateWithin
    rcases hnode : tree[clock]? with _ | ⟨kind, flags⟩
    · exact hwithout _ (by simp [Explains])
    have hparent : ∀ parent ∈ (Node.mk kind flags).parents,
        (tree.rateWithin depth parent).Within P :=
      fun parent h => ih parent (hstep depth clock _ hnode hleft parent h)
    refine Program.Within.ite ?_ (hwithout _ (by simp [Explains]))
    cases kind with
    | unset => exact hwithout _ (by simp [Explains])
    | copyOf parent => exact hparent parent List.mem_cons_self
    | fixed rate => exact .pure _
    | multiplier m =>
      have hword : P (.read m.offset) := hread (m.offset, m.n) (mem_fields hnode List.mem_cons_self)
      exact (hparent m.parent List.mem_cons_self).bind fun _ => ⟨hword, fun _ => trivial⟩
    | divider d =>
      have hword : (Registers.read d.offset).Within P :=
        ⟨hread (d.offset, d.m) (mem_fields hnode List.mem_cons_self), fun _ => trivial⟩
      refine hword.bind fun word => ?_
      dsimp only
      cases hselected : d.parents[d.mux.raw word]? with
      | none => exact hwithout _ (by simp [Explains])
      | some parent =>
        exact (hparent parent (List.mem_of_getElem? hselected)).bind fun _ => .pure _

/-! ### Depth -/

/-- Every clock of the tree has a higher rank than the parents its node may name. -/
def Tree.Ranked (tree : Tree) (rank : Nat → Nat) : Prop :=
  ∀ entry ∈ tree.zipIdx, ∀ parent ∈ entry.1.parents, rank parent < rank entry.2

instance (tree : Tree) (rank : Nat → Nat) : Decidable (tree.Ranked rank) := by
  unfold Tree.Ranked; infer_instance

/-- The request is not a note that a walk was given up. -/
def NotGivenUp (q : Register.Request) : Prop := ∀ clock, q ≠ .note (.treeTooDeep clock)

/-- **A walk is never given up** if its budget is above the rank of its clock: each parent has a
lower rank, so that the budget that is left is above it. -/
theorem Tree.Ranked.within_rateWithin {tree : Tree} {rank : Nat → Nat} (h : tree.Ranked rank)
    {depth clock : Nat} (hrank : rank clock < depth) :
    (tree.rateWithin depth clock).Within NotGivenUp := by
  refine Tree.within_walk (fun depth clock => rank clock < depth) (fun _ _ => by simp [NotGivenUp])
    (fun reason hreason clock => ?_) (fun _ hspent => absurd hspent (Nat.not_lt_zero _))
    (fun depth clock node hnode hleft parent hparent => ?_) depth clock hrank
  · simpa using hreason clock
  · have hlower : rank parent < rank clock :=
      h (node, clock) (List.mem_zipIdx_iff_getElem?.mpr hnode) parent hparent
    omega

end SocBringup.Clock
