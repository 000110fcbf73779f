import SocBringup.Proofs.ControlUnit.Separation
import SocBringup.Proofs.Program.Layer
import SocBringup.Proofs.Register.Trace

/-! # Reset lines that may be requested

The bindings of a chip declare a number of reset lines and its tables wire some of them. Only a
request looks at the number; holding and releasing a line look at the tables alone.

* `Chip.value_requestReset`: which requests are granted.
* `Chip.exists_touches_iff`: what is done to a line accesses a register if it holds or releases the
  line and the line is wired.
* `Chip.Vets`: in a run, only lines whose request is granted are accessed.
* `Shipped.vets`: every chip of the catalog vets its lines. -/

namespace SocBringup

open Registers (accesses touches)

/-- A trace without accesses touches nothing. -/
theorem Registers.not_touches {trace : List (Exchange Registers)} (h : accesses trace = []) :
    ¬ ∃ x ∈ trace, touches x.request = true := by
  rintro ⟨x, hx, htouches⟩
  exact List.filter_eq_nil_iff.mp h x hx htouches

namespace Chip

variable {σ α : Type} {chip : Chip}

/-- **A line is granted below the count of the bindings**, whatever the registers hold. -/
theorem value_requestReset (chip : Chip) (serve : Handler Registers σ) (line : Nat) (t : σ) :
    ((chip.requestReset line).run serve t).value =
      if chip.resetCount ≤ line then .error .invalidArgument else .ok () := rfl

/-- A wired line is read and written when it is switched, and no register is accessed otherwise. -/
theorem exists_touches_switchReset (bank : Bank) (serve : Handler Registers σ) (line : Nat)
    (released : Bool) (t : σ) :
    (∃ x ∈ ((bank.switchReset line released).run serve t).trace, touches x.request = true) ↔
      (bank.line? line).isSome = true := by
  unfold Bank.switchReset
  cases bank.line? line with
  | none => exact iff_of_false (Registers.not_touches rfl) Bool.false_ne_true
  | some l =>
    refine iff_of_true ?_ rfl
    cases released <;> exact ⟨_, List.mem_cons_of_mem _ List.mem_cons_self, rfl⟩

/-- **What is done to a reset line accesses a register** if it holds or releases the line and the line
is wired. -/
theorem exists_touches_iff (chip : Chip) (serve : Handler Registers σ) {op : Operation} {line : Nat}
    (hop : op.subject = .line line) (t : σ) :
    (∃ x ∈ ((chip.perform op).run serve t).trace, touches x.request = true) ↔
      (op = .assertReset line ∨ op = .deassertReset line) ∧
        (chip.resets.line? line).isSome = true := by
  have hswitch := exists_touches_switchReset chip.resets serve line
  have hanswer : ∀ p : Program Registers Unit,
      ((p >>= fun _ => pure (.ok ()) : Program Registers (Except Fault Unit)).run serve t).trace =
        (p.run serve t).trace := fun p => by
    rw [Program.run_bind]
    exact List.append_nil _
  cases op with
  | requestReset n => exact iff_of_false (Registers.not_touches rfl) (by simp)
  | freeReset n => exact iff_of_false (Registers.not_touches rfl) (by simp)
  | assertReset n =>
    cases hop
    simp only [perform, assertReset, hanswer, true_or, true_and]
    exact hswitch false t
  | deassertReset n =>
    cases hop
    simp only [perform, deassertReset, hanswer, or_true, true_and]
    exact hswitch true t
  | _ => cases hop

/-! ### Runs -/

/-- **A chip vets its reset lines** in a run: those whose request it refuses reach no register. The
log has what was said to the registers, each entry with the operation it was made for. -/
structure Vets (chip : Chip) (serve : Handler Registers σ) (caller : Program Operations α)
    (s : σ) : Prop where
  /-- Nothing is left out of the log. -/
  log : (caller.attributed serve chip.perform s).map Prod.snd =
    ((caller.expand chip.perform).run serve s).trace
  /-- A request is granted below the count of the bindings, and an invalid argument from there on. -/
  answer : ∀ line t, ((chip.requestReset line).run serve t).value =
    if chip.resetCount ≤ line then .error .invalidArgument else .ok ()
  /-- Whatever is done to a line whose request is refused accesses no register. -/
  refused : ∀ line t, ((chip.requestReset line).run serve t).value = .error .invalidArgument →
    ∀ op x, (op, x) ∈ caller.attributed serve chip.perform s → op.subject = .line line →
      touches x.request = false
  /-- A line that is held or released in a register is one whose request is granted. -/
  granted : ∀ op x line, (op, x) ∈ caller.attributed serve chip.perform s →
    op = .assertReset line ∨ op = .deassertReset line → touches x.request = true →
      ∀ t, ((chip.requestReset line).run serve t).value = .ok ()
  /-- Requesting a line and giving it back access no register. -/
  silent : ∀ op x line, (op, x) ∈ caller.attributed serve chip.perform s →
    op = .requestReset line ∨ op = .freeReset line → touches x.request = false
  /-- Holding and releasing a line do access a register if the line is wired. -/
  wired : ∀ op line t, op = .assertReset line ∨ op = .deassertReset line →
    ((∃ x ∈ ((chip.perform op).run serve t).trace, touches x.request = true) ↔
      (chip.resets.line? line).isSome = true)

/-- The tables end below the count of the bindings. -/
theorem resets_catalog : ∀ entry ∈ catalog, ∀ chip ∈ entry.data,
    chip.resets.length ≤ chip.resetCount := by
  decide +kernel

/-- **A wired line is one that the bindings count.** -/
theorem Shipped.lt_resetCount (h : chip.Shipped) {line : Nat}
    (hline : (chip.resets.line? line).isSome = true) : line < chip.resetCount := by
  obtain ⟨entry, hentry, hchip⟩ := h
  obtain ⟨l, hl⟩ := Option.isSome_iff_exists.mp hline
  obtain ⟨hlt, -⟩ := List.getElem?_eq_some_iff.mp (Bank.line?_eq_some.mp hl)
  exact hlt.trans_le (resets_catalog entry hentry chip hchip)

/-- What was done to a line and accessed a register held or released a line that is counted. -/
theorem Shipped.of_touches (h : chip.Shipped) {serve : Handler Registers σ}
    {caller : Program Operations α} {s : σ} {op : Operation} {x : Exchange Registers} {line : Nat}
    (hmem : (op, x) ∈ caller.attributed serve chip.perform s) (hop : op.subject = .line line)
    (hx : touches x.request = true) :
    (op = .assertReset line ∨ op = .deassertReset line) ∧ line < chip.resetCount := by
  obtain ⟨t, ht⟩ := Program.exists_of_mem_attributed (I := Operations) serve chip.perform hmem
  obtain ⟨hswitches, hwired⟩ := (exists_touches_iff chip serve hop t).mp ⟨x, ht, hx⟩
  exact ⟨hswitches, h.lt_resetCount hwired⟩

/-- **Every chip of the catalog vets its reset lines.** -/
theorem Shipped.vets (h : chip.Shipped) (serve : Handler Registers σ)
    (caller : Program Operations α) (s : σ) : chip.Vets serve caller s where
  log := Program.map_snd_attributed serve chip.perform caller s
  answer := chip.value_requestReset serve
  refused line t hrefused op x hmem hop := by
    rw [value_requestReset] at hrefused
    by_contra htouches
    obtain ⟨-, hlt⟩ := h.of_touches hmem hop (by simpa using htouches)
    rw [if_neg (not_le.mpr hlt)] at hrefused
    cases hrefused
  granted op x line hmem hop hx t := by
    have hsubject : op.subject = .line line := by rcases hop with rfl | rfl <;> rfl
    rw [value_requestReset, if_neg (not_le.mpr (h.of_touches hmem hsubject hx).2)]
  silent op x line hmem hop := by
    have hsubject : op.subject = .line line := by rcases hop with rfl | rfl <;> rfl
    by_contra htouches
    obtain ⟨hswitches, -⟩ := h.of_touches hmem hsubject (by simpa using htouches)
    rcases hop with rfl | rfl <;> rcases hswitches with hop | hop <;> cases hop
  wired op line t hop := by
    have hsubject : op.subject = .line line := by rcases hop with rfl | rfl <;> rfl
    rw [exists_touches_iff chip serve hsubject t, and_iff_right hop]

/-- The H3 counts 53 lines. One past them is refused and released in no register; line 40 is granted
but not wired; line 15 is released in a register, so it is granted. -/
theorem Shipped.vets_h3 :
    let caller := Operation.inTurn [.requestReset 53, .deassertReset 53, .freeReset 53,
      .requestReset 40, .deassertReset 40, .deassertReset 15]
    let log := caller.attributed RegisterFile.serve h3.perform {}
    let answer := fun line => ((h3.requestReset line).run RegisterFile.serve {}).value
    h3.Shipped ∧ answer 53 = .error .invalidArgument ∧
      (∀ op x, (op, x) ∈ log → op.subject = .line 53 → touches x.request = false) ∧
      answer 40 = .ok () ∧
      ¬ (∃ x ∈ ((h3.deassertReset 40).run RegisterFile.serve {}).trace,
        touches x.request = true) ∧
      (.deassertReset 15, ⟨.read 0x2c0, 0⟩) ∈ log ∧ answer 15 = .ok () := by
  intro caller log answer
  have hshipped : h3.Shipped :=
    ⟨⟨"allwinner,sun8i-h3-ccu", some h3⟩, by simp [catalog], rfl⟩
  have hvets := hshipped.vets RegisterFile.serve caller {}
  have hrefused : answer 53 = .error .invalidArgument := hvets.answer 53 {}
  have hread : (.deassertReset 15, ⟨.read 0x2c0, 0⟩) ∈ log := List.mem_of_getElem? (i := 6) rfl
  refine ⟨hshipped, hrefused, hvets.refused 53 {} hrefused, hvets.answer 40 {}, ?_, hread, ?_⟩
  · intro h
    exact nomatch (hvets.wired (.deassertReset 40) 40 {} (.inr rfl)).mp h
  · exact hvets.granted _ _ 15 hread (.inr rfl) rfl {}

end Chip

end SocBringup
