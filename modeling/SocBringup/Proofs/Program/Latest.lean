import SocBringup.Program
import Mathlib.Tactic

/-! # The latest word

Much of what a run leaves behind was decided by one exchange, the last that had a say in the matter.

* `latest?`: the last value that a partial function takes along a list.
* `Program.run_invariant`: what every request keeps is kept by every run.
* `Program.run_latest`: a view of the state that an exchange either sets or leaves alone is, after a
  run, as the last exchange set it that did, and as before if none did. -/

namespace SocBringup

/-- The last of the values that a partial function takes along a list. -/
def latest? {ε β : Type} (f : ε → Option β) : List ε → Option β
  | [] => none
  | x :: rest => (latest? f rest).or (f x)

section Latest
variable {ε β γ : Type}

theorem latest?_map (f : ε → Option β) (g : β → γ) (xs : List ε) :
    latest? (fun x => (f x).map g) xs = (latest? f xs).map g := by
  induction xs with
  | nil => rfl
  | cons x rest ih =>
    rw [latest?, latest?, ih]
    cases latest? f rest <;> rfl

theorem latest?_filterMap {δ : Type} (g : ε → Option δ) (f : δ → Option β) (xs : List ε) :
    latest? f (xs.filterMap g) = latest? (fun x => (g x).bind f) xs := by
  induction xs with
  | nil => rfl
  | cons x rest ih =>
    rw [List.filterMap_cons, latest?, ← ih]
    cases g x with
    | none => exact (Option.or_none).symm
    | some y => rfl

theorem latest?_append (f : ε → Option β) (xs ys : List ε) :
    latest? f (xs ++ ys) = (latest? f ys).or (latest? f xs) := by
  induction xs with
  | nil => rw [List.nil_append, latest?, Option.or_none]
  | cons x rest ih => rw [List.cons_append, latest?, latest?, ih, Option.or_assoc]

theorem latest?_eq_none {f : ε → Option β} {xs : List ε} (h : ∀ x ∈ xs, f x = none) :
    latest? f xs = none := by
  induction xs with
  | nil => rfl
  | cons x rest ih =>
    rw [latest?, ih fun y hy => h y (List.mem_cons_of_mem _ hy), h x List.mem_cons_self]
    rfl

/-- The latest value was taken somewhere along the list. -/
theorem exists_mem_of_latest? {f : ε → Option β} {xs : List ε} {b : β}
    (h : latest? f xs = some b) : ∃ x ∈ xs, f x = some b := by
  induction xs with
  | nil => cases h
  | cons x rest ih =>
    rw [latest?, Option.or_eq_some_iff] at h
    rcases h with h | ⟨-, h⟩
    · obtain ⟨y, hy, hb⟩ := ih h
      exact ⟨y, List.mem_cons_of_mem _ hy, hb⟩
    · exact ⟨x, List.mem_cons_self, h⟩

end Latest

namespace Program

variable {I : Interface} {α β σ : Type} {serve : Handler I σ} {Inv : σ → Prop}

/-- **What every request keeps is kept by every run.** -/
theorem run_invariant (Inv : σ → Prop) (hkeep : ∀ q s, Inv s → Inv (serve q s).2)
    (p : Program I α) {s : σ} (h : Inv s) : Inv (p.run serve s).state := by
  induction p generalizing s with
  | done a => exact h
  | ask q next ih => exact ih _ (hkeep q s h)

/-- Every exchange of a run was answered in a state of the invariant. -/
theorem exists_state_of_mem_trace (hkeep : ∀ q s, Inv s → Inv (serve q s).2) (p : Program I α)
    {s : σ} (h : Inv s) :
    ∀ x ∈ (p.run serve s).trace, ∃ q t, Inv t ∧ x = ⟨q, (serve q t).1⟩ := by
  induction p generalizing s with
  | done a => exact fun x hx => absurd hx List.not_mem_nil
  | ask q next ih =>
    intro x hx
    rcases List.mem_cons.mp hx with rfl | hx
    · exact ⟨q, s, h, rfl⟩
    · exact ih _ (hkeep q s h) x hx

/-- **The last exchange that sets a view of the state decides it.** The view is read under an
invariant that every request keeps. -/
theorem run_latest (hkeep : ∀ q s, Inv s → Inv (serve q s).2) (view : σ → β)
    (sets : Exchange I → Option β)
    (hsets : ∀ q s, Inv s →
      view (serve q s).2 = (sets ⟨q, (serve q s).1⟩).getD (view s))
    (p : Program I α) {s : σ} (h : Inv s) :
    view (p.run serve s).state = (latest? sets (p.run serve s).trace).getD (view s) := by
  induction p generalizing s with
  | done a => rfl
  | ask q next ih =>
    have hrest := ih (serve q s).1 (hkeep q s h)
    rw [hsets q s h] at hrest
    simp only [run, latest?, Option.getD_or]
    exact hrest

end Program

end SocBringup
