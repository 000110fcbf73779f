import SocBringup.Program
import Mathlib.Tactic

/-! # What a program ends with, and what it keeps

* `Program.Ends`: a program, run from a state, ends with a value and in a state.
* `Program.Keeps`: whatever state a program is run from, a view of it is the same afterwards.
* `Ends.bind`, `Keeps.bind`: both are found piece by piece. -/

namespace SocBringup.Program

variable {I : Interface} {α β γ σ : Type} {serve : Handler I σ} {view : σ → γ}

theorem value_bind (serve : Handler I σ) (p : Program I α) (f : α → Program I β) (s : σ) :
    ((p >>= f).run serve s).value =
      ((f (p.run serve s).value).run serve (p.run serve s).state).value := by
  rw [run_bind]

theorem state_bind (serve : Handler I σ) (p : Program I α) (f : α → Program I β) (s : σ) :
    ((p >>= f).run serve s).state =
      ((f (p.run serve s).value).run serve (p.run serve s).state).state := by
  rw [run_bind]

/-- The program, run from `s`, ends with the value `a` in the state `s'`. -/
def Ends (serve : Handler I σ) (p : Program I α) (s : σ) (a : α) (s' : σ) : Prop :=
  (p.run serve s).value = a ∧ (p.run serve s).state = s'

theorem Ends.pure (a : α) (s : σ) : Ends serve (Pure.pure a : Program I α) s a s := ⟨rfl, rfl⟩

theorem Ends.bind {p : Program I α} {f : α → Program I β} {s s' s'' : σ} {a : α} {b : β}
    (hp : Ends serve p s a s') (hf : Ends serve (f a) s' b s'') :
    Ends serve (p >>= f) s b s'' := by
  unfold Ends
  rw [value_bind, state_bind, hp.1, hp.2]
  exact hf

/-- Whatever state the program is run from, the view is the same afterwards. -/
def Keeps (serve : Handler I σ) (view : σ → γ) (p : Program I α) : Prop :=
  ∀ s, view (p.run serve s).state = view s

theorem Keeps.pure (a : α) : Keeps serve view (Pure.pure a : Program I α) := fun _ => rfl

/-- A request that keeps the view may go before a program that keeps it. -/
theorem Keeps.ask {q : I.Request} {next : I.Answer q → Program I α}
    (hq : ∀ s, view (serve q s).2 = view s) (hnext : ∀ a, Keeps serve view (next a)) :
    Keeps serve view (Program.ask q next) := fun s => (hnext _ _).trans (hq s)

theorem Keeps.bind {p : Program I α} {f : α → Program I β} (hp : Keeps serve view p)
    (hf : ∀ a, Keeps serve view (f a)) : Keeps serve view (p >>= f) := by
  intro s
  rw [state_bind]
  exact (hf _ _).trans (hp s)

end SocBringup.Program
