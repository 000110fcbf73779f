import SocBringup.Program
import Mathlib.Tactic

/-! # The requests a program may make

* `Program.Within`: whatever a program is answered, it makes requests of one kind only.
* `Within.bind`: this is found piece by piece.
* `Within.of_mem_trace`: every exchange of a run is about such a request.
* `Program.run_simulates`: two handlers that answer these requests alike, in states that stay
  related, come to the same value by the same exchanges. -/

namespace SocBringup.Program

variable {I : Interface} {α β σ τ : Type} {P : I.Request → Prop}

/-- Whatever the program is answered, `P` holds of every request it makes. -/
def Within (P : I.Request → Prop) : Program I α → Prop
  | done _ => True
  | ask q next => P q ∧ ∀ a, (next a).Within P

theorem Within.pure (a : α) : (Pure.pure a : Program I α).Within P := trivial

theorem Within.ask {q : I.Request} {next : I.Answer q → Program I α} (hq : P q)
    (hnext : ∀ a, (next a).Within P) : (Program.ask q next).Within P := ⟨hq, hnext⟩

theorem Within.bind {p : Program I α} {f : α → Program I β} (hp : p.Within P)
    (hf : ∀ a, (f a).Within P) : (p >>= f).Within P := by
  induction p with
  | done a => exact hf a
  | ask q next ih => exact ⟨hp.1, fun a => ih a (hp.2 a)⟩

theorem Within.ite {c : Prop} {_ : Decidable c} {p q : Program I α} (hp : p.Within P)
    (hq : q.Within P) : (if c then p else q).Within P := by
  split_ifs
  · exact hp
  · exact hq

theorem within_true (p : Program I α) : p.Within fun _ => True := by
  induction p with
  | done a => trivial
  | ask q next ih => exact ⟨trivial, ih⟩

/-- **Every exchange of a run is about such a request.** -/
theorem Within.of_mem_trace {p : Program I α} (hp : p.Within P) (serve : Handler I σ) (s : σ) :
    ∀ x ∈ (p.run serve s).trace, P x.request := by
  induction p generalizing s with
  | done a => exact fun x hx => absurd hx List.not_mem_nil
  | ask q next ih =>
    intro x hx
    rcases List.mem_cons.mp hx with rfl | hx
    · exact hp.1
    · exact ih _ (hp.2 _) _ x hx

/-- **Handlers that answer alike are not told apart.** If two handlers give the same answer to every
request of which `P` holds, from related states to related states, a program that makes no other
requests comes to the same value by the same exchanges. -/
theorem run_simulates {serve : Handler I σ} {serve' : Handler I τ} (R : σ → τ → Prop)
    (hstep : ∀ q, P q → ∀ s t, R s t →
      (serve q s).1 = (serve' q t).1 ∧ R (serve q s).2 (serve' q t).2)
    {p : Program I α} (hp : p.Within P) {s : σ} {t : τ} (h : R s t) :
    (p.run serve s).value = (p.run serve' t).value ∧
      (p.run serve s).trace = (p.run serve' t).trace ∧
      R (p.run serve s).state (p.run serve' t).state := by
  induction p generalizing s t with
  | done a => exact ⟨rfl, rfl, h⟩
  | ask q next ih =>
    obtain ⟨hanswer, hstate⟩ := hstep q hp.1 s t h
    obtain ⟨hvalue, htrace, hend⟩ := ih (serve q s).1 (hp.2 _) hstate
    simp only [run]
    rw [← hanswer]
    exact ⟨hvalue, congrArg _ htrace, hend⟩

end SocBringup.Program
