import SocBringup.Program

/-! # The values a program may end with

* `Program.Yields`: whatever a program is answered, something holds of the value it ends with.
* `Yields.bind`: this is found piece by piece.
* `Yields.bind_congr`: what comes after a program need only agree on such values. -/

namespace SocBringup.Program

variable {I : Interface} {α β : Type} {P : α → Prop} {Q : β → Prop}

/-- Whatever the program is answered, `P` holds of the value it ends with. -/
def Yields (P : α → Prop) : Program I α → Prop
  | done a => P a
  | ask _ next => ∀ a, (next a).Yields P

theorem Yields.pure {a : α} (h : P a) : (Pure.pure a : Program I α).Yields P := h

theorem yields_true (p : Program I α) : p.Yields fun _ => True := by
  induction p with
  | done a => trivial
  | ask q next ih => exact ih

theorem Yields.bind {p : Program I α} {f : α → Program I β} (hp : p.Yields P)
    (hf : ∀ a, P a → (f a).Yields Q) : (p >>= f).Yields Q := by
  induction p with
  | done a => exact hf a hp
  | ask q next ih => exact fun a => ih a (hp a)

/-- What follows a program of which nothing is known. -/
theorem Yields.after {p : Program I α} {f : α → Program I β} (hf : ∀ a, (f a).Yields Q) :
    (p >>= f).Yields Q :=
  (yields_true p).bind fun a _ => hf a

/-- **What comes after need only agree on the values there may be.** -/
theorem Yields.bind_congr {p : Program I α} {f g : α → Program I β} (hp : p.Yields P)
    (h : ∀ a, P a → f a = g a) : p >>= f = p >>= g := by
  induction p with
  | done a => exact h a hp
  | ask q next ih => exact congrArg (Program.ask q) (funext fun a => ih a (hp a))

end SocBringup.Program
