import SocBringup.Program
import Mathlib.Tactic

/-! # Handlers behind a layer of programs

A program whose requests are replaced by programs may as well be run where it stands, against a
handler that runs the replacements.

* `Handler.behind`: each request is answered by the run of its program.
* `Program.run_expand`: the expanded program comes to the same value and the same state. What the
  layered handler adds is the log of the requests above the layer.
* `Program.attributed`: the requests below the layer, each with the one above it was made for. -/

namespace SocBringup

variable {I J : Interface} {α σ : Type}

/-- The handler that answers each request by running its program. -/
def Handler.behind (serve : Handler J σ) (layer : (q : I.Request) → Program J (I.Answer q)) :
    Handler I σ :=
  fun q s => (((layer q).run serve s).value, ((layer q).run serve s).state)

/-- **Replacing requests by programs changes neither the value nor the state of a run.** -/
theorem Program.run_expand (serve : Handler J σ) (layer : (q : I.Request) → Program J (I.Answer q))
    (p : Program I α) (s : σ) :
    ((p.expand layer).run serve s).value = (p.run (serve.behind layer) s).value ∧
      ((p.expand layer).run serve s).state = (p.run (serve.behind layer) s).state := by
  induction p generalizing s with
  | done a => exact ⟨rfl, rfl⟩
  | ask q next ih =>
    rw [expand_ask, run_bind]
    exact ih _ _

namespace Program

variable {β : Type} (serve : Handler J σ) (layer : (q : I.Request) → Program J (I.Answer q))

/-- What goes on below the layer in a run, each exchange with the request above the layer that it
was made for. -/
def attributed : Program I α → σ → List (I.Request × Exchange J)
  | done _, _ => []
  | ask q next, s =>
    let r := (layer q).run serve s
    r.trace.map (Prod.mk q) ++ (next r.value).attributed r.state

theorem attributed_bind (p : Program I α) (f : α → Program I β) (s : σ) :
    (p >>= f).attributed serve layer s =
      p.attributed serve layer s ++
        (f (p.run (serve.behind layer) s).value).attributed serve layer
          (p.run (serve.behind layer) s).state := by
  induction p generalizing s with
  | done a => rfl
  | ask q next ih =>
    rw [ask_bind, attributed, ih, attributed, List.append_assoc]
    rfl

/-- Without the requests above the layer, this is the trace of the expanded program. -/
theorem map_snd_attributed (p : Program I α) (s : σ) :
    (p.attributed serve layer s).map Prod.snd = ((p.expand layer).run serve s).trace := by
  induction p generalizing s with
  | done a => rfl
  | ask q next ih =>
    rw [attributed, List.map_append, ih, expand_ask, run_bind, List.map_map]
    exact congrArg (· ++ _) (List.map_id _)

/-- What is attributed to a request happened in a run of its program. -/
theorem exists_of_mem_attributed {p : Program I α} {s : σ} {q : I.Request} {x : Exchange J}
    (h : (q, x) ∈ p.attributed serve layer s) : ∃ t, x ∈ ((layer q).run serve t).trace := by
  induction p generalizing s with
  | done a => exact absurd h List.not_mem_nil
  | ask q' next ih =>
    rcases List.mem_append.mp h with h | h
    · obtain ⟨y, hy, hpair⟩ := List.mem_map.mp h
      cases hpair
      exact ⟨s, hy⟩
    · exact ih _ h

end Program

end SocBringup
