/-! # Programs: hardware access as requests

Code that touches hardware is written here as data: a `Program` over an `Interface` either is done
with a value, or makes a request and goes on with the answer. What answers the requests, a register
file, byte memory, a simulated block or another program, is chosen when the program is run.

* `Program.run`: a program run against a handler gives its value, the handler's last state and the
  trace of all exchanges in order.
* `Program.expand`: a program over one interface becomes a program over another when each request is
  replaced by a program.
* `run_bind`, `expand_bind`: both respect sequencing, so runs are computed piece by piece. -/

namespace SocBringup

/-- What a program may ask for, and the type of the answer to each request. -/
structure Interface where
  Request : Type
  Answer : Request → Type

/-- A program over an interface: done, or a request and what to do with its answer. -/
inductive Program (I : Interface) (α : Type) : Type where
  | done (value : α) : Program I α
  | ask (request : I.Request) (next : I.Answer request → Program I α) : Program I α

/-- A request together with the answer it got. -/
structure Exchange (I : Interface) where
  request : I.Request
  answer : I.Answer request

/-- Something that answers the requests of an interface and keeps a state of its own. -/
def Handler (I : Interface) (σ : Type) : Type := (request : I.Request) → σ → I.Answer request × σ

/-- What is left of a run: the value, the handler's state, and every exchange in order. -/
structure Run (I : Interface) (σ α : Type) where
  value : α
  state : σ
  trace : List (Exchange I)

namespace Program

variable {I J : Interface} {α β γ σ : Type}

/-- One program after the other. -/
def bind : Program I α → (α → Program I β) → Program I β
  | done a, f => f a
  | ask q next, f => ask q fun a => (next a).bind f

instance : Monad (Program I) where
  pure := done
  bind := bind

@[simp] theorem done_bind (a : α) (f : α → Program I β) : (done a : Program I α) >>= f = f a := rfl

@[simp] theorem ask_bind (q : I.Request) (next : I.Answer q → Program I α) (f : α → Program I β) :
    ask q next >>= f = ask q fun a => next a >>= f := rfl

theorem bind_done (p : Program I α) : p.bind done = p := by
  induction p with
  | done a => rfl
  | ask q next ih => simp only [bind, ih]

theorem bind_assoc (p : Program I α) (f : α → Program I β) (g : β → Program I γ) :
    (p.bind f).bind g = p.bind fun a => (f a).bind g := by
  induction p with
  | done a => rfl
  | ask q next ih => simp only [bind, ih]

instance : LawfulMonad (Program I) :=
  LawfulMonad.mk' (Program I) bind_done (fun _ _ => rfl) bind_assoc

/-! ### Running -/

/-- The run of a program against a handler. -/
def run (serve : Handler I σ) : Program I α → σ → Run I σ α
  | done a, s => ⟨a, s, []⟩
  | ask q next, s =>
    let r := (next (serve q s).1).run serve (serve q s).2
    ⟨r.value, r.state, ⟨q, (serve q s).1⟩ :: r.trace⟩

@[simp] theorem run_done (serve : Handler I σ) (a : α) (s : σ) :
    (done a : Program I α).run serve s = ⟨a, s, []⟩ := rfl

/-- **A sequence runs its parts in turn**, and its trace is theirs one after the other. -/
theorem run_bind (serve : Handler I σ) (p : Program I α) (f : α → Program I β) (s : σ) :
    (p >>= f).run serve s =
      let r := p.run serve s
      let r' := (f r.value).run serve r.state
      ⟨r'.value, r'.state, r.trace ++ r'.trace⟩ := by
  induction p generalizing s with
  | done a => rfl
  | ask q next ih => simp only [ask_bind, run, ih, List.cons_append]

/-! ### Replacing requests by programs -/

/-- The program with every request replaced by a program of another interface. -/
def expand (serve : (q : I.Request) → Program J (I.Answer q)) : Program I α → Program J α
  | done a => done a
  | ask q next => (serve q).bind fun a => (next a).expand serve

@[simp] theorem expand_done (serve : (q : I.Request) → Program J (I.Answer q)) (a : α) :
    (done a : Program I α).expand serve = done a := rfl

@[simp] theorem expand_ask (serve : (q : I.Request) → Program J (I.Answer q)) (q : I.Request)
    (next : I.Answer q → Program I α) :
    (ask q next).expand serve = serve q >>= fun a => (next a).expand serve := rfl

theorem expand_bind (serve : (q : I.Request) → Program J (I.Answer q)) (p : Program I α)
    (f : α → Program I β) :
    (p >>= f).expand serve = p.expand serve >>= fun a => (f a).expand serve := by
  induction p with
  | done a => rfl
  | ask q next ih =>
    simp only [ask_bind, expand_ask, ih, LawfulMonad.bind_assoc]

end Program

end SocBringup
