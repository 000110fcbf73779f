import SocBringup.Proofs.Spi.Delivery

/-! # Powering a controller up and down

What a controller asks of its supply when the bus is claimed and released, whatever the supply
answers: it may refuse any call, the calls that undo others included, and may answer differently
every time.

* `calls`, `accesses`: what was said to the supply and to the register block.
* `Controller.powerUp`, `powerDown`: the steps, in order.
* `PoweredUp`: all steps up were taken before the block was touched, or those that were taken were
  undone and the block was left alone.
* `PoweredDown`: the block was switched off and all steps down were taken, refused or not.
* `Controller.powered`: claiming powers up, releasing powers down. -/

namespace SocBringup.Spi

variable {σ : Type}

/-! ### What is said -/

/-- The supply was called. -/
def called (q : Supply.Request) (answer : Except Fault Unit) : Exchange Host := ⟨.supply q, answer⟩

/-- The call to the supply, if that is what was said. -/
def call? : Exchange Host → Option (Exchange Supply)
  | ⟨.supply q, answer⟩ => some ⟨q, answer⟩
  | _ => none

/-- The request to the register block, if that is what was said. -/
def access? : Exchange Host → Option (Exchange Block)
  | ⟨.block q, answer⟩ => some ⟨q, answer⟩
  | _ => none

/-- The calls to the supply, in order. -/
def calls (trace : List (Exchange Host)) : List (Exchange Supply) := trace.filterMap call?

/-- The requests to the register block, in order. -/
def accesses (trace : List (Exchange Host)) : List (Exchange Block) := trace.filterMap access?

/-! ### Steps -/

/-- A step of powering up or down: a call to the supply, and the error that its fault is wrapped
in. -/
structure Step where
  request : Supply.Request
  wrap : Fault → Error

/-- The call that undoes another. Only clocks are given back one by one. -/
def Supply.Request.undo? : Supply.Request → Option Supply.Request
  | enable clock => some (disable clock)
  | _ => none

/-- The calls that undo some steps, the last first. -/
def unwinding (steps : List Step) : List Supply.Request :=
  (steps.filterMap (·.request.undo?)).reverse

namespace Controller

/-- The steps of powering up. -/
def powerUp (c : Controller) : List Step :=
  [⟨.enable c.busClock, .clock⟩, ⟨.enable c.moduleClock, .clock⟩, ⟨.deassert c.resetLine, .reset⟩]

/-- The steps of powering down. -/
def powerDown (c : Controller) : List Step :=
  [⟨.disable c.busClock, .clock⟩, ⟨.disable c.moduleClock, .clock⟩, ⟨.assert c.resetLine, .reset⟩]

end Controller

/-! ### Up -/

/-- **What powering up comes to.** -/
inductive PoweredUp (c : Controller) (r : Run Host σ (Except Error Unit)) : Prop
  /-- Every step was taken, and the block was touched only after that. -/
  | on (touched : List (Exchange Host)) (value : r.value = .ok ())
      (trace : r.trace = c.powerUp.map (fun step => called step.request (.ok ())) ++ touched)
      (silent : calls touched = [])
  /-- A step was refused. Those before it, and no others, were undone, whatever became of that; the
  block was not touched, and the error is that of the step. -/
  | undone (passed : List Step) (step : Step) (later : List Step) (fault : Fault)
      (unwound : List (Exchange Supply)) (split : c.powerUp = passed ++ step :: later)
      (value : r.value = .error (step.wrap fault)) (untouched : accesses r.trace = [])
      (asked : calls r.trace =
        passed.map (fun step => ⟨step.request, .ok ()⟩) ++ ⟨step.request, .error fault⟩ :: unwound)
      (inverse : unwound.map (·.request) = unwinding passed)

/-- A call to the supply is followed by what its answer leads to. -/
theorem run_supply_bind {α : Type} (serve : Handler Host σ) (q : Supply.Request)
    (next : Except Fault Unit → Program Host α) (s : σ) :
    (Host.supply q >>= next).run serve s =
      let a := serve (.supply q) s
      let r := (next a.1).run serve a.2
      ⟨r.value, r.state, called q a.1 :: r.trace⟩ := rfl

/-- **Claiming powers up.** -/
theorem Controller.claim_poweredUp (serve : Handler Host σ) (c : Controller) (s : σ) :
    PoweredUp c (c.claim.run serve s) := by
  rw [claim, run_supply_bind]
  -- one case for each step that may be refused; what undoes the earlier ones may be refused too
  rcases hbus : serve (.supply (.enable c.busClock)) s with ⟨fault | _, s1⟩
  · exact .undone [] _ _ fault [] rfl rfl rfl rfl rfl
  simp only [run_supply_bind]
  rcases hmodule : serve (.supply (.enable c.moduleClock)) s1 with ⟨fault | _, s2⟩
  · exact .undone [_] _ _ fault [_] rfl rfl rfl rfl rfl
  simp only [run_supply_bind]
  rcases hreset : serve (.supply (.deassert c.resetLine)) s2 with ⟨fault | _, s3⟩
  · exact .undone [_, _] _ _ fault [_, _] rfl rfl rfl rfl rfl
  · exact .on _ rfl rfl rfl

/-! ### Down -/

/-- The conversation of powering down: the block leaves the bus, then come the steps with their
answers. -/
def shutdown (c : Controller) (word : UInt32) (answers : List (Except Fault Unit)) :
    List (Exchange Host) :=
  [saw Block.globalControl word,
    wrote Block.globalControl (Block.busEnable.store word 0)] ++
  List.zipWith (fun step answer => called step.request answer) c.powerDown answers

/-- **What powering down comes to.** -/
inductive PoweredDown (c : Controller) (r : Run Host σ (Except Error Unit)) : Prop
  /-- No step was refused. -/
  | off (word : UInt32) (trace : r.trace = shutdown c word (c.powerDown.map fun _ => .ok ()))
      (value : r.value = .ok ())
  /-- A step was refused and none before it. Those after it were taken all the same. -/
  | faulty (word : UInt32) (passed : List Step) (step : Step) (later : List Step) (fault : Fault)
      (answers : List (Except Fault Unit)) (split : c.powerDown = passed ++ step :: later)
      (taken : answers.length = later.length)
      (trace : r.trace =
        shutdown c word (passed.map (fun _ => .ok ()) ++ .error fault :: answers))
      (value : r.value = .error (step.wrap fault))

/-- **Releasing powers down.** -/
theorem Controller.release_poweredDown (serve : Handler Host σ) (c : Controller) (s : σ) :
    PoweredDown c (c.release.run serve s) := by
  rw [release, Program.run_bind, run_modify]
  simp only [run_supply_bind]
  rcases hbus : serve (.supply (.disable c.busClock)) _ with ⟨bus, s1⟩
  rcases hmodule : serve (.supply (.disable c.moduleClock)) s1 with ⟨module, s2⟩
  rcases hreset : serve (.supply (.assert c.resetLine)) s2 with ⟨reset, s3⟩
  rcases bus with fault | _
  · exact .faulty _ [] _ _ fault [module, reset] rfl rfl rfl rfl
  rcases module with fault | _
  · exact .faulty _ [_] _ _ fault [reset] rfl rfl rfl rfl
  rcases reset with fault | _
  · exact .faulty _ [_, _] _ _ fault [] rfl rfl rfl rfl
  · exact .off _ rfl rfl

/-- **Claiming powers up and releasing powers down**, whatever the supply answers and whatever the
block holds. -/
theorem Controller.powered (serve : Handler Host σ) (c : Controller) (s : σ) :
    PoweredUp c (c.claim.run serve s) ∧ PoweredDown c (c.release.run serve s) :=
  ⟨c.claim_poweredUp serve s, c.release_poweredDown serve s⟩

end SocBringup.Spi
