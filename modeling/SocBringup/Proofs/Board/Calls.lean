import SocBringup.Board
import SocBringup.Proofs.ControlUnit.Operations
import SocBringup.Proofs.Spi.Sessions

/-! # Calls to the controllers of a board

A board holds the register blocks of its SPI controllers and the registers of its control unit. A
block answers its requests in whatever way; the control unit answers by the tables of its chip, and
refuses no controller anything. So what a call leaves in the control unit is known from the steps of
powering up and down, and what it leaves in its own block does not depend on the control unit.

* `Board.State`, `Board.serve`: a board of arbitrary blocks.
* `Board.Call`: calls to a controller, direct and through slaves.
* `bit_request`, `bit_call`: what is left in the bits of the control unit.
* `blocks_other`, `blocks_own`: what is left in the blocks. -/

namespace SocBringup

open Spi

/-! ### The control unit as a supply -/

/-- Whether a call to the supply is to switch something on. -/
def Spi.Supply.Request.on : Supply.Request → Bool
  | .enable _ | .deassert _ => true
  | .disable _ | .assert _ | .request _ => false

namespace Chip

/-- A bit of the control unit belongs to the gate or the reset line that a call switches. -/
def Switches (chip : Chip) (offset i : Nat) : Supply.Request → Prop
  | .enable clock | .disable clock => chip.gates.Covers clock offset i
  | .assert line | .deassert line => chip.resets.Covers line offset i
  | .request _ => False

instance (chip : Chip) (offset i : Nat) : ∀ q, Decidable (chip.Switches offset i q)
  | .enable clock | .disable clock => inferInstanceAs (Decidable (chip.gates.Covers clock offset i))
  | .assert line | .deassert line => inferInstanceAs (Decidable (chip.resets.Covers line offset i))
  | .request _ => inferInstanceAs (Decidable False)

/-- What a call to the supply makes of a bit of the control unit. -/
def switches? (chip : Chip) (offset i : Nat) (q : Supply.Request) : Option Bool :=
  if chip.Switches offset i q then some q.on else none

theorem bit_supply (chip : Chip) (q : Supply.Request) (file : RegisterFile) (offset i : Nat) :
    ((chip.supply q).run RegisterFile.serve file).state.bit offset i =
      (chip.switches? offset i q).getD (file.bit offset i) := by
  have hbit : ((chip.supply q).run RegisterFile.serve file).state.bit offset i =
      if chip.Switches offset i q then q.on else file.bit offset i := by
    cases q with
    | enable clock => exact chip.bit_enableClock file offset i clock
    | disable clock => exact chip.bit_disableClock file offset i clock
    | assert line => exact chip.bit_assertReset file offset i line
    | deassert line => exact chip.bit_deassertReset file offset i line
    | request line => rfl
  rw [hbit, switches?]
  split_ifs <;> rfl

theorem value_answer (p : Program Registers Unit) (a : Except Fault Unit) (file : RegisterFile) :
    ((p >>= fun _ => pure a).run RegisterFile.serve file).value = a := by
  rw [Program.value_bind]
  rfl

/-- What the control unit answers, which does not depend on what it holds. -/
def grants (chip : Chip) : Supply.Request → Except Fault Unit
  | .request line => if chip.resetCount ≤ line then .error .invalidArgument else .ok ()
  | _ => .ok ()

theorem value_supply (chip : Chip) (q : Supply.Request) (file : RegisterFile) :
    ((chip.supply q).run RegisterFile.serve file).value = chip.grants q := by
  cases q with
  | request line => rfl
  | _ => exact value_answer _ _ file

end Chip

namespace Board

variable {τ α : Type}

/-! ### Boards -/

/-- The register blocks of the controllers and the registers of the control unit. -/
structure State (τ : Type) where
  blocks : Nat → τ
  control : RegisterFile

/-- A board answers requests; each of its blocks does so in a way of its own. -/
def serve (blocks : Nat → Handler Block τ) : Handler Board (State τ)
  | .block unit q, s =>
    let r := blocks unit q (s.blocks unit)
    (r.1, { s with blocks := Function.update s.blocks unit r.2 })
  | .control q, s =>
    let r := RegisterFile.serve q s.control
    (r.1, { s with control := r.2 })

/-- What surrounds the controller of a given number. -/
def surroundings (chip : Chip) (blocks : Nat → Handler Block τ) (unit : Nat) :
    Handler Host (State τ) :=
  (serve blocks).behind (host chip unit)

/-- The bus of a controller on a board. -/
def bus (chip : Chip) (blocks : Nat → Handler Block τ) (unit : Nat) (c : Controller) :
    Handler Bus (State τ) :=
  (surroundings chip blocks unit).behind c.serve

/-- A program of the control unit leaves the blocks alone. -/
theorem run_control (blocks : Nat → Handler Block τ) (p : Program Registers α) (s : State τ) :
    ((control p).run (serve blocks) s).value = (p.run RegisterFile.serve s.control).value ∧
      ((control p).run (serve blocks) s).state =
        { s with control := (p.run RegisterFile.serve s.control).state } := by
  induction p generalizing s with
  | done a => exact ⟨rfl, rfl⟩
  | ask q next ih => exact ih _ { s with control := (RegisterFile.serve q s.control).2 }

section Surroundings
variable (chip : Chip) (blocks : Nat → Handler Block τ) (unit : Nat)

theorem surroundings_supply (q : Supply.Request) (s : State τ) :
    surroundings chip blocks unit (.supply q) s =
      (chip.grants q,
        { s with control := ((chip.supply q).run RegisterFile.serve s.control).state }) := by
  obtain ⟨hvalue, hstate⟩ := run_control blocks (chip.supply q) s
  exact Prod.ext (hvalue.trans (chip.value_supply q s.control)) hstate

/-- **A bit of the control unit is as the last call to the supply left it that switches it.** -/
theorem bit_run (p : Program Host α) (s : State τ) (offset i : Nat) :
    (p.run (surroundings chip blocks unit) s).state.control.bit offset i =
      (latest? (chip.switches? offset i)
        ((calls (p.run (surroundings chip blocks unit) s).trace).map (·.request))).getD
        (s.control.bit offset i) := by
  have hstep : ∀ (q : Host.Request) (s : State τ), True →
      (surroundings chip blocks unit q s).2.control.bit offset i =
        (((call? ⟨q, (surroundings chip blocks unit q s).1⟩).map (·.request)).bind
          (chip.switches? offset i)).getD (s.control.bit offset i) := by
    intro q s _
    cases q with
    | block q => rfl
    | note diagnostic => rfl
    | supply q =>
      have hbit := chip.bit_supply q s.control offset i
      rw [surroundings_supply]
      exact hbit
  rw [calls, List.map_filterMap, latest?_filterMap]
  exact Program.run_latest (fun _ _ (_ : True) => trivial)
    (fun s : State τ => s.control.bit offset i)
    (fun x => ((call? x).map (·.request)).bind (chip.switches? offset i)) hstep p trivial

theorem answer_of_mem_calls {p : Program Host α} {s : State τ} {x : Exchange Supply}
    (h : x ∈ calls (p.run (surroundings chip blocks unit) s).trace) :
    x.answer = chip.grants x.request := by
  obtain ⟨t, hanswer⟩ := exists_answer_of_mem_calls h
  rw [hanswer, surroundings_supply]

end Surroundings

end Board

/-! ### Requests on a bus -/

/-- A bit of the control unit belongs to a clock or to the reset line of a controller. -/
def Spi.Controller.Holds (c : Controller) (chip : Chip) (offset i : Nat) : Prop :=
  chip.gates.Covers c.busClock offset i ∨ chip.gates.Covers c.moduleClock offset i ∨
    chip.resets.Covers c.resetLine offset i

instance (c : Controller) (chip : Chip) (offset i : Nat) : Decidable (c.Holds chip offset i) := by
  unfold Controller.Holds
  infer_instance

/-- Whether a request on a bus powers the block up or down. -/
def Spi.Bus.Request.power? : Bus.Request → Option Bool
  | .claim => some true
  | .release => some false
  | _ => none

namespace Board

section Requests
variable {τ α : Type} (chip : Chip) (blocks : Nat → Handler Block τ) (unit : Nat) (c : Controller)
  (s : State τ) (offset i : Nat)

/-- Calls that all switch on, or all off, leave on or off what one of them switches. -/
theorem latest?_switches {on : Bool} : ∀ {qs : List Supply.Request}, (∀ q ∈ qs, q.on = on) →
    latest? (chip.switches? offset i) qs =
      if ∃ q ∈ qs, chip.Switches offset i q then some on else none
  | [], _ => by simp [latest?]
  | q :: qs, h => by
    have hq : q.on = on := h q List.mem_cons_self
    have ih := latest?_switches fun q' hq' => h q' (List.mem_cons_of_mem q hq')
    rw [latest?, ih, Chip.switches?, hq]
    by_cases hlater : ∃ q' ∈ qs, chip.Switches offset i q'
    · have hsome : ∃ q' ∈ q :: qs, chip.Switches offset i q' := by
        obtain ⟨q', hq', hswitches⟩ := hlater
        exact ⟨q', List.mem_cons_of_mem q hq', hswitches⟩
      rw [if_pos hlater, if_pos hsome, Option.some_or]
    · have hfirst : (∃ q' ∈ q :: qs, chip.Switches offset i q') ↔ chip.Switches offset i q := by
        simpa using fun q' hq' hswitches => absurd ⟨q', hq', hswitches⟩ hlater
      rw [if_neg hlater, Option.none_or, if_congr hfirst rfl rfl]

theorem latest?_powerUp : latest? (chip.switches? offset i) (c.powerUp.map (·.request)) =
    if c.Holds chip offset i then some true else none := by
  have hon : ∀ q ∈ c.powerUp.map (·.request), q.on = true := by
    simp [Controller.powerUp, Supply.Request.on]
  rw [latest?_switches chip offset i hon]
  refine if_congr ?_ rfl rfl
  simp [Controller.powerUp, Chip.Switches, Controller.Holds]

theorem latest?_powerDown : latest? (chip.switches? offset i) (c.powerDown.map (·.request)) =
    if c.Holds chip offset i then some false else none := by
  have hoff : ∀ q ∈ c.powerDown.map (·.request), q.on = false := by
    simp [Controller.powerDown, Supply.Request.on]
  rw [latest?_switches chip offset i hoff]
  refine if_congr ?_ rfl rfl
  simp [Controller.powerDown, Chip.Switches, Controller.Holds]

/-- No step of powering up is refused, so all are taken and none is undone. -/
theorem calls_claim :
    (calls (c.claim.run (surroundings chip blocks unit) s).trace).map (·.request) =
      c.powerUp.map (·.request) := by
  rcases c.claim_poweredUp (surroundings chip blocks unit) s with
    ⟨touched, value, trace, silent⟩ |
    ⟨passed, step, later, fault, unwound, split, value, untouched, asked, inverse⟩
  · have hcalls : calls (c.powerUp.map fun step => called step.request (.ok ())) =
        c.powerUp.map fun step => ⟨step.request, .ok ()⟩ := rfl
    rw [trace, calls, List.filterMap_append, ← calls, ← calls, silent, List.append_nil, hcalls,
      List.map_map]
    rfl
  · have hasked : (⟨step.request, .error fault⟩ : Exchange Supply) ∈
        calls (c.claim.run (surroundings chip blocks unit) s).trace := by
      rw [asked]
      exact List.mem_append_right _ List.mem_cons_self
    have hgrants := answer_of_mem_calls chip blocks unit hasked
    have hstep : step ∈ c.powerUp := by
      rw [split]
      exact List.mem_append_right _ List.mem_cons_self
    simp only [Controller.powerUp, List.mem_cons, List.not_mem_nil, or_false] at hstep
    rcases hstep with rfl | rfl | rfl <;> cases hgrants

theorem calls_release :
    (calls (c.release.run (surroundings chip blocks unit) s).trace).map (·.request) =
      c.powerDown.map (·.request) := by
  rw [Controller.release, Program.run_bind, run_modify]
  simp only [run_supply_bind]
  rfl

theorem latest?_calls (q : Bus.Request) :
    latest? (chip.switches? offset i)
      ((calls ((c.serve q).run (surroundings chip blocks unit) s).trace).map (·.request)) =
      if c.Holds chip offset i then q.power? else none := by
  have hnone : (none : Option Bool) = if c.Holds chip offset i then none else none :=
    (ite_self none).symm
  cases q with
  | claim =>
    have hcalls := calls_claim chip blocks unit c s
    exact (congrArg _ hcalls).trans (latest?_powerUp chip c offset i)
  | release =>
    have hcalls := calls_release chip blocks unit c s
    exact (congrArg _ hcalls).trans (latest?_powerDown chip c offset i)
  | transfer t =>
    have hcalls : calls ((c.transfer t).run (surroundings chip blocks unit) s).trace = [] :=
      calls_of_within (c.local_transfer t) s
    show latest? _ (List.map _ (calls ((c.transfer t).run _ s).trace)) = _
    rw [hcalls]
    exact hnone
  | setSpeed hz => exact hnone
  | setMode mode => exact hnone
  | note diagnostic => exact hnone

/-- **A request on a bus sets or clears the bits of its controller** if it claims or releases the
bus, and leaves all others. -/
theorem bit_request (q : Bus.Request) :
    ((c.serve q).run (surroundings chip blocks unit) s).state.control.bit offset i =
      (if c.Holds chip offset i then q.power? else none).getD (s.control.bit offset i) := by
  rw [bit_run, latest?_calls]

end Requests

/-! ### Calls -/

/-- A call to a controller: a request on its bus, or a call through a slave. -/
inductive Call where
  | direct (q : Bus.Request)
  | claim (slave : Slave)
  | release (slave : Slave)
  | transfer (slave : Slave) (bits : Nat) (send receive : Option Bytes) (framing : Framing)
  | writeThenRead (slave : Slave) (opcode : Bytes) (send receive : Option Bytes)

namespace Call

/-- What a call answers. -/
abbrev Answer : Call → Type
  | direct q => q.Answer
  | claim _ | release _ => Except Error Unit
  | transfer .. | writeThenRead .. => Outcome

/-- What a call asks of the bus. -/
def program : (call : Call) → Program Bus call.Answer
  | direct q => .ask q .done
  | claim slave => slave.claim
  | release slave => slave.release
  | transfer slave bits send receive framing => slave.transfer bits send receive framing
  | writeThenRead slave opcode send receive => slave.writeThenRead opcode send receive

/-- Whether a call claims the bus or releases it. -/
def power? : Call → Option Bool
  | direct q => q.power?
  | claim _ => some true
  | release _ => some false
  | transfer .. | writeThenRead .. => none

end Call

/-- A call to the controller of a given number, on a board. -/
def perform (chip : Chip) (c : Controller) (unit : Nat) (call : Call) :
    Program Board call.Answer :=
  (call.program.expand c.serve).expand (host chip unit)

section Calls
variable {τ : Type} (chip : Chip) (blocks : Nat → Handler Block τ) (unit : Nat) (c : Controller)
  (call : Call) (s t : State τ) (offset i : Nat)

theorem moves_writeThenRead (slave : Slave) (opcode : Bytes) (send receive : Option Bytes) :
    (slave.writeThenRead opcode send receive).Within Bus.Request.Moves := by
  refine ⟨trivial, fun first => ?_⟩
  obtain ⟨result, buffer⟩ := first
  cases result with
  | error e => trivial
  | ok _ => exact .ite trivial ⟨trivial, fun _ => trivial⟩

/-- Speed and mode are never refused, so that a slave always goes on to claim the bus. -/
theorem latest?_trace :
    latest? (fun x => x.request.power?)
      (call.program.run (bus chip blocks unit c) s).trace = call.power? := by
  cases call with
  | direct q => rfl
  | claim slave => rfl
  | release slave => rfl
  | transfer slave bits send receive framing => rfl
  | writeThenRead slave opcode send receive =>
    refine latest?_eq_none fun x hx => ?_
    have hmoves := (moves_writeThenRead slave opcode send receive).of_mem_trace _ s x hx
    obtain ⟨q, answer⟩ := x
    cases q with
    | transfer t => rfl
    | note diagnostic => rfl
    | _ => exact hmoves.elim

/-- The states that a call goes through are those of its program among its surroundings. -/
theorem state_perform :
    ((perform chip c unit call).run (serve blocks) s).state =
      ((call.program.expand c.serve).run (surroundings chip blocks unit) s).state :=
  (Program.run_expand (I := Host) (serve blocks) (host chip unit) _ s).2

/-- **A call sets or clears the bits of its controller** if it claims or releases the bus, and
leaves all others. -/
theorem bit_call :
    ((perform chip c unit call).run (serve blocks) s).state.control.bit offset i =
      (if c.Holds chip offset i then call.power? else none).getD (s.control.bit offset i) := by
  let sets (x : Exchange Bus) : Option Bool :=
    if c.Holds chip offset i then x.request.power? else none
  have hsets : ∀ (q : Bus.Request) (s : State τ), True →
      (bus chip blocks unit c q s).2.control.bit offset i =
        (sets ⟨q, (bus chip blocks unit c q s).1⟩).getD (s.control.bit offset i) :=
    fun q s _ => bit_request chip blocks unit c s offset i q
  have hrun : (call.program.run (bus chip blocks unit c) s).state.control.bit offset i =
      (latest? sets (call.program.run (bus chip blocks unit c) s).trace).getD
        (s.control.bit offset i) :=
    Program.run_latest (fun _ _ (_ : True) => trivial) (fun s : State τ => s.control.bit offset i)
      sets hsets call.program trivial
  have hstate : ((perform chip c unit call).run (serve blocks) s).state =
      (call.program.run (bus chip blocks unit c) s).state :=
    (state_perform ..).trans (Program.run_expand (I := Bus) _ c.serve call.program s).2
  rw [hstate, hrun]
  by_cases hholds : c.Holds chip offset i
  · have hpower : sets = fun x => x.request.power? := funext fun x => if_pos hholds
    rw [hpower, latest?_trace, if_pos hholds]
  · have hnone : ∀ x, sets x = none := fun x => if_neg hholds
    rw [latest?_eq_none fun x _ => hnone x, if_neg hholds]

/-- **A call leaves the blocks of other controllers alone.** -/
theorem blocks_other {other : Nat} (h : other ≠ unit) :
    ((perform chip c unit call).run (serve blocks) s).state.blocks other = s.blocks other := by
  have hkeep : ∀ (q : Host.Request) (t : State τ), t.blocks other = s.blocks other →
      (surroundings chip blocks unit q t).2.blocks other = s.blocks other := by
    intro q t ht
    cases q with
    | block q => exact (Function.update_of_ne h _ _).trans ht
    | supply q =>
      rw [surroundings_supply]
      exact ht
    | note diagnostic => exact ht
  rw [state_perform]
  exact Program.run_invariant (fun t : State τ => t.blocks other = s.blocks other) hkeep _ rfl

/-- **What a call leaves in its own block depends on that block only.** -/
theorem blocks_own (h : s.blocks unit = t.blocks unit) :
    ((perform chip c unit call).run (serve blocks) s).state.blocks unit =
      ((perform chip c unit call).run (serve blocks) t).state.blocks unit := by
  have hstep : ∀ q : Host.Request, True → ∀ s t : State τ, s.blocks unit = t.blocks unit →
      (surroundings chip blocks unit q s).1 = (surroundings chip blocks unit q t).1 ∧
        (surroundings chip blocks unit q s).2.blocks unit =
          (surroundings chip blocks unit q t).2.blocks unit := by
    intro q _ s t hst
    cases q with
    | block q =>
      have hblock : blocks unit q (s.blocks unit) = blocks unit q (t.blocks unit) := by rw [hst]
      have hanswer : (blocks unit q (s.blocks unit)).1 = (blocks unit q (t.blocks unit)).1 :=
        congrArg Prod.fst hblock
      refine ⟨hanswer, ?_⟩
      have hleft := Function.update_self unit (blocks unit q (s.blocks unit)).2 s.blocks
      have hright := Function.update_self unit (blocks unit q (t.blocks unit)).2 t.blocks
      exact hleft.trans ((congrArg Prod.snd hblock).trans hright.symm)
    | supply q =>
      -- the answer is the same whatever the control unit holds
      rw [surroundings_supply, surroundings_supply]
      exact ⟨rfl, hst⟩
    | note diagnostic => exact ⟨rfl, hst⟩
  rw [state_perform, state_perform]
  exact (Program.run_simulates (fun s t : State τ => s.blocks unit = t.blocks unit) hstep
    (Program.within_true _) h).2.2

end Calls

end Board

end SocBringup
