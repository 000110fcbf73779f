import SocBringup.Proofs.Program.Latest
import SocBringup.Proofs.Program.Layer
import SocBringup.Proofs.Program.Within
import SocBringup.Proofs.Spi.ChipSelect
import SocBringup.Proofs.Spi.Power

/-! # Sessions and power

A block that is gated or held in reset loses what is written to it. Claiming the bus powers the block
up before it is touched, and releasing the bus touches it before it is powered down. But a session
of a slave applies speed and mode ahead of the claim, while the block is still off.

* `Live`: the clocks of a controller are on and its block is out of reset.
* `Session`: a slave claims the bus, moves data and releases the bus.
* `Timely`: in a log of accesses, those made to set speed or mode find the block off, and all others
  find it live.
* `Controller.access_live_iff`: whatever sessions there are, their log is timely. -/

namespace SocBringup.Spi

variable {σ α β : Type} {serve : Handler Host σ} {c : Controller}

/-! ### Live blocks -/

/-- What a call makes of a clock, if it is about it and was not refused. -/
def clockOn? (clock : Nat) : Exchange Host → Option Bool
  | ⟨.supply (.enable n), .ok ()⟩ => if n = clock then some true else none
  | ⟨.supply (.disable n), .ok ()⟩ => if n = clock then some false else none
  | _ => none

/-- What a call makes of a reset line, if it is about it and was not refused. -/
def released? (line : Nat) : Exchange Host → Option Bool
  | ⟨.supply (.deassert n), .ok ()⟩ => if n = line then some true else none
  | ⟨.supply (.assert n), .ok ()⟩ => if n = line then some false else none
  | _ => none

/-- Both clocks of a controller were enabled and not disabled since, and its reset line was released
and not asserted since. -/
def Live (c : Controller) (past : List (Exchange Host)) : Prop :=
  latest? (clockOn? c.busClock) past = some true ∧
    latest? (clockOn? c.moduleClock) past = some true ∧
    latest? (released? c.resetLine) past = some true

instance (c : Controller) (past : List (Exchange Host)) : Decidable (Live c past) := by
  unfold Live
  infer_instance

variable {past trace : List (Exchange Host)}

theorem clockOn?_eq_none (clock : Nat) {x : Exchange Host} (h : call? x = none) :
    clockOn? clock x = none := by
  obtain ⟨q, answer⟩ := x
  cases q with
  | supply q => exact nomatch h
  | _ => rfl

theorem released?_eq_none (line : Nat) {x : Exchange Host} (h : call? x = none) :
    released? line x = none := by
  obtain ⟨q, answer⟩ := x
  cases q with
  | supply q => exact nomatch h
  | _ => rfl

theorem live_append_silent (h : calls trace = []) : Live c (past ++ trace) ↔ Live c past := by
  have hcall : ∀ x ∈ trace, call? x = none := List.filterMap_eq_nil_iff.mp h
  have hclock : ∀ clock, latest? (clockOn? clock) trace = none := fun clock =>
    latest?_eq_none fun x hx => clockOn?_eq_none clock (hcall x hx)
  have hline : latest? (released? c.resetLine) trace = none :=
    latest?_eq_none fun x hx => released?_eq_none c.resetLine (hcall x hx)
  unfold Live
  simp only [latest?_append, hclock, hline, Option.none_or]

theorem live_powerUp (c : Controller) (past : List (Exchange Host)) :
    Live c (past ++ c.powerUp.map fun step => called step.request (.ok ())) := by
  unfold Live
  simp only [latest?_append, Controller.powerUp, List.map_cons, List.map_nil, latest?, called,
    clockOn?, released?, if_true, Option.none_or, Option.or_none]
  refine ⟨?_, rfl, rfl⟩
  split_ifs <;> rfl

theorem not_live_powerDown (c : Controller) (past : List (Exchange Host)) :
    ¬ Live c (past ++ c.powerDown.map fun step => called step.request (.ok ())) := by
  have hbus : latest? (clockOn? c.busClock)
      (past ++ c.powerDown.map fun step => called step.request (.ok ())) = some false := by
    simp only [latest?_append, Controller.powerDown, List.map_cons, List.map_nil, latest?, called,
      clockOn?, if_true, Option.none_or]
    split_ifs <;> rfl
  rintro ⟨hon, -, -⟩
  cases hbus.symm.trans hon

/-! ### Timely accesses -/

/-- The request sets the speed or the mode of a bus. -/
def Bus.Request.Configures : Bus.Request → Prop
  | .setSpeed _ | .setMode _ => True
  | _ => False

/-- **In a log, accesses to set speed or mode find the block off, all others find it live.** -/
def Timely (c : Controller) (past : List (Exchange Host))
    (log : List (Bus.Request × Exchange Host)) : Prop :=
  ∀ before q x after, log = before ++ (q, x) :: after → (access? x).isSome →
    (Live c (past ++ before.map Prod.snd) ↔ ¬ q.Configures)

theorem Timely.append {a b : List (Bus.Request × Exchange Host)} (ha : Timely c past a)
    (hb : Timely c (past ++ a.map Prod.snd) b) : Timely c past (a ++ b) := by
  intro before q x after hsplit haccess
  rcases List.append_eq_append_iff.mp hsplit with ⟨more, rfl, hmore⟩ | ⟨more, hmore, hrest⟩
  · rw [List.map_append, ← List.append_assoc]
    exact hb more q x after hmore haccess
  · cases more with
    | nil =>
      rw [List.append_nil] at hmore
      subst hmore
      have hfirst := hb [] q x after hrest.symm haccess
      rwa [List.map_nil, List.append_nil] at hfirst
    | cons y rest =>
      obtain ⟨rfl, -⟩ := List.cons.inj hrest
      exact ha before q x rest hmore haccess

theorem eq_of_split {q q' : Bus.Request} {x : Exchange Host}
    {before after : List (Bus.Request × Exchange Host)}
    (h : trace.map (Prod.mk q) = before ++ (q', x) :: after) :
    q' = q ∧ trace = before.map Prod.snd ++ x :: after.map Prod.snd := by
  have hmem : (q', x) ∈ trace.map (Prod.mk q) := by
    rw [h]
    exact List.mem_append_right _ List.mem_cons_self
  obtain ⟨_, -, hq⟩ := List.mem_map.mp hmem
  refine ⟨(Prod.mk.inj hq).1.symm, ?_⟩
  have hsnd := congrArg (List.map Prod.snd) h
  rw [List.map_map, List.map_append] at hsnd
  exact (List.map_id _).symm.trans hsnd

/-- What is said for one request, if nothing of it is said to the supply. -/
theorem timely_silent {q : Bus.Request} (h : calls trace = [])
    (hlive : Live c past ↔ ¬ q.Configures) : Timely c past (trace.map (Prod.mk q)) := by
  intro before q' x after hsplit _
  obtain ⟨rfl, htrace⟩ := eq_of_split hsplit
  rw [htrace, calls, List.filterMap_append, List.append_eq_nil_iff] at h
  rw [live_append_silent h.1, hlive]

/-- What is said for one request, if nothing of it is said to the block. -/
theorem timely_untouched {q : Bus.Request} (h : accesses trace = []) :
    Timely c past (trace.map (Prod.mk q)) := by
  intro before q' x after hsplit haccess
  obtain ⟨-, htrace⟩ := eq_of_split hsplit
  have hmem : x ∈ trace := by
    rw [htrace]
    exact List.mem_append_right _ List.mem_cons_self
  rw [List.filterMap_eq_nil_iff.mp h x hmem] at haccess
  cases haccess

/-! ### Programs whose accesses are timely -/

/-- From a past that leaves the block live if and only if `P`, the accesses of a program are timely,
and they leave the block live if and only if `Q` holds of its value. -/
def Passes (serve : Handler Host σ) (c : Controller) (P : Prop) (p : Program Bus α)
    (Q : α → Prop) : Prop :=
  ∀ past s, (Live c past ↔ P) → Timely c past (p.attributed serve c.serve s) ∧
    (Live c (past ++ (p.attributed serve c.serve s).map Prod.snd) ↔
      Q (p.run (serve.behind c.serve) s).value)

variable {P : Prop}

theorem Passes.pure {Q : α → Prop} {a : α} (h : P ↔ Q a) :
    Passes serve c P (Pure.pure a : Program Bus α) Q := by
  intro past s hlive
  refine ⟨fun before q x after hsplit => ?_, ?_⟩
  · exact absurd (congrArg List.length hsplit) (by simp [Pure.pure, Program.attributed])
  · show Live c (past ++ []) ↔ Q a
    rw [List.append_nil, hlive, h]

theorem Passes.bind {p : Program Bus α} {f : α → Program Bus β} {Q : α → Prop} {R : β → Prop}
    (hp : Passes serve c P p Q) (hf : ∀ a, Passes serve c (Q a) (f a) R) :
    Passes serve c P (p >>= f) R := by
  intro past s hlive
  obtain ⟨htimely, hleft⟩ := hp past s hlive
  obtain ⟨hmore, hend⟩ := hf _ _ (p.run (serve.behind c.serve) s).state hleft
  rw [Program.attributed_bind, List.map_append, ← List.append_assoc, Program.value_bind]
  exact ⟨htimely.append hmore, hend⟩

theorem Passes.request {q : Bus.Request} {Q : q.Answer → Prop}
    (h : ∀ past s, (Live c past ↔ P) →
      Timely c past (((c.serve q).run serve s).trace.map (Prod.mk q)) ∧
        (Live c (past ++ ((c.serve q).run serve s).trace) ↔ Q ((c.serve q).run serve s).value)) :
    Passes serve c P (.ask q .done) Q := by
  intro past s hlive
  obtain ⟨htimely, hleft⟩ := h past s hlive
  have hlog : (Program.ask q .done : Program Bus q.Answer).attributed serve c.serve s =
      ((c.serve q).run serve s).trace.map (Prod.mk q) := List.append_nil _
  have htrace : (((c.serve q).run serve s).trace.map (Prod.mk q)).map Prod.snd =
      ((c.serve q).run serve s).trace := by
    rw [List.map_map]
    exact List.map_id _
  rw [hlog, htrace]
  exact ⟨htimely, hleft⟩

/-- A request of which nothing is said to the supply, made at the right time. -/
theorem passes_silent {q : Bus.Request} (hcalls : ∀ s, calls ((c.serve q).run serve s).trace = [])
    (hP : P ↔ ¬ q.Configures) : Passes serve c P (.ask q .done) fun _ => P :=
  .request fun _ s hlive => ⟨timely_silent (hcalls s) (hlive.trans hP),
    (live_append_silent (hcalls s)).trans hlive⟩

theorem passes_note (diagnostic : Diagnostic) :
    Passes serve c P (Bus.note diagnostic) fun _ => P :=
  .request fun _ _ hlive => ⟨timely_untouched rfl, (live_append_silent rfl).trans hlive⟩

/-! ### Requests that leave the supply alone -/

/-- The request is not one to the supply. -/
def Host.Request.Local : Host.Request → Prop
  | .supply _ => False
  | _ => True

theorem calls_of_within {p : Program Host α} (h : p.Within Host.Request.Local) (s : σ) :
    calls (p.run serve s).trace = [] := by
  refine List.filterMap_eq_nil_iff.mpr fun x hx => ?_
  have hlocal := h.of_mem_trace serve s x hx
  obtain ⟨q, answer⟩ := x
  cases q with
  | supply q => exact hlocal.elim
  | _ => rfl

namespace Controller

theorem local_modify (offset : Nat) (change : UInt32 → UInt32) :
    (Host.modify offset change).Within Host.Request.Local :=
  ⟨trivial, fun _ => ⟨trivial, fun _ => trivial⟩⟩

theorem local_await (count : Nat) : ∀ patience, (await count patience).Within Host.Request.Local
  | 0 => trivial
  | patience + 1 => ⟨trivial, fun _ => .ite (local_await count patience) (.pure _)⟩

theorem local_fill : ∀ bytes, (fill bytes).Within Host.Request.Local
  | [] => trivial
  | _ :: rest => ⟨trivial, fun _ => local_fill rest⟩

theorem local_drain : ∀ count, (drain count).Within Host.Request.Local
  | 0 => trivial
  | count + 1 => ⟨trivial, fun _ => (local_drain count).bind fun _ => .pure _⟩

theorem local_exchange (c : Controller) (bytes : Bytes) :
    (c.exchange bytes).Within Host.Request.Local := by
  refine ⟨trivial, fun _ => ⟨trivial, fun _ => ⟨trivial, fun _ => ?_⟩⟩⟩
  exact (local_fill bytes).bind fun _ => (local_modify _ _).bind fun _ =>
    (local_await _ _).bind fun _ => .ite ((local_drain _).bind fun _ => .pure _) (.pure _)

theorem local_exchangeAll (c : Controller) :
    ∀ pieces, (c.exchangeAll pieces).Within Host.Request.Local
  | [] => trivial
  | bytes :: rest => by
    refine (c.local_exchange bytes).bind fun received => ?_
    cases received with
    | none => exact .pure _
    | some received => exact (c.local_exchangeAll rest).bind fun _ => .pure _

theorem local_driveIf (drives : Bool) (select : Nat) (active : Bool) :
    (driveIf drives select active).Within Host.Request.Local :=
  .ite (local_modify _ _) (.pure _)

theorem local_move (c : Controller) (t : Transfer) : (c.move t).Within Host.Request.Local := by
  rw [move_eq]
  -- the size is a remainder by a number too large for unification to look into
  generalize c.chunkSize = size
  exact (local_driveIf _ _ _).bind fun _ => (local_modify _ _).bind fun _ =>
    .ite (.pure _) (c.local_exchangeAll _)

theorem local_transfer (c : Controller) (t : Transfer) :
    (c.transfer t).Within Host.Request.Local := by
  cases href : refusal? t with
  | some e =>
    rw [transfer, href]
    exact .ite ⟨trivial, fun _ => trivial⟩ (.pure _)
  | none =>
    rw [transfer_eq href]
    refine (c.local_move t).bind fun received => ?_
    cases received with
    | none => exact .pure _
    | some received => exact (local_driveIf _ _ _).bind fun _ => .pure _

end Controller

/-! ### Claim and release -/

/-- Every call was answered by the supply, in some state. -/
theorem exists_answer_of_mem_calls {p : Program Host α} {s : σ} {x : Exchange Supply}
    (h : x ∈ calls (p.run serve s).trace) : ∃ t, x.answer = (serve (.supply x.request) t).1 := by
  obtain ⟨y, hy, hcall⟩ := List.mem_filterMap.mp h
  obtain ⟨q, t, -, rfl⟩ :=
    Program.exists_state_of_mem_trace (fun _ _ (_ : True) => trivial) p trivial y hy
  cases q with
  | supply q =>
    cases hcall
    exact ⟨t, rfl⟩
  | block q => cases hcall
  | note diagnostic => cases hcall

/-- The supply refuses nothing. -/
def Supplied (serve : Handler Host σ) : Prop := ∀ q s, (serve (.supply q) s).1 = .ok ()

section Supplied
variable (hsupply : Supplied serve)
include hsupply

theorem answer_of_mem_calls {p : Program Host α} {s : σ} {x : Exchange Supply}
    (h : x ∈ calls (p.run serve s).trace) : x.answer = .ok () := by
  obtain ⟨t, hanswer⟩ := exists_answer_of_mem_calls h
  exact hanswer.trans (hsupply x.request t)

/-- **Claiming the bus touches a block that is live by then**, and leaves it live. -/
theorem passes_claim (c : Controller) :
    Passes serve c P Bus.claim fun answer => answer.isOk = true := by
  refine .request fun past s _ => ?_
  show Timely c past ((c.claim.run serve s).trace.map (Prod.mk .claim)) ∧
    (Live c (past ++ (c.claim.run serve s).trace) ↔ (c.claim.run serve s).value.isOk = true)
  rcases c.claim_poweredUp serve s with ⟨touched, value, trace, silent⟩ |
    ⟨passed, step, later, fault, unwound, split, value, untouched, asked, inverse⟩
  · have hlive : Live c (past ++ c.powerUp.map fun step => called step.request (.ok ())) :=
      live_powerUp c past
    have huntouched : accesses (c.powerUp.map fun step => called step.request (.ok ())) = [] := rfl
    rw [trace, value, List.map_append]
    constructor
    · refine (timely_untouched huntouched).append (timely_silent silent ?_)
      rw [List.map_map]
      exact iff_of_true (by simpa using hlive) fun h => h
    · rw [← List.append_assoc, live_append_silent silent]
      exact iff_of_true hlive rfl
  · have hrefused : (⟨step.request, .error fault⟩ : Exchange Supply) ∈
        calls (c.claim.run serve s).trace := by
      rw [asked]
      exact List.mem_append_right _ List.mem_cons_self
    exact nomatch answer_of_mem_calls hsupply hrefused

/-- **Releasing the bus touches a live block for the last time** and powers it down. -/
theorem passes_release (c : Controller) : Passes serve c True Bus.release fun _ => False := by
  refine .request fun past s hlive => ?_
  show Timely c past ((c.release.run serve s).trace.map (Prod.mk .release)) ∧
    (Live c (past ++ (c.release.run serve s).trace) ↔ False)
  obtain ⟨touched, silent, htrace⟩ : ∃ touched, calls touched = [] ∧
      (c.release.run serve s).trace =
        touched ++ c.powerDown.map fun step => called step.request (.ok ()) := by
    rw [Controller.release, Program.run_bind, run_modify]
    simp only [run_supply_bind, hsupply _ _]
    exact ⟨_, rfl, rfl⟩
  have huntouched : accesses (c.powerDown.map fun step => called step.request (.ok ())) = [] := rfl
  rw [htrace, List.map_append]
  constructor
  · refine (timely_silent silent ?_).append (timely_untouched huntouched)
    exact hlive.trans (iff_of_true trivial fun h => h)
  · rw [← List.append_assoc]
    exact iff_of_false (not_live_powerDown c _) fun h => h

end Supplied

/-! ### Sessions -/

/-- The request moves data, or is a note. -/
def Bus.Request.Moves : Bus.Request → Prop
  | .transfer _ | .note _ => True
  | _ => False

/-- A session of a slave: what it does while it has the bus is to move data. -/
structure Session where
  slave : Slave
  body : Program Bus Unit
  moves : body.Within Bus.Request.Moves

/-- Claim the bus, move data and release the bus; or do nothing if the bus cannot be claimed. -/
def Session.run (session : Session) : Program Bus Unit := do
  match ← session.slave.claim with
  | .error _ => return ()
  | .ok () =>
    session.body
    let _ ← session.slave.release
    return ()

/-- One session after the other. -/
def Session.inTurn : List Session → Program Bus Unit
  | [] => return ()
  | session :: rest => do
    session.run
    inTurn rest

theorem passes_body {p : Program Bus Unit} (h : p.Within Bus.Request.Moves) :
    Passes serve c True p fun _ => True := by
  induction p with
  | done a => exact .pure Iff.rfl
  | ask q next ih =>
    cases q with
    | transfer t =>
      have hsilent : ∀ s, calls ((c.serve (.transfer t)).run serve s).trace = [] :=
        calls_of_within (c.local_transfer t)
      exact (passes_silent hsilent (iff_of_true trivial fun h => h)).bind fun a => ih a (h.2 a)
    | note diagnostic => exact (passes_note diagnostic).bind fun a => ih a (h.2 a)
    | claim => exact h.1.elim
    | release => exact h.1.elim
    | setSpeed hz => exact h.1.elim
    | setMode mode => exact h.1.elim

/-- Speed and mode are applied to a block that is off. -/
theorem passes_configure {q : Bus.Request} (hq : q.Configures) :
    Passes serve c False (.ask q .done) fun _ => False := by
  refine passes_silent (fun s => ?_) (iff_of_false (fun h => h) fun h => h hq)
  cases q with
  | setSpeed hz => rfl
  | setMode mode => rfl
  | _ => exact hq.elim

section Supplied
variable (hsupply : Supplied serve)
include hsupply

/-- **A session applies speed and mode to a block that is off**, and has it live once it has claimed
the bus. -/
theorem passes_slaveClaim (slave : Slave) :
    Passes serve c False slave.claim fun answer => answer.isOk = true := by
  have hspeed : Passes serve c False (Bus.setSpeed slave.speed) fun _ => False :=
    passes_configure trivial
  have hmode : Passes serve c False (Bus.setMode slave.mode) fun _ => False :=
    passes_configure trivial
  have herror : ∀ e : Error, Passes serve c False
      (Pure.pure (.error e) : Program Bus (Except Error Unit)) fun answer => answer.isOk = true :=
    fun e => .pure (iff_of_false (fun h => h) Bool.false_ne_true)
  refine (passes_note _).bind fun _ => hspeed.bind fun speed => ?_
  rcases speed with e | _
  · exact herror e
  refine hmode.bind fun mode => ?_
  rcases mode with e | _
  · exact herror e
  · exact passes_claim hsupply c

/-- **A session leaves the block off** that it found off. -/
theorem passes_session (session : Session) :
    Passes serve c False session.run fun _ => False := by
  refine (passes_slaveClaim hsupply session.slave).bind fun answer => ?_
  rcases answer with e | _
  · exact .pure (iff_of_false Bool.false_ne_true fun h => h)
  · have hclaimed : ((.ok () : Except Error Unit).isOk = true) ↔ True := iff_true_intro rfl
    rw [hclaimed]
    exact (passes_body session.moves).bind fun _ => (passes_release hsupply c).bind fun _ =>
      .pure Iff.rfl

theorem passes_inTurn : ∀ sessions,
    Passes serve c False (Session.inTurn sessions) fun _ => False
  | [] => .pure Iff.rfl
  | session :: rest => (passes_session hsupply session).bind fun _ => passes_inTurn rest

end Supplied

/-- The first access of a session finds the block off. -/
theorem exists_access_off (c : Controller) (session : Session) (rest : List Session) (s : σ) :
    ∃ past x later, (((Session.inTurn (session :: rest)).expand c.serve).run serve s).trace =
      past ++ x :: later ∧ (access? x).isSome ∧ ¬ Live c past :=
  ⟨[_], _, _, rfl, rfl, fun h => nomatch h.1⟩

/-- **Speed and mode are applied to a block that is off, and every other access finds it live.** In
sessions of whatever slaves, one after the other, with a supply that refuses nothing, an access to
the block finds both clocks on and the reset line released if and only if it is not made to set speed
or mode. So accesses are made at the right time only where there is no session at all. -/
theorem Controller.access_live_iff (hsupply : Supplied serve) (c : Controller)
    (sessions : List Session) (s : σ) :
    let log := (Session.inTurn sessions).attributed serve c.serve s
    let trace := (((Session.inTurn sessions).expand c.serve).run serve s).trace
    log.map Prod.snd = trace ∧
    (∀ past q x later, log = past ++ (q, x) :: later → (access? x).isSome →
      (Live c (past.map Prod.snd) ↔ ¬ q.Configures)) ∧
    ((∀ past x later, trace = past ++ x :: later → (access? x).isSome → Live c past) ↔
      sessions = []) := by
  intro log trace
  have hoff : Live c [] ↔ False := iff_of_false (fun h => nomatch h.1) fun h => h
  have htimely := (passes_inTurn hsupply sessions [] s hoff).1
  have hlog : log.map Prod.snd = trace :=
    Program.map_snd_attributed serve c.serve (Session.inTurn sessions) s
  refine ⟨hlog, htimely, fun h => ?_, ?_⟩
  · cases sessions with
    | nil => rfl
    | cons session rest =>
      obtain ⟨past, x, later, htrace, haccess, hdead⟩ := exists_access_off c session rest s
      exact absurd (h past x later htrace haccess) hdead
  · rintro rfl past x later htrace
    have hnil : [] = past ++ x :: later := htrace
    simp at hnil

/-- A slave that is read from at 1 MHz in mode 3. -/
def reading : Session where
  slave := { select := 1, maxHz := 1000000, mode := .preset 3 }
  body := do
    let _ ← Bus.transfer { select := 1, bits := 8, send := some [0x9f], framing := .whole }
    return ()
  moves := ⟨trivial, fun _ => trivial⟩

theorem supplied_host : Supplied (Bench.host []) := fun _ _ => rfl

/-- In a session of that slave, the speed is written to a block that is off. -/
theorem speed_written_off :
    let r := ((Session.inTurn [reading]).expand h3Controller.serve).run (Bench.host []) {}
    Supplied (Bench.host []) ∧ r.trace[1]? = some (wrote Block.clockControl 0x100b) ∧
      ¬ ∀ past x later, r.trace = past ++ x :: later → (access? x).isSome →
        Live h3Controller past := by
  intro r
  refine ⟨supplied_host, rfl, fun h => ?_⟩
  have hlive := h (r.trace.take 1) (wrote Block.clockControl 0x100b) (r.trace.drop 2) rfl rfl
  exact nomatch hlive.1

/-- The first access of its claim finds the block live, as that to set the speed does not. -/
theorem Controller.access_live_iff_reading :
    let log := (Session.inTurn [reading]).attributed (Bench.host []) h3Controller.serve {}
    Supplied (Bench.host []) ∧ ¬ Live h3Controller ((log.take 1).map Prod.snd) ∧
      Live h3Controller ((log.take 9).map Prod.snd) := by
  intro log
  obtain ⟨-, h, -⟩ := h3Controller.access_live_iff supplied_host [reading] {}
  refine ⟨supplied_host, fun hlive => ?_, ?_⟩
  · exact (h (log.take 1) (.setSpeed 1000000) (wrote Block.clockControl 0x100b) (log.drop 2) rfl
      rfl).mp hlive trivial
  · exact (h (log.take 9) .claim (saw Block.globalControl 0) (log.drop 10) rfl rfl).mpr fun h => h

end SocBringup.Spi
