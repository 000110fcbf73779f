import SocBringup.Proofs.Program.Within
import SocBringup.Proofs.Spi.Upkeep

/-! # The speed of a bus

The speed that is asked for comes out as a divider of the module clock. Its ratio is rounded down, so
that the clock is rounded up: it may be faster than what was asked for, but not twice as fast.

* `divisor`, `selectedClock`: what a clock control word makes of the module clock.
* `Exceeded`: the limits that the clock exceeds.
* `clocked_clockWord`: the clock that comes of the word for a limit is above it for these limits only.
* `clockControl_run`: after a run of calls a block holds the word of the last speed that was set.
* `Controller.speed_selected`: so it is for each speed that is set and each slave that has the bus. -/

namespace SocBringup.Spi

variable {σ α : Type} {serve : Handler Host σ}

/-! ### The selected clock -/

/-- What a clock control word divides the module clock by. -/
def divisor (word : UInt32) : Nat :=
  if Block.linearSelected.raw word = 0 then 2 ^ Block.powerDivider.raw word
  else 2 * (Block.linearDivider.raw word + 1)

/-- The rate in Hz that a clock control word makes of the module clock. -/
def selectedClock (word : UInt32) : ℚ := moduleRate / divisor word

theorem divisor_pos (word : UInt32) : 0 < divisor word := by
  unfold divisor
  split_ifs
  · exact Nat.two_pow_pos _
  · omega

theorem lt_selectedClock_iff (limit : Nat) (word : UInt32) :
    (limit : ℚ) < selectedClock word ↔ limit * divisor word < moduleRate := by
  have hpos : (0 : ℚ) < divisor word := Nat.cast_pos.mpr (divisor_pos word)
  rw [selectedClock, lt_div_iff₀ hpos]
  norm_cast

theorem selectedClock_lt_iff (limit : Nat) (word : UInt32) :
    selectedClock word < limit ↔ moduleRate < limit * divisor word := by
  have hpos : (0 : ℚ) < divisor word := Nat.cast_pos.mpr (divisor_pos word)
  rw [selectedClock, div_lt_iff₀ hpos]
  norm_cast

/-- The linear divider holds the whole ratio, less one. -/
theorem raw_linear {hz : Nat} (h : moduleRate / (2 * hz) ≤ maxLinear + 1) :
    Block.linearSelected.raw (clockWord hz) = 1 ∧
      Block.linearDivider.raw (clockWord hz) = moduleRate / (2 * hz) - 1 := by
  have hword : clockWord hz = Block.linearSelected.store
      (Block.linearDivider.store 0 (moduleRate / (2 * hz) - 1)) 1 := if_pos h
  constructor
  · rw [hword, Field.raw_store]
    rfl
  · rw [hword, Field.raw_store_apart (by decide), Field.raw_store]
    refine Nat.mod_eq_of_lt ?_
    show moduleRate / (2 * hz) - 1 < 256
    have hmax : maxLinear = 255 := rfl
    omega

/-- The other divider holds the whole exponent. -/
theorem raw_power {hz : Nat} (hmin : minSpeed ≤ hz)
    (h : maxLinear + 1 < moduleRate / (2 * hz)) :
    Block.linearSelected.raw (clockWord hz) = 0 ∧
      Block.powerDivider.raw (clockWord hz) = moduleRate.log2 - hz.log2 := by
  have hword : clockWord hz = Block.powerDivider.store 0 (moduleRate.log2 - hz.log2) :=
    if_neg (not_le.mpr h)
  have hlog : 11 ≤ hz.log2 := by
    refine (Nat.le_log2 (by unfold minSpeed at hmin; omega)).mpr ?_
    exact le_trans (by decide) hmin
  constructor
  · rw [hword, Field.raw_store_apart (by decide)]
    rfl
  · rw [hword, Field.raw_store]
    refine Nat.mod_eq_of_lt ?_
    show moduleRate.log2 - hz.log2 < 16
    have hmodule : moduleRate.log2 = 24 := by decide
    omega

/-- The linear divider does not go below two. -/
theorem divisor_linear {hz : Nat} (h : moduleRate / (2 * hz) ≤ maxLinear + 1) :
    divisor (clockWord hz) = 2 * max 1 (moduleRate / (2 * hz)) := by
  obtain ⟨hselected, hdivider⟩ := raw_linear h
  rw [divisor, hselected, hdivider, if_neg one_ne_zero]
  omega

theorem divisor_power {hz : Nat} (hmin : minSpeed ≤ hz)
    (h : maxLinear + 1 < moduleRate / (2 * hz)) :
    divisor (clockWord hz) = 2 ^ (moduleRate.log2 - hz.log2) := by
  obtain ⟨hselected, hdivider⟩ := raw_power hmin h
  rw [divisor, hselected, hdivider, if_pos rfl]

/-! ### Limits -/

/-- The fastest speed whose ratio is too large for the linear divider. -/
def fastestPower : Nat := 46692

/-- **The limits that the clock exceeds**: by a divisor that is a power of two, those that are below
what it gives; by a linear one, those that do not divide half the module clock. -/
def Exceeded (limit : Nat) : Prop :=
  if limit ≤ fastestPower then limit * 2 ^ (moduleRate.log2 - limit.log2) < moduleRate
  else limit ≤ moduleRate / 2 ∧ ¬ limit ∣ moduleRate / 2

instance (limit : Nat) : Decidable (Exceeded limit) := by unfold Exceeded; infer_instance

/-- A clock for a limit: above it where the limit is exceeded, and never twice as fast. -/
structure Clocked (limit : Nat) (clock : ℚ) : Prop where
  exceeds_iff : limit < clock ↔ Exceeded limit
  lt_double : clock < (2 * limit : Nat)

theorem clampSpeed_of_le {limit : Nat} (hmin : minSpeed ≤ limit) (hmax : limit ≤ moduleRate) :
    clampSpeed limit = limit := by
  show max minSpeed (min limit moduleRate) = limit
  rw [min_eq_left hmax, max_eq_right hmin]

/-- What is below the slowest speed makes no difference. -/
theorem clampSpeed_max (hz : Nat) : clampSpeed (max hz minSpeed) = clampSpeed hz := by
  show max minSpeed (min (max hz minSpeed) moduleRate) = max minSpeed (min hz moduleRate)
  have hle : minSpeed ≤ moduleRate := by decide
  omega

theorem ratio_le_iff {limit : Nat} (hpos : 0 < limit) :
    moduleRate / (2 * limit) ≤ maxLinear + 1 ↔ fastestPower < limit := by
  rw [← Nat.lt_succ_iff, Nat.div_lt_iff_lt_mul (by omega)]
  unfold moduleRate maxLinear fastestPower
  omega

theorem clocked_power {limit : Nat} (hmin : minSpeed ≤ limit) (hslow : limit ≤ fastestPower) :
    Clocked limit (selectedClock (clockWord limit)) := by
  have hpos : 0 < limit := lt_of_lt_of_le (by decide) hmin
  have hratio : maxLinear + 1 < moduleRate / (2 * limit) :=
    not_le.mp fun h => absurd ((ratio_le_iff hpos).mp h) (not_lt.mpr hslow)
  refine ⟨?_, ?_⟩
  · rw [lt_selectedClock_iff, divisor_power hmin hratio, Exceeded, if_pos hslow]
  · rw [selectedClock_lt_iff, divisor_power hmin hratio]
    have hlog : limit.log2 ≤ moduleRate.log2 := by
      have hlt : limit.log2 < 24 := (Nat.log2_lt hpos.ne').mpr (lt_of_le_of_lt hslow (by decide))
      exact hlt.le
    have hself : 2 ^ limit.log2 ≤ limit := Nat.log2_self_le hpos.ne'
    calc moduleRate < 2 * 2 ^ moduleRate.log2 := by decide
      _ = 2 * (2 ^ limit.log2 * 2 ^ (moduleRate.log2 - limit.log2)) := by
          rw [← Nat.pow_add, Nat.add_sub_cancel' hlog]
      _ ≤ 2 * (limit * 2 ^ (moduleRate.log2 - limit.log2)) :=
          Nat.mul_le_mul_left _ (Nat.mul_le_mul_right _ hself)
      _ = 2 * limit * 2 ^ (moduleRate.log2 - limit.log2) := by ring

/-- The ratio is rounded down, so that the limit is exceeded unless nothing is left over. -/
theorem clocked_linear {limit : Nat} (hslow : fastestPower < limit) :
    Clocked limit (selectedClock (clockWord limit)) := by
  have hpos : 0 < limit := Nat.zero_lt_of_lt hslow
  have hratio : moduleRate / (2 * limit) = 12000000 / limit := by
    rw [← Nat.div_div_eq_div_mul]
    rfl
  have hdivisor : divisor (clockWord limit) = 2 * max 1 (12000000 / limit) := by
    rw [divisor_linear ((ratio_le_iff hpos).mpr hslow), hratio]
  have hrate : moduleRate = 24000000 := rfl
  have hhalf : moduleRate / 2 = 12000000 := rfl
  have hle : limit * (12000000 / limit) ≤ 12000000 := Nat.mul_div_le _ _
  have hlt : 12000000 < limit * (12000000 / limit) + limit := Nat.lt_mul_div_succ _ hpos
  have hdvd : limit * (12000000 / limit) = 12000000 ↔ limit ∣ 12000000 := Nat.mul_div_eq_iff_dvd
  have hdouble : limit * (2 * max 1 (12000000 / limit)) =
      2 * max limit (limit * (12000000 / limit)) := by
    rw [Nat.mul_left_comm, ← Nat.mul_max_mul_left, Nat.mul_one]
  have hwhole : limit ≤ 12000000 → limit ≤ limit * (12000000 / limit) := fun h =>
    Nat.le_mul_of_pos_right _ (Nat.div_pos h hpos)
  refine ⟨?_, ?_⟩
  · rw [lt_selectedClock_iff, hdivisor, Exceeded, if_neg (not_le.mpr hslow), hhalf, ← hdvd, hdouble]
    omega
  · rw [selectedClock_lt_iff, hdivisor, Nat.mul_assoc, hdouble]
    omega

/-- Above the rate of the module clock, half that rate is the most there is. -/
theorem clocked_fast {limit : Nat} (hmax : moduleRate < limit) :
    Clocked limit (selectedClock (clockWord moduleRate)) := by
  have hdivisor : divisor (clockWord moduleRate) = 2 := by decide
  have hrate : moduleRate = 24000000 := rfl
  have hslow : fastestPower < limit := lt_trans (by decide) hmax
  refine ⟨?_, ?_⟩
  · rw [lt_selectedClock_iff, hdivisor, Exceeded, if_neg (not_le.mpr hslow)]
    omega
  · rw [selectedClock_lt_iff, hdivisor]
    omega

/-- **The word for a limit** gives a clock for it. -/
theorem clocked_clockWord {limit : Nat} (hmin : minSpeed ≤ limit) :
    Clocked limit (selectedClock (clockWord (clampSpeed limit))) := by
  rcases Nat.lt_or_ge moduleRate limit with hmax | hmax
  · have hclamp : clampSpeed limit = moduleRate := by
      show max minSpeed (min limit moduleRate) = moduleRate
      rw [min_eq_right hmax.le, max_eq_right (by decide)]
    rw [hclamp]
    exact clocked_fast hmax
  · rw [clampSpeed_of_le hmin hmax]
    rcases Nat.lt_or_ge fastestPower limit with hslow | hslow
    · exact clocked_linear hslow
    · exact clocked_power hmin hslow

/-! ### The word a block holds -/

theorem raw_wholeWord (word : UInt32) : wholeWord.raw word = word.toNat := by
  rw [Field.raw_eq]
  show word.toNat / 1 % 2 ^ 32 = word.toNat
  rw [Nat.div_one, Nat.mod_eq_of_lt word.toNat_lt]

/-- **A block holds the word of the last speed that was set.** -/
theorem clockControl_run (S : Storing serve) (c : Controller) (caller : Program Bus α) (s : σ)
    {word : UInt32}
    (hlast : latest? clockSet? (caller.run (serve.behind c.serve) s).trace = some word.toNat) :
    S.word ((caller.expand c.serve).run serve s).state Block.clockControl = word := by
  have hmem : (⟨Block.clockControl, wholeWord, clockSet?⟩ : Decision) ∈ decisions := by
    simp [decisions]
  have hfield := field_run S c (settled_decisions _ hmem) clockSet?
    (fun q t => latest?_stores c q t _ hmem) caller s
  rw [hlast, Option.getD_some, Storing.field, raw_wholeWord] at hfield
  exact UInt32.toNat_inj.mp hfield

/-- The request leaves the speed of the bus as it is. -/
def Bus.Request.KeepsSpeed (q : Bus.Request) : Prop := ∀ hz, q ≠ .setSpeed hz

theorem latest?_clockSet_keeps {p : Program Bus α} (h : p.Within Bus.Request.KeepsSpeed)
    (handler : Handler Bus σ) (s : σ) : latest? clockSet? (p.run handler s).trace = none := by
  refine latest?_eq_none fun x hx => ?_
  have hkeeps := h.of_mem_trace handler s x hx
  obtain ⟨q, answer⟩ := x
  cases q with
  | setSpeed hz => exact absurd rfl (hkeeps hz)
  | _ => rfl

/-- A slave that claims the bus has set its speed before anything else, whatever becomes of it. -/
theorem exists_claim_bind (slave : Slave) {body : Except Error Unit → Program Bus α}
    (hbody : ∀ answer, (body answer).Within Bus.Request.KeepsSpeed) :
    ∃ rest : Except Error Unit → Program Bus α,
      (slave.claim >>= body) = .ask (.note (.spiClaim slave.bus slave.select slave.speed slave.mode))
        (fun _ => .ask (.setSpeed slave.speed) rest) ∧
      ∀ answer, (rest answer).Within Bus.Request.KeepsSpeed := by
  refine ⟨_, rfl, fun answer => ?_⟩
  cases answer with
  | error e => exact hbody _
  | ok _ =>
    refine Program.Within.ask nofun fun answer => ?_
    cases answer with
    | error e => exact hbody _
    | ok _ => exact Program.Within.ask nofun hbody

theorem latest?_clockSet_claim (slave : Slave) {body : Except Error Unit → Program Bus α}
    (hbody : ∀ answer, (body answer).Within Bus.Request.KeepsSpeed) (handler : Handler Bus σ)
    (s : σ) : latest? clockSet? ((slave.claim >>= body).run handler s).trace =
      some (clockWord (clampSpeed slave.speed)).toNat := by
  obtain ⟨rest, hclaim, hrest⟩ := exists_claim_bind slave hbody
  rw [hclaim]
  simp only [Program.run, latest?, latest?_clockSet_keeps (hrest _)]
  rfl

/-! ### The speed of a bus -/

/-- The clock of the bus, by the clock control word that the block holds. -/
def Storing.clock (S : Storing serve) (s : σ) : ℚ :=
  selectedClock (S.word s Block.clockControl)

/-- **What the clock of a bus is to its limit.** The limit is the speed that was set, or the slowest
there is. The clock is above it just where it is `Exceeded`, and always below twice the limit. So it
is from the time a slave claims the bus for as long as no other speed is set, whatever becomes of the
claim and of what follows; the limit is then the slave's maximum speed. -/
theorem Controller.speed_selected (S : Storing serve) (c : Controller) :
    (∀ hz s, Clocked (max hz minSpeed) (S.clock ((setSpeed hz).run serve s).state)) ∧
    ∀ slave : Slave, minSpeed ≤ slave.maxHz →
      ∀ (body : Except Error Unit → Program Bus α) s,
        (∀ answer, (body answer).Within Bus.Request.KeepsSpeed) →
        Clocked slave.maxHz (S.clock (((slave.claim >>= body).expand c.serve).run serve s).state) := by
  refine ⟨fun hz s => ?_, fun slave hmin body s hbody => ?_⟩
  · have hword : S.word ((setSpeed hz).run serve s).state Block.clockControl =
        clockWord (clampSpeed hz) := by
      have hset : latest? clockSet? ((Bus.setSpeed hz).run (serve.behind c.serve) s).trace =
          some (clockWord (clampSpeed hz)).toNat := rfl
      have hsame : (Bus.setSpeed hz).expand c.serve = setSpeed hz := Program.bind_done _
      rw [← hsame]
      exact clockControl_run S c _ s hset
    rw [Storing.clock, hword, ← clampSpeed_max]
    exact clocked_clockWord (le_max_right _ _)
  · have hspeed : slave.speed = slave.maxHz := if_neg (Nat.ne_zero_of_lt hmin)
    have hword := clockControl_run S c (slave.claim >>= body) s
      (latest?_clockSet_claim slave hbody _ s)
    rw [Storing.clock, hword, hspeed]
    exact clocked_clockWord hmin

/-- A slave that takes 10 MHz at the most. -/
def slowSlave : Slave := { select := 1, maxHz := 10000000 }

/-- It is clocked faster than that while a byte is sent to it. -/
theorem Controller.speed_selected_slowSlave :
    let caller := slowSlave.claim >>= fun _ =>
      Bus.transfer { select := 1, bits := 8, send := some [0x9f], framing := .whole }
    let clock := (Bench.storing []).clock
      ((caller.expand h3Controller.serve).run (Bench.host []) unselected).state
    (slowSlave.maxHz : ℚ) < clock ∧ clock < (2 * slowSlave.maxHz : Nat) := by
  intro caller clock
  have hclocked : Clocked slowSlave.maxHz clock :=
    (h3Controller.speed_selected (Bench.storing [])).2 slowSlave (by decide) _ unselected
      fun _ => .ask nofun fun _ => .pure _
  exact ⟨hclocked.exceeds_iff.mpr (by decide), hclocked.lt_double⟩

/-- **A claimed bus clocks a slave above its maximum speed**: one that takes 10 MHz runs at 12. -/
theorem Slave.overclocked :
    let s' := ((slowSlave.claim.expand h3Controller.serve).run (Bench.host []) unselected).state
    (Bench.storing []).clock s' = 12000000 ∧ (slowSlave.maxHz : ℚ) < (Bench.storing []).clock s' := by
  intro s'
  have hword : (Bench.storing []).word s' Block.clockControl = 0x1000 := by decide +kernel
  have hdivisor : divisor 0x1000 = 2 := by decide
  have hclock : (Bench.storing []).clock s' = 12000000 := by
    rw [Storing.clock, hword, selectedClock, hdivisor]
    norm_num [moduleRate]
  refine ⟨hclock, ?_⟩
  rw [hclock]
  norm_num [slowSlave]

end SocBringup.Spi
