import SocBringup.Proofs.Program.Layer
import SocBringup.Proofs.Spi.ChipSelect

/-! # What a block holds after a run of calls

Four calls of a controller change the transfer control word, each its own fields of it. After any run
of calls, whatever becomes of them, each field is as the last call left it that had a say in it, and
all else is as it was.

* `Decision`, `decisions`: the fields that calls decide, and which call decides them how.
* `Upkeep`: every decided field is as the last call decided, every other bit is as before.
* `Refused`: a call that was refused; it does not come near the block (`silent_of_refused`).
* `Controller.upkeep`: runs of calls keep a block up. -/

namespace SocBringup.Spi

variable {σ α : Type} {serve : Handler Host σ}

/-! ### What a call decides -/

/-- The mode that a call sets. -/
def modeSet? : Exchange Bus → Option Mode
  | ⟨.setMode mode, _⟩ => some mode
  | _ => none

/-- The level of the chip select line that a call leaves: high after a claim and where a transfer
closes, low where it only opens or stalls once it has opened. -/
def levelSet? : Exchange Bus → Option Nat
  | ⟨.claim, .ok ()⟩ => some 1
  | ⟨.transfer t, ⟨.ok (), _⟩⟩ =>
    if t.framing.closes then some 1 else if t.framing.opens then some 0 else none
  | ⟨.transfer t, ⟨.error .stalled, _⟩⟩ => if t.framing.opens then some 0 else none
  | _ => none

/-- The number of the chip select that a call leaves: zero where a transfer closes, that of the slave
where it only opens or stalls once it has opened. -/
def selectSet? : Exchange Bus → Option Nat
  | ⟨.transfer t, ⟨.ok (), _⟩⟩ =>
    if t.framing.closes then some 0 else if t.framing.opens then some t.select else none
  | ⟨.transfer t, ⟨.error .stalled, _⟩⟩ => if t.framing.opens then some t.select else none
  | _ => none

/-- A claim puts the chip select under manual control. -/
def manualSet? : Exchange Bus → Option Nat
  | ⟨.claim, .ok ()⟩ => some 1
  | _ => none

/-- A claim lets the block take part in bus traffic, a release takes it off. -/
def enableSet? : Exchange Bus → Option Nat
  | ⟨.claim, .ok ()⟩ => some 1
  | ⟨.release, _⟩ => some 0
  | _ => none

/-- The clock control word that a call sets. -/
def clockSet? : Exchange Bus → Option Nat
  | ⟨.setSpeed hz, _⟩ => some (clockWord (clampSpeed hz)).toNat
  | _ => none

/-- A field that calls decide, and what a call decides about it. -/
structure Decision where
  offset : Nat
  field : Field
  sets? : Exchange Bus → Option Nat

/-- **What calls decide.** -/
def decisions : List Decision :=
  [⟨Block.transferControl, Block.trailingEdge, fun x => (modeSet? x).map (·.trailingEdge.toNat)⟩,
    ⟨Block.transferControl, Block.idleHigh, fun x => (modeSet? x).map (·.idleHigh.toNat)⟩,
    ⟨Block.transferControl, Block.lsbFirst, fun x => (modeSet? x).map (·.lsbFirst.toNat)⟩,
    ⟨Block.transferControl, Block.selectLevel, levelSet?⟩,
    ⟨Block.transferControl, Block.chipSelect, selectSet?⟩,
    ⟨Block.transferControl, Block.manualSelect, manualSet?⟩,
    ⟨Block.globalControl, Block.busEnable, enableSet?⟩,
    ⟨Block.clockControl, wholeWord, clockSet?⟩]

/-- **A block that was kept up** through the calls of a log. -/
structure Upkeep (S : Storing serve) (log : List (Exchange Bus)) (s s' : σ) : Prop where
  /-- A field holds what the last call decided, or what it held if none did. -/
  decided : ∀ d ∈ decisions, S.field d.offset d.field s' =
    (latest? d.sets? log).getD (S.field d.offset d.field s)
  /-- Every other bit is as it was. -/
  rest : ∀ offset ∉ counters, ∀ i, Stored offset i →
    (∀ p ∈ touched, p.1 = offset → ¬ p.2.Covers i) →
    (S.word s' offset).toNat.testBit i = (S.word s offset).toNat.testBit i

/-- A claim that failed, or a transfer that was refused. -/
def Refused : Exchange Bus → Prop
  | ⟨.claim, .error _⟩ => True
  | ⟨.transfer _, ⟨.error e, _⟩⟩ => e ≠ .stalled
  | _ => False

/-! ### Calls that are refused -/

theorem silent_of_refused (c : Controller) (q : Bus.Request) (s : σ)
    (h : Refused ⟨q, ((c.serve q).run serve s).value⟩) :
    accesses ((c.serve q).run serve s).trace = [] := by
  cases q with
  | claim =>
    rcases c.claim_poweredUp serve s with ⟨_, value, _, _⟩ | ⟨_, _, _, _, _, _, _, untouched⟩
    · have hclaimed : Refused ⟨.claim, (c.claim.run serve s).value⟩ := h
      rw [value] at hclaimed
      exact hclaimed.elim
    · exact untouched
  | transfer t =>
    have hrefused : Refused ⟨.transfer t, ((c.transfer t).run serve s).value⟩ := h
    cases href : Controller.refusal? t with
    | some e => exact (transfer_refused serve c href s).2
    | none =>
      rcases hvalue : ((c.transfer t).run serve s).value with ⟨result, buffer⟩
      have hresult := result_transfer serve c href s
      rw [hvalue] at hrefused hresult
      rcases hresult with rfl | rfl
      · exact hrefused.elim
      · exact absurd rfl hrefused
  | release => exact h.elim
  | setSpeed hz => exact h.elim
  | setMode mode => exact h.elim
  | note diagnostic => exact h.elim

/-! ### The fields that are decided -/

theorem settled_decisions : ∀ d ∈ decisions, Settled d.offset d.field := by
  have hcheck : ∀ d ∈ decisions, (d.offset ≠ Block.fifoStatus ∧
      ∀ p ∈ selfClearing, p.1 = d.offset → d.field.Apart p.2) ∧ d.offset ∉ counters ∧
      ∀ p ∈ touched, p.1 = d.offset → d.field.Same p.2 ∨ d.field.Apart p.2 := by decide
  intro d hd
  obtain ⟨⟨hstatus, hapart⟩, hcounters, hclear⟩ := hcheck d hd
  exact ⟨lasting_of_apart hstatus hapart, hcounters, hclear⟩

/-- A transfer that was not refused has a chip select that there is. -/
theorem select_le_of_not_refused (c : Controller) {t : Transfer} {s : σ}
    (h : ¬ Refused ⟨.transfer t, ((c.transfer t).run serve s).value⟩) : t.select ≤ maxSelect := by
  cases href : Controller.refusal? t with
  | some e =>
    refine absurd ?_ h
    rcases hvalue : ((c.transfer t).run serve s).value with ⟨result, buffer⟩
    have hresult := (transfer_refused serve c href s).1
    rw [hvalue] at hresult
    subst hresult
    exact refusal?_ne_stalled href
  | none =>
    by_contra hselect
    unfold Controller.refusal? at href
    rw [if_pos (not_le.mp hselect)] at href
    split_ifs at href

/-- What a transfer stores is what it decides. -/
theorem latest?_transferStores {t : Transfer} {outcome : Outcome}
    (h : ¬ Refused ⟨.transfer t, outcome⟩ → t.select ≤ maxSelect) :
    ∀ d ∈ decisions, latest? (Store.into? d.offset d.field) (stores ⟨.transfer t, outcome⟩) =
      d.sets? ⟨.transfer t, outcome⟩ := by
  obtain ⟨select, bits, send, receive, opens, closes⟩ := t
  obtain ⟨result, buffer⟩ := outcome
  -- a store cuts the number to the width of its field, which is wide enough for a chip select
  have hselect : ¬ Refused ⟨.transfer ⟨select, bits, send, receive, opens, closes⟩,
      ⟨result, buffer⟩⟩ → some (select % 2 ^ 2) = some select :=
    fun hgone => congrArg some (Nat.mod_eq_of_lt (Nat.lt_succ_of_le (h hgone)))
  intro d hd
  rcases result with e | _
  · cases e
    case stalled =>
      have hnumber := hselect fun hgone => hgone rfl
      cases opens <;> fin_cases hd <;> first | rfl | exact hnumber
    all_goals fin_cases hd <;> rfl
  · have hnumber := hselect id
    cases opens <;> cases closes <;> fin_cases hd <;> first | rfl | exact hnumber

theorem latest?_stores (c : Controller) (q : Bus.Request) (s : σ) :
    ∀ d ∈ decisions,
      latest? (Store.into? d.offset d.field) (stores ⟨q, ((c.serve q).run serve s).value⟩) =
        d.sets? ⟨q, ((c.serve q).run serve s).value⟩ := by
  intro d hd
  generalize hanswer : ((c.serve q).run serve s).value = answer
  cases q with
  | claim => rcases answer with e | _ <;> fin_cases hd <;> rfl
  | release => fin_cases hd <;> rfl
  | setSpeed hz =>
    have hword : (clockWord (clampSpeed hz)).toNat % 2 ^ 32 = (clockWord (clampSpeed hz)).toNat :=
      Nat.mod_eq_of_lt (UInt32.toNat_lt _)
    fin_cases hd <;> first | rfl | exact congrArg some hword
  | setMode mode =>
    have hbit : ∀ b : Bool, b.toNat % 2 ^ 1 = b.toNat := by decide
    fin_cases hd <;> first | rfl | exact congrArg some (hbit _)
  | transfer t =>
    refine latest?_transferStores (fun hgone => ?_) d hd
    exact select_le_of_not_refused c (hanswer ▸ hgone)
  | note diagnostic => fin_cases hd <;> rfl

/-! ### The bits that are not -/

/-- A single bit of a word. -/
def single (i : Nat) (h : i < 32) : Field where
  shift := i
  width := 1
  fits := by simp [h]; omega

theorem testBit_of_raw_single {i : Nat} {h : i < 32} {a b : UInt32}
    (hraw : (single i h).raw a = (single i h).raw b) : a.toNat.testBit i = b.toNat.testBit i := by
  have hbit := congrArg (·.testBit 0) hraw
  simp only [Field.testBit_raw] at hbit
  simpa [single] using hbit

/-- A bit that no call stores in is a settled field. -/
theorem settled_single {offset i : Nat} (h : i < 32) (hcounters : offset ∉ counters)
    (hstored : Stored offset i) (hfree : ∀ p ∈ touched, p.1 = offset → ¬ p.2.Covers i) :
    Settled offset (single i h) where
  lasting j hj := by
    have hij : j = i := by
      simp only [Field.Covers, single] at hj
      omega
    exact hij ▸ hstored
  apart := hcounters
  clear p hp hat := by
    have hout := hfree p hp hat
    simp only [Field.Covers, Field.Apart, single] at hout ⊢
    omega

theorem latest?_single {offset i : Nat} (h : i < 32)
    (hfree : ∀ p ∈ touched, p.1 = offset → ¬ p.2.Covers i) (x : Exchange Bus) :
    latest? (Store.into? offset (single i h)) (stores x) = none := by
  refine latest?_eq_none fun y hy => if_neg ?_
  rintro ⟨hat, hshift, hwidth⟩
  refine hfree _ (mem_touched x y hy) hat ⟨hshift.ge, ?_⟩
  have hone : y.field.width = 1 := hwidth.symm
  have hstart : y.field.shift = i := hshift.symm
  show i < y.field.shift + y.field.width
  omega

/-! ### Runs -/

/-- **After a run of calls, a field is as the last call left it that had a say in it.** -/
theorem field_run (S : Storing serve) (c : Controller) {offset : Nat} {f : Field}
    (hf : Settled offset f) (sets? : Exchange Bus → Option Nat)
    (hsets : ∀ q s, latest? (Store.into? offset f)
      (stores ⟨q, ((c.serve q).run serve s).value⟩) = sets? ⟨q, ((c.serve q).run serve s).value⟩)
    (caller : Program Bus α) (s : σ) :
    S.field offset f ((caller.expand c.serve).run serve s).state =
      (latest? sets? (caller.run (serve.behind c.serve) s).trace).getD (S.field offset f s) := by
  rw [(Program.run_expand serve c.serve caller s).2]
  refine Program.run_latest (fun _ _ (_ : True) => trivial) (S.field offset f) sets?
    (fun q t _ => ?_) caller trivial
  refine (Storing.makes_serve hf c q t).trans ?_
  rw [Store.held, hsets q t]
  rfl

/-- **Runs of calls keep a block up.** Whatever is called in whatever order, wherever the caller stops
and whatever the supply answers, the log of the calls tells what became of the block; and a call that
is refused does not come near it. -/
theorem Controller.upkeep (S : Storing serve) (c : Controller) (caller : Program Bus α) (s : σ) :
    Upkeep S (caller.run (serve.behind c.serve) s).trace s
      ((caller.expand c.serve).run serve s).state ∧
    ∀ q t, Refused ⟨q, ((c.serve q).run serve t).value⟩ →
      accesses ((c.serve q).run serve t).trace = [] ∧
      ∀ offset, Alike offset (S.word ((c.serve q).run serve t).state offset) (S.word t offset) := by
  refine ⟨⟨fun d hd => ?_, fun offset hcounters i hstored hfree => ?_⟩, fun q t hrefused => ?_⟩
  · exact field_run S c (settled_decisions d hd) d.sets?
      (fun q t => latest?_stores c q t d hd) caller s
  · by_cases hi : i < 32
    · refine testBit_of_raw_single (h := hi) ?_
      -- no call sets the bit, so there is no latest one that did
      have hrun := field_run S c (settled_single hi hcounters hstored hfree) (fun _ => none)
        (fun q t => latest?_single hi hfree _) caller s
      rwa [latest?_eq_none fun _ _ => rfl, Option.getD_none] at hrun
    · rw [Field.testBit_eq_false _ (not_lt.mp hi), Field.testBit_eq_false _ (not_lt.mp hi)]
  · have hsilent := silent_of_refused c q t hrefused
    exact ⟨hsilent, S.alike_of_silent _ hsilent⟩

/-- A transfer on a chip select that there is not. -/
def misdirected : Transfer := { select := 5, bits := 8, framing := .whole }

/-- Mode 3 and 1 MHz, a claim, an opcode to the second slave, and a transfer that is refused. -/
def unfinished : Program Bus Outcome := do
  let _ ← Bus.setMode (.preset 3)
  let _ ← Bus.setSpeed 1000000
  let _ ← Bus.claim
  let _ ← Bus.transfer { select := 1, bits := 8, send := some [0x9f], framing := .opening }
  Bus.transfer misdirected

/-- A transaction that was left open keeps its slave selected, in the mode and at the speed that
were set; what was refused changed nothing. -/
theorem upkeep_unfinished :
    let S := Bench.storing []
    let s' := ((unfinished.expand h3Controller.serve).run (Bench.host []) unselected).state
    S.level s' = 0 ∧ S.field Block.transferControl Block.chipSelect s' = 1 ∧
      S.field Block.transferControl Block.idleHigh s' = 1 ∧
      S.field Block.clockControl wholeWord s' = 0x100b ∧
      accesses ((h3Controller.transfer misdirected).run (Bench.host []) s').trace = [] := by
  intro S s'
  obtain ⟨kept, refused⟩ := h3Controller.upkeep S unfinished unselected
  have hdecided : ∀ n, ∀ h : n < decisions.length,
      S.field decisions[n].offset decisions[n].field s' = _ :=
    fun n h => kept.decided decisions[n] (List.getElem_mem h)
  refine ⟨?_, ?_, ?_, ?_, (refused (.transfer misdirected) s' ?_).1⟩
  · exact (hdecided 3 (by decide)).trans (by decide +kernel)
  · exact (hdecided 4 (by decide)).trans (by decide +kernel)
  · exact (hdecided 1 (by decide)).trans (by decide +kernel)
  · exact (hdecided 7 (by decide)).trans (by decide +kernel)
  · exact fun h => Error.noConfusion h

end SocBringup.Spi
