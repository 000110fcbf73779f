import SocBringup.Proofs.Spi.Calls
import SocBringup.Spi.Slave

/-! # The chip select after a transaction

The level of the chip select line through transfers and transactions, on every block that stores its
words. A transaction that ends lets the line go, except where its second half is refused:
the opcode then went out and the slave stays selected.

* `Storing.level_transfer`: a transfer leaves the line as its framing says.
* `Slave.level_writeThenRead`: what a transaction answers, and when it leaves the line low. -/

namespace SocBringup.Spi

variable {σ : Type} {serve : Handler Host σ}

/-! ### Transfers -/

/-- A transfer that fits ends well or stalls. -/
theorem result_transfer (serve : Handler Host σ) (c : Controller) {t : Transfer}
    (h : Controller.refusal? t = none) (s : σ) :
    ((c.transfer t).run serve s).value.result = .ok () ∨
      ((c.transfer t).run serve s).value.result = .error .stalled := by
  rw [transfer_eq h, Program.value_bind]
  cases ((c.move t).run serve s).value with
  | none => exact .inr rfl
  | some received =>
    rw [Program.value_bind]
    exact .inl rfl

namespace Storing

/-- The level of the chip select line: zero where the slave is selected, one where it is let go. -/
def level (S : Storing serve) (s : σ) : Nat := S.field Block.transferControl Block.selectLevel s

theorem settled_selectLevel : Settled Block.transferControl Block.selectLevel :=
  ⟨lasting_of_apart (by decide) (by decide), by decide, by decide⟩

variable (S : Storing serve)

/-- **A transfer that ends leaves the line as its framing says.** -/
theorem level_transfer (c : Controller) {t : Transfer} (h : Controller.refusal? t = none) {s : σ}
    (hends : ((c.transfer t).run serve s).value.result ≠ .error .stalled) :
    ((c.transfer t).run serve s).value.result = .ok () ∧
    S.level ((c.transfer t).run serve s).state =
      if t.framing.closes then 1 else if t.framing.opens then 0 else S.level s := by
  have hok := (result_transfer serve c h s).resolve_right hends
  refine ⟨hok, ?_⟩
  have hmakes := makes_transfer (S := S) settled_selectLevel c t s
  simp only [hok] at hmakes
  refine hmakes.trans ?_
  unfold transferStores
  cases t.framing.opens <;> cases t.framing.closes <;> rfl

/-- A transfer that is refused leaves the line alone. -/
theorem level_refused (c : Controller) {t : Transfer} {e : Error}
    (h : Controller.refusal? t = some e) (s : σ) :
    ((c.transfer t).run serve s).value.result = .error e ∧
    S.level ((c.transfer t).run serve s).state = S.level s := by
  obtain ⟨hresult, hsilent⟩ := transfer_refused serve c h s
  exact ⟨hresult, field_of_silent settled_selectLevel.lasting hsilent⟩

end Storing

/-! ### Transactions -/

namespace Slave

/-- The transfer of the opcode. -/
def first (slave : Slave) (opcode : Bytes) (length : Nat) : Transfer where
  select := slave.select
  bits := bitLength opcode.length
  send := some opcode
  framing := if length = 0 then .whole else .opening

/-- The transfer of the payload. -/
def second (slave : Slave) (send receive : Option Bytes) : Transfer where
  select := slave.select
  bits := bitLength (payloadLength send receive)
  send := send
  receive := receive
  framing := .closing

/-- The data to send does not fit into the receive buffer. Lengths in bits are 64-bit numbers. -/
def Overlong (send receive : Option Bytes) : Prop :=
  ∃ data ∈ send, ∃ buffer ∈ receive, buffer.length < data.length % 2 ^ 61

theorem expand_writeThenRead (c : Controller) (slave : Slave) (opcode : Bytes)
    (send receive : Option Bytes) :
    (slave.writeThenRead opcode send receive).expand c.serve = (do
      let outcome ← c.transfer (slave.first opcode (payloadLength send receive))
      match outcome.result with
      | .error e => return ⟨.error e, receive⟩
      | .ok () =>
        if payloadLength send receive = 0 then return ⟨.ok (), receive⟩
        else c.transfer (slave.second send receive)) := by
  have hone : ∀ t : Transfer, (Bus.transfer t).expand c.serve = c.transfer t :=
    fun t => Program.bind_done _
  unfold writeThenRead
  rw [Program.expand_bind]
  refine (congrArg (· >>= _) (hone _)).trans (bind_congr fun outcome => ?_)
  cases outcome.result with
  | error e => rfl
  | ok _ =>
    simp only
    split_ifs
    · rfl
    · exact hone _

theorem bitLength_div (bytes : Nat) :
    bitLength bytes % 8 = 0 ∧ bitLength bytes / 8 = bytes % 2 ^ 61 := by
  unfold bitLength UInt64.size
  omega

/-- No run of bytes is shorter than what is left of its length in bits. -/
theorem isShort_self (bytes : Bytes) :
    Controller.isShort (some bytes) (bytes.length % 2 ^ 61) = false :=
  decide_eq_false (Nat.not_lt.mpr (Nat.mod_le _ _))

theorem isShort_none (length : Nat) : Controller.isShort none length = false := rfl

/-- The transfer of the opcode is refused for the chip select only. -/
theorem refusal?_first (slave : Slave) (opcode : Bytes) (length : Nat) :
    Controller.refusal? (slave.first opcode length) =
      if maxSelect < slave.select then some .invalidChipSelect else none := by
  obtain ⟨hbits, hbytes⟩ := bitLength_div opcode.length
  simp only [Controller.refusal?, first, hbits, hbytes, isShort_self, isShort_none,
    ne_eq, not_true_eq_false, if_false, Bool.or_self, Bool.false_eq_true]

theorem isShort_payload (send receive : Option Bytes) :
    (Controller.isShort send (payloadLength send receive % 2 ^ 61) ||
      Controller.isShort receive (payloadLength send receive % 2 ^ 61)) = true ↔
      Overlong send receive := by
  rcases send with _ | data
  · rcases receive with _ | buffer
    · simp [Controller.isShort, Overlong]
    · rw [payloadLength, isShort_self]
      simp [Controller.isShort, Overlong]
  · rw [payloadLength, isShort_self, Bool.false_or]
    rcases receive with _ | buffer
    · simp [Controller.isShort, Overlong]
    · constructor
      · exact fun h => ⟨data, rfl, buffer, rfl, of_decide_eq_true h⟩
      · rintro ⟨_, hdata, _, hbuffer, hlt⟩
        cases hdata
        cases hbuffer
        exact decide_eq_true hlt

/-- **The transfer of the payload is refused where the data is overlong.** -/
theorem refusal?_second {slave : Slave} (hselect : slave.select ≤ maxSelect)
    (send receive : Option Bytes) :
    (Overlong send receive →
      Controller.refusal? (slave.second send receive) = some .shortBuffer) ∧
    (¬ Overlong send receive → Controller.refusal? (slave.second send receive) = none) := by
  obtain ⟨hbits, hbytes⟩ := bitLength_div (payloadLength send receive)
  have hopen : Controller.refusal? (slave.second send receive) =
      if (Controller.isShort send (payloadLength send receive % 2 ^ 61) ||
        Controller.isShort receive (payloadLength send receive % 2 ^ 61)) = true
      then some .shortBuffer else none := by
    simp only [Controller.refusal?, second, hbits, hbytes, ne_eq, not_true_eq_false, if_false,
      if_neg (Nat.not_lt.mpr hselect)]
  rw [hopen]
  exact ⟨fun h => if_pos ((isShort_payload _ _).mpr h),
    fun h => if_neg fun hshort => h ((isShort_payload _ _).mp hshort)⟩

/-- Data that is overlong is a payload. -/
theorem Overlong.payload {send receive : Option Bytes} (h : Overlong send receive) :
    payloadLength send receive ≠ 0 := by
  obtain ⟨data, hdata, buffer, hbuffer, hlt⟩ := h
  cases hdata
  intro hzero
  have hlength : data.length = 0 := hzero
  rw [hlength] at hlt
  exact absurd hlt (Nat.not_lt_zero _)

section Runs
variable {c : Controller} {slave : Slave} {opcode : Bytes} {send receive : Option Bytes} {s : σ}

/-- Where the opcode is refused, the transaction is. -/
theorem run_refused {e : Error}
    (h : ((c.transfer (slave.first opcode (payloadLength send receive))).run serve
      s).value.result = .error e) :
    let r := ((slave.writeThenRead opcode send receive).expand c.serve).run serve s
    r.value.result = .error e ∧
    r.state = ((c.transfer (slave.first opcode (payloadLength send receive))).run serve s).state := by
  simp only [expand_writeThenRead, Program.value_bind, Program.state_bind, h]
  exact ⟨rfl, rfl⟩

/-- Without a payload, the opcode is the transaction. -/
theorem run_empty (hlength : payloadLength send receive = 0)
    (h : ((c.transfer (slave.first opcode (payloadLength send receive))).run serve
      s).value.result = .ok ()) :
    let r := ((slave.writeThenRead opcode send receive).expand c.serve).run serve s
    r.value.result = .ok () ∧
    r.state = ((c.transfer (slave.first opcode (payloadLength send receive))).run serve s).state := by
  simp only [expand_writeThenRead, Program.value_bind, Program.state_bind, h, if_pos hlength]
  exact ⟨rfl, rfl⟩

/-- With a payload, the transaction ends as the transfer of the payload does. -/
theorem run_payload (hlength : payloadLength send receive ≠ 0)
    (h : ((c.transfer (slave.first opcode (payloadLength send receive))).run serve
      s).value.result = .ok ()) :
    let r := ((slave.writeThenRead opcode send receive).expand c.serve).run serve s
    let r' := (c.transfer (slave.second send receive)).run serve
      ((c.transfer (slave.first opcode (payloadLength send receive))).run serve s).state
    r.value = r'.value ∧ r.state = r'.state := by
  simp only [expand_writeThenRead, Program.value_bind, Program.state_bind, h, if_neg hlength,
    and_self]

end Runs

/-- **A transaction lets the chip select go, unless its data is overlong.** From a block on which no
slave is selected, a transaction that ends is answered with `shortBuffer` where there is more to send
than the receive buffer holds, on a chip select that there is; then, and only then, the slave stays
selected. -/
theorem level_writeThenRead (S : Storing serve) (c : Controller) (slave : Slave) (opcode : Bytes)
    (send receive : Option Bytes) {s : σ} (hlevel : S.level s = 1) :
    let r := ((slave.writeThenRead opcode send receive).expand c.serve).run serve s
    r.value.result ≠ .error .stalled →
      (r.value.result = .error .shortBuffer ↔
        slave.select ≤ maxSelect ∧ Overlong send receive) ∧
      (S.level r.state = 1 ↔ ¬ (slave.select ≤ maxSelect ∧ Overlong send receive)) := by
  intro r hends
  by_cases hselect : slave.select ≤ maxSelect
  · have hfirst : Controller.refusal? (slave.first opcode (payloadLength send receive)) = none := by
      rw [refusal?_first, if_neg (Nat.not_lt.mpr hselect)]
    have hgone : ((c.transfer (slave.first opcode (payloadLength send receive))).run serve
        s).value.result ≠ .error .stalled := fun h => hends (run_refused h).1
    obtain ⟨hok, hline⟩ := S.level_transfer c hfirst hgone
    by_cases hlength : payloadLength send receive = 0
    · -- the transfer of the opcode is the whole transaction and lets the line go itself
      obtain ⟨hvalue, hstate⟩ := run_empty hlength hok
      have hfits : ¬ Overlong send receive := fun h => h.payload hlength
      have hhigh : S.level r.state = 1 := by
        rw [hstate, hline]
        simp [first, hlength, Framing.whole]
      simp [r, hvalue, hhigh, hfits]
    · obtain ⟨hvalue, hstate⟩ := run_payload hlength hok
      by_cases hover : Overlong send receive
      · -- the line is low by now, and what would let it go is refused before it touches the block
        obtain ⟨hrefused, hkept⟩ := S.level_refused c ((refusal?_second hselect send receive).1 hover)
          ((c.transfer (slave.first opcode (payloadLength send receive))).run serve s).state
        have hlow : S.level r.state = 0 := by
          rw [hstate, hkept, hline]
          simp [first, hlength, Framing.opening]
        have hshort : r.value.result = .error .shortBuffer := by rw [hvalue, hrefused]
        simp [hshort, hlow, hselect, hover]
      · rw [hvalue] at hends
        obtain ⟨hsent, hclosed⟩ :=
          S.level_transfer c ((refusal?_second hselect send receive).2 hover) hends
        have hhigh : S.level r.state = 1 := by
          rw [hstate, hclosed]
          rfl
        have hdone : r.value.result = .ok () := by rw [hvalue, hsent]
        simp [hdone, hhigh, hover]
  · -- the opcode is refused for its chip select, and nothing has been touched
    obtain ⟨hrefused, hkept⟩ := S.level_refused c
      ((refusal?_first slave opcode (payloadLength send receive)).trans
        (if_pos (Nat.lt_of_not_le hselect))) s
    obtain ⟨hvalue, hstate⟩ := run_refused hrefused
    have hhigh : S.level r.state = 1 := by rw [hstate, hkept, hlevel]
    have hnone : r.value.result = .error .invalidChipSelect := hvalue
    simp [hnone, hhigh, hselect]

end Slave

/-- A simulated block on which no slave is selected. -/
def unselected : Bench.SpiBlock := { words := .ofList [(Block.transferControl, 0x80)] }

/-- The first controller of the H3. -/
def h3Controller : Controller := { depth := 64, busClock := 30, moduleClock := 82, resetLine := 15 }

/-- A slave on the second chip select. -/
def flash : Slave := { select := 1 }

/-- Reading three bytes after an opcode lets the chip select go. -/
theorem level_writeThenRead_identify :
    let r := ((flash.writeThenRead [0x9f] none (some [0, 0, 0])).expand h3Controller.serve).run
      (Bench.host []) unselected
    (Bench.storing []).level unselected = 1 ∧ r.value.result ≠ .error .stalled ∧
      (Bench.storing []).level r.state = 1 := by
  intro r
  have hlevel : (Bench.storing []).level unselected = 1 := by decide +kernel
  have hends : r.value.result ≠ .error .stalled := by decide +kernel
  refine ⟨hlevel, hends, ?_⟩
  refine (flash.level_writeThenRead (Bench.storing []) h3Controller [0x9f] none (some [0, 0, 0])
    hlevel hends).2.mpr ?_
  rintro ⟨-, data, hdata, -⟩
  cases hdata

/-- Three bytes to send and room for one: the opcode goes out and the slave stays selected. -/
theorem select_stays_low :
    let r := ((flash.writeThenRead [0x9f] (some [1, 2, 3]) (some [0])).expand
      h3Controller.serve).run (Bench.host []) unselected
    (Bench.storing []).level unselected = 1 ∧ r.value.result = .error .shortBuffer ∧
      (Bench.storing []).level r.state = 0 := by
  decide +kernel

end SocBringup.Spi
