import SocBringup.Proofs.Spi.Delivery
import Mathlib.Algebra.Order.Floor.Div

/-! # A transfer is a series of bursts

What a controller says to its register block in the course of a transfer, for a block that delivers
and whatever the block holds and answers otherwise.

* `Burst`: one exchange as the block sees it, and its conversation `Burst.trace`.
* `length_chunks`, `flatten_chunks`: the pieces of a transfer, and how many there are.
* `exists_burst`, `exists_bursts`: an exchange is a burst, a series of exchanges a series of bursts.
* `transfer_bursts`: a transfer that fits is its bursts between the two drives of the chip select.
  With enough patience it ends, and how much is enough depends on the block alone. -/

namespace SocBringup.Spi

variable {σ : Type}

/-! ### Bursts -/

/-- One exchange: the bytes that go out and come in, the transfer control word it finds, and the
status words seen, of which the last shows the bytes. -/
structure Burst where
  sent : Bytes
  received : Bytes
  control : UInt32
  early : List UInt32
  last : UInt32

namespace Burst

/-- **The conversation of a burst**: the three counters, the bytes out, the start, the looks at the
receive FIFO, the bytes in. -/
def trace (b : Burst) : List (Exchange Host) :=
  [wrote Block.burstCount (.ofNat b.sent.length), wrote Block.transmitCount (.ofNat b.sent.length),
    wrote Block.burstControl (.ofNat b.sent.length)] ++
  (b.sent.map pushed ++
    ([saw Block.transferControl b.control,
        wrote Block.transferControl (Block.startExchange.store b.control 1)] ++
      ((b.early ++ [b.last]).map (saw Block.fifoStatus) ++ b.received.map pulled)))

/-- **The numbers of a burst agree.** It is not empty nor longer than `limit`, as many bytes come in
as go out, and they are taken out once that many are seen and not before. -/
structure Sound (b : Burst) (limit : Nat) : Prop where
  pos : 1 ≤ b.sent.length
  le : b.sent.length ≤ limit
  balanced : b.received.length = b.sent.length
  few : ∀ word ∈ b.early, Block.receiveCount.raw word < b.sent.length
  enough : b.sent.length ≤ Block.receiveCount.raw b.last

theorem pushes_trace (b : Burst) : pushes b.trace = b.sent := by
  simp [trace, pushes_map_pushed, pushes_map_eq_nil (pushedByte?_saw Block.fifoStatus),
    pushes_map_eq_nil pushedByte?_pulled]

theorem pulls_trace (b : Burst) : pulls b.trace = b.received := by
  simp [trace, pulls_map_pulled, pulls_map_eq_nil (pulledByte?_saw Block.fifoStatus),
    pulls_map_eq_nil pulledByte?_pushed]

theorem pushes_flatMap_trace (bursts : List Burst) :
    pushes (bursts.flatMap trace) = bursts.flatMap sent := by
  induction bursts with
  | nil => rfl
  | cons b rest ih => rw [List.flatMap_cons, pushes_append, pushes_trace, ih, List.flatMap_cons]

theorem pulls_flatMap_trace (bursts : List Burst) :
    pulls (bursts.flatMap trace) = bursts.flatMap received := by
  induction bursts with
  | nil => rfl
  | cons b rest ih => rw [List.flatMap_cons, pulls_append, pulls_trace, ih, List.flatMap_cons]

theorem length_received {limit : Nat} : ∀ (bursts : List Burst), (∀ b ∈ bursts, b.Sound limit) →
    (bursts.flatMap received).length = (bursts.flatMap sent).length
  | [], _ => rfl
  | b :: rest, h => by
    have ih := length_received rest fun b hb => h b (List.mem_cons_of_mem _ hb)
    rw [List.flatMap_cons, List.flatMap_cons, List.length_append, List.length_append, ih,
      (h b List.mem_cons_self).balanced]

end Burst

/-! ### Pieces -/

/-- **The pieces of some bytes**, put together again. -/
theorem flatten_chunks {size : Nat} (hsize : 0 < size) (bytes : Bytes) :
    (chunks size bytes).flatten = bytes := by
  induction bytes using chunks.induct size with
  | case1 bytes h =>
    rw [chunks, if_pos h]
    exact (h.resolve_left (by omega)).symm
  | case2 bytes h ih =>
    rw [chunks, if_neg h, List.flatten_cons, ih, List.take_append_drop]

theorem length_of_mem_chunks {size : Nat} {bytes piece : Bytes} (h : piece ∈ chunks size bytes) :
    1 ≤ piece.length ∧ piece.length ≤ size := by
  induction bytes using chunks.induct size with
  | case1 bytes hend => simp [chunks, hend] at h
  | case2 bytes hgo ih =>
    rw [chunks, if_neg hgo] at h
    rcases List.mem_cons.mp h with rfl | h
    · rw [not_or] at hgo
      have := List.length_pos_iff.mpr hgo.2
      rw [List.length_take]
      omega
    · exact ih h

/-- **There are as many pieces as it takes**: the length over the size, rounded up. -/
theorem length_chunks {size : Nat} (hsize : 0 < size) (bytes : Bytes) :
    (chunks size bytes).length = (bytes.length + (size - 1)) / size := by
  induction bytes using chunks.induct size with
  | case1 bytes h =>
    obtain rfl : bytes = [] := h.resolve_left (by omega)
    rw [chunks, if_pos h, List.length_nil, Nat.div_eq_of_lt (by rw [List.length_nil]; omega)]
  | case2 bytes h ih =>
    rw [not_or] at h
    have hpos := List.length_pos_iff.mpr h.2
    rw [chunks, if_neg (not_or.mpr h), List.length_cons, ih, List.length_drop]
    rcases Nat.le_total bytes.length size with hle | hle
    · have hone : (bytes.length + (size - 1)) / size = 1 :=
        Nat.div_eq_of_lt_le (by omega) (by omega)
      rw [Nat.sub_eq_zero_of_le hle, Nat.zero_add, Nat.div_eq_of_lt (by omega), hone]
    · rw [show bytes.length + (size - 1) = bytes.length - size + (size - 1) + size by omega,
        Nat.add_div_right _ hsize]

/-! ### Exchanges are bursts -/

theorem store_counter {count : Nat} (h : count < 2 ^ 24) :
    Block.counter.store 0 count = UInt32.ofNat count := by
  have hshift : Block.counter.shift = 0 := rfl
  have hwidth : Block.counter.width = 24 := rfl
  rw [Field.store_eq, Field.insert_eq, hshift, hwidth, UInt32.zero_and, UInt32.zero_or, pow_zero,
    mul_one, Nat.mod_eq_of_lt h]

theorem raw_counter {count : Nat} (h : count < 2 ^ 24) :
    Block.counter.raw (UInt32.ofNat count) = count := by
  rw [← store_counter h, Field.raw_store]
  exact Nat.mod_eq_of_lt h

/-- The state once the counters are set and the bytes are in the transmit FIFO. -/
def loaded (serve : Handler Host σ) (bytes : Bytes) (s : σ) : σ :=
  let count := UInt32.ofNat bytes.length
  let s := (ask serve (.write Block.burstCount count) s).2
  let s := (ask serve (.write Block.transmitCount count) s).2
  let s := (ask serve (.write Block.burstControl count) s).2
  afterPushes serve bytes s

/-- The state once the exchange is started as well. -/
def started (serve : Handler Host σ) (bytes : Bytes) (s : σ) : σ :=
  let r := ask serve (.read Block.transferControl) (loaded serve bytes s)
  (ask serve (.write Block.transferControl (Block.startExchange.store r.1 1)) r.2).2

/-- The second half of an exchange: the bytes that come in, once they are there. -/
def collect (count patience : Nat) : Program Host (Option Bytes) := do
  if ← Controller.await count patience then
    let received ← Controller.drain count
    return some received
  else return none

theorem run_exchange (serve : Handler Host σ) (c : Controller) {bytes : Bytes}
    (h : bytes.length < 2 ^ 24) (s : σ) :
    (c.exchange bytes).run serve s =
      let control := (ask serve (.read Block.transferControl) (loaded serve bytes s)).1
      let r := (collect bytes.length c.patience).run serve (started serve bytes s)
      ⟨r.value, r.state,
        [wrote Block.burstCount (.ofNat bytes.length),
          wrote Block.transmitCount (.ofNat bytes.length),
          wrote Block.burstControl (.ofNat bytes.length)] ++
        (bytes.map pushed ++ ([saw Block.transferControl control,
          wrote Block.transferControl (Block.startExchange.store control 1)] ++ r.trace))⟩ := by
  simp only [Controller.exchange, collect, loaded, started, store_counter h, Program.run_bind,
    run_write, run_fill, run_modify, List.cons_append, List.nil_append]

/-- The counter is not touched by bytes put into the transmit FIFO. -/
theorem burst_afterPushes {serve : Handler Host σ} {limit : Nat} (D : Delivering serve limit)
    (bytes : Bytes) (s : σ) : D.burst (afterPushes serve bytes s) = D.burst s := by
  induction bytes generalizing s with
  | nil => rfl
  | cons b rest ih =>
    show D.burst (afterPushes serve rest (ask serve (.push b) s).2) = _
    rw [ih, D.burst_other _ _ (by simp)]

theorem burst_loaded {serve : Handler Host σ} {limit : Nat} (D : Delivering serve limit)
    {bytes : Bytes} (h : bytes.length < 2 ^ 24) (s : σ) :
    D.burst (loaded serve bytes s) = bytes.length := by
  unfold loaded
  rw [burst_afterPushes, D.burst_other _ _ (by simp [Block.burstControl, Block.burstCount]),
    D.burst_other _ _ (by simp [Block.transmitCount, Block.burstCount]), D.burst_write,
    raw_counter h]

/-- **Once an exchange is started, its bytes arrive.** -/
theorem arrives_started {serve : Handler Host σ} {limit : Nat} (D : Delivering serve limit)
    {bytes : Bytes} (h24 : bytes.length < 2 ^ 24) (hlt : bytes.length < limit) (s : σ) :
    Arrives serve bytes.length (started serve bytes s) := by
  have hburst : D.burst (ask serve (.read Block.transferControl) (loaded serve bytes s)).2 =
      bytes.length := by
    rw [D.burst_other _ _ (by simp), burst_loaded D h24]
  have hstart : ∀ word, Block.startExchange.raw (Block.startExchange.store word 1) ≠ 0 := by
    intro word
    rw [Field.raw_store]
    decide
  have harrives := D.arrives
    (Block.startExchange.store (ask serve (.read Block.transferControl) (loaded serve bytes s)).1 1)
    _ (hstart _) (hburst.symm ▸ hlt)
  rw [hburst] at harrives
  exact harrives

/-- **An exchange is a burst**, given the patience that its block asks for. -/
theorem exists_burst {serve : Handler Host σ} {limit : Nat} (D : Delivering serve limit)
    (hlimit : limit ≤ 256) {bytes : Bytes} (hpos : 1 ≤ bytes.length) (hlt : bytes.length < limit)
    (s : σ) :
    ∃ (b : Burst) (s' : σ) (patience : Nat), b.sent = bytes ∧ b.Sound (limit - 1) ∧
      ∀ c : Controller, patience < c.patience →
        (c.exchange bytes).run serve s = ⟨some b.received, s', b.trace⟩ := by
  have h24 : bytes.length < 2 ^ 24 := by omega
  obtain ⟨early, last, s1, hwait⟩ := exists_wait (arrives_started D h24 hlt s)
  obtain ⟨received, s2, hlength, hdrain⟩ := run_drain serve bytes.length s1
  have hcollect : ∀ patience, early.length < patience →
      (collect bytes.length patience).run serve (started serve bytes s) =
        ⟨some received, s2, (early ++ [last]).map (saw Block.fifoStatus) ++ received.map pulled⟩ := by
    intro patience hp
    rw [collect, Program.run_bind, hwait.run patience hp]
    simp only [if_true, Program.run_bind, hdrain, run_pure, List.append_nil]
  let control := (ask serve (.read Block.transferControl) (loaded serve bytes s)).1
  refine ⟨⟨bytes, received, control, early, last⟩, s2, early.length, rfl,
    ⟨hpos, Nat.le_pred_of_lt hlt, hlength, hwait.few, hwait.enough⟩, fun c hc => ?_⟩
  rw [run_exchange serve c h24, hcollect c.patience hc]
  rfl

/-- **A series of exchanges is a series of bursts.** -/
theorem exists_bursts {serve : Handler Host σ} {limit : Nat} (D : Delivering serve limit)
    (hlimit : limit ≤ 256) : ∀ (pieces : List Bytes),
    (∀ piece ∈ pieces, 1 ≤ piece.length ∧ piece.length < limit) → ∀ s : σ,
    ∃ (bursts : List Burst) (s' : σ) (patience : Nat), bursts.map Burst.sent = pieces ∧
      (∀ b ∈ bursts, b.Sound (limit - 1)) ∧
      ∀ c : Controller, patience < c.patience → (c.exchangeAll pieces).run serve s =
        ⟨some (bursts.flatMap Burst.received), s', bursts.flatMap Burst.trace⟩
  | [], _, s => ⟨[], s, 0, rfl, by simp, fun _ _ => rfl⟩
  | piece :: pieces, h, s => by
    obtain ⟨hpos, hlt⟩ := h piece List.mem_cons_self
    obtain ⟨b, s1, p1, hsent, hsound, hrun⟩ := exists_burst D hlimit hpos hlt s
    obtain ⟨bursts, s2, p2, hmap, hsounds, hruns⟩ := exists_bursts D hlimit pieces
      (fun q hq => h q (List.mem_cons_of_mem _ hq)) s1
    refine ⟨b :: bursts, s2, max p1 p2, by rw [List.map_cons, hsent, hmap], ?_, fun c hc => ?_⟩
    · intro b' hb'
      rcases List.mem_cons.mp hb' with rfl | hb'
      · exact hsound
      · exact hsounds b' hb'
    · have h1 := hrun c (lt_of_le_of_lt (le_max_left _ _) hc)
      have h2 := hruns c (lt_of_le_of_lt (le_max_right _ _) hc)
      rw [Controller.exchangeAll, Program.run_bind, h1]
      simp only [Program.run_bind, h2, run_pure, List.append_nil]
      rfl

/-! ### The chip select -/

/-- The conversation that drives the chip select of a slave low, or lets it go. -/
def Drives (select : Nat) (active : Bool) (trace : List (Exchange Host)) : Prop :=
  ∃ word word', trace = [saw Block.transferControl word, wrote Block.transferControl word'] ∧
    Block.selectLevel.raw word' = (!active).toNat ∧
    Block.chipSelect.raw word' = if active then select else 0

theorem selectLevel_selectWord (select : Nat) (active : Bool) (word : UInt32) :
    Block.selectLevel.raw (selectWord select active word) = (!active).toNat := by
  unfold selectWord
  cases active <;> exact Field.raw_store _ _ _

theorem chipSelect_selectWord {select : Nat} (h : select ≤ maxSelect) (active : Bool)
    (word : UInt32) :
    Block.chipSelect.raw (selectWord select active word) = if active then select else 0 := by
  have hapart : Block.chipSelect.Apart Block.selectLevel := by decide
  unfold selectWord
  cases active
  · exact (Field.raw_store_apart hapart _ _).trans (Field.raw_store _ _ _)
  · refine (Field.raw_store_apart hapart _ _).trans ((Field.raw_store _ _ _).trans ?_)
    exact Nat.mod_eq_of_lt (Nat.lt_succ_of_le h)

/-- Drive the chip select at one end of a transfer, if the framing says so. -/
def driveIf (drives : Bool) (select : Nat) (active : Bool) : Program Host Unit :=
  if drives then Controller.drive select active else pure ()

theorem move_eq (c : Controller) (t : Transfer) :
    c.move t = (do
      driveIf t.framing.opens t.select true
      Host.modify Block.fifoControl fun word =>
        Block.transmitReset.store (Block.receiveReset.store word 1) 1
      if c.chunkSize = 0 ∧ Controller.outgoing t ≠ [] then return none
      else c.exchangeAll (chunks c.chunkSize (Controller.outgoing t))) := by
  unfold Controller.move driveIf
  split_ifs
  all_goals simp only [pure_bind]

theorem transfer_eq {t : Transfer} (h : Controller.refusal? t = none) (c : Controller) :
    c.transfer t = (do
      match ← c.move t with
      | none => return ⟨.error .stalled, t.receive⟩
      | some received => do
        driveIf t.framing.closes t.select false
        return ⟨.ok (), Controller.filled t received⟩) := by
  rw [Controller.transfer, h]
  refine bind_congr fun r => ?_
  cases r with
  | none => rfl
  | some received =>
    unfold driveIf
    by_cases hcloses : t.framing.closes = true
    · simp only [hcloses, if_true]
    · simp only [hcloses, pure_bind, Bool.false_eq_true, if_false]

/-- What a transfer does about the chip select at one of its ends. -/
theorem exists_drives (serve : Handler Host σ) {select : Nat} (h : select ≤ maxSelect)
    (active drives : Bool) (s : σ) :
    ∃ (s' : σ) (trace : List (Exchange Host)),
      (driveIf drives select active).run serve s = ⟨(), s', trace⟩ ∧
      (if drives then Drives select active trace else trace = []) := by
  cases drives with
  | false => exact ⟨s, [], rfl, rfl⟩
  | true =>
    refine ⟨_, _, run_modify serve s _ _, _, _, rfl, ?_, ?_⟩
    · exact selectLevel_selectWord select active _
    · exact chipSelect_selectWord h active _

/-! ### Transfers -/

/-- **The conversation of a transfer**: the chip select is driven low before everything else where
the framing opens, the FIFOs are emptied, the bursts follow, and the chip select is let go after
everything else where the framing closes. -/
def Transcript (t : Transfer) (bursts : List Burst) (trace : List (Exchange Host)) : Prop :=
  ∃ opening fifo closing, trace = opening ++ ([saw Block.fifoControl fifo,
      wrote Block.fifoControl (Block.transmitReset.store (Block.receiveReset.store fifo 1) 1)] ++
      (bursts.flatMap Burst.trace ++ closing)) ∧
    (if t.framing.opens then Drives t.select true opening else opening = []) ∧
    (if t.framing.closes then Drives t.select false closing else closing = [])

theorem silent_drives {select : Nat} {active drives : Bool} {trace : List (Exchange Host)}
    (h : if drives then Drives select active trace else trace = []) :
    pushes trace = [] ∧ pulls trace = [] := by
  cases drives with
  | false =>
    obtain rfl : trace = [] := h
    exact ⟨rfl, rfl⟩
  | true =>
    obtain ⟨word, word', rfl, -, -⟩ := h
    exact ⟨rfl, rfl⟩

/-- The bytes of a transfer are those of its bursts. -/
theorem Transcript.bytes {t : Transfer} {bursts : List Burst} {trace : List (Exchange Host)}
    (h : Transcript t bursts trace) :
    pushes trace = bursts.flatMap Burst.sent ∧ pulls trace = bursts.flatMap Burst.received := by
  obtain ⟨opening, fifo, closing, rfl, hopening, hclosing⟩ := h
  obtain ⟨ho, ho'⟩ := silent_drives hopening
  obtain ⟨hc, hc'⟩ := silent_drives hclosing
  constructor
  · simp [ho, hc, Burst.pushes_flatMap_trace]
  · simp [ho', hc', Burst.pulls_flatMap_trace]

theorem chunkSize_eq {c : Controller} (h : 2 ≤ c.depth) (h' : c.depth ≤ 256) :
    c.chunkSize = c.depth - 1 := by
  unfold Controller.chunkSize UInt64.size
  omega

/-- **Between its checks and its end a transfer is a series of bursts.** -/
theorem exists_move {serve : Handler Host σ} {depth : Nat} (hdepth : 2 ≤ depth)
    (hdepth' : depth ≤ 256) (D : Delivering serve depth) {t : Transfer}
    (hselect : t.select ≤ maxSelect) (s : σ) :
    ∃ (opening : List (Exchange Host)) (fifo : UInt32) (bursts : List Burst) (s' : σ)
      (patience : Nat),
      (if t.framing.opens then Drives t.select true opening else opening = []) ∧
      bursts.map Burst.sent = chunks (depth - 1) (Controller.outgoing t) ∧
      (∀ b ∈ bursts, b.Sound (depth - 1)) ∧
      ∀ c : Controller, c.depth = depth → patience < c.patience → (c.move t).run serve s =
        ⟨some (bursts.flatMap Burst.received), s',
          opening ++ ([saw Block.fifoControl fifo, wrote Block.fifoControl
            (Block.transmitReset.store (Block.receiveReset.store fifo 1) 1)] ++
            bursts.flatMap Burst.trace)⟩ := by
  obtain ⟨s1, opening, hdrive, hopening⟩ := exists_drives serve hselect true t.framing.opens s
  obtain ⟨s2, fifo, hreset⟩ : ∃ s2 fifo, (Host.modify Block.fifoControl fun word =>
      Block.transmitReset.store (Block.receiveReset.store word 1) 1).run serve s1 =
      ⟨(), s2, [saw Block.fifoControl fifo, wrote Block.fifoControl
        (Block.transmitReset.store (Block.receiveReset.store fifo 1) 1)]⟩ :=
    ⟨_, _, run_modify serve s1 _ _⟩
  have hpieces : ∀ piece ∈ chunks (depth - 1) (Controller.outgoing t),
      1 ≤ piece.length ∧ piece.length < depth := by
    intro piece hpiece
    obtain ⟨h1, h2⟩ := length_of_mem_chunks hpiece
    exact ⟨h1, by omega⟩
  obtain ⟨bursts, s3, patience, hmap, hsound, hrun⟩ := exists_bursts D hdepth' _ hpieces s2
  refine ⟨opening, fifo, bursts, s3, patience, hopening, hmap, hsound, fun c hc hp => ?_⟩
  have hsize : c.chunkSize = depth - 1 := by
    rw [chunkSize_eq (by omega) (by omega), hc]
  have hgo : ¬ (depth - 1 = 0 ∧ Controller.outgoing t ≠ []) := fun h => by omega
  rw [move_eq, hsize, if_neg hgo]
  simp only [Program.run_bind, hdrive, hreset, hrun c hp]

theorem length_outgoing {t : Transfer} {len : Nat} (hbits : t.bits = 8 * len)
    (hsend : ∀ data ∈ t.send, len ≤ data.length) : (Controller.outgoing t).length = len := by
  unfold Controller.outgoing
  rw [hbits, Nat.mul_div_cancel_left len (by decide)]
  split
  · next data h => rw [List.length_take, min_eq_left (hsend data h)]
  · rw [List.length_replicate]

theorem refusal?_eq_none {t : Transfer} {len : Nat} (hbits : t.bits = 8 * len)
    (hselect : t.select ≤ maxSelect) (hsend : ∀ data ∈ t.send, len ≤ data.length)
    (hreceive : ∀ buffer ∈ t.receive, len ≤ buffer.length) : Controller.refusal? t = none := by
  have hlen : t.bits / 8 = len := by omega
  have hshort : ∀ buffer : Option Bytes, (∀ bytes ∈ buffer, len ≤ bytes.length) →
      Controller.isShort buffer len = false := by
    rintro (_ | bytes) h
    · rfl
    · exact decide_eq_false (Nat.not_lt.mpr (h bytes rfl))
  rw [Controller.refusal?, if_neg (by omega), if_neg (Nat.not_lt.mpr hselect), hlen,
    hshort _ hsend, hshort _ hreceive]
  rfl

/-- **A transfer is a series of bursts.** On a block that delivers, a transfer of `len` bytes that
fits ends well. It puts out the data, or zeroes, and takes in as many bytes, which come to stand at
the start of the receive buffer; it takes `len / (depth - 1)` bursts, rounded up. -/
theorem transfer_bursts {serve : Handler Host σ} {depth len : Nat} (hdepth : 2 ≤ depth)
    (hdepth' : depth ≤ 256) (D : Delivering serve depth) {t : Transfer} (hbits : t.bits = 8 * len)
    (hselect : t.select ≤ maxSelect) (hsend : ∀ data ∈ t.send, len ≤ data.length)
    (hreceive : ∀ buffer ∈ t.receive, len ≤ buffer.length) (s : σ) :
    ∃ patience, ∀ c : Controller, c.depth = depth → patience < c.patience →
      let r := (c.transfer t).run serve s
      (∃ bursts : List Burst, Transcript t bursts r.trace ∧
        (∀ b ∈ bursts, b.Sound (depth - 1)) ∧ bursts.length = len ⌈/⌉ (depth - 1)) ∧
      pushes r.trace = (t.send.map (·.take len)).getD (List.replicate len 0) ∧
      (pulls r.trace).length = len ∧
      r.value = ⟨.ok (), t.receive.map fun buffer => pulls r.trace ++ buffer.drop len⟩ := by
  obtain ⟨opening, fifo, bursts, s1, patience, hopening, hmap, hsound, hmove⟩ :=
    exists_move hdepth hdepth' D hselect s
  obtain ⟨s2, closing, hdrive, hclosing⟩ := exists_drives serve hselect false t.framing.closes s1
  have hsent : bursts.flatMap Burst.sent = Controller.outgoing t := by
    rw [List.flatMap_def, hmap, flatten_chunks (by omega)]
  have hreceived := Burst.length_received bursts hsound
  rw [hsent, length_outgoing hbits hsend] at hreceived
  refine ⟨patience, fun c hc hp => ?_⟩
  have hrun : (c.transfer t).run serve s =
      ⟨⟨.ok (), t.receive.map fun buffer =>
        bursts.flatMap Burst.received ++ buffer.drop len⟩, s2,
        opening ++ ([saw Block.fifoControl fifo, wrote Block.fifoControl
          (Block.transmitReset.store (Block.receiveReset.store fifo 1) 1)] ++
          (bursts.flatMap Burst.trace ++ closing))⟩ := by
    rw [transfer_eq (refusal?_eq_none hbits hselect hsend hreceive)]
    simp only [Program.run_bind, hmove c hc hp, hdrive, run_pure, Controller.filled, hreceived,
      List.append_nil, List.append_assoc]
  have htranscript : Transcript t bursts ((c.transfer t).run serve s).trace := by
    rw [hrun]
    exact ⟨opening, fifo, closing, rfl, hopening, hclosing⟩
  obtain ⟨hpushes, hpulls⟩ := htranscript.bytes
  refine ⟨⟨bursts, htranscript, hsound, ?_⟩, ?_, ?_, ?_⟩
  · have hcount : bursts.length = (bursts.map Burst.sent).length := (List.length_map _).symm
    rw [hcount, hmap, length_chunks (by omega), length_outgoing hbits hsend,
      Nat.ceilDiv_eq_add_pred_div, ← Nat.add_sub_assoc (by omega)]
  · rw [hpushes, hsent, Controller.outgoing, hbits, Nat.mul_div_cancel_left len (by decide)]
    rcases t.send with _ | data <;> rfl
  · rw [hpulls, hreceived]
  · rw [hpulls, hrun]

/-- A transaction of five bytes, with a receive buffer that is longer. -/
def fiveBytes : Transfer where
  select := 1
  bits := 40
  send := some [1, 2, 3, 4, 5]
  receive := some [0, 0, 0, 0, 0, 7]
  framing := .whole

/-- Three bytes at a time, on a block that lets one byte in at every look. -/
theorem transfer_bursts_fiveBytes :
    ∃ patience, ∀ c : Controller, c.depth = 4 → patience < c.patience →
      let r := (c.transfer fiveBytes).run (Bench.host []) { dribble := 1 }
      (∃ bursts : List Burst, bursts.length = 2 ∧ pushes r.trace = bursts.flatMap Burst.sent) ∧
      pushes r.trace = [1, 2, 3, 4, 5] ∧
      r.value = ⟨.ok (), some (pulls r.trace ++ [7])⟩ := by
  have hbits : fiveBytes.bits = 8 * 5 := rfl
  obtain ⟨patience, h⟩ := transfer_bursts (by decide) (by decide)
    (Bench.delivering [] 4 (by decide)) hbits (by decide)
    (fun _ h => by cases h; decide) (fun _ h => by cases h; decide) { dribble := 1 }
  refine ⟨patience, fun c hc hp => ?_⟩
  obtain ⟨⟨bursts, htranscript, -, hlength⟩, hpushes, -, hvalue⟩ := h c hc hp
  exact ⟨⟨bursts, hlength.trans (by decide), htranscript.bytes.1⟩, hpushes, hvalue⟩

end SocBringup.Spi
