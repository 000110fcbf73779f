import SocBringup.Proofs.Spi.Calls

/-! # The wire of a block

What a slave sees of its bus is decided by the block: the chip select falls and rises as the transfer
control word says, and an exchange shifts out what waits in the transmit FIFO and as many bytes in.

* `Signal`: what a slave sees.
* `Wires`: the state of a block as far as it matters to the wire, and what its requests do to it.
* `Wired`: a block that works so.
* `Bench.wired`: the simulated block does, whatever its slave answers and at every pace. -/

namespace SocBringup.Spi

variable {σ : Type}

/-- What a slave sees of its bus. -/
inductive Signal where
  /-- A chip select goes low. -/
  | select (number : Nat)
  /-- The chip select that was low goes high. -/
  | release
  /-- A byte is shifted out while another is shifted in. -/
  | shift (sent received : UInt8)
  deriving DecidableEq

/-- The chip select that a transfer control word holds low. -/
def selected? (word : UInt32) : Option Nat :=
  if Block.selectLevel.raw word = 0 then some (Block.chipSelect.raw word) else none

/-- What is seen when one chip select is held low and then another, or none. -/
def edges : Option Nat → Option Nat → List Signal
  | none, none => []
  | none, some n => [.select n]
  | some _, none => [.release]
  | some m, some n => if m = n then [] else [.release, .select n]

theorem edges_self (line : Option Nat) : edges line line = [] := by
  cases line with
  | none => rfl
  | some n => exact if_pos rfl

/-- Starting an exchange is not a matter of the chip select. -/
theorem selected?_startExchange (word : UInt32) (contents : Nat) :
    selected? (Block.startExchange.store word contents) = selected? word := by
  have hlevel : Block.selectLevel.Apart Block.startExchange := by decide
  have hselect : Block.chipSelect.Apart Block.startExchange := by decide
  rw [selected?, Field.raw_store_apart hlevel, Field.raw_store_apart hselect, selected?]

/-- What is seen of an exchange. -/
def shifts (sent received : Bytes) : List Signal := List.zipWith .shift sent received

/-! ### The state of the wire -/

/-- The counters by offset, the chip select that is low, the bytes in the transmit FIFO, the bytes
received but not yet taken out, and what the slaves have seen. -/
@[ext]
structure Wires where
  counts : Nat → Nat
  line : Option Nat
  waiting : Bytes
  incoming : Bytes
  seen : List Signal

namespace Wires

def count (w : Wires) (offset : Nat) (word : UInt32) : Wires :=
  { w with counts := Function.update w.counts offset (Block.counter.raw word) }

def push (w : Wires) (byte : UInt8) : Wires := { w with waiting := w.waiting ++ [byte] }

def pull (w : Wires) : Wires := { w with incoming := w.incoming.tail }

def empty (w : Wires) : Wires := { w with waiting := [], incoming := [] }

def drive (w : Wires) (line : Option Nat) : Wires :=
  { w with line, seen := w.seen ++ edges w.line line }

/-- An exchange of all that waits. -/
def exchange (w : Wires) (received : Bytes) : Wires :=
  { w with waiting := [], incoming := received, seen := w.seen ++ shifts w.waiting received }

/-- All is set for an exchange: there is something to send that fits into the FIFO, the counters say
how much it is, and there is nothing left to take out. -/
structure Loaded (w : Wires) (depth : Nat) : Prop where
  counted : ∀ offset ∈ counters, w.counts offset = w.waiting.length
  fits : w.waiting.length < depth
  taken : w.incoming = []

end Wires

/-- **A block with a wire.** Of the bytes that an exchange brings, some are ready to be taken out and
the others are still to come; the receive FIFO shows no more than are ready. As long as some are to
come, an exchange is under way, and only then may the start bit still be set. -/
structure Wired (serve : Handler Host σ) (depth : Nat) where
  wires : σ → Wires
  ready : σ → Nat
  ready_le : ∀ s, ready s ≤ (wires s).incoming.length
  /-- Reading what has to be read changes nothing but what is ready. -/
  read : ∀ offset ∈ [Block.transferControl, Block.fifoControl, Block.fifoStatus], ∀ s,
    wires (ask serve (.read offset) s).2 = wires s ∧ ready s ≤ ready (ask serve (.read offset) s).2
  status : ∀ s, Block.receiveCount.raw (ask serve (.read Block.fifoStatus) s).1 ≤
    ready (ask serve (.read Block.fifoStatus) s).2
  control : ∀ s, selected? (ask serve (.read Block.transferControl) s).1 = (wires s).line
  idle : ∀ s, (wires s).incoming.length ≤ ready s →
    Block.startExchange.raw (ask serve (.read Block.transferControl) s).1 = 0
  count : ∀ offset ∈ counters, ∀ word s,
    wires (ask serve (.write offset word) s).2 = (wires s).count offset word
  push : ∀ byte s, (wires s).waiting.length < depth →
    wires (ask serve (.push byte) s).2 = (wires s).push byte
  pull : ∀ s, 0 < ready s → (wires s).incoming.head? = some (ask serve .pull s).1 ∧
    wires (ask serve .pull s).2 = (wires s).pull ∧ ready s ≤ ready (ask serve .pull s).2 + 1
  reset : ∀ word s, (wires s).incoming.length ≤ ready s →
    Block.receiveReset.raw word ≠ 0 → Block.transmitReset.raw word ≠ 0 →
    wires (ask serve (.write Block.fifoControl word) s).2 = (wires s).empty
  drive : ∀ word s, (wires s).incoming.length ≤ ready s → Block.startExchange.raw word = 0 →
    wires (ask serve (.write Block.transferControl word) s).2 = (wires s).drive (selected? word) ∧
      ready s ≤ ready (ask serve (.write Block.transferControl word) s).2
  /-- Starting an exchange shifts what waits, and lets as many bytes come in sooner or later. -/
  start : ∀ word s, (wires s).Loaded depth → Block.startExchange.raw word ≠ 0 →
    ∃ received : Bytes, received.length = (wires s).waiting.length ∧
      wires (ask serve (.write Block.transferControl word) s).2 =
        ((wires s).drive (selected? word)).exchange received ∧
      Arrives serve received.length (ask serve (.write Block.transferControl word) s).2

end SocBringup.Spi

/-! ### The simulated block has a wire -/

namespace SocBringup.Bench

open Spi

/-- A simulated block whose slaves remember what they saw. -/
structure Watched where
  block : SpiBlock
  seen : List Signal := []
  done : Block.startExchange.raw (block.words.get Block.transferControl) = 0

/-- What the slaves see of a request. -/
def SpiBlock.signals (b : SpiBlock) : Host.Request → List Signal
  | .block (.write offset word) =>
    if offset = Block.transferControl then
      edges (selected? (b.words.get Block.transferControl)) (selected? word) ++
        if Block.startExchange.raw word = 0 then [] else
          shifts (b.sent (Block.counter.raw (b.words.get Block.burstCount)))
            (b.answered (Block.counter.raw (b.words.get Block.burstCount)))
    else []
  | _ => []

theorem SpiBlock.get_write_self (b : SpiBlock) (word : UInt32) :
    (b.write Block.transferControl word).words.get Block.transferControl =
      Block.startExchange.store word 0 := by
  rw [write, if_pos rfl]
  exact (RegisterFile.get_set _ _ _ _).trans (if_pos rfl)

theorem SpiBlock.done_host (refusals : Refusals) (q : Host.Request) (b : SpiBlock)
    (h : Block.startExchange.raw (b.words.get Block.transferControl) = 0) :
    Block.startExchange.raw ((host refusals q b).2.words.get Block.transferControl) = 0 := by
  rcases q with (offset | ⟨offset, word⟩ | byte | _) | q | diagnostic
  · have hwords : (host refusals (.block (.read offset)) b).2.words = b.words :=
      b.words_serve_read offset
    rw [hwords, h]
  · have hblock : (host refusals (.block (.write offset word)) b).2 = b.write offset word := rfl
    rw [hblock]
    by_cases ho : Block.transferControl = offset
    · subst ho
      rw [get_write_self, Field.raw_store]
      rfl
    · rw [get_write_ne b ho, h]
  all_goals exact h

/-- A simulated block that is watched. -/
def watched (refusals : Refusals) : Handler Host Watched := fun q w =>
  ((host refusals q w.block).1,
    { block := (host refusals q w.block).2
      seen := w.seen ++ w.block.signals q
      done := SpiBlock.done_host refusals q w.block w.done })

namespace Watched

def wires (w : Watched) : Wires where
  counts offset :=
    if offset ∈ counters then Block.counter.raw (w.block.words.get offset) else 0
  line := selected? (w.block.words.get Block.transferControl)
  waiting := w.block.transmit
  incoming := w.block.receive ++ w.block.wire
  seen := w.seen

theorem wires_read (refusals : Refusals) (offset : Nat) (w : Watched) :
    (ask (watched refusals) (.read offset) w).2.wires = w.wires ∧
      w.block.receive.length ≤ (ask (watched refusals) (.read offset) w).2.block.receive.length := by
  have hseen : w.seen ++ w.block.signals (.block (.read offset)) = w.seen := List.append_nil _
  have hblock : (ask (watched refusals) (.read offset) w).2.block =
      if offset = Block.fifoStatus then w.block.comeIn else w.block := by
    show (SpiBlock.serve (.read offset) w.block).2 = _
    rw [SpiBlock.serve]
    split_ifs <;> rfl
  constructor
  · unfold wires
    rw [hblock]
    refine Wires.ext ?_ ?_ ?_ ?_ hseen
    · split_ifs <;> rfl
    · split_ifs <;> rfl
    · split_ifs <;> rfl
    · split_ifs
      · simp [SpiBlock.comeIn]
      · rfl
  · rw [hblock]
    split_ifs
    · simp [SpiBlock.comeIn]
    · exact le_rfl

variable (refusals : Refusals) (w : Watched)

theorem block_write (offset : Nat) (word : UInt32) :
    (ask (watched refusals) (.write offset word) w).2.block = w.block.write offset word := rfl

theorem wires_count {offset : Nat} (h : offset ∈ counters) (word : UInt32) :
    (ask (watched refusals) (.write offset word) w).2.wires = w.wires.count offset word := by
  have hne : ∀ other, other ∉ counters → offset ≠ other := fun other ho heq => ho (heq ▸ h)
  have hcontrol : Block.transferControl ≠ offset := (hne _ (by decide)).symm
  have hblock : w.block.write offset word =
      { w.block with words := w.block.words.set offset word } := by
    rw [SpiBlock.write, if_neg (hne _ (by decide)), if_neg (hne _ (by decide)),
      if_neg (hne _ (by decide))]
  have hsignals : w.block.signals (.block (.write offset word)) = [] :=
    if_neg (hne _ (by decide))
  have hseen : w.seen ++ w.block.signals (.block (.write offset word)) = w.seen := by
    rw [hsignals, List.append_nil]
  unfold wires
  rw [block_write, hblock]
  refine Wires.ext (funext fun other => ?_) ?_ rfl rfl hseen
  · simp only [Wires.count, RegisterFile.get_set, Function.update_apply]
    split_ifs with hmem heq heq
    · rfl
    · rfl
    · exact absurd (heq ▸ h) hmem
    · rfl
  · simp only [Wires.count, RegisterFile.get_set, if_neg hcontrol]

theorem wires_pull (h : 0 < w.block.receive.length) :
    w.wires.incoming.head? = some (ask (watched refusals) .pull w).1 ∧
      (ask (watched refusals) .pull w).2.wires = w.wires.pull ∧
      w.block.receive.length ≤ (ask (watched refusals) .pull w).2.block.receive.length + 1 := by
  have hseen : w.seen ++ w.block.signals (.block .pull) = w.seen := List.append_nil _
  obtain ⟨b, rest, hreceive⟩ := List.exists_cons_of_length_pos h
  have hbyte : (ask (watched refusals) .pull w).1 = w.block.receive.headD 0 := rfl
  have hrest : (ask (watched refusals) .pull w).2.block =
      { w.block with receive := w.block.receive.tail } := rfl
  refine ⟨?_, Wires.ext rfl rfl rfl ?_ hseen, ?_⟩
  · rw [hbyte, wires, hreceive]
    rfl
  · show (ask (watched refusals) .pull w).2.block.receive ++ w.block.wire =
      (w.block.receive ++ w.block.wire).tail
    rw [hrest, hreceive]
    rfl
  · rw [hrest, hreceive]
    exact le_rfl

theorem wires_reset {word : UInt32} (hreceive : Block.receiveReset.raw word ≠ 0)
    (htransmit : Block.transmitReset.raw word ≠ 0) :
    (ask (watched refusals) (.write Block.fifoControl word) w).2.wires = w.wires.empty := by
  have hblock : w.block.write Block.fifoControl word =
      { w.block with
        words := w.block.words.set Block.fifoControl word
        wire := [], receive := [], transmit := [] } := by
    rw [SpiBlock.write, if_neg (by decide), if_neg (by decide), if_pos rfl, if_neg hreceive,
      if_neg htransmit, if_neg hreceive]
  have hcontrol : Block.transferControl ≠ Block.fifoControl := by decide
  have hseen : w.seen ++ w.block.signals (.block (.write Block.fifoControl word)) = w.seen :=
    List.append_nil _
  unfold wires
  rw [block_write, hblock]
  refine Wires.ext (funext fun other => ?_) ?_ rfl rfl hseen
  · simp only [Wires.empty, RegisterFile.get_set]
    split_ifs with hmem heq
    · exact absurd (heq ▸ hmem) (by decide)
    · rfl
    · rfl
  · simp only [Wires.empty, RegisterFile.get_set, if_neg hcontrol]

/-- Writing the transfer control word moves the chip select as the word says; `b` is the block
after what else is done. -/
theorem wires_control {word : UInt32} {b : SpiBlock} (hwords : b.words = w.block.words)
    (hblock : w.block.write Block.transferControl word =
      { b with words := b.words.set Block.transferControl (Block.startExchange.store word 0) }) :
    (ask (watched refusals) (.write Block.transferControl word) w).2.wires =
      { counts := w.wires.counts
        line := selected? word
        waiting := b.transmit
        incoming := b.receive ++ b.wire
        seen := w.seen ++ w.block.signals (.block (.write Block.transferControl word)) } := by
  have hout : Block.transferControl ∉ counters := by decide
  unfold wires
  rw [block_write, hblock]
  refine Wires.ext (funext fun other => ?_) ?_ rfl rfl rfl
  · simp only [RegisterFile.get_set, hwords]
    split_ifs with hmem heq
    · exact absurd (heq ▸ hmem) hout
    · rfl
    · rfl
  · simp only [RegisterFile.get_set, if_true]
    exact selected?_startExchange word 0

theorem wires_drive {word : UInt32} (hstart : Block.startExchange.raw word = 0) :
    (ask (watched refusals) (.write Block.transferControl word) w).2.wires =
      w.wires.drive (selected? word) ∧
    w.block.receive.length ≤
      (ask (watched refusals) (.write Block.transferControl word) w).2.block.receive.length := by
  have hblock : w.block.write Block.transferControl word = { w.block with
      words := w.block.words.set Block.transferControl (Block.startExchange.store word 0) } := by
    rw [SpiBlock.write, if_pos rfl, if_pos hstart]
  have hsignals : w.block.signals (.block (.write Block.transferControl word)) =
      edges w.wires.line (selected? word) := by
    rw [SpiBlock.signals, if_pos rfl, if_pos hstart, List.append_nil]
    rfl
  constructor
  · rw [w.wires_control refusals rfl hblock, hsignals]
    rfl
  · rw [block_write, hblock]

theorem wires_start {depth : Nat} {word : UInt32} (h : w.wires.Loaded depth)
    (hstart : Block.startExchange.raw word ≠ 0) :
    (ask (watched refusals) (.write Block.transferControl word) w).2.wires =
      (w.wires.drive (selected? word)).exchange (w.block.answered w.block.transmit.length) := by
  have hcount : Block.counter.raw (w.block.words.get Block.burstCount) =
      w.block.transmit.length := h.counted Block.burstCount (by decide)
  obtain ⟨hreceive, hwire⟩ := List.append_eq_nil_iff.mp h.taken
  -- the counter says just what waits, so no zeroes are sent after it
  have hsent : w.block.sent w.block.transmit.length = w.block.transmit := by
    rw [SpiBlock.sent, SpiBlock.upTo, List.take_length, Nat.sub_self, List.replicate_zero,
      List.append_nil]
  have hblock : w.block.write Block.transferControl word = { w.block.start with
      words := w.block.start.words.set Block.transferControl
        (Block.startExchange.store word 0) } := by
    rw [SpiBlock.write, if_pos rfl, if_neg hstart]
  have hsignals : w.block.signals (.block (.write Block.transferControl word)) =
      edges w.wires.line (selected? word) ++
        shifts w.block.transmit (w.block.answered w.block.transmit.length) := by
    rw [SpiBlock.signals, if_pos rfl, if_neg hstart, hcount, hsent]
    rfl
  have hwords : w.block.start.words = w.block.words := rfl
  rw [w.wires_control refusals hwords hblock, hsignals]
  refine Wires.ext rfl rfl ?_ ?_ (List.append_assoc _ _ _).symm
  · show w.block.transmit.drop _ = []
    rw [hcount, List.drop_length]
  · show w.block.receive ++ (w.block.wire ++ w.block.answered _) = w.block.answered _
    rw [hreceive, hwire, hcount, List.nil_append, List.nil_append]

theorem arrives_watched {count : Nat} {b : SpiBlock} (h : Arrives (host refusals) count b) :
    ∀ w : Watched, w.block = b → Arrives (watched refusals) count w := by
  induction h with
  | now h =>
    rintro w rfl
    exact .now h
  | later _ ih =>
    rintro w rfl
    exact .later (ih _ rfl)

end Watched

/-- **The simulated block has a wire.** -/
def wired (refusals : Refusals) (depth : Nat) (hdepth : depth ≤ 256) :
    Wired (watched refusals) depth where
  wires := Watched.wires
  ready w := w.block.receive.length
  ready_le w := by simp [Watched.wires]
  read offset _ w := w.wires_read refusals offset
  status w := by
    show Block.receiveCount.raw w.block.comeIn.status ≤ w.block.comeIn.receive.length
    rw [SpiBlock.raw_status]
    exact min_le_left _ _
  control w := rfl
  idle w _ := w.done
  count _ ho word w := w.wires_count refusals ho word
  push byte w _ := by
    have hseen : w.seen ++ w.block.signals (.block (.push byte)) = w.seen := List.append_nil _
    exact Wires.ext rfl rfl rfl rfl hseen
  pull w hready := w.wires_pull refusals hready
  reset _ w _ hreceive htransmit := w.wires_reset refusals hreceive htransmit
  drive _ w _ hstart := w.wires_drive refusals hstart
  start word w hloaded hstart := by
    have hwires := w.wires_start refusals hloaded hstart
    have hfits : w.block.transmit.length < depth := hloaded.fits
    have htotal := congrArg (List.length ∘ Wires.incoming) hwires
    refine ⟨_, w.block.length_answered _, hwires, ?_⟩
    refine Watched.arrives_watched refusals (arrives refusals _ ?_ _ ?_) _ rfl
    · rw [w.block.length_answered]
      exact Nat.le_of_lt_succ (Nat.lt_of_lt_of_le hfits hdepth)
    · rw [← List.length_append]
      exact htotal.ge

end SocBringup.Bench
