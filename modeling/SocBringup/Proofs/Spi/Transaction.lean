import SocBringup.Proofs.Spi.ChipSelect
import SocBringup.Proofs.Spi.Wire

/-! # What a slave sees of a transaction

A transaction is two transfers, and a transfer many exchanges, but the slave sees one stretch of its
chip select in which the opcode and the payload are shifted out byte by byte.

* `Wired.Sent`: some bytes were shifted out and others in, and nothing else happened.
* `exists_exchange`, `exists_exchanges`: exchanges do this, given the patience their block asks for.
* `Wired.Reaches`: a block comes to rest again after some signals.
* `exists_transfer`: a transfer shifts its bytes between what it does to the chip select.
* `Slave.exists_transaction`: so a transaction is seen as one. -/

namespace SocBringup.Spi

variable {σ : Type} {serve : Handler Host σ} {depth : Nat}

/-- What a slave sees of a transaction: its chip select goes low, bytes are shifted, the chip select
goes high. -/
def transaction (select : Nat) (sent received : Bytes) : List Signal :=
  .select select :: (shifts sent received ++ [.release])

theorem shifts_append {a b x y : Bytes} (h : a.length = x.length) :
    shifts (a ++ b) (x ++ y) = shifts a x ++ shifts b y := List.zipWith_append h

theorem Wires.drive_self (w : Wires) : w.drive w.line = w := by
  unfold drive
  rw [edges_self, List.append_nil]

/-- The chip select that is low once a transfer has opened. -/
def Transfer.opened (t : Transfer) (line : Option Nat) : Option Nat :=
  if t.framing.opens then some t.select else line

/-- The chip select that is low once a transfer has closed. -/
def Transfer.closed (t : Transfer) (line : Option Nat) : Option Nat :=
  if t.framing.closes then none else line

namespace Wired

variable (W : Wired serve depth)

/-- No exchange is under way: what was received has come in. -/
def AtRest (s : σ) : Prop := (W.wires s).incoming.length ≤ W.ready s

/-- Both FIFOs are empty. -/
structure Drained (s : σ) : Prop where
  waiting : (W.wires s).waiting = []
  incoming : (W.wires s).incoming = []

/-- **Some bytes were shifted out and as many in**, all of which were taken out. -/
structure Sent (s : σ) (sent received : Bytes) (s' : σ) : Prop where
  balanced : sent.length = received.length
  line : (W.wires s').line = (W.wires s).line
  seen : (W.wires s').seen = (W.wires s).seen ++ shifts sent received
  drained : W.Drained s'

/-- **The block comes to rest again**, with a chip select low or none, after some signals. -/
structure Reaches (s : σ) (signals : List Signal) (line : Option Nat) (s' : σ) : Prop where
  rest : W.AtRest s'
  line : (W.wires s').line = line
  seen : (W.wires s').seen = (W.wires s).seen ++ signals

variable {W}

theorem Reaches.trans {s s' s'' : σ} {a b : List Signal} {line line' : Option Nat}
    (h : W.Reaches s a line s') (h' : W.Reaches s' b line' s'') : W.Reaches s (a ++ b) line' s'' where
  rest := h'.rest
  line := h'.line
  seen := by rw [h'.seen, h.seen, List.append_assoc]

theorem Drained.atRest {s : σ} (h : W.Drained s) : W.AtRest s := by
  unfold AtRest
  rw [h.incoming]
  exact Nat.zero_le _

theorem Sent.trans {s s' s'' : σ} {a b x y : Bytes} (h : W.Sent s a x s')
    (h' : W.Sent s' b y s'') : W.Sent s (a ++ b) (x ++ y) s'' where
  balanced := by rw [List.length_append, List.length_append, h.balanced, h'.balanced]
  line := h'.line.trans h.line
  seen := by rw [h'.seen, h.seen, shifts_append h.balanced, List.append_assoc]
  drained := h'.drained

/-! ### Exchanges -/

theorem wires_afterPushes : ∀ (bytes : Bytes) (s : σ),
    (W.wires s).waiting.length + bytes.length ≤ depth →
    W.wires (afterPushes serve bytes s) =
      { W.wires s with waiting := (W.wires s).waiting ++ bytes }
  | [], s, _ => by
    rw [List.append_nil]
    rfl
  | b :: rest, s, h => by
    have hroom : (W.wires s).waiting.length < depth := by
      rw [List.length_cons] at h
      omega
    have hpush := W.push b s hroom
    have hrest := wires_afterPushes rest (ask serve (.push b) s).2 (by
      rw [hpush, Wires.push, List.length_append, List.length_singleton]
      rw [List.length_cons] at h
      omega)
    rw [hpush, Wires.push, List.append_assoc] at hrest
    exact hrest

theorem exists_loaded {s : σ} (hs : W.Drained s) {bytes : Bytes} (h24 : bytes.length < 2 ^ 24)
    (hlt : bytes.length < depth) :
    ∃ counts : Nat → Nat, (∀ offset ∈ counters, counts offset = bytes.length) ∧
      W.wires (loaded serve bytes s) = { W.wires s with counts, waiting := bytes } := by
  have hcount : ∀ offset ∈ counters, ∀ t,
      W.wires (ask serve (.write offset (UInt32.ofNat bytes.length)) t).2 =
        { W.wires t with counts := Function.update (W.wires t).counts offset bytes.length } := by
    intro offset ho t
    rw [W.count offset ho, Wires.count, raw_counter h24]
  -- the three counters are set one after the other, and then the bytes are pushed
  let counts := Function.update (Function.update (Function.update (W.wires s).counts
    Block.burstCount bytes.length) Block.transmitCount bytes.length) Block.burstControl bytes.length
  let count := UInt32.ofNat bytes.length
  let s1 := (ask serve (.write Block.burstCount count) s).2
  let s2 := (ask serve (.write Block.transmitCount count) s1).2
  let s3 := (ask serve (.write Block.burstControl count) s2).2
  have hcounted : W.wires s3 = { W.wires s with counts } := by
    rw [hcount _ (by decide) s2, hcount _ (by decide) s1, hcount _ (by decide) s]
  have hroom : (W.wires s3).waiting.length + bytes.length ≤ depth := by
    rw [hcounted]
    simp only [hs.waiting, List.length_nil]
    omega
  refine ⟨counts, ?_, ?_⟩
  · intro offset ho
    simp only [counters, List.mem_cons, List.not_mem_nil, or_false] at ho
    rcases ho with rfl | rfl | rfl <;> simp [counts, Function.update_apply]
  · refine (wires_afterPushes bytes s3 hroom).trans ?_
    rw [hcounted]
    simp only [hs.waiting, List.nil_append]

/-- **Once an exchange is started, its bytes have been shifted** and are about to arrive. -/
theorem exists_started {s : σ} (hs : W.Drained s) {bytes : Bytes} (h24 : bytes.length < 2 ^ 24)
    (hlt : bytes.length < depth) :
    ∃ (counts : Nat → Nat) (received : Bytes), received.length = bytes.length ∧
      W.wires (started serve bytes s) =
        { W.wires s with
          counts, waiting := [], incoming := received
          seen := (W.wires s).seen ++ shifts bytes received } ∧
      Arrives serve bytes.length (started serve bytes s) := by
  obtain ⟨counts, hcounts, hloaded⟩ := exists_loaded hs h24 hlt
  have hread := (W.read Block.transferControl (by decide) (loaded serve bytes s)).1
  have hline := W.control (loaded serve bytes s)
  have hready : (W.wires (ask serve (.read Block.transferControl) (loaded serve bytes s)).2).Loaded
      depth := by
    rw [hread, hloaded]
    exact ⟨hcounts, hlt, hs.incoming⟩
  have hstart : ∀ word, Block.startExchange.raw (Block.startExchange.store word 1) ≠ 0 := by
    intro word
    rw [Field.raw_store]
    decide
  obtain ⟨received, hlength, hwires, harrives⟩ := W.start _ _ hready (hstart _)
  -- the word written back has the chip select that was read, so there is no edge
  rw [hread, hloaded] at hlength hwires
  rw [hlength] at harrives
  refine ⟨counts, received, hlength, hwires.trans ?_, harrives⟩
  rw [selected?_startExchange, hline, hloaded]
  rw [Wires.exchange, Wires.drive, edges_self, List.append_nil]

/-- A wait that ends well changes nothing, and what was waited for is ready. -/
theorem wires_await (count : Nat) : ∀ (patience : Nat) (s : σ),
    ((Controller.await count patience).run serve s).value = true →
    W.wires ((Controller.await count patience).run serve s).state = W.wires s ∧
      count ≤ W.ready ((Controller.await count patience).run serve s).state
  | 0, s, h => by cases h
  | patience + 1, s, h => by
    rcases Nat.lt_or_ge (Block.receiveCount.raw (ask serve (.read Block.fifoStatus) s).1) count
      with hfew | henough
    · rw [run_await_few hfew] at h ⊢
      obtain ⟨hwires, hready⟩ := wires_await count patience _ h
      exact ⟨hwires.trans (W.read _ (by decide) s).1, hready⟩
    · rw [run_await_enough henough]
      exact ⟨(W.read _ (by decide) s).1, henough.trans (W.status s)⟩

/-- What is ready is taken out in order. -/
theorem wires_drain : ∀ (count : Nat) (s : σ), count ≤ W.ready s →
    ((Controller.drain count).run serve s).value = (W.wires s).incoming.take count ∧
      W.wires ((Controller.drain count).run serve s).state =
        { W.wires s with incoming := (W.wires s).incoming.drop count }
  | 0, s, _ => ⟨rfl, rfl⟩
  | count + 1, s, h => by
    obtain ⟨hhead, hpull, hready⟩ := W.pull s (Nat.lt_of_lt_of_le (Nat.succ_pos count) h)
    obtain ⟨rest, hincoming⟩ := List.head?_eq_some_iff.mp hhead
    obtain ⟨hvalue, hwires⟩ := wires_drain count (ask serve .pull s).2 (by omega)
    have htail : (W.wires (ask serve .pull s).2).incoming = rest := by
      rw [hpull, Wires.pull, hincoming, List.tail_cons]
    rw [Controller.drain, Program.value_bind, Program.state_bind, Program.value_bind,
      Program.state_bind]
    constructor
    · refine (congrArg ((ask serve .pull s).1 :: ·) hvalue).trans ?_
      rw [htail, hincoming, List.take_succ_cons]
    · refine hwires.trans ?_
      rw [htail, hpull, hincoming, List.drop_succ_cons]
      rfl

/-- **An exchange shifts its bytes**, given the patience that its block asks for. -/
theorem exists_exchange {s : σ} (hs : W.Drained s) {bytes : Bytes} (h24 : bytes.length < 2 ^ 24)
    (hlt : bytes.length < depth) :
    ∃ (received : Bytes) (s' : σ) (patience : Nat), W.Sent s bytes received s' ∧
      ∀ c : Controller, patience < c.patience →
        (c.exchange bytes).Ends serve s (some received) s' := by
  obtain ⟨counts, received, hlength, hstarted, harrives⟩ := exists_started hs h24 hlt
  obtain ⟨early, last, s1, hwait⟩ := exists_wait harrives
  -- patience for one look more than were in vain is enough
  obtain ⟨hs1, hready⟩ : W.wires s1 = W.wires (started serve bytes s) ∧
      bytes.length ≤ W.ready s1 := by
    have hawait := wires_await (W := W) bytes.length (early.length + 1) (started serve bytes s)
    rw [hwait.run _ (Nat.lt_succ_self _)] at hawait
    exact hawait rfl
  obtain ⟨hvalue, hs2⟩ := wires_drain bytes.length s1 hready
  rw [hs1, hstarted, ← hlength, List.take_length] at hvalue
  rw [hs1, hstarted, ← hlength, List.drop_length] at hs2
  refine ⟨received, ((Controller.drain received.length).run serve s1).state, early.length, ?_, ?_⟩
  · exact ⟨hlength.symm, by rw [hs2], by rw [hs2], by rw [hs2], by rw [hs2]⟩
  · intro c hc
    have hcollect : (collect bytes.length c.patience).Ends serve (started serve bytes s)
        (some received) ((Controller.drain received.length).run serve s1).state := by
      have hawait := hwait.run c.patience hc
      refine .bind ⟨congrArg Run.value hawait, congrArg Run.state hawait⟩ ?_
      rw [← hlength]
      exact .bind ⟨hvalue, rfl⟩ (.pure _ _)
    unfold Program.Ends
    rw [run_exchange serve c h24]
    exact hcollect

/-- **Exchanges shift their bytes one after the other.** -/
theorem exists_exchanges (hdepth : depth ≤ 256) : ∀ (pieces : List Bytes),
    (∀ piece ∈ pieces, piece.length < depth) → ∀ {s : σ}, W.Drained s →
    ∃ (received : Bytes) (s' : σ) (patience : Nat), W.Sent s pieces.flatten received s' ∧
      ∀ c : Controller, patience < c.patience →
        (c.exchangeAll pieces).Ends serve s (some received) s'
  | [], _, s, hs => by
    refine ⟨[], s, 0, ⟨rfl, rfl, ?_, hs⟩, fun _ _ => .pure _ _⟩
    exact (List.append_nil _).symm
  | piece :: pieces, h, s, hs => by
    have hlt := h piece List.mem_cons_self
    obtain ⟨x, s1, p1, hsent, hrun⟩ := exists_exchange hs (by omega) hlt
    obtain ⟨y, s2, p2, hsents, hruns⟩ := exists_exchanges hdepth pieces
      (fun q hq => h q (List.mem_cons_of_mem _ hq)) hsent.drained
    refine ⟨x ++ y, s2, max p1 p2, hsent.trans hsents, fun c hc => ?_⟩
    have hfirst := hrun c (lt_of_le_of_lt (le_max_left _ _) hc)
    have hrest := hruns c (lt_of_le_of_lt (le_max_right _ _) hc)
    exact .bind hfirst (.bind hrest (.pure _ _))

/-! ### Transfers -/

theorem selected?_selectWord {select : Nat} (h : select ≤ maxSelect) (active : Bool)
    (word : UInt32) :
    selected? (selectWord select active word) = if active then some select else none := by
  rw [selected?, selectLevel_selectWord, chipSelect_selectWord h]
  cases active <;> rfl

theorem startExchange_selectWord (select : Nat) (active : Bool) (word : UInt32) :
    Block.startExchange.raw (selectWord select active word) = Block.startExchange.raw word := by
  have hlevel : Block.startExchange.Apart Block.selectLevel := by decide
  have hselect : Block.startExchange.Apart Block.chipSelect := by decide
  unfold selectWord
  cases active
  · exact (Field.raw_store_apart hlevel _ _).trans (Field.raw_store_apart hselect _ _)
  · exact (Field.raw_store_apart hlevel _ _).trans (Field.raw_store_apart hselect _ _)

theorem exists_driveIf {select : Nat} (hselect : select ≤ maxSelect) (drives active : Bool) {s : σ}
    (hs : W.AtRest s) :
    ∃ s', (driveIf drives select active).Ends serve s () s' ∧ W.AtRest s' ∧
      W.wires s' = (W.wires s).drive
        (if drives then if active then some select else none else (W.wires s).line) := by
  cases drives with
  | false => exact ⟨s, .pure _ _, hs, (Wires.drive_self _).symm⟩
  | true =>
    let r := ask serve (.read Block.transferControl) s
    obtain ⟨hread, hready⟩ := W.read Block.transferControl (by decide) s
    have hrest : W.AtRest r.2 := by
      unfold AtRest
      rw [hread]
      exact le_trans hs hready
    have hidle : Block.startExchange.raw (selectWord select active r.1) = 0 :=
      (startExchange_selectWord _ _ _).trans (W.idle s hs)
    obtain ⟨hdrive, hkept⟩ := W.drive _ r.2 hrest hidle
    refine ⟨_, ⟨rfl, rfl⟩, ?_, ?_⟩
    · have hincoming := congrArg (List.length ∘ Wires.incoming) hdrive
      exact hincoming.le.trans (le_trans hrest hkept)
    · refine hdrive.trans ?_
      rw [hread, selected?_selectWord hselect]
      rfl

theorem exists_fifoReset {s : σ} (hs : W.AtRest s) :
    ∃ s', (Host.modify Block.fifoControl fun word =>
        Block.transmitReset.store (Block.receiveReset.store word 1) 1).Ends serve s () s' ∧
      W.wires s' = (W.wires s).empty := by
  let r := ask serve (.read Block.fifoControl) s
  obtain ⟨hread, hready⟩ := W.read Block.fifoControl (by decide) s
  have hrest : W.AtRest r.2 := by
    unfold AtRest
    rw [hread]
    exact le_trans hs hready
  have happart : Block.receiveReset.Apart Block.transmitReset := by decide
  have hreceive : Block.receiveReset.raw
      (Block.transmitReset.store (Block.receiveReset.store r.1 1) 1) ≠ 0 := by
    rw [Field.raw_store_apart happart, Field.raw_store]
    decide
  have htransmit : Block.transmitReset.raw
      (Block.transmitReset.store (Block.receiveReset.store r.1 1) 1) ≠ 0 := by
    rw [Field.raw_store]
    decide
  refine ⟨_, ⟨rfl, rfl⟩, (W.reset _ r.2 hrest hreceive htransmit).trans ?_⟩
  rw [hread]

/-- **Up to its end, a transfer shifts its bytes** on the chip select that it opens or finds open. -/
theorem exists_moved (hdepth : 2 ≤ depth) (hdepth' : depth ≤ 256) {t : Transfer}
    (hselect : t.select ≤ maxSelect) {s : σ} (hs : W.AtRest s) :
    ∃ (received : Bytes) (s' : σ) (patience : Nat),
      (Controller.outgoing t).length = received.length ∧
      W.Reaches s (edges (W.wires s).line (t.opened (W.wires s).line) ++
        shifts (Controller.outgoing t) received) (t.opened (W.wires s).line) s' ∧
      ∀ c : Controller, c.depth = depth → patience < c.patience →
        (c.move t).Ends serve s (some received) s' := by
  obtain ⟨s1, hdrive, hrest, hs1⟩ := exists_driveIf hselect t.framing.opens true hs
  obtain ⟨s2, hreset, hs2⟩ := exists_fifoReset hrest
  -- whatever the FIFOs held before, the exchanges start with both of them empty
  have hdrained : W.Drained s2 := ⟨by rw [hs2, Wires.empty], by rw [hs2, Wires.empty]⟩
  have hpieces : ∀ piece ∈ chunks (depth - 1) (Controller.outgoing t), piece.length < depth := by
    intro piece hpiece
    have := (length_of_mem_chunks hpiece).2
    omega
  obtain ⟨received, s3, patience, hsent, hrun⟩ := exists_exchanges hdepth' _ hpieces hdrained
  rw [flatten_chunks (by omega)] at hsent
  refine ⟨received, s3, patience, hsent.balanced, ⟨hsent.drained.atRest, ?_, ?_⟩, fun c hc hp => ?_⟩
  · rw [hsent.line, hs2, hs1]
    rfl
  · rw [hsent.seen, hs2, hs1, ← List.append_assoc]
    rfl
  · have hsize : c.chunkSize = depth - 1 := by
      rw [chunkSize_eq (by omega) (by omega), hc]
    have hgo : ¬ (depth - 1 = 0 ∧ Controller.outgoing t ≠ []) := fun h => by omega
    rw [move_eq, hsize, if_neg hgo]
    exact .bind hdrive (.bind hreset (hrun c hp))

/-- **A transfer that fits shifts its bytes** between what it does to the chip select at its ends. -/
theorem exists_transfer (hdepth : 2 ≤ depth) (hdepth' : depth ≤ 256) {t : Transfer}
    (hfits : Controller.refusal? t = none) (hselect : t.select ≤ maxSelect) {s : σ}
    {before : Option Nat} (hs : W.AtRest s) (hline : (W.wires s).line = before) :
    ∃ (received : Bytes) (s' : σ) (patience : Nat),
      (Controller.outgoing t).length = received.length ∧
      W.Reaches s (edges before (t.opened before) ++ shifts (Controller.outgoing t) received ++
        edges (t.opened before) (t.closed (t.opened before))) (t.closed (t.opened before)) s' ∧
      ∀ c : Controller, c.depth = depth → patience < c.patience →
        (c.transfer t).Ends serve s ⟨.ok (), Controller.filled t received⟩ s' := by
  subst hline
  obtain ⟨received, s1, patience, hlength, hreach, hmove⟩ := exists_moved hdepth hdepth' hselect hs
  obtain ⟨s2, hdrive, hrest, hs2⟩ := exists_driveIf hselect t.framing.closes false hreach.rest
  have hlast : W.Reaches s1 (edges (t.opened (W.wires s).line)
      (t.closed (t.opened (W.wires s).line))) (t.closed (t.opened (W.wires s).line)) s2 := by
    rw [← hreach.line]
    exact ⟨hrest, by rw [hs2]; rfl, by rw [hs2]; rfl⟩
  refine ⟨received, s2, patience, hlength, hreach.trans hlast, fun c hc hp => ?_⟩
  rw [transfer_eq hfits]
  exact .bind (hmove c hc hp) (.bind hdrive (.pure _ _))

end Wired

/-! ### Transactions -/

namespace Slave

/-- The bytes that follow the opcode: the data to send, or as many zeroes as there is room for. -/
def payload (send receive : Option Bytes) : Bytes :=
  send.getD (List.replicate (payloadLength send receive) 0)

theorem length_payload (send receive : Option Bytes) :
    (payload send receive).length = payloadLength send receive := by
  cases send with
  | none => exact List.length_replicate
  | some data => rfl

theorem outgoing_first (slave : Slave) {opcode : Bytes} (h : opcode.length < 2 ^ 61)
    (length : Nat) : Controller.outgoing (slave.first opcode length) = opcode := by
  have hlength : (slave.first opcode length).bits / 8 = opcode.length :=
    (bitLength_div _).2.trans (Nat.mod_eq_of_lt h)
  show opcode.take ((slave.first opcode length).bits / 8) = opcode
  rw [hlength, List.take_length]

theorem outgoing_second (slave : Slave) {send receive : Option Bytes}
    (h : payloadLength send receive < 2 ^ 61) :
    Controller.outgoing (slave.second send receive) = payload send receive := by
  have hlength : (slave.second send receive).bits / 8 = payloadLength send receive :=
    (bitLength_div _).2.trans (Nat.mod_eq_of_lt h)
  unfold Controller.outgoing
  rw [hlength]
  cases send with
  | none => rfl
  | some data => exact List.take_length

theorem not_overlong {send receive : Option Bytes}
    (h : ∀ data ∈ send, ∀ buffer ∈ receive, data.length ≤ buffer.length) :
    ¬ Overlong send receive := by
  rintro ⟨data, hdata, buffer, hbuffer, hlt⟩
  have := h data hdata buffer hbuffer
  have := Nat.mod_le data.length (2 ^ 61)
  omega

/-- **A transaction is one stretch of the chip select.** Where there is as much room as there is data,
a transaction on a block that is at rest with no slave selected ends well and leaves it so. Its slave,
and no other, sees its chip select go low, the opcode and the payload shifted out, and its chip select
go high; what was shifted in along with the payload is in the receive buffer. -/
theorem exists_transaction (W : Wired serve depth) (hdepth : 2 ≤ depth) (hdepth' : depth ≤ 256)
    {slave : Slave} (hselect : slave.select ≤ maxSelect) {opcode : Bytes}
    (hopcode : opcode.length < 2 ^ 60) {send receive : Option Bytes}
    (hlength : payloadLength send receive < 2 ^ 60)
    (hroom : ∀ data ∈ send, ∀ buffer ∈ receive, data.length ≤ buffer.length) {s : σ}
    (hrest : W.AtRest s) (hline : (W.wires s).line = none) :
    ∃ (incoming : Bytes) (s' : σ) (patience : Nat),
      incoming.length = opcode.length + payloadLength send receive ∧
      W.Reaches s (transaction slave.select (opcode ++ payload send receive) incoming) none s' ∧
      ∀ c : Controller, c.depth = depth → patience < c.patience →
        ((slave.writeThenRead opcode send receive).expand c.serve).Ends serve s
          ⟨.ok (), receive.map fun buffer => incoming.drop opcode.length ++
            buffer.drop (payloadLength send receive)⟩ s' := by
  have hfirst : Controller.refusal? (slave.first opcode (payloadLength send receive)) = none := by
    rw [refusal?_first, if_neg (Nat.not_lt.mpr hselect)]
  have hsecond := (refusal?_second hselect send receive).2 (not_overlong hroom)
  obtain ⟨x, s1, p1, hx, hreach1, hrun1⟩ :=
    Wired.exists_transfer hdepth hdepth' hfirst hselect hrest hline
  rw [outgoing_first slave (by omega)] at hx hreach1
  by_cases hn : payloadLength send receive = 0
  · -- the opcode is all there is, and its transfer closes as well
    have hpayload : payload send receive = [] :=
      List.length_eq_zero_iff.mp ((length_payload send receive).trans hn)
    have hbuffer : (receive.map fun buffer => x.drop opcode.length ++ buffer.drop 0) = receive := by
      rw [hx, List.drop_length]
      exact Option.map_id'
    rw [hn] at hreach1 hrun1
    refine ⟨x, s1, p1, by rw [hn, ← hx, Nat.add_zero], ?_, fun c hc hp => ?_⟩
    · rw [hpayload, List.append_nil]
      exact hreach1
    · rw [expand_writeThenRead, hn]
      refine .bind (hrun1 c hc hp) ?_
      rw [hbuffer]
      exact .pure _ _
  · -- the first transfer opens, the second closes
    have hopening : W.Reaches s (.select slave.select :: shifts opcode x) (some slave.select) s1 := by
      have hframing : (slave.first opcode (payloadLength send receive)).framing = .opening :=
        if_neg hn
      rw [Transfer.opened, Transfer.closed, hframing] at hreach1
      simpa [Framing.opening, first, edges] using hreach1
    obtain ⟨y, s2, p2, hy, hreach2, hrun2⟩ :=
      Wired.exists_transfer hdepth hdepth' hsecond hselect hopening.rest hopening.line
    rw [outgoing_second slave (by omega)] at hy hreach2
    have hclosing : W.Reaches s1 (shifts (payload send receive) y ++ [.release]) none s2 := by
      simpa [Transfer.opened, Transfer.closed, second, Framing.closing, edges] using hreach2
    have hfilled : Controller.filled (slave.second send receive) y =
        receive.map fun buffer => (x ++ y).drop opcode.length ++
          buffer.drop (payloadLength send receive) := by
      rw [List.drop_left' hx.symm, ← length_payload send receive, hy]
      rfl
    refine ⟨x ++ y, s2, max p1 p2, ?_, ?_, fun c hc hp => ?_⟩
    · rw [List.length_append, ← hx, ← hy, length_payload]
    · rw [transaction, shifts_append hx, List.append_assoc]
      exact hopening.trans hclosing
    · have hlast := hrun2 c hc (lt_of_le_of_lt (le_max_right _ _) hp)
      rw [hfilled] at hlast
      rw [expand_writeThenRead]
      refine .bind (hrun1 c hc (lt_of_le_of_lt (le_max_left _ _) hp)) ?_
      simp only [if_neg hn]
      exact hlast

end Slave

/-- A flash chip about to be asked who it is, one byte of its answer at every look. -/
def flashBlock : Bench.Watched where
  block := { unselected with script := some [0xff, 0xef, 0x40, 0x18], dribble := 1 }
  done := by decide +kernel

/-- Three bytes are read after the opcode. -/
theorem exists_transaction_identify :
    ∃ (incoming : Bytes) (w : Bench.Watched) (patience : Nat), incoming.length = 4 ∧
      w.seen = transaction 1 [0x9f, 0, 0, 0] incoming ∧
      ∀ c : Controller, c.depth = 64 → patience < c.patience →
        ((flash.writeThenRead [0x9f] none (some [0, 0, 0])).expand c.serve).Ends (Bench.watched [])
          flashBlock ⟨.ok (), some (incoming.drop 1)⟩ w := by
  have hopcode : ([0x9f] : Bytes).length < 2 ^ 60 := by decide
  have hlength : Slave.payloadLength none (some [0, 0, 0]) < 2 ^ 60 := by decide
  have hroom : ∀ data ∈ (none : Option Bytes), ∀ buffer ∈ some ([0, 0, 0] : Bytes),
      data.length ≤ buffer.length := fun _ h => by cases h
  have hrest : (Bench.wired [] 64 (by decide)).AtRest flashBlock := Nat.le_refl 0
  have hline : ((Bench.wired [] 64 (by decide)).wires flashBlock).line = none := by
    decide +kernel
  obtain ⟨incoming, w, patience, hcount, hreach, hends⟩ :=
    flash.exists_transaction (Bench.wired [] 64 (by decide)) (by decide) (by decide)
      (by decide) hopcode hlength hroom hrest hline
  refine ⟨incoming, w, patience, hcount, hreach.seen, fun c hc hp => ?_⟩
  simpa [Slave.payloadLength] using hends c hc hp

end SocBringup.Spi
