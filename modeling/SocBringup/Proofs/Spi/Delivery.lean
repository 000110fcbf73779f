import SocBringup.Bench.Partner
import SocBringup.Proofs.Register.Apart
import SocBringup.Spi.Controller
import Mathlib.Tactic

/-! # Conversations with a block, and blocks that deliver

A run against a register block leaves a conversation, the list of requests with their answers. The
bytes that went out and came in are read off it.

* `pushes`, `pulls`: the bytes put into the transmit FIFO and taken out of the receive FIFO.
* `Arrives`: however often one has to look, the receive FIFO is seen to hold so many bytes in the end.
* `Delivering`: a block that, once an exchange is started, lets the bytes of the exchange arrive.
* `run_fill`, `run_drain`, `run_await`: the conversations of the three loops.
* `Bench.delivering`: the simulated block delivers, at every pace. -/

namespace SocBringup.Spi

variable {σ : Type}

/-! ### What is said -/

/-- A word was read. -/
def saw (offset : Nat) (word : UInt32) : Exchange Host := ⟨.block (.read offset), word⟩

/-- A word was written. -/
def wrote (offset : Nat) (word : UInt32) : Exchange Host := ⟨.block (.write offset word), ()⟩

/-- A byte was put into the transmit FIFO. -/
def pushed (byte : UInt8) : Exchange Host := ⟨.block (.push byte), ()⟩

/-- A byte was taken out of the receive FIFO. -/
def pulled (byte : UInt8) : Exchange Host := ⟨.block .pull, byte⟩

/-- The byte that was put into the transmit FIFO, if that is what was said. -/
def pushedByte? : Exchange Host → Option UInt8
  | ⟨.block (.push byte), _⟩ => some byte
  | _ => none

/-- The byte that was taken out of the receive FIFO, if that is what was said. -/
def pulledByte? : Exchange Host → Option UInt8
  | ⟨.block .pull, byte⟩ => some byte
  | _ => none

@[simp] theorem pushedByte?_saw (offset : Nat) (word : UInt32) :
    pushedByte? (saw offset word) = none := rfl

@[simp] theorem pushedByte?_wrote (offset : Nat) (word : UInt32) :
    pushedByte? (wrote offset word) = none := rfl

@[simp] theorem pushedByte?_pulled (byte : UInt8) : pushedByte? (pulled byte) = none := rfl

@[simp] theorem pulledByte?_pushed (byte : UInt8) : pulledByte? (pushed byte) = none := rfl

@[simp] theorem pulledByte?_saw (offset : Nat) (word : UInt32) :
    pulledByte? (saw offset word) = none := rfl

@[simp] theorem pulledByte?_wrote (offset : Nat) (word : UInt32) :
    pulledByte? (wrote offset word) = none := rfl

/-- The bytes put into the transmit FIFO, in order. -/
def pushes (trace : List (Exchange Host)) : Bytes := trace.filterMap pushedByte?

/-- The bytes taken out of the receive FIFO, in order. -/
def pulls (trace : List (Exchange Host)) : Bytes := trace.filterMap pulledByte?

@[simp] theorem pushes_nil : pushes [] = [] := rfl

@[simp] theorem pulls_nil : pulls [] = [] := rfl

@[simp] theorem pushes_append (a b : List (Exchange Host)) :
    pushes (a ++ b) = pushes a ++ pushes b := List.filterMap_append

@[simp] theorem pulls_append (a b : List (Exchange Host)) :
    pulls (a ++ b) = pulls a ++ pulls b := List.filterMap_append

@[simp] theorem pushes_cons (e : Exchange Host) (rest : List (Exchange Host)) :
    pushes (e :: rest) = (pushedByte? e).toList ++ pushes rest := by
  unfold pushes
  rw [List.filterMap_cons]
  cases pushedByte? e <;> rfl

@[simp] theorem pulls_cons (e : Exchange Host) (rest : List (Exchange Host)) :
    pulls (e :: rest) = (pulledByte? e).toList ++ pulls rest := by
  unfold pulls
  rw [List.filterMap_cons]
  cases pulledByte? e <;> rfl

theorem pushes_map_pushed (bytes : Bytes) : pushes (bytes.map pushed) = bytes := by
  rw [pushes, List.filterMap_map]
  exact List.filterMap_some

theorem pulls_map_pulled (bytes : Bytes) : pulls (bytes.map pulled) = bytes := by
  rw [pulls, List.filterMap_map]
  exact List.filterMap_some

/-- What puts no byte into the transmit FIFO puts none in however often it is said. -/
theorem pushes_map_eq_nil {α : Type} {say : α → Exchange Host}
    (h : ∀ a, pushedByte? (say a) = none) (xs : List α) : pushes (xs.map say) = [] := by
  rw [pushes, List.filterMap_map]
  exact List.filterMap_eq_nil_iff.mpr fun a _ => h a

theorem pulls_map_eq_nil {α : Type} {say : α → Exchange Host}
    (h : ∀ a, pulledByte? (say a) = none) (xs : List α) : pulls (xs.map say) = [] := by
  rw [pulls, List.filterMap_map]
  exact List.filterMap_eq_nil_iff.mpr fun a _ => h a

/-! ### Single requests -/

/-- The answer of a block to a request, and the state it is then in. -/
def ask (serve : Handler Host σ) (q : Block.Request) (s : σ) : q.Answer × σ := serve (.block q) s

section Requests
variable (serve : Handler Host σ) (s : σ)

theorem run_pure {α : Type} (a : α) : (pure a : Program Host α).run serve s = ⟨a, s, []⟩ := rfl

theorem run_read (offset : Nat) :
    (Host.read offset).run serve s =
      ⟨(ask serve (.read offset) s).1, (ask serve (.read offset) s).2,
        [saw offset (ask serve (.read offset) s).1]⟩ := rfl

theorem run_write (offset : Nat) (word : UInt32) :
    (Host.write offset word).run serve s =
      ⟨(), (ask serve (.write offset word) s).2, [wrote offset word]⟩ := rfl

theorem run_push (byte : UInt8) :
    (Host.push byte).run serve s = ⟨(), (ask serve (.push byte) s).2, [pushed byte]⟩ := rfl

theorem run_pull :
    Host.pull.run serve s =
      ⟨(ask serve .pull s).1, (ask serve .pull s).2, [pulled (ask serve .pull s).1]⟩ := rfl

theorem run_modify (offset : Nat) (change : UInt32 → UInt32) :
    (Host.modify offset change).run serve s =
      ⟨(), (ask serve (.write offset (change (ask serve (.read offset) s).1))
        (ask serve (.read offset) s).2).2,
        [saw offset (ask serve (.read offset) s).1,
          wrote offset (change (ask serve (.read offset) s).1)]⟩ := rfl

end Requests

/-! ### Blocks that deliver -/

/-- **The receive FIFO is seen to hold `count` bytes** after some number of looks. -/
inductive Arrives (serve : Handler Host σ) (count : Nat) : σ → Prop
  | now {s : σ} (h : count ≤ Block.receiveCount.raw (ask serve (.read Block.fifoStatus) s).1) :
      Arrives serve count s
  | later {s : σ} (h : Arrives serve count (ask serve (.read Block.fifoStatus) s).2) :
      Arrives serve count s

/-- **A block that delivers.** It remembers its burst counter, and when an exchange is started whose
burst is below `limit`, the bytes of the burst arrive. -/
structure Delivering (serve : Handler Host σ) (limit : Nat) where
  burst : σ → Nat
  burst_write : ∀ word s,
    burst (ask serve (.write Block.burstCount word) s).2 = Block.counter.raw word
  burst_other : ∀ q s, (∀ word, q ≠ .write Block.burstCount word) →
    burst (ask serve q s).2 = burst s
  arrives : ∀ word s, Block.startExchange.raw word ≠ 0 → burst s < limit →
    Arrives serve (burst s) (ask serve (.write Block.transferControl word) s).2

/-! ### The three loops -/

/-- The state after bytes were put into the transmit FIFO. -/
def afterPushes (serve : Handler Host σ) (bytes : Bytes) (s : σ) : σ :=
  bytes.foldl (fun s b => (ask serve (.push b) s).2) s

theorem run_fill (serve : Handler Host σ) : ∀ (bytes : Bytes) (s : σ),
    (Controller.fill bytes).run serve s = ⟨(), afterPushes serve bytes s, bytes.map pushed⟩
  | [], s => rfl
  | b :: rest, s => by
    simp only [Controller.fill, Program.run_bind, run_push, run_fill serve rest]
    rfl

theorem run_drain (serve : Handler Host σ) : ∀ (count : Nat) (s : σ),
    ∃ (received : Bytes) (s' : σ), received.length = count ∧
      (Controller.drain count).run serve s = ⟨received, s', received.map pulled⟩
  | 0, s => ⟨[], s, rfl, rfl⟩
  | count + 1, s => by
    obtain ⟨rest, s', hlength, hrun⟩ := run_drain serve count (ask serve .pull s).2
    refine ⟨(ask serve .pull s).1 :: rest, s', by rw [List.length_cons, hlength], ?_⟩
    simp only [Controller.drain, Program.run_bind, run_pull, hrun, run_pure, List.append_nil]
    rfl

theorem run_await_few {serve : Handler Host σ} {count : Nat} {s : σ}
    (h : Block.receiveCount.raw (ask serve (.read Block.fifoStatus) s).1 < count)
    (patience : Nat) :
    (Controller.await count (patience + 1)).run serve s =
      let r := (Controller.await count patience).run serve (ask serve (.read Block.fifoStatus) s).2
      ⟨r.value, r.state,
        saw Block.fifoStatus (ask serve (.read Block.fifoStatus) s).1 :: r.trace⟩ := by
  rw [Controller.await, Program.run_bind, run_read]
  dsimp only
  rw [if_pos h]
  rfl

theorem run_await_enough {serve : Handler Host σ} {count : Nat} {s : σ}
    (h : count ≤ Block.receiveCount.raw (ask serve (.read Block.fifoStatus) s).1)
    (patience : Nat) :
    (Controller.await count (patience + 1)).run serve s =
      ⟨true, (ask serve (.read Block.fifoStatus) s).2,
        [saw Block.fifoStatus (ask serve (.read Block.fifoStatus) s).1]⟩ := by
  rw [Controller.await, Program.run_bind, run_read]
  dsimp only
  rw [if_neg (Nat.not_lt.mpr h)]
  rfl

/-- A wait that ends: the words seen, too few at every look before the last, and the state after. -/
structure Wait (serve : Handler Host σ) (count : Nat) (s : σ) (early : List UInt32) (last : UInt32)
    (s' : σ) : Prop where
  few : ∀ word ∈ early, Block.receiveCount.raw word < count
  enough : count ≤ Block.receiveCount.raw last
  run : ∀ patience, early.length < patience → (Controller.await count patience).run serve s =
    ⟨true, s', (early ++ [last]).map (saw Block.fifoStatus)⟩

theorem Wait.now {serve : Handler Host σ} {count : Nat} {s : σ}
    (h : count ≤ Block.receiveCount.raw (ask serve (.read Block.fifoStatus) s).1) :
    Wait serve count s [] (ask serve (.read Block.fifoStatus) s).1
      (ask serve (.read Block.fifoStatus) s).2 where
  few := by simp
  enough := h
  run
    | 0, hp => absurd hp (Nat.lt_irrefl 0)
    | patience + 1, _ => run_await_enough h patience

/-- **Waiting ends where the bytes arrive.** -/
theorem exists_wait {serve : Handler Host σ} {count : Nat} {s : σ} (h : Arrives serve count s) :
    ∃ early last s', Wait serve count s early last s' := by
  induction h with
  | now h => exact ⟨_, _, _, Wait.now h⟩
  | @later s _ ih =>
    by_cases hnow : count ≤ Block.receiveCount.raw (ask serve (.read Block.fifoStatus) s).1
    · exact ⟨_, _, _, Wait.now hnow⟩
    · obtain ⟨early, last, s', hfew, henough, hrun⟩ := ih
      have hless := Nat.lt_of_not_le hnow
      refine ⟨(ask serve (.read Block.fifoStatus) s).1 :: early, last, s', ?_, henough, ?_⟩
      · rintro word hword
        rcases List.mem_cons.mp hword with rfl | hword
        · exact hless
        · exact hfew word hword
      · rintro (_ | patience) hp
        · exact absurd hp (Nat.not_lt_zero _)
        · rw [run_await_few hless, hrun patience (Nat.lt_of_succ_lt_succ hp)]
          rfl

end SocBringup.Spi

/-! ### The simulated block delivers -/

namespace SocBringup.Bench

open Spi

namespace SpiBlock

theorem length_upTo (count : Nat) (bytes : Bytes) (more : UInt8) :
    (upTo count bytes more).length = count := by
  rw [upTo, List.length_append, List.length_take, List.length_replicate]
  omega

theorem length_answered (b : SpiBlock) (count : Nat) : (b.answered count).length = count := by
  unfold answered
  split <;> exact length_upTo _ _ _

theorem raw_status (b : SpiBlock) :
    Block.receiveCount.raw b.status = min b.receive.length 255 := by
  rw [status, Field.raw_store]
  have h : min b.receive.length 255 ≤ 255 := min_le_right _ _
  exact Nat.mod_eq_of_lt (Nat.lt_succ_of_le h)

theorem length_comeIn (b : SpiBlock) :
    b.comeIn.receive.length + b.comeIn.wire.length = b.receive.length + b.wire.length := by
  unfold comeIn
  simp only [List.length_append, List.length_take, List.length_drop]
  omega

theorem length_wire_comeIn (b : SpiBlock) (h : b.wire ≠ []) :
    b.comeIn.wire.length < b.wire.length := by
  have hpos := List.length_pos_iff.mpr h
  unfold comeIn
  simp only [List.length_drop]
  split_ifs <;> omega

theorem words_serve_read (b : SpiBlock) (offset : Nat) :
    (serve (.read offset) b).2.words = b.words := by
  show (if offset = Block.fifoStatus then (b.comeIn.status, b.comeIn)
    else (b.words.get offset, b)).2.words = _
  split_ifs <;> rfl

/-- A write changes no other word. -/
theorem get_write_ne (b : SpiBlock) {offset other : Nat} (h : other ≠ offset) (word : UInt32) :
    (b.write offset word).words.get other = b.words.get other := by
  unfold write
  split_ifs <;> simp [start, h]

theorem get_burstCount_write (b : SpiBlock) (word : UInt32) :
    (b.write Block.burstCount word).words.get Block.burstCount = word := by
  rw [write, if_neg (by decide), if_neg (by decide), if_neg (by decide)]
  exact (RegisterFile.get_set _ _ _ _).trans (if_pos rfl)

end SpiBlock

/-- **What is on the wire arrives**, at every pace. -/
theorem arrives (refusals : Refusals) (count : Nat) (hcount : count ≤ 255) (b : SpiBlock)
    (h : count ≤ b.receive.length + b.wire.length) : Arrives (host refusals) count b := by
  induction hn : b.wire.length using Nat.strong_induction_on generalizing b with
  | _ n ih =>
    have hstatus : (ask (host refusals) (.read Block.fifoStatus) b) = (b.comeIn.status, b.comeIn) :=
      rfl
    have htotal := b.length_comeIn
    by_cases hnow : count ≤ b.comeIn.receive.length
    · refine .now ?_
      rw [hstatus, SpiBlock.raw_status]
      exact le_min hnow hcount
    · have hwire : b.wire ≠ [] := by
        rintro hnil
        have : b.comeIn.wire = [] := by simp [SpiBlock.comeIn, hnil]
        rw [this, List.length_nil] at htotal
        rw [hnil, List.length_nil] at h
        omega
      refine .later ?_
      rw [hstatus]
      exact ih _ (hn ▸ b.length_wire_comeIn hwire) b.comeIn (by omega) rfl

/-- **The simulated block delivers.** -/
def delivering (refusals : Refusals) (limit : Nat) (hlimit : limit ≤ 256) :
    Delivering (host refusals) limit where
  burst b := Block.counter.raw (b.words.get Block.burstCount)
  burst_write word b := by
    show Block.counter.raw ((b.write _ word).words.get _) = _
    rw [SpiBlock.get_burstCount_write]
  burst_other q b hq := by
    cases q with
    | read offset =>
      show Block.counter.raw ((SpiBlock.serve (.read offset) b).2.words.get _) = _
      rw [SpiBlock.words_serve_read]
    | write offset word =>
      show Block.counter.raw ((b.write offset word).words.get _) = _
      rw [SpiBlock.get_write_ne b (fun h => hq word (by rw [h]))]
    | push byte => rfl
    | pull => rfl
  arrives word b hstart hburst := by
    refine arrives refusals _ (by omega) _ ?_
    show _ ≤ (b.write Block.transferControl word).receive.length +
      (b.write Block.transferControl word).wire.length
    have hwire : (b.write Block.transferControl word).wire =
        b.wire ++ b.answered (Block.counter.raw (b.words.get Block.burstCount)) := by
      rw [SpiBlock.write, if_pos rfl, if_neg hstart]
      rfl
    rw [hwire, List.length_append, SpiBlock.length_answered]
    omega

end SocBringup.Bench
