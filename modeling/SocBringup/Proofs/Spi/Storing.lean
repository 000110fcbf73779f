import SocBringup.Proofs.Program.Keeps
import SocBringup.Proofs.Spi.Delivery

/-! # Blocks that store what is written

What a controller relies on when it changes a field of a word and leaves the rest: bits read as they
were last written, but for those that clear themselves and those that report the state of a FIFO.

* `Stored`: the bits that are stored.
* `Storing`: a block that stores them.
* `Field.Stored`, `Storing.field`: a field all of whose bits are stored, and what it holds.
* `Bench.storing`: the simulated block stores. -/

namespace SocBringup

namespace Spi

variable {σ : Type}

/-- The bits of the block that are stored. -/
def Stored (offset i : Nat) : Prop :=
  offset ≠ Block.fifoStatus ∧
  (offset = Block.transferControl → ¬ Block.startExchange.Covers i) ∧
  (offset = Block.globalControl → ¬ Block.softReset.Covers i) ∧
  (offset = Block.fifoControl → ¬ Block.receiveReset.Covers i ∧ ¬ Block.transmitReset.Covers i)

/-- Two words of a register that agree on what is stored. -/
def Alike (offset : Nat) (a b : UInt32) : Prop :=
  ∀ i, Stored offset i → a.toNat.testBit i = b.toNat.testBit i

theorem Alike.rfl {offset : Nat} {a : UInt32} : Alike offset a a := fun _ _ => Eq.refl _

/-- **A block that stores what is written**, by offset. -/
structure Storing (serve : Handler Host σ) where
  word : σ → Nat → UInt32
  read : ∀ offset s, Alike offset (ask serve (.read offset) s).1 (word s offset)
  write : ∀ offset new s, Alike offset (word (ask serve (.write offset new) s).2 offset) new
  other : ∀ offset q s, (∀ new, q ≠ .block (.write offset new)) →
    Alike offset (word (serve q s).2 offset) (word s offset)

/-- All bits of the field are stored. -/
def Lasting (offset : Nat) (f : Field) : Prop := ∀ i, f.Covers i → Stored offset i

namespace Storing

variable {serve : Handler Host σ} (S : Storing serve)

/-- What a field of a register holds. -/
def field (offset : Nat) (f : Field) (s : σ) : Nat := f.raw (S.word s offset)

variable {S} {offset : Nat} {f : Field} (hf : Lasting offset f)
include hf

theorem raw_read (s : σ) : f.raw (ask serve (.read offset) s).1 = S.field offset f s :=
  Field.raw_congr fun i hi => S.read offset s i (hf i hi)

theorem field_write (new : UInt32) (s : σ) :
    S.field offset f (ask serve (.write offset new) s).2 = f.raw new :=
  Field.raw_congr fun i hi => S.write offset new s i (hf i hi)

theorem field_other {q : Host.Request} (hq : ∀ new, q ≠ .block (.write offset new)) (s : σ) :
    S.field offset f (serve q s).2 = S.field offset f s :=
  Field.raw_congr fun i hi => S.other offset q s hq i (hf i hi)

/-! ### Programs and fields -/

theorem keeps_read (other : Nat) : (Host.read other).Keeps serve (S.field offset f) :=
  .ask (field_other hf fun _ h => by cases h) fun _ => .pure _

theorem keeps_push (byte : UInt8) : (Host.push byte).Keeps serve (S.field offset f) :=
  .ask (field_other hf fun _ h => by cases h) fun _ => .pure _

theorem keeps_pull : Host.pull.Keeps serve (S.field offset f) :=
  .ask (field_other hf fun _ h => by cases h) fun _ => .pure _

theorem keeps_note (diagnostic : Diagnostic) :
    (Host.note diagnostic).Keeps serve (S.field offset f) :=
  .ask (field_other hf fun _ h => by cases h) fun _ => .pure _

/-- Writing one register keeps the fields of the others. -/
theorem keeps_write {other : Nat} (hne : other ≠ offset) (word : UInt32) :
    (Host.write other word).Keeps serve (S.field offset f) :=
  .ask (field_other hf fun _ h => by cases h; exact hne rfl) fun _ => .pure _

theorem keeps_modify_other {other : Nat} (hne : other ≠ offset) (change : UInt32 → UInt32) :
    (Host.modify other change).Keeps serve (S.field offset f) :=
  .bind (keeps_read hf other) fun _ => keeps_write hf hne _

/-- **Changing a register changes a field as the change does.** -/
theorem field_modify {change : UInt32 → UInt32} {g : Nat → Nat}
    (hchange : ∀ word, f.raw (change word) = g (f.raw word)) (s : σ) :
    S.field offset f ((Host.modify offset change).run serve s).state = g (S.field offset f s) := by
  rw [run_modify]
  show S.field offset f (ask serve (.write offset _) _).2 = _
  rw [field_write hf, hchange, raw_read hf]

/-- A change that leaves a field alone keeps it. -/
theorem keeps_modify {change : UInt32 → UInt32}
    (hchange : ∀ word, f.raw (change word) = f.raw word) :
    (Host.modify offset change).Keeps serve (S.field offset f) :=
  field_modify (g := id) hf hchange

end Storing

end Spi

/-! ### The simulated block stores -/

namespace Bench

open Spi

theorem SpiBlock.read_stored (b : SpiBlock) (offset : Nat) :
    Alike offset (SpiBlock.serve (.read offset) b).1 (b.words.get offset) := by
  intro i hi
  have hread : SpiBlock.serve (.read offset) b = (b.words.get offset, b) := if_neg hi.1
  rw [hread]

theorem SpiBlock.write_stored (b : SpiBlock) (offset : Nat) (word : UInt32) :
    Alike offset ((b.write offset word).words.get offset) word := by
  intro i hi
  unfold SpiBlock.write
  split_ifs with htransfer hstart hglobal hfifo
  · simp [Field.testBit_store, hi.2.1 htransfer]
  · simp [Field.testBit_store, hi.2.1 htransfer]
  · simp [Field.testBit_store, hi.2.2.1 hglobal]
  all_goals simp

/-- **The simulated block stores.** -/
def storing (refusals : Refusals) : Storing (host refusals) where
  word b := b.words.get
  read offset b := b.read_stored offset
  write offset word b := b.write_stored offset word
  other offset q b hq := by
    intro i _
    cases q with
    | block q =>
      cases q with
      | read other =>
        show ((SpiBlock.serve (.read other) b).2.words.get offset).toNat.testBit i = _
        rw [SpiBlock.words_serve_read]
      | write other word =>
        show ((b.write other word).words.get offset).toNat.testBit i = _
        rw [SpiBlock.get_write_ne b (fun h => hq word (by rw [h]))]
      | push byte => rfl
      | pull => rfl
    | supply q => rfl
    | note diagnostic => rfl

end Bench

end SocBringup
