import SocBringup.Proofs.Program.Within
import SocBringup.Proofs.Register.Apart
import SocBringup.Register.Memory

/-! # Byte memory as words

A block of memory is a map from word numbers to little-endian words. Access to aligned words and to
single bytes is access to this map: a word that is written is that word of the map, a byte that is
written is one lane of one word.

* `Field.lane`: the place of a byte in its word.
* `Memory.words`, `Memory.ofWords`: memory and words determine each other.
* `words_setWord`, `words_setByte`: what becomes of the words.
* `Memory.run_words`: a caller cannot tell the two apart. -/

namespace SocBringup

/-! ### Lanes -/

namespace Field

/-- The place of the byte at an address in the word that it belongs to. -/
def lane (address : Nat) : Field where
  shift := 8 * (address % 4)
  width := 8
  fits := decide_eq_true (by omega)

theorem lane_congr {a b : Nat} (h : a % 4 = b % 4) : lane a = lane b := by
  unfold lane
  simp only [h]

theorem raw_lane (address : Nat) (word : UInt32) :
    (lane address).raw word = word.toNat / 2 ^ (8 * (address % 4)) % 2 ^ 8 := raw_eq _ word

theorem apart_lane {a b : Nat} (h : a % 4 ≠ b % 4) : (lane a).Apart (lane b) := by
  show 8 * (a % 4) + 8 ≤ 8 * (b % 4) ∨ 8 * (b % 4) + 8 ≤ 8 * (a % 4)
  omega

/-- **A word is known by its lanes.** -/
theorem eq_of_lanes {a b : UInt32} (h : ∀ i < 4, (lane i).raw a = (lane i).raw b) : a = b := by
  refine UInt32.toNat_inj.mp (Nat.eq_of_testBit_eq fun j => ?_)
  by_cases hj : j < 32
  · have hcovers : (lane (j / 8)).Covers j := by
      show 8 * (j / 8 % 4) ≤ j ∧ j < 8 * (j / 8 % 4) + 8
      omega
    exact testBit_of_raw (h (j / 8) (by omega)) hcovers
  · rw [testBit_eq_false a (not_lt.mp hj), testBit_eq_false b (not_lt.mp hj)]

end Field

namespace Memory

open SocBringup.Field (lane)

theorem toNat_wordByte (word : UInt32) (address : Nat) :
    (wordByte word (address % 4)).toNat = (lane address).raw word := by
  rw [Field.raw_lane, wordByte, UInt8.toNat_ofNat', Nat.shiftRight_eq_div_pow]

/-! ### Bytes -/

variable (m : Memory) (address : Nat)

theorem size_setByte (b : UInt8) : (m.setByte address b).cells.size = m.cells.size :=
  Array.size_setIfInBounds

theorem byte_setByte (b : UInt8) (other : Nat) :
    (m.setByte address b).byte other =
      if other = address ∧ address < m.cells.size then b else m.byte other := by
  unfold byte setByte
  rw [Array.getD_eq_getD_getElem?, Array.getD_eq_getD_getElem?, Array.getElem?_setIfInBounds]
  by_cases hother : address = other
  · subst hother
    by_cases hlt : address < m.cells.size
    · simp [hlt]
    · simp [hlt]
  · rw [if_neg hother, if_neg fun h => hother h.1.symm]

theorem size_setWord (word : UInt32) : (m.setWord address word).cells.size = m.cells.size := by
  unfold setWord
  simp only [size_setByte]

theorem byte_setWord (word : UInt32) (h : address + 4 ≤ m.cells.size) (other : Nat) :
    (m.setWord address word).byte other =
      if address ≤ other ∧ other < address + 4 then wordByte word (other - address)
      else m.byte other := by
  unfold setWord
  simp only [byte_setByte, size_setByte]
  by_cases hin : address ≤ other ∧ other < address + 4
  · rw [if_pos hin]
    obtain ⟨i, rfl⟩ := Nat.exists_eq_add_of_le hin.1
    have hi : i < 4 := by omega
    interval_cases i <;> simp <;> omega
  · rw [if_neg hin]
    repeat rw [if_neg (by omega)]

/-- **The lanes of a word are its bytes in memory**, the least significant first. -/
theorem raw_word {i : Nat} (hi : i < 4) :
    (lane i).raw (m.word address) = (m.byte (address + i)).toNat := by
  have h0 := (m.byte address).toNat_lt
  have h1 := (m.byte (address + 1)).toNat_lt
  have h2 := (m.byte (address + 2)).toNat_lt
  have h3 := (m.byte (address + 3)).toNat_lt
  rw [Field.raw_lane, word, UInt32.toNat_ofNat']
  simp only [Nat.shiftLeft_eq]
  interval_cases i <;> simp <;> omega

/-! ### Words -/

/-- The words of a block, by number. Bytes that it does not have count as zero. -/
def words : Nat → UInt32 := fun k => m.word (4 * k)

/-- The block of a given size that holds the given words. -/
def ofWords (size : Nat) (words : Nat → UInt32) : Memory :=
  ⟨Array.ofFn fun i : Fin size => wordByte (words (i / 4)) (i % 4)⟩

/-- **A byte is a lane of a word.** -/
theorem byte_eq_wordByte : m.byte address = wordByte (m.words (address / 4)) (address % 4) := by
  refine UInt8.toNat_inj.mp ?_
  rw [toNat_wordByte, Field.lane_congr (Nat.mod_mod address 4).symm, words,
    m.raw_word _ (Nat.mod_lt _ (by decide)), Nat.div_add_mod]

/-- **A block is known by its size and its words.** -/
theorem ofWords_words : ofWords m.cells.size m.words = m := by
  obtain ⟨cells⟩ := m
  refine congrArg mk (Array.ext (Array.size_ofFn) fun i _ hi => ?_)
  rw [Array.getElem_ofFn, ← byte_eq_wordByte]
  show cells.getD i 0 = cells[i]
  rw [Array.getD_eq_getD_getElem?, Array.getElem?_eq_getElem hi, Option.getD_some]

variable {m address}

/-- **Writing a word changes that word and no other.** -/
theorem words_setWord {k : Nat} (h : 4 * k + 4 ≤ m.cells.size) (word : UInt32) :
    (m.setWord (4 * k) word).words = Function.update m.words k word := by
  funext n
  refine Field.eq_of_lanes fun i hi => ?_
  rw [words, raw_word _ _ hi, byte_setWord _ _ _ h]
  by_cases hn : n = k
  · subst hn
    rw [Function.update_self, if_pos (by omega), Nat.add_sub_cancel_left, ← toNat_wordByte,
      Nat.mod_eq_of_lt hi]
  · rw [Function.update_of_ne hn, if_neg (by omega), words, raw_word _ _ hi]

/-- **Writing a byte changes that lane of its word, and no other word.** -/
theorem words_setByte (h : address < m.cells.size) (b : UInt8) :
    (m.setByte address b).words =
      Function.update m.words (address / 4)
        ((lane address).store (m.words (address / 4)) b.toNat) := by
  funext n
  refine Field.eq_of_lanes fun i hi => ?_
  rw [words, raw_word _ _ hi, byte_setByte]
  by_cases hn : n = address / 4
  · subst hn
    rw [Function.update_self]
    by_cases hlane : i = address % 4
    · have hwhole : 4 * (address / 4) + i = address := by omega
      have hb : b.toNat < 2 ^ 8 := b.toNat_lt
      rw [if_pos ⟨hwhole, h⟩, Field.lane_congr (a := i) (b := address) (by omega),
        Field.raw_store]
      exact (Nat.mod_eq_of_lt hb).symm
    · rw [if_neg (by omega), Field.raw_store_apart (Field.apart_lane (by omega)), words,
        raw_word _ _ hi]
  · rw [Function.update_of_ne hn, if_neg (by omega), words, raw_word _ _ hi]

end Memory

/-! ### Access -/

/-- An access: to the word of a register window at an offset, or to the byte at an address. -/
inductive Access where
  | read (offset : Nat)
  | write (offset : Nat) (word : UInt32)
  | setBits (offset : Nat) (mask : UInt32)
  | clearBits (offset : Nat) (mask : UInt32)
  | readByte (address : Nat)
  | writeByte (address : Nat) (b : UInt8)

/-- What an access answers. -/
abbrev Access.Answer : Access → Type
  | read _ => UInt32
  | readByte _ => UInt8
  | write _ _ | setBits _ _ | clearBits _ _ | writeByte _ _ => Unit

/-- Access to a block of memory. -/
abbrev Accesses : Interface := ⟨Access, Access.Answer⟩

namespace Memory

open SocBringup.Field (lane)

/-- A block of memory with a register window at `base` answers accesses. -/
def access (base : Nat) : Handler Accesses Memory
  | .read offset, m => serve base (.read offset) m
  | .write offset word, m => serve base (.write offset word) m
  | .setBits offset mask, m => ((), ((Registers.setBits offset mask).run (serve base) m).state)
  | .clearBits offset mask, m => ((), ((Registers.clearBits offset mask).run (serve base) m).state)
  | .readByte address, m => (m.byte address, m)
  | .writeByte address b, m => ((), m.setByte address b)

/-- A map from word numbers to words answers accesses. -/
def accessWords (base : Nat) : Handler Accesses (Nat → UInt32)
  | .read offset, w => (w ((base + offset) / 4), w)
  | .write offset word, w => ((), Function.update w ((base + offset) / 4) word)
  | .setBits offset mask, w =>
    ((), Function.update w ((base + offset) / 4) (w ((base + offset) / 4) ||| mask))
  | .clearBits offset mask, w =>
    ((), Function.update w ((base + offset) / 4) (w ((base + offset) / 4) &&& ~~~mask))
  | .readByte address, w => (wordByte (w (address / 4)) (address % 4), w)
  | .writeByte address b, w =>
    ((), Function.update w (address / 4) ((lane address).store (w (address / 4)) b.toNat))

/-- An access to an aligned word or to a byte of a block of the given size. -/
def Inside (base size : Nat) : Access → Prop
  | .read offset | .write offset _ | .setBits offset _ | .clearBits offset _ =>
    4 ∣ offset ∧ base + offset + 4 ≤ size
  | .readByte address | .writeByte address _ => address < size

/-- A block of memory has the given size and the given words. -/
structure Holds (size : Nat) (m : Memory) (w : Nat → UInt32) : Prop where
  size_eq : m.cells.size = size
  words_eq : m.words = w

variable {base size : Nat} {m : Memory} {w : Nat → UInt32}

theorem Holds.setWord (h : Holds size m w) {k : Nat} (hk : 4 * k + 4 ≤ size) (word : UInt32) :
    Holds size (m.setWord (4 * k) word) (Function.update w k word) := by
  refine ⟨(m.size_setWord _ word).trans h.size_eq, ?_⟩
  rw [words_setWord (h.size_eq ▸ hk), h.words_eq]

/-- **An access is answered alike**, and leaves what holds the same words. -/
theorem Holds.access (hbase : 4 ∣ base) (h : Holds size m w) {q : Access}
    (hq : Inside base size q) :
    (Memory.access base q m).1 = (accessWords base q w).1 ∧
      Holds size (Memory.access base q m).2 (accessWords base q w).2 := by
  have haligned : ∀ {offset}, 4 ∣ offset ∧ base + offset + 4 ≤ size →
      ∃ k, base + offset = 4 * k ∧ (base + offset) / 4 = k ∧ 4 * k + 4 ≤ size := by
    rintro offset ⟨hdvd, hle⟩
    obtain ⟨k, hk⟩ := Nat.dvd_add hbase hdvd
    exact ⟨k, hk, by omega, by omega⟩
  have hword : ∀ k, m.word (4 * k) = w k := fun k => congrFun h.words_eq k
  cases q with
  | read offset =>
    obtain ⟨k, haddress, hnumber, -⟩ := haligned hq
    refine ⟨?_, h⟩
    show m.word (base + offset) = w ((base + offset) / 4)
    rw [hnumber, haddress, hword]
  | write offset word =>
    obtain ⟨k, haddress, hnumber, hle⟩ := haligned hq
    refine ⟨rfl, ?_⟩
    show Holds size (m.setWord (base + offset) word) (Function.update w ((base + offset) / 4) word)
    rw [hnumber, haddress]
    exact h.setWord hle word
  | setBits offset mask =>
    obtain ⟨k, haddress, hnumber, hle⟩ := haligned hq
    refine ⟨rfl, ?_⟩
    show Holds size (m.setWord (base + offset) (m.word (base + offset) ||| mask))
      (Function.update w ((base + offset) / 4) (w ((base + offset) / 4) ||| mask))
    rw [hnumber, haddress, hword]
    exact h.setWord hle _
  | clearBits offset mask =>
    obtain ⟨k, haddress, hnumber, hle⟩ := haligned hq
    refine ⟨rfl, ?_⟩
    show Holds size (m.setWord (base + offset) (m.word (base + offset) &&& ~~~mask))
      (Function.update w ((base + offset) / 4) (w ((base + offset) / 4) &&& ~~~mask))
    rw [hnumber, haddress, hword]
    exact h.setWord hle _
  | readByte address =>
    refine ⟨?_, h⟩
    show m.byte address = wordByte (w (address / 4)) (address % 4)
    rw [byte_eq_wordByte, h.words_eq]
  | writeByte address b =>
    refine ⟨rfl, (m.size_setByte address b).trans h.size_eq, ?_⟩
    show (m.setByte address b).words =
      Function.update w (address / 4) ((lane address).store (w (address / 4)) b.toNat)
    rw [words_setByte (h.size_eq ▸ hq), h.words_eq]

/-- **A caller cannot tell byte memory from a map of words.** It gets the same answers, and the
memory it leaves is the one that holds the words it leaves. -/
theorem run_words {α : Type} (hbase : 4 ∣ base) (m : Memory) {caller : Program Accesses α}
    (hcaller : caller.Within (Inside base m.cells.size)) :
    let r := caller.run (access base) m
    let r' := caller.run (accessWords base) m.words
    r.value = r'.value ∧ r.trace = r'.trace ∧ r.state = ofWords m.cells.size r'.state := by
  intro r r'
  obtain ⟨hvalue, htrace, hstate⟩ := Program.run_simulates (Holds m.cells.size)
    (fun q hq _ _ h => h.access hbase hq) hcaller ⟨rfl, rfl⟩
  refine ⟨hvalue, htrace, ?_⟩
  rw [← ofWords_words r.state, hstate.size_eq, hstate.words_eq]

end Memory

end SocBringup
