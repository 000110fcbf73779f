import SocBringup.ControlUnit
import SocBringup.Proofs.ControlUnit.Footprint
import SocBringup.Proofs.Program.Layer
import SocBringup.Proofs.Register.Words

/-! # Control units on byte memory

A control unit that is put in service on a window of byte memory does what it does on a register
file: all registers of all chips are aligned words of the window.

* `Mirrors`: a window of memory has the words of a register file.
* `run_mirrors`: a program that stays inside the window cannot tell them apart.
* `windowed_catalog`: the operations of every chip stay inside the window.
* `memory_refines`: byte memory is a map of words, and control units on it are those on a register
  file. -/

namespace SocBringup

/-! ### Windows -/

/-- The size of the register window of a control unit. -/
def windowSize : Nat := 4096

/-- A register is an aligned word of the window. -/
def Windowed (offset : Nat) : Prop := 4 ∣ offset ∧ offset + 4 ≤ windowSize

instance (offset : Nat) : Decidable (Windowed offset) := by unfold Windowed; infer_instance

/-- The window at an address lies in a block of memory and has the words of a register file. -/
structure Mirrors (base : Nat) (m : Memory) (file : RegisterFile) : Prop where
  inside : base + windowSize ≤ m.cells.size
  same : ∀ offset, Windowed offset → m.word (base + offset) = file.get offset

variable {base : Nat} {m : Memory} {file : RegisterFile}

theorem Mirrors.setWord (hbase : 4 ∣ base) (h : Mirrors base m file) {offset : Nat}
    (hoffset : Windowed offset) (word : UInt32) :
    Mirrors base (m.setWord (base + offset) word) (file.set offset word) := by
  refine ⟨(m.size_setWord _ word).symm ▸ h.inside, fun other hother => ?_⟩
  obtain ⟨k, hk⟩ := Nat.dvd_add hbase hoffset.1
  obtain ⟨n, hn⟩ := Nat.dvd_add hbase hother.1
  have hin : 4 * k + 4 ≤ m.cells.size := by
    have hinside := h.inside
    have hle := hoffset.2
    omega
  have hword : (m.setWord (4 * k) word).word (4 * n) = Function.update m.words k word n :=
    congrFun (Memory.words_setWord hin word) n
  rw [hk, hn, hword, RegisterFile.get_set]
  by_cases hsame : other = offset
  · have hnk : n = k := by omega
    rw [hnk, Function.update_self, if_pos hsame]
  · have hnk : n ≠ k := fun hnk => hsame (by omega)
    rw [Function.update_of_ne hnk, if_neg hsame, ← h.same other hother, hn]
    rfl

theorem Mirrors.serve (hbase : 4 ∣ base) (h : Mirrors base m file) {q : Register.Request}
    (hq : Registers.About Windowed q) :
    (Memory.serve base q m).1 = (RegisterFile.serve q file).1 ∧
      Mirrors base (Memory.serve base q m).2 (RegisterFile.serve q file).2 := by
  cases q with
  | read offset => exact ⟨h.same offset hq, h⟩
  | write offset word => exact ⟨rfl, h.setWord hbase hq word⟩
  | note diagnostic => exact ⟨rfl, h⟩

/-- **A program that stays inside the window cannot tell memory from a register file.** -/
theorem run_mirrors {α : Type} (hbase : 4 ∣ base) (h : Mirrors base m file)
    {p : Program Registers α} (hp : p.Within (Registers.About Windowed)) :
    (p.run (Memory.serve base) m).value = (p.run RegisterFile.serve file).value ∧
      Mirrors base (p.run (Memory.serve base) m).state (p.run RegisterFile.serve file).state := by
  obtain ⟨hvalue, -, hstate⟩ :=
    Program.run_simulates (Mirrors base) (fun _ hq _ _ h' => h'.serve hbase hq) hp h
  exact ⟨hvalue, hstate⟩

namespace Chip

/-! ### Operations -/

/-- The window at an address of a block of memory answers the operations of a chip. -/
def serveWindow (chip : Chip) (base : Nat) : Handler Operations Memory :=
  (Memory.serve base).behind chip.perform

/-- **Runs of operations on memory are those on a register file**, if all registers of the chip are
inside the window. -/
theorem run_operations {α : Type} {chip : Chip} (hchip : ∀ offset ∈ chip.registers, Windowed offset)
    (hbase : 4 ∣ base) (h : Mirrors base m file) (caller : Program Operations α) :
    let r := caller.run (chip.serveWindow base) m
    let r' := caller.run chip.serve file
    r.value = r'.value ∧ r.trace = r'.trace ∧ Mirrors base r.state r'.state := by
  have hstep : ∀ op : Operation, True → ∀ m' file', Mirrors base m' file' →
      (chip.serveWindow base op m').1 = (chip.serve op file').1 ∧
        Mirrors base (chip.serveWindow base op m').2 (chip.serve op file').2 :=
    fun op _ _ _ h' => run_mirrors hbase h' (within_perform hchip op)
  exact Program.run_simulates (Mirrors base) hstep (Program.within_true caller) h

/-- All registers of all chips are inside the window. -/
theorem windowed_catalog : ∀ entry ∈ catalog, ∀ chip ∈ entry.data,
    ∀ offset ∈ chip.registers, Windowed offset := by
  decide +kernel

/-! ### Probing -/

theorem nodup_catalog : (catalog.map Match.compatible).Nodup := by decide +kernel

/-- The entry for a compatible string of the catalog is the one that has it. -/
theorem find?_catalog {entry : Match Chip} (h : entry ∈ catalog) :
    catalog.find? (·.compatible = entry.compatible) = some entry := by
  have hsome : (catalog.find? (·.compatible = entry.compatible)).isSome := by
    rw [List.find?_isSome]
    exact ⟨entry, h, decide_eq_true rfl⟩
  obtain ⟨found, hfound⟩ := Option.isSome_iff_exists.mp hsome
  have hsame : found.compatible = entry.compatible := by simpa using List.find?_some hfound
  rw [hfound, List.inj_on_of_nodup_map nodup_catalog (List.mem_of_find?_eq_some hfound) h hsame]

/-- A device of a chip of the catalog, with its window at `base`. -/
def IsAt (chip : Chip) (device : Device) (base : Nat) : Prop :=
  device.base = some base ∧
    ∃ entry ∈ catalog, entry.compatible = device.compatible ∧ entry.data = some chip

theorem IsAt.registers {chip : Chip} {device : Device} (h : chip.IsAt device base) :
    ∀ offset ∈ chip.registers, Windowed offset := by
  obtain ⟨-, entry, hentry, -, hchip⟩ := h
  exact windowed_catalog entry hentry chip hchip

/-- **Both drivers put the chip of a device in service at its window**, and leave the memory as it
is. -/
theorem IsAt.probe {chip : Chip} {device : Device} (h : chip.IsAt device base) (m : Memory) :
    let clocks := (clockDriver.probe device ControlUnit.setUpClocks).run (Memory.serve base) m
    let resets := (resetDriver.probe device ControlUnit.setUpResets).run (Memory.serve base) m
    (clocks.value, clocks.state) = (.ok ⟨base, chip⟩, m) ∧
      (resets.value, resets.state) = (.ok ⟨base, chip⟩, m) := by
  obtain ⟨hbase, entry, hentry, hcompatible, hchip⟩ := h
  have hclocks : clockDriver.match? device = some entry := by
    show catalog.find? (·.compatible = device.compatible) = some entry
    rw [← hcompatible, find?_catalog hentry]
  have hresets : resetDriver.match? device = some entry := hclocks
  have hresources : device.resources entry = .ok (base, chip) := by
    unfold Device.resources
    rw [hbase, hchip]
  unfold Driver.probe ControlUnit.setUpClocks ControlUnit.setUpResets
  rw [hclocks, hresets]
  simp only [hresources]
  exact ⟨rfl, rfl⟩

end Chip

open Memory (access accessWords Inside ofWords) in
/-- **Byte memory is a map of words, and control units on it are those on a register file.** A caller
that accesses aligned words of a window and single bytes gets the answers that the map of the words
gives, in which a word or a lane of a word is replaced at each write, and leaves the memory that holds
the words of the map. So on a window with the words of a register file, both drivers of every chip put
it in service, and whatever a caller does with its clocks and reset lines, it gets the answers that
the register file gives, and leaves the window with the words of the register file. -/
theorem memory_refines :
    (∀ {α : Type} (base : Nat) (m : Memory) (caller : Program Accesses α), 4 ∣ base →
      caller.Within (Inside base m.cells.size) →
      let r := caller.run (access base) m
      let r' := caller.run (accessWords base) m.words
      r.value = r'.value ∧ r.trace = r'.trace ∧ r.state = ofWords m.cells.size r'.state) ∧
    ∀ {α : Type} (chip : Chip) (device : Device) (base : Nat) (m : Memory) (file : RegisterFile)
      (caller : Program Operations α), chip.IsAt device base → 4 ∣ base → Mirrors base m file →
      let clocks := (Chip.clockDriver.probe device ControlUnit.setUpClocks).run (Memory.serve base) m
      let resets := (Chip.resetDriver.probe device ControlUnit.setUpResets).run (Memory.serve base) m
      let r := caller.run (chip.serveWindow base) m
      let r' := caller.run chip.serve file
      ((clocks.value, clocks.state) = (.ok ⟨base, chip⟩, m) ∧
        (resets.value, resets.state) = (.ok ⟨base, chip⟩, m)) ∧
      r.value = r'.value ∧ r.trace = r'.trace ∧ Mirrors base r.state r'.state := by
  constructor
  · intro α base m caller hbase hcaller
    exact Memory.run_words hbase m hcaller
  · intro α chip device base m file caller hat hbase h clocks resets r r'
    exact ⟨hat.probe m, Chip.run_operations hat.registers hbase h caller⟩

/-- A block of zeroes has the words of a register file in which nothing was set. -/
theorem mirrors_zero {base size : Nat} (h : base + windowSize ≤ size) :
    Mirrors base (Memory.zero size) {} := by
  have hbyte : ∀ address, (Memory.zero size).byte address = 0 := by
    intro address
    unfold Memory.byte Memory.zero
    rw [Array.getD_eq_getD_getElem?, Array.getElem?_replicate]
    split_ifs <;> rfl
  refine ⟨by rwa [Memory.zero, Array.size_replicate], fun offset _ => ?_⟩
  unfold Memory.word
  simp only [hbyte]
  rfl

/-- A word is written, then its second byte, and the word is read. -/
def patched : Program Accesses UInt32 :=
  .ask (.write 4 0x12345678) fun _ => .ask (.writeByte 9 0xa5) fun _ => .ask (.read 4) .done

/-- The byte is seen in the word; and on the H3, a gate is opened in the window of its control
unit. -/
theorem memory_refines_h3 :
    let device : Device := ⟨"ccu", "allwinner,sun8i-h3-ccu", some 4096⟩
    let caller := Operation.inTurn [.enableClock 30, .setClockRate 74 24000000]
    let r := caller.run (Chip.h3.serveWindow 4096) (Memory.zero 8192)
    (patched.run (Memory.access 4) (Memory.zero 16)).value = 0x1234a578 ∧
      Chip.h3.IsAt device 4096 ∧ r.state.word (4096 + 0x060) = 0x00100000 := by
  intro device caller r
  have hword : 4 ∣ 4 ∧ 4 + 4 + 4 ≤ (Memory.zero 16).cells.size := by simp [Memory.zero]
  have hbyte : 9 < (Memory.zero 16).cells.size := by simp [Memory.zero]
  have hpatched : patched.Within (Memory.Inside 4 (Memory.zero 16).cells.size) :=
    ⟨hword, fun _ => ⟨hbyte, fun _ => ⟨hword, fun _ => trivial⟩⟩⟩
  have hat : Chip.h3.IsAt device 4096 :=
    ⟨rfl, ⟨"allwinner,sun8i-h3-ccu", some Chip.h3⟩, by simp [Chip.catalog], rfl, rfl⟩
  obtain ⟨hvalue, -, -⟩ := memory_refines.1 4 (Memory.zero 16) patched (by decide) hpatched
  obtain ⟨-, -, -, hwords⟩ := memory_refines.2 Chip.h3 device 4096 (Memory.zero 8192) {} caller hat
    (by decide) (mirrors_zero (by decide))
  refine ⟨hvalue.trans (by decide +kernel), hat, ?_⟩
  exact (hwords.same 0x060 (by decide)).trans (by decide +kernel)

end SocBringup
