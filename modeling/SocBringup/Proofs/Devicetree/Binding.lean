import SocBringup.ControlUnit
import SocBringup.Devicetree.Lookup
import SocBringup.Proofs.Devicetree.Search

/-! # From a lookup to a control unit

A lookup finds a device for the strings of a driver, and the driver searches its entries for the
string of the device. What was found is put in service by the driver, or is refused for what the
node or the entry lacks.

* `First`: the first entry of a table with a string.
* `Served`: what becomes of a device, by its window and its entry.
* `lookup_served`: a device that was looked up with the strings of a table is served by it, by the
  driver of clocks and by the driver of reset lines alike. -/

namespace SocBringup

open Devicetree

/-! ### The search of a driver -/

/-- The first entry of a table with a string. -/
def First {δ : Type} (table : List (Match δ)) (compatible : String) (entry : Match δ) : Prop :=
  ∃ earlier later, table = earlier ++ entry :: later ∧ entry.compatible = compatible ∧
    ∀ e ∈ earlier, e.compatible ≠ compatible

theorem first_iff_find? {δ : Type} {table : List (Match δ)} {compatible : String}
    {entry : Match δ} :
    First table compatible entry ↔ table.find? (·.compatible = compatible) = some entry := by
  rw [List.find?_eq_some_iff_append]
  constructor
  · rintro ⟨earlier, later, htable, hentry, hearlier⟩
    exact ⟨decide_eq_true hentry, earlier, later, htable, fun e he => by simpa using hearlier e he⟩
  · rintro ⟨hentry, earlier, later, htable, hearlier⟩
    exact ⟨earlier, later, htable, by simpa using hentry, fun e he => by simpa using hearlier e he⟩

/-- A string of a driver has a first entry in its table. -/
theorem exists_entry_of_mem {δ : Type} {table : List (Match δ)} {compatible : String}
    (h : compatible ∈ table.map (·.compatible)) :
    ∃ entry, table.find? (·.compatible = compatible) = some entry := by
  obtain ⟨entry, hentry, hcompatible⟩ := List.mem_map.mp h
  refine Option.isSome_iff_exists.mp (List.find?_isSome.mpr ⟨entry, hentry, ?_⟩)
  exact decide_eq_true hcompatible

/-! ### Putting in service -/

section Probe
variable {σ : Type} (serve : Handler Registers σ) {device : Device} {entry : Match Chip}

/-- What comes of a device and the entry for it. -/
def inService (device : Device) (entry : Match Chip) : Except Fault ControlUnit :=
  (device.resources entry).map fun (base, chip) => ⟨base, chip⟩

theorem value_probe_clocks {driver : Driver Chip} (h : driver.match? device = some entry) (s : σ) :
    ((driver.probe device ControlUnit.setUpClocks).run serve s).value = inService device entry := by
  unfold Driver.probe
  rw [h]
  rfl

theorem value_probe_resets {driver : Driver Chip} (h : driver.match? device = some entry) (s : σ) :
    ((driver.probe device ControlUnit.setUpResets).run serve s).value = inService device entry := by
  unfold Driver.probe
  rw [h, Program.value_bind]
  unfold ControlUnit.setUpResets inService
  cases device.resources entry <;> rfl

end Probe

/-- **What becomes of a device**, by the window it has and the entry for it. -/
structure Served (window : Option Nat) (entry : Match Chip) (outcome : Except Fault ControlUnit) :
    Prop where
  found : outcome ≠ .error .notFound
  /-- Without a window it is refused, whatever the entry has. -/
  windowless : outcome = .error .noMemory ↔ window = none
  bare : outcome = .error .invalidArgument ↔ window ≠ none ∧ entry.data = none
  ok : ∀ unit, outcome = .ok unit ↔ window = some unit.base ∧ entry.data = some unit.chip

theorem served_inService (device : Device) (entry : Match Chip) :
    Served device.base entry (inService device entry) := by
  unfold inService Device.resources
  cases hbase : device.base with
  | none => constructor <;> simp [Except.map]
  | some base =>
    cases hdata : entry.data with
    | none => constructor <;> simp [Except.map, hdata]
    | some chip =>
      refine ⟨by simp [Except.map], by simp [Except.map], by simp [Except.map, hdata],
        fun unit => ?_⟩
      simp only [Except.map, hdata, Except.ok.injEq, Option.some.injEq]
      constructor
      · rintro rfl
        exact ⟨rfl, rfl⟩
      · rintro ⟨rfl, rfl⟩
        rfl

/-- **What was looked up for a table is served by it.** Let a reader answer a query with the first
node of a blob that has one of its strings. Whatever the blob and the table, repeated strings and
entries without data included, a lookup with the strings of the table finds a device if and only if
the reader finds a node. The driver of clocks and the driver of reset lines then come to the same
outcome, which the window of the node and the first entry with the device's string decide. -/
theorem lookup_served {σ : Type} (serve : Handler Registers σ) (r : Reader) (blob : r.Blob)
    (finds : r.FindsFirst blob) (table : List (Match Chip)) (clockName resetName : String)
    (clockClass resetClass : DriverClass) (s : σ) :
    let clocks : Driver Chip := ⟨clockName, clockClass, table⟩
    let resets : Driver Chip := ⟨resetName, resetClass, table⟩
    let found := ((r.find blob clocks.compatibles).run serve s).value
    (found = none ↔ r.findCompatible blob clocks.compatibles = none) ∧
    ∀ device, found = some device →
      ∃ node entry, r.findCompatible blob clocks.compatibles = some node ∧
        First table device.compatible entry ∧
        ∀ s', let outcome := ((clocks.probe device ControlUnit.setUpClocks).run serve s').value
          Served (r.base? node) entry outcome ∧
          ((resets.probe device ControlUnit.setUpResets).run serve s').value = outcome := by
  intro clocks resets found
  have hvalue : found = r.device? blob clocks.compatibles := Reader.value_find serve s
  rw [hvalue]
  refine ⟨finds.device?_eq_none_iff, fun device hdevice => ?_⟩
  obtain ⟨node, hnode, hmatch, -, hbase⟩ := Reader.exists_node hdevice
  obtain ⟨entry, hentry⟩ := exists_entry_of_mem (Reader.mem_query_of_match? hmatch)
  have hclocks : clocks.match? device = some entry := hentry
  have hresets : resets.match? device = some entry := hentry
  refine ⟨node, entry, hnode, first_iff_find?.mpr hentry, fun s' => ?_⟩
  intro outcome
  have houtcome : outcome = inService device entry := value_probe_clocks serve hclocks s'
  rw [houtcome, ← hbase]
  exact ⟨served_inService device entry, value_probe_resets serve hresets s'⟩

/-- A single node with two strings, the first of them empty, and a window at 64. -/
def loneNode : Blob where
  structureBlock := [0, 0, 0, 1, 0, 0, 0, 0,
    0, 0, 0, 3, 0, 0, 0, 4, 0, 0, 0, 0, 0, 97, 98, 0,
    0, 0, 0, 3, 0, 0, 0, 12, 0, 0, 0, 11, 0, 0, 0, 0, 0, 0, 0, 64, 0, 0, 0, 4,
    0, 0, 0, 2, 0, 0, 0, 9]
  stringsBlock := bytesOf "compatible" ++ 0 :: bytesOf "reg" ++ [0]

/-- The string is in the table twice, first without data, so the device is refused. -/
theorem lookup_served_loneNode :
    let table : List (Match Chip) := [⟨"b", none⟩, ⟨"ab", none⟩, ⟨"ab", some ⟨.flat [] [], 0⟩⟩]
    let clocks : Driver Chip := ⟨"clocks", .clock, table⟩
    let device : Device := ⟨"/", "ab", some 64⟩
    Blob.reader.FindsFirst loneNode ∧
      ((loneNode.find clocks.compatibles).run RegisterFile.serve {}).value = some device ∧
      ((clocks.probe device ControlUnit.setUpClocks).run RegisterFile.serve {}).value =
        .error .invalidArgument := by
  intro table clocks device
  have hfinds : Blob.reader.FindsFirst loneNode := fun _ => rfl
  have hfound : ((loneNode.find clocks.compatibles).run RegisterFile.serve {}).value =
      some device := by
    decide +kernel
  have hwindow : (loneNode.node? clocks.compatibles).map Blob.reader.base? = some (some 64) := by
    decide +kernel
  obtain ⟨-, h⟩ :=
    lookup_served RegisterFile.serve Blob.reader loneNode hfinds table "clocks" "resets" .clock
      .reset {}
  obtain ⟨node, entry, hnode, hfirst, hserved⟩ := h device hfound
  have hbase : Blob.reader.base? node = some 64 := by
    have hmap := congrArg (Option.map Blob.reader.base?) hnode
    exact Option.some.inj (hmap.symm.trans hwindow)
  have hentry : entry.data = none := by
    obtain rfl := Option.some.inj (first_iff_find?.mp hfirst)
    rfl
  refine ⟨hfinds, hfound, (hserved {}).1.bare.mpr ⟨?_, hentry⟩⟩
  rw [hbase]
  exact Option.some_ne_none _

end SocBringup
