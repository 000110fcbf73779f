import SocBringup.Proofs.Devicetree.Laws
import SocBringup.Proofs.Devicetree.Parser
import SocBringup.Proofs.Devicetree.Writer

/-! # What a lookup answers on a tree

What a lawful reader reads in a node is what the tree has there: since the properties of a node
have names of their own, there is one of a name at most. So a lookup on the blob of a tree answers
with the first node, depth first, that has a string of the query, and finds its window by the cell
counts of the node around it.

* `Place.strings`, `Place.Window`: the compatible strings and the window of a node, by the tree.
* `Lawful.compatible?_eq`, `Lawful.base?_eq`: what is read in a node is what the tree has there.
* `find_flatten`: a lookup on the blob of a tree. -/

namespace SocBringup.Devicetree

/-! ### What a tree has at a node -/

namespace Entry

def strings : Entry → List Label
  | compatible strings => strings
  | _ => []

def count? : Entry → Option Nat
  | addressCells count | sizeCells count => some count.toNat
  | _ => none

end Entry

/-- The property of a name. -/
def Entries.get? (es : Entries) (name : String) : Option Entry := es.list.find? (·.name = name)

namespace Place

/-- The compatible strings of a node. -/
def strings (p : Place) : List Label := ((p.entries.get? "compatible").map Entry.strings).getD []

/-- Cells as the node around counts them. -/
def cells (p : Place) (name : String) (default : Nat) : Nat :=
  ((p.around.bind (·.get? name)).bind Entry.count?).getD default

def addressCells (p : Place) : Nat := p.cells "#address-cells" 2

def sizeCells (p : Place) : Nat := p.cells "#size-cells" 1

def reg? (p : Place) : Option Bytes := (p.entries.get? "reg").map Entry.value

def Usable (p : Place) : Prop := Devicetree.Usable p.addressCells p.sizeCells

instance (p : Place) : Decidable p.Usable := by unfold Usable; infer_instance

/-- The first address of the `reg` of a node, with the cells of a size behind it. -/
inductive Window (p : Place) : Nat → Prop
  | intro {address rest : Bytes} (usable : p.Usable) (reg : p.reg? = some (address ++ rest))
      (length : address.length = 4 * p.addressCells) (size : 4 * p.sizeCells ≤ rest.length) :
      Window p (bigEndian address)

/-- A node has a string of a query. -/
def Answers (p : Place) (query : List String) : Prop := ∃ c ∈ p.strings, c.text ∈ query

end Place

/-! ### Properties by name -/

namespace Entries

theorem distinct_properties (es : Entries) : Distinct es.properties := by
  have hnames : es.properties.map Property.name = (es.list.map Entry.name).map bytesOf := by
    unfold properties
    rw [List.map_map, List.map_map]
    rfl
  unfold Distinct
  rw [hnames]
  exact es.unique.map fun _ _ => bytesOf_inj.mp

theorem value?_properties (es : Entries) (name : String) :
    value? es.properties name = (es.get? name).map Entry.value := by
  have hfind : es.properties.find? (·.name = bytesOf name) = (es.get? name).map Entry.property := by
    unfold properties get?
    rw [List.find?_map]
    congr 2
    funext e
    simp [Entry.property, bytesOf_inj]
  unfold value?
  rw [hfind, Option.map_map]
  rfl

theorem name_of_get? {es : Entries} {name : String} {e : Entry} (h : es.get? name = some e) :
    e.name = name := by
  simpa using List.find?_some h

end Entries

namespace Entry

/-- Only a property of compatible strings goes by that name. -/
theorem value_of_compatible : ∀ {e : Entry}, e.name = "compatible" →
    e.value = e.strings.flatMap (terminated ·.text)
  | compatible _, _ => rfl
  | addressCells _, h => by simp [name] at h
  | sizeCells _, h => by simp [name] at h
  | other label _ free, h => by
    have hlabel : label.text = "compatible" := h
    simp [hlabel, reserved] at free

/-- Only properties of one word go by the names of cell counts. -/
theorem exists_count : ∀ {e : Entry}, e.name = "#address-cells" ∨ e.name = "#size-cells" →
    ∃ count < 2 ^ 32, e.count? = some count ∧ e.value = wordBytes count
  | compatible _, h => by simp [name] at h
  | addressCells count, _ | sizeCells count, _ => ⟨count.toNat, count.toNat_lt, rfl, rfl⟩
  | other label _ free, h => by
    have hlabel : label.text = "#address-cells" ∨ label.text = "#size-cells" := h
    rcases hlabel with hlabel | hlabel <;> simp [hlabel, reserved] at free

end Entry

/-! ### What is read in a node -/

namespace Place

theorem counts_cells (p : Place) {name : String}
    (hname : name = "#address-cells" ∨ name = "#size-cells") (default : Nat) :
    Counts (p.around.map Entries.properties) name default (p.cells name default) := by
  have hvalue : (p.around.map Entries.properties).bind (value? · name) =
      (p.around.bind (·.get? name)).map Entry.value := by
    cases p.around with
    | none => rfl
    | some es => exact es.value?_properties name
  unfold cells
  cases hget : p.around.bind (·.get? name) with
  | none =>
    rw [hget] at hvalue
    exact .missing hvalue
  | some e =>
    obtain ⟨es, -, hentry⟩ := Option.bind_eq_some_iff.mp hget
    obtain ⟨count, hbound, hcount, hword⟩ :=
      Entry.exists_count (e := e) (Entries.name_of_get? hentry ▸ hname)
    rw [hget, Option.map_some, hword] at hvalue
    rw [Option.bind_some, hcount, Option.getD_some]
    exact .given hbound hvalue

/-- The first address of the `reg` of a node. -/
def base? (p : Place) : Option Nat :=
  if p.Usable then p.reg?.bind fun value =>
    if 4 * (p.addressCells + p.sizeCells) ≤ value.length then
      some (bigEndian (value.take (4 * p.addressCells)))
    else none
  else none

theorem base?_eq_some_iff (p : Place) (base : Nat) : p.base? = some base ↔ p.Window base := by
  unfold base?
  constructor
  · intro h
    split at h
    · rename_i husable
      obtain ⟨value, hreg, h⟩ := Option.bind_eq_some_iff.mp h
      split at h
      · rename_i hlong
        cases h
        rw [← List.take_append_drop (4 * p.addressCells) value] at hreg
        refine .intro husable hreg ?_ ?_
        · rw [List.length_take]
          omega
        · rw [List.length_drop]
          omega
      · cases h
    · cases h
  · intro h
    cases h with
    | @intro address rest husable hreg hlength hsize =>
      have hlong : 4 * (p.addressCells + p.sizeCells) ≤ (address ++ rest).length := by
        rw [List.length_append]
        omega
      rw [if_pos husable, hreg, Option.bind_some, if_pos hlong, ← hlength, List.take_left]

theorem base?_eq_none_iff (p : Place) :
    p.base? = none ↔ p.reg? = none ∨
      (∃ value, p.reg? = some value ∧ value.length < 4 * (p.addressCells + p.sizeCells)) ∨
      ¬ p.Usable := by
  unfold base?
  by_cases husable : p.Usable
  · rw [if_pos husable]
    cases hreg : p.reg? with
    | none => simp
    | some value => simp [husable]
  · simp [husable]

end Place

/-- The first of the regions in a value. -/
theorem Regions.head?_eq {addressCells sizeCells : Nat} {value : Bytes} {addresses : List Nat}
    (h : Regions addressCells sizeCells value addresses) :
    addresses.head? = if 4 * (addressCells + sizeCells) ≤ value.length then
      some (bigEndian (value.take (4 * addressCells))) else none := by
  cases h with
  | short h => rw [if_neg (Nat.not_le.mpr h), List.head?_nil]
  | @cons address size rest addresses haddress hsize tail =>
    have hlong : 4 * (addressCells + sizeCells) ≤ (address ++ (size ++ rest)).length := by
      rw [List.length_append, List.length_append]
      omega
    rw [if_pos hlong, ← haddress, List.take_left, List.head?_cons]

namespace Reader

variable {r : Reader} {node : r.Node} {p : Place} (h : r.Shows node p)
include h

theorem Shows.value?_eq (name : String) :
    value? (r.properties node) name = (p.entries.get? name).map Entry.value := by
  rw [h.properties, p.entries.value?_properties]

theorem Shows.distinct : Distinct (r.properties node) := by
  rw [h.properties]
  exact p.entries.distinct_properties

theorem Shows.cells : r.Cells node p.addressCells p.sizeCells where
  distinct properties hproperties := by
    rw [h.around] at hproperties
    obtain ⟨es, -, rfl⟩ := Option.map_eq_some_iff.mp hproperties
    exact es.distinct_properties
  address := by
    rw [h.around]
    exact p.counts_cells (.inl rfl) 2
  size := by
    rw [h.around]
    exact p.counts_cells (.inr rfl) 1

variable (hr : r.Lawful)
include hr

/-- **The strings that are read in a node** are those the tree has there. -/
theorem Lawful.compatible?_eq : (r.compatible? node).getD [] = p.strings.map (·.text) := by
  have hvalue := h.value?_eq "compatible"
  unfold Place.strings
  cases hget : p.entries.get? "compatible" with
  | none =>
    rw [hget, Option.map_none] at hvalue
    rw [hr.incompatible h.distinct hvalue]
    rfl
  | some e =>
    rw [hget, Option.map_some, Entry.value_of_compatible (Entries.name_of_get? hget)] at hvalue
    rw [hr.compatible h.distinct hvalue]
    rfl

/-- **The window that is read for a node** is the one the tree has there. -/
theorem Lawful.base?_eq : r.base? node = p.base? := by
  have hvalue : value? (r.properties node) "reg" = p.reg? := h.value?_eq "reg"
  unfold Reader.base? Place.base?
  by_cases husable : p.Usable
  · rw [if_pos husable]
    cases hreg : p.reg? with
    | none => rw [hr.regionless h.cells (hvalue.trans hreg), Option.bind_none, Option.bind_none]
    | some value =>
      obtain ⟨addresses, hread, hregions⟩ :=
        hr.regions h.cells husable h.distinct (hvalue.trans hreg)
      rw [hread, Option.bind_some, Option.bind_some, hregions.head?_eq]
  · rw [if_neg husable]
    cases hread : r.reg? node with
    | none => rfl
    | some addresses =>
      rw [hr.unusable h.cells husable addresses hread]
      rfl

end Reader

/-! ### The answer -/

instance (p : Place) (query : List String) : Decidable (p.Answers query) := by
  unfold Place.Answers; infer_instance

theorem Reader.Lawful.answers_eq {r : Reader} {node : r.Node} {p : Place} (hr : r.Lawful)
    (h : r.Shows node p) (query : List String) :
    r.answers query node = decide (p.Answers query) := by
  unfold Reader.answers
  rw [hr.compatible?_eq h, List.any_map, Bool.eq_iff_iff, List.any_eq_true, decide_eq_true_iff]
  simp [Place.Answers]

section Rel
variable {α β : Type} {R : α → β → Prop}

theorem eq_none_iff_of_rel : ∀ {a : Option α} {b : Option β}, Option.Rel R a b →
    (a = none ↔ b = none)
  | _, _, .none => iff_of_true rfl rfl
  | _, _, .some _ => by simp

theorem exists_eq_some_of_rel : ∀ {a : α} {b : Option β}, Option.Rel R (some a) b →
    ∃ b', b = some b' ∧ R a b'
  | _, _, .some h => ⟨_, rfl, h⟩

end Rel

/-- A search among nodes goes as the search among the places they show. -/
theorem Reader.Lawful.rel_find? {r : Reader} (hr : r.Lawful) (query : List String) :
    ∀ {nodes : List r.Node} {places : List Place}, List.Forall₂ r.Shows nodes places →
      Option.Rel r.Shows (nodes.find? (r.answers query)) (places.find? (·.Answers query))
  | _, _, .nil => .none
  | _, _, .cons (a := node) (b := p) hfirst hrest => by
    have ih := rel_find? hr query hrest
    have hanswers := hr.answers_eq hfirst query
    rw [List.find?_cons, List.find?_cons, hanswers]
    cases decide (p.Answers query) with
    | true => exact .some hfirst
    | false => exact ih

/-- A device is that of a node, by the first of its strings that is in a query. -/
structure Place.Identified (p : Place) (query : List String) (device : Device) : Prop where
  name : device.name = if p.name.text = "" then "/" else p.name.text
  compatible : ∃ earlier c later, p.strings = earlier ++ c :: later ∧
    c.text = device.compatible ∧ c.text ∈ query ∧ ∀ c' ∈ earlier, c'.text ∉ query
  window : ∀ base, device.base = some base ↔ p.Window base
  /-- There is no window without `reg`, with one that is too short, or with other cell counts. -/
  windowless : device.base = none ↔ p.reg? = none ∨
    (∃ value, p.reg? = some value ∧ value.length < 4 * (p.addressCells + p.sizeCells)) ∨
    ¬ p.Usable

theorem Reader.Lawful.identified {r : Reader} {node : r.Node} {p : Place} {query : List String}
    {device : Device} (hr : r.Lawful) (h : r.Shows node p)
    (hmatch : r.match? node query = some device.compatible) (hname : device.name = r.name node)
    (hbase : device.base = r.base? node) : p.Identified query device where
  name := hname.trans h.name
  compatible := by
    obtain ⟨strings, hstrings, hfind⟩ := Option.bind_eq_some_iff.mp hmatch
    have hread := hr.compatible?_eq h
    rw [hstrings, Option.getD_some] at hread
    rw [hread, List.find?_map, Option.map_eq_some_iff] at hfind
    obtain ⟨c, hfind, hc⟩ := hfind
    obtain ⟨hquery, earlier, later, hsplit, hearlier⟩ := List.find?_eq_some_iff_append.mp hfind
    refine ⟨earlier, c, later, hsplit, hc, by simpa using hquery, fun c' hc' => ?_⟩
    simpa using hearlier c' hc'
  window base := by rw [hbase, hr.base?_eq h, p.base?_eq_some_iff]
  windowless := by rw [hbase, hr.base?_eq h, p.base?_eq_none_iff]

/-- **A lookup on the blob of a tree.** Whatever lawful reader is used, whatever the tree, as long
as its nodes are not nested too deep for the reader and its blob is short enough for the numbers in
its header, and whatever the query, nothing is found if and only if no node has a string of the
query. Otherwise the first such node is found, depth first, under its name in the tree, by the first
of its own strings that is in the query, with its window as the tree has it. -/
theorem find_flatten {σ : Type} (serve : Handler Registers σ) (s : σ) (r : Reader)
    (lawful : r.Lawful) (t : Tree) (query : List String) (depth : t.depth < 60)
    (size : (flatten t).length < 2 ^ 32) :
    ∃ blob, r.ofBytes (flatten t) = .ok blob ∧
      let found := ((r.find blob query).run serve s).value
      (found = none ↔ ∀ p ∈ t.places, ¬ p.Answers query) ∧
      ∀ device, found = some device →
        ∃ before p after, t.places = before ++ p :: after ∧ (∀ q ∈ before, ¬ q.Answers query) ∧
          p.Identified query device := by
  obtain ⟨blob, hblob, hshown, hfinds⟩ := lawful.opens (flattened_flatten size) depth
  refine ⟨blob, hblob, ?_⟩
  intro found
  have hvalue : found = r.device? blob query := Reader.value_find serve s
  have hsearch : Option.Rel r.Shows (r.findCompatible blob query)
      (t.places.find? (·.Answers query)) := by
    rw [hfinds query]
    exact lawful.rel_find? query hshown
  constructor
  · rw [hvalue, hfinds.device?_eq_none_iff, eq_none_iff_of_rel hsearch]
    simp
  · intro device hdevice
    rw [hvalue] at hdevice
    obtain ⟨node, hfound, hmatch, hname, hbase⟩ := Reader.exists_node hdevice
    rw [hfound] at hsearch
    obtain ⟨p, hp, hshows⟩ := exists_eq_some_of_rel hsearch
    obtain ⟨-, before, after, hplaces, hbefore⟩ := List.find?_eq_some_iff_append.mp hp
    refine ⟨before, p, after, hplaces, fun q hq => by simpa using hbefore q hq, ?_⟩
    exact lawful.identified hshows hmatch hname hbase

/-- A clock controller with two strings and a window, and a bus without a window. -/
def clockAndBus : Tree :=
  .node ⟨"", by decide +kernel⟩ ⟨[.addressCells 1, .sizeCells 1], by decide⟩
    [.node ⟨"clock@1c20000", by decide +kernel⟩
      ⟨[.compatible [⟨"h5-ccu", by decide +kernel⟩, ⟨"h3-ccu", by decide +kernel⟩],
        .other ⟨"reg", by decide +kernel⟩ [0x01, 0xc2, 0, 0, 0, 0, 4, 0] (by decide)],
        by decide⟩ [],
    .node ⟨"spi@1c68000", by decide +kernel⟩
      ⟨[.compatible [⟨"h3-spi", by decide +kernel⟩]], by decide⟩ []]

/-- The clock controller is found by its second string. -/
theorem find_flatten_clockAndBus :
    let query := ["h3-ccu", "a10-ccu"]
    let device : Device := ⟨"clock@1c20000", "h3-ccu", some 0x01c20000⟩
    Blob.reader.Lawful ∧ clockAndBus.depth < 60 ∧ (flatten clockAndBus).length < 2 ^ 32 ∧
      ∃ blob, Blob.ofBytes (flatten clockAndBus) = .ok blob ∧
        ((blob.find query).run RegisterFile.serve {}).value = some device ∧
        ∃ p ∈ clockAndBus.places, p.Window 0x01c20000 := by
  intro query device
  have hdepth : clockAndBus.depth < 60 := by decide
  have hsize : (flatten clockAndBus).length < 2 ^ 32 := by decide +kernel
  have hdevice : ∀ blob, Blob.ofBytes (flatten clockAndBus) = .ok blob →
      Blob.reader.device? blob query = some device := by
    have hread : ((Blob.ofBytes (flatten clockAndBus)).toOption.bind
        (Blob.reader.device? · query)) = some device := by
      decide +kernel
    intro blob hblob
    rwa [hblob] at hread
  obtain ⟨blob, hblob, -, h⟩ := find_flatten RegisterFile.serve {} Blob.reader
    Blob.lawful_reader clockAndBus query hdepth hsize
  have hfound : ((blob.find query).run RegisterFile.serve {}).value = some device :=
    (Reader.value_find RegisterFile.serve {}).trans (hdevice blob hblob)
  obtain ⟨before, p, after, hplaces, -, hidentified⟩ := h device hfound
  have hp : p ∈ clockAndBus.places := by
    rw [hplaces]
    exact List.mem_append_right before List.mem_cons_self
  exact ⟨Blob.lawful_reader, hdepth, hsize, blob, hblob, hfound, p, hp,
    (hidentified.window _).mp rfl⟩

end SocBringup.Devicetree
