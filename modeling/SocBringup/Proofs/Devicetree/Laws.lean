import SocBringup.Proofs.Devicetree.Format
import SocBringup.Proofs.Devicetree.Search

/-! # The laws of readers

A lookup takes a reader at its word, so what a lookup answers follows from what is promised of the
reader. Each law says what the reader makes of one thing that the format of flattened devicetrees
describes, and promises nothing of bytes that are not in the format, of nodes that are nested very
deep, or of properties that do not have the form their name asks for.

* `Counts`, `Regions`: the cells of addresses and sizes, and the regions of a value in them.
* `Reader.Shows`: a node of a blob is the one at a place of a tree.
* `Reader.Lawful`: the laws. -/

namespace SocBringup.Devicetree

/-- No two properties have one name. -/
def Distinct (properties : List Property) : Prop := (properties.map Property.name).Nodup

/-- The value of the property of a name. -/
def value? (properties : List Property) (name : String) : Option Bytes :=
  (properties.find? (·.name = bytesOf name)).map Property.value

/-- A number of cells is the word of the property of its name in the node around, or the default
where there is no such property. -/
inductive Counts (around : Option (List Property)) (name : String) (default : Nat) : Nat → Prop
  | given {count : Nat} (bound : count < 2 ^ 32)
      (value : around.bind (value? · name) = some (wordBytes count)) :
      Counts around name default count
  | missing (value : around.bind (value? · name) = none) : Counts around name default default

/-- Addresses of one or two cells can be read, and sizes of at most two. -/
def Usable (addressCells sizeCells : Nat) : Prop :=
  0 < addressCells ∧ addressCells ≤ 2 ∧ sizeCells ≤ 2

instance (addressCells sizeCells : Nat) : Decidable (Usable addressCells sizeCells) := by
  unfold Usable; infer_instance

/-- The addresses of the regions in a value, each an address with a size behind it, up to where the
value is too short for another. -/
inductive Regions (addressCells sizeCells : Nat) : Bytes → List Nat → Prop
  | short {value : Bytes} (h : value.length < 4 * (addressCells + sizeCells)) :
      Regions addressCells sizeCells value []
  | cons {address size rest : Bytes} {addresses : List Nat}
      (front : address.length = 4 * addressCells) (back : size.length = 4 * sizeCells)
      (tail : Regions addressCells sizeCells rest addresses) :
      Regions addressCells sizeCells (address ++ (size ++ rest)) (bigEndian address :: addresses)

namespace Reader

/-- A node is the one at a place of a tree. A node without a name goes by a slash. -/
structure Shows (r : Reader) (node : r.Node) (p : Place) : Prop where
  name : r.name node = if p.name.text = "" then "/" else p.name.text
  properties : r.properties node = p.entries.properties
  around : r.around node = p.around.map Entries.properties

/-- The cells of addresses and sizes in a node, as the node around it counts them. -/
structure Cells (r : Reader) (node : r.Node) (addressCells sizeCells : Nat) : Prop where
  distinct : ∀ properties, r.around node = some properties → Distinct properties
  address : Counts (r.around node) "#address-cells" 2 addressCells
  size : Counts (r.around node) "#size-cells" 1 sizeCells

/-- **The laws of a reader.** -/
structure Lawful (r : Reader) : Prop where
  /-- A flattened devicetree whose nodes are nested less than sixty deep is opened. Its nodes come
  depth first, and the search among them gives the first that has a string of the query. -/
  opens : ∀ {bytes : Bytes} {t : Tree}, Flattened bytes t → t.depth < 60 →
    ∃ blob, r.ofBytes bytes = .ok blob ∧ List.Forall₂ r.Shows (r.nodes blob) t.places ∧
      r.FindsFirst blob
  incompatible : ∀ {node : r.Node}, Distinct (r.properties node) →
    value? (r.properties node) "compatible" = none → r.compatible? node = none
  /-- Compatible strings stand one after the other, each ended by a NUL. -/
  compatible : ∀ {node : r.Node} {strings : List Label}, Distinct (r.properties node) →
    value? (r.properties node) "compatible" = some (strings.flatMap (terminated ·.text)) →
      r.compatible? node = some (strings.map (·.text))
  regionless : ∀ {node : r.Node} {addressCells sizeCells : Nat},
    r.Cells node addressCells sizeCells → value? (r.properties node) "reg" = none →
      r.reg? node = none
  /-- Where the cells cannot be read, there are no addresses. -/
  unusable : ∀ {node : r.Node} {addressCells sizeCells : Nat},
    r.Cells node addressCells sizeCells → ¬ Usable addressCells sizeCells →
      ∀ addresses, r.reg? node = some addresses → addresses = []
  /-- The value of `reg` is read in the cells that the node around counts. -/
  regions : ∀ {node : r.Node} {addressCells sizeCells : Nat} {value : Bytes},
    r.Cells node addressCells sizeCells → Usable addressCells sizeCells →
      Distinct (r.properties node) → value? (r.properties node) "reg" = some value →
        ∃ addresses, r.reg? node = some addresses ∧ Regions addressCells sizeCells value addresses

end Reader

end SocBringup.Devicetree
