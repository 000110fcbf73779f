import SocBringup.Devicetree.Node

/-! # A reader of blobs

What a node has is read from its properties: the compatible strings from the last property of that
name, the regions from the first `reg`, with the cell counts of the node around it. The walk through
the blob and what is read in its nodes make up a reader.

* `Blob.reader`: the reader.
* `Blob.find`: a lookup through it. -/

namespace SocBringup.Devicetree

/-! ### Compatible strings -/

/-- The pieces of a property value that are separated by NULs; a NUL at the end ends the last piece
and opens none. -/
def pieces : Bytes → List Bytes
  | [] => []
  | b :: rest =>
    if b = 0 then [] :: pieces rest
    else
      match pieces rest with
      | [] => [[b]]
      | piece :: more => (b :: piece) :: more

/-- The texts of pieces, up to the first that is not UTF-8. -/
def texts : List Bytes → List String
  | [] => []
  | piece :: more =>
    match text? piece with
    | none => []
    | some text => text :: texts more

/-- The last property of a name. -/
def lastOf? (properties : List Property) (name : String) : Option Property :=
  (properties.filter (·.name = bytesOf name)).getLast?

namespace Node

/-- The compatible strings of a node, from its last property of that name. -/
def compatible? (node : Node) : Option (List String) :=
  (lastOf? node.properties "compatible").map fun p => texts (pieces p.value)

/-! ### Regions -/

/-- A cell count from the node around this one: the last property of that name counts. -/
def parentCells (node : Node) (name : String) (default : Nat) : Nat :=
  ((node.around.bind (lastOf? · name)).bind (word? ·.value)).getD default

/-- The most cells an address or a size may have. -/
def maxCells : Nat := 2

end Node

/-- The addresses of the regions in a value, one after the other, each an address and a size. There
are none without address cells, and what is left over at the end is no region. -/
def regions (addressCells sizeCells : Nat) (value : Bytes) : List Nat :=
  if _h : 0 < addressCells ∧ 4 * (addressCells + sizeCells) ≤ value.length then
    bigEndian (value.take (4 * addressCells)) ::
      regions addressCells sizeCells (value.drop (4 * (addressCells + sizeCells)))
  else []
termination_by value.length
decreasing_by rw [List.length_drop]; omega

/-- The addresses of the regions in the first `reg` property, whose addresses and sizes take at most
two cells. -/
def Node.reg? (node : Node) : Option (List Nat) :=
  let addressCells := node.parentCells "#address-cells" 2
  let sizeCells := node.parentCells "#size-cells" 1
  if maxCells < addressCells ∨ maxCells < sizeCells then none
  else (node.properties.find? (·.name = bytesOf "reg")).map fun p =>
    regions addressCells sizeCells p.value

/-! ### The reader -/

/-- The first node that has a compatible string of a list. -/
def Blob.node? (blob : Blob) (query : List String) : Option Node :=
  blob.nodes.find? fun node => (node.compatible?.getD []).any (query.contains ·)

/-- The reader that walks through the blob. -/
def Blob.reader : Reader where
  Error := BlobError
  Blob := Blob
  Node := Node
  ofBytes := Blob.ofBytes
  nodes := Blob.nodes
  findCompatible := Blob.node?
  name := Node.name
  properties := Node.properties
  around := Node.around
  compatible? := Node.compatible?
  reg? := Node.reg?

/-- Look up a device in a blob by a list of compatible strings. -/
def Blob.find (blob : Blob) (query : List String) : Program Registers (Option Device) :=
  reader.find blob query

end SocBringup.Devicetree
