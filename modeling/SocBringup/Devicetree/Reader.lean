import SocBringup.Bytes
import SocBringup.Device

/-! # Looking up a device through a reader of devicetrees

A lookup does not take a blob apart. It asks a reader, of which only the questions are fixed here:
which nodes a blob has, which of them answers a list of compatible strings, and what a node has. The
device of the node that answers carries the first of the node's own strings that is in the list, and
the address of the first region of its `reg`.

* `Reader`: a reader of devicetrees.
* `Reader.find`: the device for a list of compatible strings. -/

namespace SocBringup.Devicetree

/-- A property of a node. -/
structure Property where
  name : Bytes
  value : Bytes

/-- A reader of flattened devicetrees. -/
structure Reader where
  /-- Why bytes are refused. -/
  Error : Type
  /-- Bytes that were taken for a devicetree. -/
  Blob : Type
  /-- A node of a blob. -/
  Node : Type
  ofBytes : Bytes → Except Error Blob
  /-- All nodes, depth first. -/
  nodes : Blob → List Node
  /-- The node that answers a list of compatible strings. -/
  findCompatible : Blob → List String → Option Node
  name : Node → String
  properties : Node → List Property
  /-- The properties of the node around a node, if there is one. -/
  around : Node → Option (List Property)
  /-- The compatible strings of a node, if it has the property. -/
  compatible? : Node → Option (List String)
  /-- The addresses of the regions in the `reg` of a node, if they can be read. -/
  reg? : Node → Option (List Nat)

/-- The report of a device that was found. -/
def foundDiagnostic (device : Device) : Diagnostic :=
  match device.base with
  | some base => .nodeFound device.name device.compatible base
  | none => .nodeWithoutWindow device.name device.compatible

namespace Reader

variable (r : Reader)

/-- The address of the first region of a node. -/
def base? (node : r.Node) : Option Nat := (r.reg? node).bind List.head?

/-- The first compatible string of a node that is in a list. -/
def match? (node : r.Node) (query : List String) : Option String :=
  (r.compatible? node).bind fun strings => strings.find? (query.contains ·)

/-- The device of the node that answers a list of compatible strings. Its string is looked up in the
node once more. -/
def device? (blob : r.Blob) (query : List String) : Option Device := do
  let node ← r.findCompatible blob query
  let compatible ← r.match? node query
  return ⟨r.name node, compatible, r.base? node⟩

/-- Look up a device by a list of compatible strings, and report it. -/
def find (blob : r.Blob) (query : List String) : Program Registers (Option Device) :=
  match r.device? blob query with
  | none => return none
  | some device => do
    Registers.note (foundDiagnostic device)
    return some device

end Reader

end SocBringup.Devicetree
