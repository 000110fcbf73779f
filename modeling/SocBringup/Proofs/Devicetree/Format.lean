import Mathlib.Tactic
import SocBringup.Devicetree.Layout
import SocBringup.Devicetree.Reader

/-! # Devicetrees and how they are flattened

Each node of a devicetree has a name, properties and the nodes inside it. The structure block of a
blob spells a tree word by word; the name of a property stands in the strings block, and the
property gives the place where it starts. That names have no NUL and that the properties of a node
have names of their own is part of the types, so that every tree can be spelled.

* `Tree`, `Tree.places`: trees, and their nodes depth first with the properties around each.
* `Spells`: the bytes that spell a tree, whatever strings block they use.
* `Flattened`: the bytes of a whole blob, whatever the order of its blocks. -/

namespace SocBringup

/-! ### Texts -/

theorem byteArray_toList_loop (bytes : ByteArray) (i : Nat) (read : Bytes) :
    ByteArray.toList.loop bytes i read = read.reverse ++ bytes.data.toList.drop i := by
  fun_induction ByteArray.toList.loop bytes i read with
  | case1 i read hi ih =>
    have hlength : i < bytes.data.toList.length := by simpa using hi
    have hbyte : bytes.get! i = bytes.data.toList[i] := by
      rw [Array.getElem_toList]
      exact getElem!_pos bytes.data i hi
    rw [ih, List.drop_eq_getElem_cons hlength, List.reverse_cons, List.append_assoc, hbyte]
    rfl
  | case2 i read hi =>
    have hlength : bytes.data.toList.length ≤ i := by simpa using hi
    rw [List.drop_eq_nil_of_le hlength, List.append_nil]

theorem toByteArray_bytesOf (text : String) : (bytesOf text).toByteArray = text.toByteArray := by
  have hlist : bytesOf text = text.toByteArray.data.toList :=
    byteArray_toList_loop text.toByteArray 0 []
  ext1
  rw [hlist, List.data_toByteArray, Array.toArray_toList]

@[simp] theorem text?_bytesOf (text : String) : text? (bytesOf text) = some text := by
  unfold text? String.fromUTF8?
  rw [toByteArray_bytesOf, dif_pos text.isValidUTF8]
  rfl

theorem bytesOf_inj {s t : String} : bytesOf s = bytesOf t ↔ s = t := by
  constructor
  · intro h
    have htexts := congrArg text? h
    simpa using htexts
  · rintro rfl
    rfl

namespace Devicetree

/-! ### Words, labels and alignment -/

/-- A word, the most significant byte first. -/
def wordBytes (n : Nat) : Bytes :=
  [.ofNat (n / 2 ^ 24), .ofNat (n / 2 ^ 16), .ofNat (n / 2 ^ 8), .ofNat n]

@[simp] theorem length_wordBytes (n : Nat) : (wordBytes n).length = 4 := rfl

theorem bigEndian_wordBytes {n : Nat} (h : n < 2 ^ 32) : bigEndian (wordBytes n) = n := by
  simp only [bigEndian, wordBytes, List.foldl_cons, List.foldl_nil, UInt8.toNat_ofNat']
  omega

/-- Bytes filled up to whole words. -/
def aligned (bytes : Bytes) : Bytes :=
  bytes ++ List.replicate (padded bytes.length - bytes.length) 0

@[simp] theorem length_aligned (bytes : Bytes) : (aligned bytes).length = padded bytes.length := by
  unfold aligned
  rw [List.length_append, List.length_replicate]
  unfold padded
  omega

/-- A text without a NUL in it, such as can be the name of a node or a property. -/
structure Label where
  text : String
  nulFree : 0 ∉ bytesOf text

/-- A text and the NUL that ends it. -/
def terminated (text : String) : Bytes := bytesOf text ++ [0]

/-! ### Trees -/

/-- The names of the properties that have a form of their own. -/
def reserved : List String := ["compatible", "#address-cells", "#size-cells"]

/-- A property: the compatible strings of a node, how many cells the addresses and the sizes inside
it have, or any other. -/
inductive Entry where
  | compatible (strings : List Label)
  | addressCells (count : UInt32)
  | sizeCells (count : UInt32)
  | other (name : Label) (value : Bytes) (free : name.text ∉ reserved)

namespace Entry

def name : Entry → String
  | compatible _ => "compatible"
  | addressCells _ => "#address-cells"
  | sizeCells _ => "#size-cells"
  | other name _ _ => name.text

def value : Entry → Bytes
  | compatible strings => strings.flatMap (terminated ·.text)
  | addressCells count | sizeCells count => wordBytes count.toNat
  | other _ value _ => value

theorem nulFree_name : ∀ e : Entry, 0 ∉ bytesOf e.name
  | compatible _ => show 0 ∉ bytesOf "compatible" by decide +kernel
  | addressCells _ => show 0 ∉ bytesOf "#address-cells" by decide +kernel
  | sizeCells _ => show 0 ∉ bytesOf "#size-cells" by decide +kernel
  | other name _ _ => name.nulFree

/-- The property as it is read from a blob. -/
def property (e : Entry) : Property := ⟨bytesOf e.name, e.value⟩

end Entry

/-- The properties of a node, no two of one name. -/
structure Entries where
  list : List Entry
  unique : (list.map Entry.name).Nodup

/-- The properties as they are read from a blob. -/
def Entries.properties (es : Entries) : List Property := es.list.map Entry.property

/-- A node, its properties and the nodes inside it. -/
inductive Tree where
  | node (name : Label) (entries : Entries) (children : List Tree)

/-- A node by itself, with the properties of the node around it. -/
structure Place where
  name : Label
  entries : Entries
  around : Option Entries

mutual

/-- The nodes of a tree, depth first, a node before those inside it. -/
def Tree.placesIn (around : Option Entries) : Tree → List Place
  | .node name entries children =>
    ⟨name, entries, around⟩ :: Tree.placesInAll (some entries) children

def Tree.placesInAll (around : Option Entries) : List Tree → List Place
  | [] => []
  | t :: ts => t.placesIn around ++ Tree.placesInAll around ts

end

/-- The nodes of a whole tree. -/
def Tree.places (t : Tree) : List Place := t.placesIn none

mutual

/-- How deep nodes are nested in the outermost one. -/
def Tree.depth : Tree → Nat
  | .node _ _ children => Tree.depthAll children

def Tree.depthAll : List Tree → Nat
  | [] => 0
  | t :: ts => max (t.depth + 1) (Tree.depthAll ts)

end

/-! ### Spelling -/

/-- The token of a property whose name starts at an offset of the strings block. -/
def propertyToken (offset : Nat) (value : Bytes) : Bytes :=
  wordBytes propertyMark ++ (wordBytes value.length ++ (wordBytes offset ++ aligned value))

/-- The token that opens a node. -/
def openingToken (name : Label) : Bytes := wordBytes beginNode ++ aligned (terminated name.text)

/-- The bytes that spell properties. The name of each stands in the strings block `names`. -/
inductive SpellsEntries (names : Bytes) : List Entry → Bytes → Prop
  | nil : SpellsEntries names [] []
  | cons {e : Entry} {es : List Entry} {offset : Nat} {later : Bytes}
      (length : e.value.length < 2 ^ 32) (bound : offset < 2 ^ 32)
      (name : terminated e.name <+: names.drop offset)
      (tail : SpellsEntries names es later) :
      SpellsEntries names (e :: es) (propertyToken offset e.value ++ later)

mutual

/-- The bytes that spell a tree. -/
inductive Spells (names : Bytes) : Tree → Bytes → Prop
  | node {name : Label} {entries : Entries} {children : List Tree} {own inside : Bytes}
      (front : SpellsEntries names entries.list own) (back : SpellsAll names children inside) :
      Spells names (.node name entries children)
        (openingToken name ++ (own ++ (inside ++ wordBytes endNode)))

/-- The bytes that spell trees, one after the other. -/
inductive SpellsAll (names : Bytes) : List Tree → Bytes → Prop
  | nil : SpellsAll names [] []
  | cons {t : Tree} {ts : List Tree} {first later : Bytes} (head : Spells names t first)
      (tail : SpellsAll names ts later) : SpellsAll names (t :: ts) (first ++ later)

end

/-! ### Blobs -/

/-- What the header of a blob says: how long the blob is, where its blocks start, on which processor
to boot, and how long the two blocks of a tree are. -/
structure Header where
  total : Nat
  structsStart : Nat
  stringsStart : Nat
  reservedStart : Nat
  processor : Nat
  stringsLength : Nat
  structsLength : Nat

/-- The words of a header by version 17 of the format, of which version 16 is a part. -/
def Header.words (h : Header) : List Nat :=
  [magic, h.total, h.structsStart, h.stringsStart, h.reservedStart, 17, 16, h.processor,
    h.stringsLength, h.structsLength]

/-- A block stands in a blob where it is said to start. -/
def Stands (block bytes : Bytes) (start : Nat) : Prop :=
  ∃ before after, bytes = before ++ (block ++ after) ∧ before.length = start

/-- The end of the list of reserved memory: a region at zero without a size. -/
def reservedEnd : Bytes := List.replicate 16 0

/-- Bytes are laid out as their header says. It gives the length of the bytes and where the blocks
stand: an empty list of reserved memory, a tree with the token that ends it, and the strings it
uses. -/
structure LaidOut (bytes : Bytes) (header : Header) (t : Tree) (stream strings : Bytes) : Prop where
  bound : ∀ n ∈ header.words, n < 2 ^ 32
  front : Stands (header.words.flatMap wordBytes) bytes 0
  total : header.total = bytes.length
  reserved : Stands reservedEnd bytes header.reservedStart
  structs : Stands (stream ++ wordBytes endMark) bytes header.structsStart
  structsLength : header.structsLength = (stream ++ wordBytes endMark).length
  names : Stands strings bytes header.stringsStart
  stringsLength : header.stringsLength = strings.length
  aligned : 8 ∣ header.reservedStart ∧ 4 ∣ header.structsStart
  spells : Spells strings t stream

/-- **Bytes are a flattened devicetree** of a tree. -/
def Flattened (bytes : Bytes) (t : Tree) : Prop :=
  ∃ header stream strings, LaidOut bytes header t stream strings

end Devicetree

end SocBringup
