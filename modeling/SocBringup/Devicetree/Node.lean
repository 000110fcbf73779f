import SocBringup.Devicetree.Blob
import SocBringup.Devicetree.Reader

/-! # Devicetree nodes: the walk through the structure block

The tokens of the structure block open and close nodes and give their properties; tokens without
meaning may stand in between. Nodes are delivered depth first, each with its own properties and
those of the node around it. The walk ends where something other than the next node stands.

* `Blob.nodes`: all nodes in the order of the blob. -/

namespace SocBringup.Devicetree

/-- A node, with its properties and those of the node around it, if there is one. -/
structure Node where
  name : String
  properties : List Property
  around : Option (List Property)

/-! ### Tokens -/

/-- The stream after the no-operation tokens at its front. -/
def skipNoOperations (stream : Bytes) : Bytes :=
  match stream with
  | a :: b :: c :: d :: rest =>
    if bigEndian [a, b, c, d] = noOperation then skipNoOperations rest
    else a :: b :: c :: d :: rest
  | short => short

/-- The stream after the closing tokens at its front, with the nodes that stay open. -/
def closeNodes (stream : Bytes) (around : List (List Property)) :
    Bytes × List (List Property) :=
  match stream with
  | a :: b :: c :: d :: rest =>
    if bigEndian [a, b, c, d] = endNode then closeNodes rest around.tail
    else (a :: b :: c :: d :: rest, around)
  | short => (short, around)

/-- The property at the front of a stream, and the stream after it. -/
def property? (names : Bytes) (stream : Bytes) : Option (Property × Bytes) :=
  match word? stream, word? (stream.drop 4), word? (stream.drop 8) with
  | some mark, some length, some nameOffset =>
    let rest := stream.drop 12
    if mark = propertyMark ∧ length ≤ rest.length then
      some (⟨untilNul (names.drop nameOffset), rest.take length⟩, rest.drop (padded length))
    else none
  | _, _, _ => none

/-! ### What is left of a stream is shorter -/

theorem length_skipNoOperations (stream : Bytes) :
    (skipNoOperations stream).length ≤ stream.length := by
  fun_induction skipNoOperations stream with
  | case1 a b c d rest h ih => simp only [List.length_cons]; omega
  | case2 => exact Nat.le_refl _
  | case3 => exact Nat.le_refl _

theorem length_closeNodes (stream : Bytes) (around : List (List Property)) :
    (closeNodes stream around).1.length ≤ stream.length := by
  fun_induction closeNodes stream around with
  | case1 around a b c d rest h ih => simp only [List.length_cons]; omega
  | case2 => exact Nat.le_refl _
  | case3 => exact Nat.le_refl _

theorem four_le_of_word? {stream : Bytes} {n : Nat} (h : word? stream = some n) :
    4 ≤ stream.length := by
  unfold word? number? at h
  split at h
  · rename_i hl; rw [List.length_take] at hl; omega
  · cases h

theorem length_property? {names stream rest : Bytes} {p : Property}
    (h : property? names stream = some (p, rest)) : rest.length < stream.length := by
  unfold property? at h
  split at h
  · rename_i hw _ _
    have := four_le_of_word? hw
    simp only at h
    split at h
    · obtain ⟨-, rfl⟩ := Prod.mk.inj (Option.some.inj h)
      simp only [List.length_drop]; omega
    · cases h
  · cases h

/-! ### Properties -/

/-- The properties at the front of a stream, with no-operation tokens in between. -/
def properties (names : Bytes) (stream : Bytes) : List Property :=
  match _h : property? names (skipNoOperations stream) with
  | none => []
  | some (p, rest) => p :: properties names rest
termination_by stream.length
decreasing_by
  exact Nat.lt_of_lt_of_le (length_property? _h) (length_skipNoOperations stream)

/-- The stream after the properties at its front. -/
def skipProperties (names : Bytes) (stream : Bytes) : Bytes :=
  match _h : property? names stream with
  | none => stream
  | some (_, rest) => skipProperties names rest
termination_by stream.length
decreasing_by exact length_property? _h

theorem length_skipProperties (names stream : Bytes) :
    (skipProperties names stream).length ≤ stream.length := by
  fun_induction skipProperties names stream with
  | case1 => exact Nat.le_refl _
  | case2 stream p rest h ih => exact Nat.le_trans ih (Nat.le_of_lt (length_property? h))

/-! ### Nodes -/

/-- The name of the node that opens at the front of a stream, and the stream after it. -/
def opening? (stream : Bytes) : Option (String × Bytes) :=
  match word? stream, text? (untilNul (stream.drop 4)) with
  | some mark, some name =>
    if mark = beginNode then
      some (name, stream.drop (4 + padded ((untilNul (stream.drop 4)).length + 1)))
    else none
  | _, _ => none

theorem length_opening? {stream body : Bytes} {name : String}
    (h : opening? stream = some (name, body)) : body.length < stream.length := by
  unfold opening? at h
  split at h
  · rename_i hw _
    have := four_le_of_word? hw
    split at h
    · obtain ⟨-, rfl⟩ := Prod.mk.inj (Option.some.inj h)
      simp only [List.length_drop]; omega
    · cases h
  · cases h

/-- What the walk finds at the front of a stream: a node, the stream after its properties, and the
properties of the nodes that are open there. -/
structure Step where
  node : Node
  rest : Bytes
  around : List (List Property)

/-- The next node of a stream. No-operation tokens may stand before it and before its properties,
but not between its properties or before a closing token, and a node at whose end the stream is used
up is not delivered. A node without a name goes by a slash. -/
def step? (names : Bytes) (stream : Bytes) (around : List (List Property)) : Option Step :=
  let (stream, around) := closeNodes stream around
  match opening? (skipNoOperations stream) with
  | none => none
  | some (name, body) =>
    let own := properties names body
    let rest := skipProperties names (skipNoOperations body)
    if (word? rest).isSome then
      some {
        node := {
          name := if name.isEmpty then "/" else name
          properties := own
          around := around.head? }
        rest
        around := own :: around }
    else none

theorem length_step? {names stream : Bytes} {around : List (List Property)} {s : Step}
    (h : step? names stream around = some s) : s.rest.length < stream.length := by
  unfold step? at h
  simp only at h
  split at h
  · cases h
  · rename_i name body hopen
    split at h
    · cases h
      exact Nat.lt_of_le_of_lt (length_skipProperties ..) <|
        Nat.lt_of_le_of_lt (length_skipNoOperations _) <|
        Nat.lt_of_lt_of_le (length_opening? hopen) <|
        Nat.le_trans (length_skipNoOperations _) (length_closeNodes ..)
    · cases h

/-- The nodes of a stream. -/
def nodes (names : Bytes) (stream : Bytes) (around : List (List Property)) : List Node :=
  match _h : step? names stream around with
  | none => []
  | some s => s.node :: nodes names s.rest s.around
termination_by stream.length
decreasing_by exact length_step? _h

/-- The nodes of a blob, depth first. -/
def Blob.nodes (blob : Blob) : List Node :=
  Devicetree.nodes blob.stringsBlock blob.structureBlock []

end SocBringup.Devicetree
