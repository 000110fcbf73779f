import SocBringup.Devicetree.Reader
import SocBringup.Proofs.Program.Keeps

/-! # The two searches of a lookup

A lookup searches twice: the reader for the node that answers a query, and the lookup itself for
the string in that node. Where the reader finds the first node that has a string of the query, the
second search never fails.

* `FindsFirst`: the reader's search.
* `device?_eq_none_iff`, `exists_node`: a node that was found is never given up, and its device says
  what the reader says of it. -/

namespace SocBringup.Devicetree.Reader

variable {r : Reader} {blob : r.Blob} {node : r.Node} {query : List String}

/-- A node has a string of a query. -/
def answers (r : Reader) (query : List String) (node : r.Node) : Bool :=
  ((r.compatible? node).getD []).any (query.contains ·)

/-- The node that answers a query is the first that has one of its strings. -/
def FindsFirst (r : Reader) (blob : r.Blob) : Prop :=
  ∀ query, r.findCompatible blob query = (r.nodes blob).find? (r.answers query)

/-- A node that has a string of the query has a first one. -/
theorem isSome_match? (node : r.Node) (query : List String) :
    (r.match? node query).isSome = r.answers query node := by
  unfold match? answers
  cases r.compatible? node with
  | none => rfl
  | some strings =>
    rw [Option.bind_some, Option.getD_some, Bool.eq_iff_iff, List.find?_isSome, List.any_eq_true]

section FindsFirst
variable (finds : r.FindsFirst blob)
include finds

theorem FindsFirst.exists_match? (h : r.findCompatible blob query = some node) :
    ∃ compatible, r.match? node query = some compatible := by
  rw [finds query] at h
  have hanswers := List.find?_some h
  rw [← isSome_match?] at hanswers
  exact Option.isSome_iff_exists.mp hanswers

/-- **A node that was found is never given up.** -/
theorem FindsFirst.device?_eq_none_iff :
    r.device? blob query = none ↔ r.findCompatible blob query = none := by
  unfold device?
  cases hnode : r.findCompatible blob query with
  | none => exact iff_of_true rfl rfl
  | some node =>
    obtain ⟨compatible, hmatch⟩ := finds.exists_match? hnode
    simp [hmatch]

end FindsFirst

/-- A device is that of the node that was found, by a string of the query. -/
theorem exists_node {device : Device} (h : r.device? blob query = some device) :
    ∃ node, r.findCompatible blob query = some node ∧
      r.match? node query = some device.compatible ∧ device.name = r.name node ∧
      device.base = r.base? node := by
  unfold device? at h
  obtain ⟨node, hnode, h⟩ := Option.bind_eq_some_iff.mp h
  obtain ⟨compatible, hmatch, h⟩ := Option.bind_eq_some_iff.mp h
  cases h
  exact ⟨node, hnode, hmatch, rfl, rfl⟩

/-- The string of a node that is found is in the query. -/
theorem mem_query_of_match? {compatible : String} (h : r.match? node query = some compatible) :
    compatible ∈ query := by
  obtain ⟨strings, -, hfind⟩ := Option.bind_eq_some_iff.mp h
  simpa using List.find?_some hfind

theorem value_find {σ : Type} (serve : Handler Registers σ) (s : σ) :
    ((r.find blob query).run serve s).value = r.device? blob query := by
  unfold find
  cases r.device? blob query <;> rfl

end SocBringup.Devicetree.Reader
