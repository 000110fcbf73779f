import SocBringup.Devicetree.Lookup
import SocBringup.Proofs.Devicetree.Laws
import SocBringup.Proofs.Devicetree.Walk

/-! # The reader of blobs is lawful

Where properties have names of their own, the first and the last of a name are the same, so it makes
no difference which of them is read. The header of a flattened devicetree gives the two blocks that
the walk needs, and the walk delivers the nodes of the tree.

* `compatible?_eq`, `parentCells_of_counts`, `regions_addresses`: what is read in a node.
* `ofBytes_of_laidOut`, `nodes_of_laidOut`: what is read of a blob.
* `Blob.lawful_reader`: the reader of blobs keeps the laws. -/

namespace SocBringup.Devicetree

/-! ### Properties by name -/

/-- Of properties with names of their own, the last of a name is the first. -/
theorem Distinct.lastOf?_eq_find? : ∀ {properties : List Property}, Distinct properties →
    ∀ (name : String), lastOf? properties name = properties.find? (·.name = bytesOf name)
  | [], _, _ => rfl
  | p :: properties, h, name => by
    obtain ⟨hfresh, hlater⟩ := List.nodup_cons.mp h
    have hdistinct : Distinct properties := hlater
    have ih := hdistinct.lastOf?_eq_find? name
    unfold lastOf? at ih ⊢
    by_cases hname : p.name = bytesOf name
    · have hnone : properties.filter (·.name = bytesOf name) = [] := by
        rw [List.filter_eq_nil_iff]
        intro q hq
        have hother : q.name ≠ bytesOf name := fun hq' =>
          hfresh (List.mem_map.mpr ⟨q, hq, hq'.trans hname.symm⟩)
        simpa using hother
      rw [List.filter_cons_of_pos (by simpa using hname), hnone,
        List.find?_cons_of_pos (by simpa using hname)]
      rfl
    · rw [List.filter_cons_of_neg (by simpa using hname), ih,
        List.find?_cons_of_neg (by simpa using hname)]

theorem Distinct.value_lastOf? {properties : List Property} (h : Distinct properties)
    (name : String) : (lastOf? properties name).map Property.value = value? properties name := by
  rw [h.lastOf?_eq_find?, value?]

/-! ### Compatible strings -/

theorem pieces_append : ∀ {piece : Bytes}, 0 ∉ piece → ∀ (rest : Bytes),
    pieces (piece ++ 0 :: rest) = piece :: pieces rest
  | [], _, rest => by rw [List.nil_append, pieces, if_pos rfl]
  | b :: piece, h, rest => by
    obtain ⟨hb, hpiece⟩ := not_or.mp (mt List.mem_cons.mpr h)
    have ih := pieces_append hpiece rest
    rw [List.cons_append, pieces, if_neg (Ne.symm hb), ih]

theorem pieces_terminated : ∀ (strings : List Label),
    pieces (strings.flatMap (terminated ·.text)) = strings.map (bytesOf ·.text)
  | [] => rfl
  | c :: strings => by
    have hfirst : (c :: strings).flatMap (terminated ·.text) =
        bytesOf c.text ++ 0 :: strings.flatMap (terminated ·.text) := by
      rw [List.flatMap_cons, terminated, List.append_assoc, List.singleton_append]
    rw [hfirst, pieces_append c.nulFree, pieces_terminated strings, List.map_cons]

theorem texts_bytesOf : ∀ (strings : List Label),
    texts (strings.map (bytesOf ·.text)) = strings.map (·.text)
  | [] => rfl
  | c :: strings => by
    rw [List.map_cons, texts, text?_bytesOf, List.map_cons, ← texts_bytesOf strings]

namespace Node

theorem compatible?_eq {node : Node} (h : Distinct node.properties) :
    node.compatible? =
      (value? node.properties "compatible").map fun value => texts (pieces value) := by
  unfold compatible?
  rw [← h.value_lastOf?, Option.map_map]
  rfl

theorem compatible?_of_none {node : Node} (h : Distinct node.properties)
    (hvalue : value? node.properties "compatible" = none) : node.compatible? = none := by
  rw [compatible?_eq h, hvalue, Option.map_none]

theorem compatible?_of_some {node : Node} {strings : List Label} (h : Distinct node.properties)
    (hvalue : value? node.properties "compatible" = some (strings.flatMap (terminated ·.text))) :
    node.compatible? = some (strings.map (·.text)) := by
  rw [compatible?_eq h, hvalue, Option.map_some, pieces_terminated, texts_bytesOf]

end Node

/-! ### Cells and regions -/

theorem Node.parentCells_of_counts {node : Node} {name : String} {default count : Nat}
    (hdistinct : ∀ properties, node.around = some properties → Distinct properties)
    (h : Counts node.around name default count) : node.parentCells name default = count := by
  have hread : (node.around.bind (lastOf? · name)).map Property.value =
      node.around.bind (value? · name) := by
    cases haround : node.around with
    | none => rfl
    | some properties => exact (hdistinct properties haround).value_lastOf? name
  unfold parentCells
  cases h with
  | missing value =>
    rw [value, Option.map_eq_none_iff] at hread
    rw [hread]
    rfl
  | given bound value =>
    rw [value] at hread
    obtain ⟨p, hp, hvalue⟩ := Option.map_eq_some_iff.mp hread
    have hword := word?_wordBytes bound []
    rw [List.append_nil] at hword
    rw [hp, Option.bind_some, hvalue, hword, Option.getD_some]

/-- The regions of a value that is long enough for one are that one and those of the rest. -/
theorem Regions.cons_drop {addressCells sizeCells : Nat} {value : Bytes} {addresses : List Nat}
    (h : 4 * (addressCells + sizeCells) ≤ value.length)
    (tail : Regions addressCells sizeCells (value.drop (4 * (addressCells + sizeCells)))
      addresses) :
    Regions addressCells sizeCells value
      (bigEndian (value.take (4 * addressCells)) :: addresses) := by
  have haddress : (value.take (4 * addressCells)).length = 4 * addressCells := by
    rw [List.length_take]
    omega
  have hsize : ((value.drop (4 * addressCells)).take (4 * sizeCells)).length = 4 * sizeCells := by
    rw [List.length_take, List.length_drop]
    omega
  have hsplit : value.take (4 * addressCells) ++ ((value.drop (4 * addressCells)).take
      (4 * sizeCells) ++ value.drop (4 * (addressCells + sizeCells))) = value := by
    rw [Nat.mul_add, ← List.drop_drop, List.take_append_drop, List.take_append_drop]
  have hread := Regions.cons haddress hsize tail
  rwa [hsplit] at hread

theorem regions_addresses {addressCells : Nat} (sizeCells : Nat) (h : 0 < addressCells)
    (value : Bytes) :
    Regions addressCells sizeCells value (regions addressCells sizeCells value) := by
  fun_induction regions addressCells sizeCells value with
  | case1 value hlong ih => exact .cons_drop hlong.2 ih
  | case2 value hshort => exact .short (by omega)

theorem regions_zero (sizeCells : Nat) (value : Bytes) : regions 0 sizeCells value = [] := by
  rw [regions, dif_neg (by omega)]

namespace Node

variable {node : Node} {addressCells sizeCells : Nat}

section Cells
variable (h : Blob.reader.Cells node addressCells sizeCells)
include h

theorem reg?_of_cells : node.reg? =
    if maxCells < addressCells ∨ maxCells < sizeCells then none
    else (value? node.properties "reg").map (regions addressCells sizeCells) := by
  unfold reg?
  rw [parentCells_of_counts h.distinct h.address, parentCells_of_counts h.distinct h.size, value?,
    Option.map_map]
  rfl

theorem reg?_of_none (hvalue : value? node.properties "reg" = none) : node.reg? = none := by
  rw [reg?_of_cells h, hvalue, Option.map_none, ite_self]

theorem eq_nil_of_reg? (hcells : ¬ Usable addressCells sizeCells) {addresses : List Nat}
    (hread : node.reg? = some addresses) : addresses = [] := by
  rw [reg?_of_cells h] at hread
  split at hread
  · cases hread
  · rename_i hfew
    obtain ⟨value, -, rfl⟩ := Option.map_eq_some_iff.mp hread
    have hzero : addressCells = 0 := by
      unfold Usable at hcells
      unfold maxCells at hfew
      omega
    rw [hzero, regions_zero]

theorem exists_regions (hcells : Usable addressCells sizeCells) {value : Bytes}
    (hvalue : value? node.properties "reg" = some value) :
    ∃ addresses, node.reg? = some addresses ∧ Regions addressCells sizeCells value addresses := by
  obtain ⟨hsome, haddress, hsize⟩ := hcells
  refine ⟨regions addressCells sizeCells value, ?_, regions_addresses sizeCells hsome value⟩
  rw [reg?_of_cells h, hvalue, if_neg (by unfold maxCells; omega), Option.map_some]

end Cells

end Node

/-! ### The header -/

theorem drop_words : ∀ (words : List Nat) (i : Nat) (rest : Bytes), i ≤ words.length →
    (words.flatMap wordBytes ++ rest).drop (4 * i) = (words.drop i).flatMap wordBytes ++ rest
  | _, 0, _, _ => rfl
  | word :: words, i + 1, rest, hi => by
    have hlater := drop_words words i rest (Nat.le_of_succ_le_succ hi)
    rw [Nat.mul_succ, Nat.add_comm, ← List.drop_drop, List.flatMap_cons, List.append_assoc,
      List.drop_left' (length_wordBytes word), hlater]
    rfl

theorem headerWord_words {words : List Nat} (h : ∀ n ∈ words, n < 2 ^ 32) {i : Nat}
    (hi : i < words.length) (rest : Bytes) :
    Blob.headerWord (words.flatMap wordBytes ++ rest) i = words[i] := by
  have hbound := h words[i] (List.getElem_mem hi)
  unfold Blob.headerWord
  rw [drop_words words i rest (Nat.le_of_lt hi), List.drop_eq_getElem_cons hi, List.flatMap_cons,
    List.append_assoc, word?_wordBytes hbound]
  rfl

/-- A block is cut out where it stands. -/
theorem Stands.take_drop {block bytes : Bytes} {start : Nat} (h : Stands block bytes start) :
    (bytes.drop start).take block.length = block := by
  obtain ⟨before, after, rfl, rfl⟩ := h
  rw [List.drop_left, List.take_left]

section LaidOut
variable {bytes stream strings : Bytes} {header : Header} {t : Tree}

/-- **The blocks of a flattened devicetree** are those its header says. -/
theorem ofBytes_of_laidOut (h : LaidOut bytes header t stream strings) :
    Blob.ofBytes bytes = .ok ⟨stream ++ wordBytes endMark, strings⟩ := by
  obtain ⟨before, after, hbytes, hbefore⟩ := h.front
  rw [List.length_eq_zero_iff] at hbefore
  rw [hbefore, List.nil_append] at hbytes
  have hword (i : Nat) (hi : i < 10) :
      Blob.headerWord bytes i = header.words.get ⟨i, hi⟩ := by
    rw [hbytes]
    exact headerWord_words h.bound hi after
  have hmagic : Blob.headerWord bytes 0 = magic := hword 0 (by decide)
  have htotal : Blob.headerWord bytes 1 = header.total := hword 1 (by decide)
  have hstructs : Blob.headerWord bytes 2 = header.structsStart := hword 2 (by decide)
  have hstrings : Blob.headerWord bytes 3 = header.stringsStart := hword 3 (by decide)
  have hstringsLength : Blob.headerWord bytes 8 = header.stringsLength := hword 8 (by decide)
  have hstructsLength : Blob.headerWord bytes 9 = header.structsLength := hword 9 (by decide)
  have hsize : headerSize ≤ bytes.length := by
    rw [hbytes, List.length_append]
    exact Nat.le_add_right headerSize after.length
  unfold Blob.ofBytes
  rw [if_neg (Nat.not_lt.mpr hsize), if_neg (not_not.mpr hmagic), htotal, h.total,
    if_neg (Nat.lt_irrefl _), hstructs, hstructsLength, hstrings, hstringsLength, h.structsLength,
    h.stringsLength, h.structs.take_drop, h.names.take_drop]

theorem nodes_of_laidOut (h : LaidOut bytes header t stream strings) :
    Blob.nodes ⟨stream ++ wordBytes endMark, strings⟩ = t.places.map Place.node := by
  have hwalk := nodes_of_spells h.spells (wordBytes endMark) []
  have hend : nodes strings (wordBytes endMark) [] = [] := by
    have hword := word?_wordBytes (n := endMark) (by decide) []
    rw [List.append_nil] at hword
    exact nodes_of_word? hword (by decide) (by decide) (by decide)
  rw [List.map_nil, hend, List.append_nil] at hwalk
  exact hwalk

end LaidOut

/-! ### The laws -/

theorem Place.shows_node (p : Place) : Blob.reader.Shows p.node p where
  name := by simp [Blob.reader, Place.node]
  properties := rfl
  around := rfl

/-- **The reader of blobs is lawful.** -/
theorem Blob.lawful_reader : Blob.reader.Lawful where
  opens := by
    rintro bytes t ⟨header, stream, strings, h⟩ -
    refine ⟨⟨stream ++ wordBytes endMark, strings⟩, ofBytes_of_laidOut h, ?_, fun _ => rfl⟩
    have hshown : List.Forall₂ (fun (node : Node) p => Blob.reader.Shows node p)
        (t.places.map Place.node) t.places :=
      List.forall₂_map_left_iff.mpr (List.forall₂_same.mpr fun p _ => p.shows_node)
    rw [← nodes_of_laidOut h] at hshown
    exact hshown
  incompatible := Node.compatible?_of_none
  compatible := Node.compatible?_of_some
  regionless := Node.reg?_of_none
  unusable h hcells _ := Node.eq_nil_of_reg? h hcells
  regions h hcells _ := Node.exists_regions h hcells

end SocBringup.Devicetree
