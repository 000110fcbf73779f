import SocBringup.Devicetree.Node
import SocBringup.Proofs.Devicetree.Format

/-! # The walk through a spelled tree

Where a stream spells a tree, the walk delivers the nodes of the tree depth first, each with its
properties and those of the node around it, and goes on after the tree. The word at the front of a
stream decides what each function of the walk does there. A tree asks nothing of what follows it,
since a closing token is passed only on the way to the next node.

* `word?_wordBytes`, `untilNul_terminated`: what is read back of words and names.
* `properties_of_spells`, `skipProperties_of_spells`: the properties of a node are read and passed.
* `nodes_opening`, `nodes_endNode`: the walk goes into a node, and out of one.
* `nodes_of_spells`: the walk through a tree. -/

namespace SocBringup.Devicetree

/-! ### Words and names -/

theorem word?_wordBytes {n : Nat} (h : n < 2 ^ 32) (rest : Bytes) :
    word? (wordBytes n ++ rest) = some n := by
  have htake : (wordBytes n ++ rest).take 4 = wordBytes n := rfl
  unfold word? number?
  rw [htake, if_pos (length_wordBytes n), bigEndian_wordBytes h]

theorem exists_of_word? {stream : Bytes} {n : Nat} (h : word? stream = some n) :
    ∃ a b c d rest, stream = a :: b :: c :: d :: rest ∧ bigEndian [a, b, c, d] = n := by
  unfold word? number? at h
  match stream, h with
  | [], h => simp at h
  | [_], h => simp at h
  | [_, _], h => simp at h
  | [_, _, _], h => simp at h
  | a :: b :: c :: d :: rest, h => exact ⟨a, b, c, d, rest, rfl, by simpa using h⟩

theorem untilNul_append {bytes : Bytes} (h : 0 ∉ bytes) (rest : Bytes) :
    untilNul (bytes ++ 0 :: rest) = bytes := by
  have hall : ∀ b ∈ bytes, decide (b ≠ 0) = true := by
    intro b hb
    rw [decide_eq_true_iff]
    rintro rfl
    exact h hb
  unfold untilNul
  rw [List.takeWhile_append_of_pos hall, List.takeWhile_cons_of_neg (by simp), List.append_nil]

theorem untilNul_terminated (label : Label) (rest : Bytes) :
    untilNul (terminated label.text ++ rest) = bytesOf label.text := by
  rw [terminated, List.append_assoc]
  exact untilNul_append label.nulFree rest

/-- The node as it is read from a blob. -/
def Place.node (p : Place) : Node where
  name := if p.name.text.isEmpty then "/" else p.name.text
  properties := p.entries.properties
  around := p.around.map Entries.properties

variable {names stream rest : Bytes} {n : Nat}

/-! ### The word at the front of a stream -/

theorem closeNodes_of_word? (h : word? stream = some n) (hn : n ≠ endNode)
    (around : List (List Property)) : closeNodes stream around = (stream, around) := by
  obtain ⟨a, b, c, d, rest, rfl, hword⟩ := exists_of_word? h
  rw [closeNodes, if_neg (by rwa [hword])]

theorem skipNoOperations_of_word? (h : word? stream = some n) (hn : n ≠ noOperation) :
    skipNoOperations stream = stream := by
  obtain ⟨a, b, c, d, rest, rfl, hword⟩ := exists_of_word? h
  rw [skipNoOperations, if_neg (by rwa [hword])]

theorem property?_of_word? (h : word? stream = some n) (hn : n ≠ propertyMark) :
    property? names stream = none := by
  unfold property?
  rw [h]
  cases word? (stream.drop 4) with
  | none => rfl
  | some length =>
    cases word? (stream.drop 8) with
    | none => rfl
    | some offset => exact if_neg fun hall => hn hall.1

theorem opening?_of_word? (h : word? stream = some n) (hn : n ≠ beginNode) :
    opening? stream = none := by
  unfold opening?
  rw [h]
  cases text? (untilNul (stream.drop 4)) with
  | none => rfl
  | some name => exact if_neg hn

/-! ### Tokens -/

theorem word?_propertyToken (offset : Nat) (value rest : Bytes) :
    word? (propertyToken offset value ++ rest) = some propertyMark := by
  unfold propertyToken
  rw [List.append_assoc]
  exact word?_wordBytes (by decide) _

theorem word?_openingToken (name : Label) (rest : Bytes) :
    word? (openingToken name ++ rest) = some beginNode := by
  unfold openingToken
  rw [List.append_assoc]
  exact word?_wordBytes (by decide) _

theorem word?_endNode (rest : Bytes) : word? (wordBytes endNode ++ rest) = some endNode :=
  word?_wordBytes (by decide) rest

/-- A property is read, and what follows it is left. -/
theorem property?_propertyToken {offset : Nat} {value : Bytes} (length : value.length < 2 ^ 32)
    (bound : offset < 2 ^ 32) (rest : Bytes) :
    property? names (propertyToken offset value ++ rest) =
      some (⟨untilNul (names.drop offset), value⟩, rest) := by
  have hmark := word?_propertyToken offset value rest
  have hlength : word? ((propertyToken offset value ++ rest).drop 4) = some value.length :=
    word?_wordBytes length (wordBytes offset ++ aligned value ++ rest)
  have hoffset : word? ((propertyToken offset value ++ rest).drop 8) = some offset :=
    word?_wordBytes bound (aligned value ++ rest)
  have hvalue : (propertyToken offset value ++ rest).drop 12 = aligned value ++ rest := rfl
  have hfits : value.length ≤ (aligned value ++ rest).length := by
    rw [List.length_append, length_aligned]
    unfold padded
    omega
  have htake : (aligned value ++ rest).take value.length = value := by
    rw [aligned, List.append_assoc, List.take_left]
  have hdrop : (aligned value ++ rest).drop (padded value.length) = rest :=
    List.drop_left' (length_aligned value)
  unfold property?
  simp only [hmark, hlength, hoffset, hvalue, hfits, and_self, if_true, htake, hdrop]

theorem opening?_openingToken (name : Label) (rest : Bytes) :
    opening? (openingToken name ++ rest) = some (name.text, rest) := by
  have hmark := word?_openingToken name rest
  have hname : (openingToken name ++ rest).drop 4 = aligned (terminated name.text) ++ rest := rfl
  have huntil : untilNul (aligned (terminated name.text) ++ rest) = bytesOf name.text := by
    rw [aligned, List.append_assoc]
    exact untilNul_terminated name _
  have hlength : (bytesOf name.text).length + 1 = (terminated name.text).length := by
    rw [terminated, List.length_append, List.length_singleton]
  have hdrop : (openingToken name ++ rest).drop (4 + padded (terminated name.text).length) =
      rest := by
    rw [← List.drop_drop, hname]
    exact List.drop_left' (length_aligned _)
  unfold opening?
  simp only [hmark, hname, huntil, text?_bytesOf, if_true, hlength, hdrop]

/-! ### Properties -/

theorem properties_of_none (h : property? names (skipNoOperations stream) = none) :
    properties names stream = [] := by
  unfold properties
  split
  · rfl
  · simp_all

theorem properties_of_some {p : Property}
    (h : property? names (skipNoOperations stream) = some (p, rest)) :
    properties names stream = p :: properties names rest := by
  rw [properties.eq_def]
  split <;> simp_all

theorem skipProperties_of_none (h : property? names stream = none) :
    skipProperties names stream = stream := by
  unfold skipProperties
  split
  · rfl
  · simp_all

theorem skipProperties_of_some {p : Property} (h : property? names stream = some (p, rest)) :
    skipProperties names stream = skipProperties names rest := by
  rw [skipProperties.eq_def]
  split <;> simp_all

/-- The properties of a node end where a node opens or closes. -/
def Ends (stream : Bytes) : Prop := word? stream = some beginNode ∨ word? stream = some endNode

theorem Ends.skipNoOperations (h : Ends stream) : skipNoOperations stream = stream := by
  rcases h with h | h <;> exact skipNoOperations_of_word? h (by decide)

theorem Ends.property? (h : Ends stream) : property? names stream = none := by
  rcases h with h | h <;> exact property?_of_word? h (by decide)

theorem Ends.isSome_word? (h : Ends stream) : (word? stream).isSome := by
  rcases h with h | h <;> rw [h] <;> rfl

/-- No token without meaning stands before properties. -/
theorem SpellsEntries.skipNoOperations {es : List Entry} (h : SpellsEntries names es stream)
    (hrest : Ends rest) : skipNoOperations (stream ++ rest) = stream ++ rest := by
  cases h with
  | nil => exact hrest.skipNoOperations
  | cons length bound name tail =>
    rw [List.append_assoc]
    exact skipNoOperations_of_word? (word?_propertyToken ..) (by decide)

theorem SpellsEntries.property?_append {e : Entry} {es : List Entry}
    (h : SpellsEntries names (e :: es) stream) (rest : Bytes) :
    ∃ later, SpellsEntries names es later ∧
      property? names (stream ++ rest) = some (e.property, later ++ rest) := by
  cases h with
  | @cons _ _ offset _ length bound name tail =>
    obtain ⟨after, hname⟩ := name
    have huntil : untilNul (names.drop offset) = bytesOf e.name := by
      rw [← hname]
      exact untilNul_terminated ⟨e.name, e.nulFree_name⟩ after
    refine ⟨_, tail, ?_⟩
    rw [List.append_assoc, property?_propertyToken length bound, huntil]
    rfl

theorem properties_of_spells : ∀ {es : List Entry} {stream : Bytes},
    SpellsEntries names es stream → Ends rest →
      properties names (stream ++ rest) = es.map Entry.property
  | [], _, h, hrest => by
    cases h
    have hnone : property? names (skipNoOperations ([] ++ rest)) = none := by
      rw [List.nil_append, hrest.skipNoOperations, hrest.property?]
    exact properties_of_none hnone
  | e :: es, stream, h, hrest => by
    obtain ⟨later, htail, hread⟩ := h.property?_append rest
    rw [← h.skipNoOperations hrest] at hread
    rw [properties_of_some hread, properties_of_spells htail hrest, List.map_cons]

theorem skipProperties_of_spells : ∀ {es : List Entry} {stream : Bytes},
    SpellsEntries names es stream → Ends rest → skipProperties names (stream ++ rest) = rest
  | [], _, h, hrest => by
    cases h
    exact skipProperties_of_none hrest.property?
  | e :: es, stream, h, hrest => by
    obtain ⟨later, htail, hread⟩ := h.property?_append rest
    rw [skipProperties_of_some hread, skipProperties_of_spells htail hrest]

/-! ### Nodes -/

theorem nodes_of_none {around : List (List Property)} (h : step? names stream around = none) :
    nodes names stream around = [] := by
  unfold nodes
  split
  · rfl
  · simp_all

theorem nodes_of_some {around : List (List Property)} {s : Step}
    (h : step? names stream around = some s) :
    nodes names stream around = s.node :: nodes names s.rest s.around := by
  rw [nodes.eq_def]
  split <;> simp_all

theorem nodes_congr {stream' : Bytes} {around around' : List (List Property)}
    (h : step? names stream around = step? names stream' around') :
    nodes names stream around = nodes names stream' around' := by
  cases hstep : step? names stream' around' with
  | none => rw [nodes_of_none (h.trans hstep), nodes_of_none hstep]
  | some s => rw [nodes_of_some (h.trans hstep), nodes_of_some hstep]

/-- The walk goes out of a node. -/
theorem nodes_endNode (rest : Bytes) (own : List Property) (around : List (List Property)) :
    nodes names (wordBytes endNode ++ rest) (own :: around) = nodes names rest around := by
  have hclose : closeNodes (wordBytes endNode ++ rest) (own :: around) =
      closeNodes rest around := rfl
  refine nodes_congr ?_
  unfold step?
  rw [hclose]

/-- The walk ends where neither a node nor a token that may stand before one does. -/
theorem nodes_of_word? {around : List (List Property)} (h : word? stream = some n)
    (hend : n ≠ endNode) (hno : n ≠ noOperation) (hbegin : n ≠ beginNode) :
    nodes names stream around = [] := by
  have hstep : step? names stream around = none := by
    unfold step?
    simp only [closeNodes_of_word? h hend, skipNoOperations_of_word? h hno,
      opening?_of_word? h hbegin]
  exact nodes_of_none hstep

/-- The walk goes into a node. -/
theorem nodes_opening (name : Label) {entries : Entries} {own : Bytes}
    (h : SpellsEntries names entries.list own) (hrest : Ends rest) (around : List Entries) :
    nodes names (openingToken name ++ (own ++ rest)) (around.map Entries.properties) =
      (Place.mk name entries around.head?).node ::
        nodes names rest ((entries :: around).map Entries.properties) := by
  have hword := word?_openingToken name (own ++ rest)
  have hclose := closeNodes_of_word? hword (by decide) (around.map Entries.properties)
  have hno := skipNoOperations_of_word? hword (by decide)
  have hread := properties_of_spells h hrest
  have hskip : skipProperties names (skipNoOperations (own ++ rest)) = rest := by
    rw [h.skipNoOperations hrest, skipProperties_of_spells h hrest]
  have haround : (around.map Entries.properties).head? = around.head?.map Entries.properties :=
    List.head?_map
  have hstep : step? names (openingToken name ++ (own ++ rest)) (around.map Entries.properties) =
      some ⟨(Place.mk name entries around.head?).node, rest,
        (entries :: around).map Entries.properties⟩ := by
    unfold step?
    simp only [hclose, hno, opening?_openingToken, hread, hskip, hrest.isSome_word?, if_true,
      haround]
    rfl
  exact nodes_of_some hstep

/-- Trees start where a node opens, and where there are none the node around them closes. -/
theorem SpellsAll.ends {ts : List Tree} (h : SpellsAll names ts stream) (rest : Bytes) :
    Ends (stream ++ (wordBytes endNode ++ rest)) := by
  cases h with
  | nil => exact .inr (word?_endNode rest)
  | cons head tail =>
    cases head with
    | node front back =>
      left
      rw [List.append_assoc, List.append_assoc]
      exact word?_openingToken ..

mutual

/-- **The walk through a tree** delivers its nodes and goes on after it. -/
theorem nodes_of_spells : ∀ {t : Tree} {stream : Bytes}, Spells names t stream →
    ∀ (rest : Bytes) (around : List Entries),
      nodes names (stream ++ rest) (around.map Entries.properties) =
        (t.placesIn around.head?).map Place.node ++
          nodes names rest (around.map Entries.properties)
  | .node name entries _, _, .node front back, rest, around => by
    have hopen := nodes_opening name front (back.ends rest) around
    have hinside := nodes_of_spellsAll back (wordBytes endNode ++ rest) (entries :: around)
    have hclose : nodes names (wordBytes endNode ++ rest) ((entries :: around).map
        Entries.properties) = nodes names rest (around.map Entries.properties) :=
      nodes_endNode rest entries.properties (around.map Entries.properties)
    simp only [List.append_assoc]
    -- into the node, through the nodes inside it and out again
    rw [hopen, hinside, hclose, Tree.placesIn, List.map_cons, List.cons_append]
    rfl

theorem nodes_of_spellsAll : ∀ {ts : List Tree} {stream : Bytes}, SpellsAll names ts stream →
    ∀ (rest : Bytes) (around : List Entries),
      nodes names (stream ++ rest) (around.map Entries.properties) =
        (Tree.placesInAll around.head? ts).map Place.node ++
          nodes names rest (around.map Entries.properties)
  | [], _, .nil, rest, around => by
    rw [Tree.placesInAll]
    rfl
  | _ :: _, _, .cons head tail, rest, around => by
    rw [List.append_assoc, nodes_of_spells head, nodes_of_spellsAll tail, Tree.placesInAll,
      List.map_append, List.append_assoc]

end

end SocBringup.Devicetree
