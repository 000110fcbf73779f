import SocBringup.Proofs.Devicetree.Format

/-! # Writing a devicetree

A writer fills the structure block and the strings block side by side. It writes the name of every
property anew at the end of the strings block, and fills up the structure block to whole words after
names and values. At the end both blocks are put behind a header that says where they are.

* `Writer`, `flatten`: the writer, and the blob it makes of a tree.
* `Wrote`: what stands between two states of a writer, and what it spells.
* `wrote_tree`: a tree that is written is spelled.
* `flattened_flatten`: the blob that is written of a tree is a flattened devicetree of it. -/

namespace SocBringup.Devicetree

/-- The two blocks as far as they are written. -/
structure Writer where
  structs : Bytes := []
  strings : Bytes := []

namespace Writer

def raw (w : Writer) (bytes : Bytes) : Writer := { w with structs := w.structs ++ bytes }

def word (w : Writer) (n : Nat) : Writer := w.raw (wordBytes n)

/-- Fill up the structure block to whole words. -/
def pad (w : Writer) : Writer :=
  w.raw (List.replicate (padded w.structs.length - w.structs.length) 0)

def openNode (w : Writer) (name : Label) : Writer :=
  ((w.word beginNode).raw (terminated name.text)).pad

def closeNode (w : Writer) : Writer := w.word endNode

/-- Write a property, its name at the end of the strings block. -/
def entry (w : Writer) (e : Entry) : Writer :=
  let offset := w.strings.length
  let w := { w with strings := w.strings ++ terminated e.name }
  ((((w.word propertyMark).word e.value.length).word offset).raw e.value).pad

mutual

/-- Write a node, its properties before the nodes inside it. -/
def tree (w : Writer) : Tree → Writer
  | .node name entries children =>
    (trees (entries.list.foldl entry (w.openNode name)) children).closeNode

def trees (w : Writer) : List Tree → Writer
  | [] => w
  | t :: ts => trees (tree w t) ts

end

/-- The header of a blob. The list of reserved memory stands behind it, then the two blocks. -/
def header (structs strings : Bytes) : Header :=
  let start := headerSize + reservedEnd.length
  { total := start + structs.length + strings.length
    structsStart := start
    stringsStart := start + structs.length
    reservedStart := headerSize
    processor := 0
    stringsLength := strings.length
    structsLength := structs.length }

/-- The blob of what is written. -/
def finish (w : Writer) : Bytes :=
  let w := w.word endMark
  (header w.structs w.strings).words.flatMap wordBytes ++
    (reservedEnd ++ (w.structs ++ w.strings))

end Writer

/-- The blob of a tree. -/
def flatten (t : Tree) : Bytes := (Writer.tree {} t).finish

/-! ### What was written -/

/-- Between two states of a writer a stream of whole words was added to the structure block, and
names to the strings block. What the stream spells it spells for every strings block that goes on
from there, as long as numbers in the blocks fit in words. -/
structure Wrote (w w' : Writer) (stream : Bytes) (spelled : Bytes → Prop) : Prop where
  structs : w'.structs = w.structs ++ stream
  whole : 4 ∣ stream.length
  strings : w.strings <+: w'.strings
  spells : ∀ names, w'.strings <+: names → names.length < 2 ^ 32 → w'.structs.length < 2 ^ 32 →
    spelled names

namespace Wrote

variable {w w' w'' : Writer} {stream stream' : Bytes} {spelled spelled' : Bytes → Prop}

theorem aligned (h : Wrote w w' stream spelled) (hw : 4 ∣ w.structs.length) :
    4 ∣ w'.structs.length := by
  rw [h.structs, List.length_append]
  exact Nat.dvd_add hw h.whole

theorem imp (h : Wrote w w' stream spelled) (himp : ∀ names, spelled names → spelled' names) :
    Wrote w w' stream spelled' where
  structs := h.structs
  whole := h.whole
  strings := h.strings
  spells names hstrings hnames hstructs := himp names (h.spells names hstrings hnames hstructs)

theorem trans (h : Wrote w w' stream spelled) (h' : Wrote w' w'' stream' spelled') :
    Wrote w w'' (stream ++ stream') (fun names => spelled names ∧ spelled' names) where
  structs := by rw [h'.structs, h.structs, List.append_assoc]
  whole := by
    rw [List.length_append]
    exact Nat.dvd_add h.whole h'.whole
  strings := h.strings.trans h'.strings
  spells names hstrings hnames hstructs := by
    have hlonger : w''.structs.length = w'.structs.length + stream'.length := by
      rw [h'.structs, List.length_append]
    have hearlier := h.spells names (h'.strings.trans hstrings) hnames (by omega)
    exact ⟨hearlier, h'.spells names hstrings hnames hstructs⟩

theorem refl (w : Writer) : Wrote w w [] (fun _ => True) where
  structs := (List.append_nil _).symm
  whole := Nat.dvd_zero 4
  strings := List.prefix_rfl
  spells _ _ _ _ := trivial

end Wrote

/-! ### Tokens -/

variable {w : Writer}

/-- Bytes after whole words are filled up to whole words. -/
theorem structs_pad_raw (hw : 4 ∣ w.structs.length) (bytes : Bytes) :
    (w.raw bytes).pad.structs = w.structs ++ aligned bytes := by
  have hfill : padded (w.structs ++ bytes).length - (w.structs ++ bytes).length =
      padded bytes.length - bytes.length := by
    rw [List.length_append]
    unfold padded
    omega
  have hpad : (w.raw bytes).pad.structs = w.structs ++ bytes ++
      List.replicate (padded (w.structs ++ bytes).length - (w.structs ++ bytes).length) 0 := rfl
  rw [hpad, hfill, List.append_assoc]
  rfl

theorem four_dvd_aligned (bytes : Bytes) : 4 ∣ (aligned bytes).length := by
  rw [length_aligned]
  exact Nat.dvd_mul_left 4 _

theorem wrote_openNode (hw : 4 ∣ w.structs.length) (name : Label) :
    Wrote w (w.openNode name) (openingToken name) (fun _ => True) where
  structs := by
    have hword : 4 ∣ (w.word beginNode).structs.length := by
      have hlength : (w.word beginNode).structs.length = w.structs.length + 4 :=
        List.length_append
      omega
    unfold Writer.openNode
    rw [structs_pad_raw hword, openingToken, ← List.append_assoc]
    rfl
  whole := by
    have hname := four_dvd_aligned (terminated name.text)
    rw [openingToken, List.length_append, length_wordBytes]
    omega
  strings := List.prefix_rfl
  spells _ _ _ _ := trivial

theorem wrote_closeNode (w : Writer) :
    Wrote w w.closeNode (wordBytes endNode) (fun _ => True) where
  structs := rfl
  whole := Nat.dvd_refl 4
  strings := List.prefix_rfl
  spells _ _ _ _ := trivial

/-- A name stands where it was written in the strings block, whatever is written after it. -/
theorem prefix_drop {strings names later : Bytes} (h : strings ++ later <+: names) :
    later <+: names.drop strings.length := by
  obtain ⟨after, rfl⟩ := h
  rw [List.append_assoc, List.drop_left]
  exact List.prefix_append later after

theorem wrote_entry (hw : 4 ∣ w.structs.length) (e : Entry) :
    Wrote w (w.entry e) (propertyToken w.strings.length e.value) (fun names =>
      e.value.length < 2 ^ 32 ∧ w.strings.length < 2 ^ 32 ∧
        terminated e.name <+: names.drop w.strings.length) := by
  have hstructs : (w.entry e).structs =
      w.structs ++ propertyToken w.strings.length e.value := by
    -- the writer before the value, which alone may need filling up
    let marked : Writer := ⟨w.structs ++ wordBytes propertyMark ++ wordBytes e.value.length ++
      wordBytes w.strings.length, w.strings ++ terminated e.name⟩
    have hmarked : 4 ∣ marked.structs.length := by
      simp only [marked, List.length_append, length_wordBytes]
      omega
    have hpad : (w.entry e).structs = marked.structs ++ aligned e.value :=
      structs_pad_raw hmarked e.value
    rw [hpad]
    simp only [marked, propertyToken, List.append_assoc]
  constructor
  · exact hstructs
  · have hvalue := four_dvd_aligned e.value
    simp only [propertyToken, List.length_append, length_wordBytes]
    omega
  · exact List.prefix_append _ _
  · intro names hnames hlong hshort
    have hoffset : w.strings.length ≤ names.length := by
      have hprefix := hnames.length_le
      simp only [Writer.entry, Writer.pad, Writer.raw, Writer.word, List.length_append] at hprefix
      omega
    have hvalue : e.value.length ≤ (w.entry e).structs.length := by
      rw [hstructs]
      simp only [propertyToken, aligned, List.length_append]
      omega
    exact ⟨by omega, by omega, prefix_drop hnames⟩

/-! ### Trees -/

theorem wrote_entries : ∀ (es : List Entry) {w : Writer}, 4 ∣ w.structs.length →
    ∃ stream, Wrote w (es.foldl Writer.entry w) stream (SpellsEntries · es stream)
  | [], w, _ => ⟨[], (Wrote.refl w).imp fun _ _ => .nil⟩
  | e :: es, w, hw => by
    have hfirst := wrote_entry hw e
    obtain ⟨later, hlater⟩ := wrote_entries es (hfirst.aligned hw)
    refine ⟨_, (hfirst.trans hlater).imp ?_⟩
    rintro names ⟨⟨hlength, hbound, hname⟩, htail⟩
    exact .cons hlength hbound hname htail

mutual

/-- **A tree that is written is spelled.** -/
theorem wrote_tree : ∀ (t : Tree) {w : Writer}, 4 ∣ w.structs.length →
    ∃ stream, Wrote w (w.tree t) stream (Spells · t stream)
  | .node name entries children, w, hw => by
    have hopen := wrote_openNode hw name
    obtain ⟨own, hown⟩ := wrote_entries entries.list (hopen.aligned hw)
    have hbefore := hown.aligned (hopen.aligned hw)
    obtain ⟨inside, hinside⟩ := wrote_trees children hbefore
    have hclose := wrote_closeNode
      ((entries.list.foldl Writer.entry (w.openNode name)).trees children)
    have hall := hopen.trans (hown.trans (hinside.trans hclose))
    refine ⟨_, hall.imp ?_⟩
    rintro names ⟨-, hfront, hback, -⟩
    exact .node hfront hback

theorem wrote_trees : ∀ (ts : List Tree) {w : Writer}, 4 ∣ w.structs.length →
    ∃ stream, Wrote w (w.trees ts) stream (SpellsAll · ts stream)
  | [], w, _ => ⟨[], (Wrote.refl w).imp fun _ _ => .nil⟩
  | t :: ts, w, hw => by
    obtain ⟨first, hfirst⟩ := wrote_tree t hw
    obtain ⟨later, hlater⟩ := wrote_trees ts (hfirst.aligned hw)
    refine ⟨_, (hfirst.trans hlater).imp ?_⟩
    rintro names ⟨hhead, htail⟩
    exact .cons hhead htail

end

/-! ### The blob -/

theorem stands_append (before block after : Bytes) :
    Stands block (before ++ (block ++ after)) before.length :=
  ⟨before, after, rfl, rfl⟩

/-- **What is written is laid out** as its header says. -/
theorem laidOut_finish {w : Writer} {t : Tree} (h : w.finish.length < 2 ^ 32)
    (hspells : Spells w.strings t w.structs) :
    LaidOut w.finish (Writer.header (w.word endMark).structs w.strings) t w.structs w.strings := by
  let structs := w.structs ++ wordBytes endMark
  let front := (Writer.header structs w.strings).words.flatMap wordBytes
  have hfinish : w.finish = front ++ (reservedEnd ++ (structs ++ w.strings)) := rfl
  have hlength : w.finish.length = 56 + structs.length + w.strings.length := by
    have hfront : front.length = 40 := rfl
    have hreserved : reservedEnd.length = 16 := rfl
    rw [hfinish]
    simp only [List.length_append]
    omega
  constructor
  case bound =>
    intro n hn
    have hwords : (Writer.header (w.word endMark).structs w.strings).words =
        [magic, 56 + structs.length + w.strings.length, 56, 56 + structs.length, 40, 17, 16, 0,
          w.strings.length, structs.length] := rfl
    rw [hwords] at hn
    simp only [magic, List.mem_cons, List.not_mem_nil, or_false] at hn
    omega
  case front => exact stands_append [] front (reservedEnd ++ (structs ++ w.strings))
  case total => exact hlength.symm
  case reserved => exact stands_append front reservedEnd (structs ++ w.strings)
  case structs =>
    have hstands := stands_append (front ++ reservedEnd) structs w.strings
    rwa [List.append_assoc] at hstands
  case structsLength => rfl
  case names =>
    have hstands := stands_append (front ++ reservedEnd ++ structs) w.strings []
    rw [List.append_nil, List.append_assoc, List.append_assoc, List.length_append] at hstands
    exact hstands
  case stringsLength => rfl
  case aligned => exact show 8 ∣ 40 ∧ 4 ∣ 56 by decide
  case spells => exact hspells

/-- **The blob of a tree is a flattened devicetree of it.** -/
theorem flattened_flatten {t : Tree} (h : (flatten t).length < 2 ^ 32) :
    Flattened (flatten t) t := by
  let w := Writer.tree {} t
  obtain ⟨stream, hwrote⟩ : ∃ stream, Wrote {} w stream (Spells · t stream) :=
    wrote_tree t (Nat.dvd_zero 4)
  have hlong : w.structs.length < 2 ^ 32 ∧ w.strings.length < 2 ^ 32 := by
    have hlength : w.structs.length + w.strings.length ≤ (flatten t).length := by
      simp only [flatten, Writer.finish, Writer.word, Writer.raw, List.length_append, w]
      omega
    omega
  have hspells : Spells w.strings t w.structs := by
    have hstream : w.structs = stream := hwrote.structs
    rw [hstream]
    exact hwrote.spells w.strings List.prefix_rfl hlong.2 hlong.1
  exact ⟨_, _, _, laidOut_finish h hspells⟩

end SocBringup.Devicetree
