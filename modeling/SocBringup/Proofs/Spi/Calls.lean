import SocBringup.Proofs.Register.Store
import SocBringup.Proofs.Spi.Bursts
import SocBringup.Proofs.Spi.Power
import SocBringup.Proofs.Spi.Storing

/-! # What the calls of a bus store

Each call of a controller comes to a few stores in fields of its block, which the call and its answer
tell. The counters change with every exchange and are left out.

* `stores`: the stores of a call.
* `Settled`: a field of which the calls decide all or nothing.
* `Storing.keeps_exchangeAll`: exchanges change no settled field.
* `Storing.Makes`: a program comes, for a field, to some stores.
* `Storing.makes_serve`: a call comes to the stores that it and its answer tell. -/

namespace SocBringup.Spi

variable {σ : Type}

/-! ### The stores of a call -/

/-- The registers that say how long an exchange is. -/
def counters : List Nat := [Block.burstCount, Block.transmitCount, Block.burstControl]

/-- The field that is the whole word. -/
def wholeWord : Field := { shift := 0, width := 32 }

/-- The fields that calls store in, by register. -/
def touched : List (Nat × Field) :=
  [(Block.globalControl, Block.master), (Block.globalControl, Block.busEnable),
    (Block.globalControl, Block.transmitPause), (Block.transferControl, Block.manualSelect),
    (Block.transferControl, Block.selectLevel), (Block.transferControl, Block.chipSelect),
    (Block.transferControl, Block.idleHigh), (Block.transferControl, Block.trailingEdge),
    (Block.transferControl, Block.lsbFirst), (Block.clockControl, wholeWord)]

/-- The bits that clear themselves, by register. -/
def selfClearing : List (Nat × Field) :=
  [(Block.transferControl, Block.startExchange), (Block.globalControl, Block.softReset),
    (Block.fifoControl, Block.receiveReset), (Block.fifoControl, Block.transmitReset)]

def powerStores : List Store :=
  [⟨Block.globalControl, Block.master, 1⟩, ⟨Block.globalControl, Block.busEnable, 1⟩,
    ⟨Block.globalControl, Block.transmitPause, 1⟩]

def idleStores : List Store :=
  [⟨Block.transferControl, Block.manualSelect, 1⟩, ⟨Block.transferControl, Block.selectLevel, 1⟩]

def modeStores (mode : Mode) : List Store :=
  [⟨Block.transferControl, Block.idleHigh, mode.idleHigh.toNat⟩,
    ⟨Block.transferControl, Block.trailingEdge, mode.trailingEdge.toNat⟩,
    ⟨Block.transferControl, Block.lsbFirst, mode.lsbFirst.toNat⟩]

def selectStores (select : Nat) (active : Bool) : List Store :=
  [⟨Block.transferControl, Block.chipSelect, if active then select else 0⟩,
    ⟨Block.transferControl, Block.selectLevel, (!active).toNat⟩]

/-- The stores at one end of a transfer, if the framing says so. -/
def driveStores (drives : Bool) (select : Nat) (active : Bool) : List Store :=
  if drives then selectStores select active else []

/-- The stores of a transfer, by its result. One that stalls has not come to its end. -/
def transferStores (t : Transfer) : Except Error Unit → List Store
  | .ok () => driveStores t.framing.opens t.select true ++
      driveStores t.framing.closes t.select false
  | .error .stalled => driveStores t.framing.opens t.select true
  | .error _ => []

/-- **The stores of a call**, in order. -/
def stores : Exchange Bus → List Store
  | ⟨.claim, .ok ()⟩ => powerStores ++ idleStores
  | ⟨.claim, .error _⟩ => []
  | ⟨.release, _⟩ => [⟨Block.globalControl, Block.busEnable, 0⟩]
  | ⟨.setSpeed hz, _⟩ =>
    [⟨Block.clockControl, wholeWord, (clockWord (clampSpeed hz)).toNat⟩]
  | ⟨.setMode mode, _⟩ => modeStores mode
  | ⟨.transfer t, outcome⟩ => transferStores t outcome.result
  | ⟨.note _, _⟩ => []

/-- All stores are in fields of one register, and the table has them. -/
def Within (offset : Nat) (xs : List Store) : Prop :=
  ∀ x ∈ xs, x.offset = offset ∧ (offset, x.field) ∈ touched

theorem within_selectStores (select : Nat) (active : Bool) :
    Within Block.transferControl (selectStores select active) := by
  simp [Within, selectStores, touched]

theorem mem_touched_of_driveStores {drives : Bool} {select : Nat} {active : Bool} {x : Store}
    (h : x ∈ driveStores drives select active) : (x.offset, x.field) ∈ touched := by
  cases drives with
  | false => exact absurd h List.not_mem_nil
  | true =>
    obtain ⟨hat, hmem⟩ := within_selectStores select active x h
    exact hat.symm ▸ hmem

/-- **Calls store in fields of the table only.** -/
theorem mem_touched (call : Exchange Bus) : ∀ x ∈ stores call, (x.offset, x.field) ∈ touched := by
  obtain ⟨q, answer⟩ := call
  intro x hx
  cases q with
  | claim =>
    rcases answer with e | _
    · exact absurd hx List.not_mem_nil
    · simp only [stores, powerStores, idleStores, List.mem_append, List.mem_cons,
        List.not_mem_nil, or_false] at hx
      rcases hx with (rfl | rfl | rfl) | (rfl | rfl) <;> simp [touched]
  | release =>
    obtain rfl := List.mem_singleton.mp hx
    simp [touched]
  | setSpeed hz =>
    obtain rfl := List.mem_singleton.mp hx
    simp [touched]
  | setMode mode =>
    simp only [stores, modeStores, List.mem_cons, List.not_mem_nil, or_false] at hx
    rcases hx with rfl | rfl | rfl <;> simp [touched]
  | transfer t =>
    obtain ⟨result, buffer⟩ := answer
    rcases result with e | _
    · cases e
      case stalled => exact mem_touched_of_driveStores hx
      all_goals exact absurd hx List.not_mem_nil
    · exact (List.mem_append.mp hx).elim mem_touched_of_driveStores mem_touched_of_driveStores
  | note diagnostic => exact absurd hx List.not_mem_nil

theorem apply_selectStores (select : Nat) (active : Bool) (word : UInt32) :
    Store.apply Block.transferControl (selectStores select active) word =
      selectWord select active word := by
  cases active <;> simp [Store.apply, selectStores, selectWord]

/-- **A settled field**: no bit of it clears itself, no exchange changes it, and what a call stores
is in the whole of it or in other bits. -/
structure Settled (offset : Nat) (f : Field) : Prop where
  lasting : Lasting offset f
  apart : offset ∉ counters
  clear : ∀ p ∈ touched, p.1 = offset → f.Same p.2 ∨ f.Apart p.2

theorem Settled.clear_of_within {offset : Nat} {f : Field} (h : Settled offset f)
    {xs : List Store} (hxs : Within offset xs) : Store.Clear offset f xs :=
  fun x hx _ => h.clear _ (hxs x hx).2 rfl

/-- A field apart from the bits that clear themselves lasts. -/
theorem lasting_of_apart {offset : Nat} {f : Field} (hstatus : offset ≠ Block.fifoStatus)
    (h : ∀ p ∈ selfClearing, p.1 = offset → f.Apart p.2) : Lasting offset f := by
  intro i hi
  have hout : ∀ other g, (other, g) ∈ selfClearing → offset = other → ¬ g.Covers i :=
    fun other g hmem hat => (h _ hmem hat.symm).not_covers hi
  refine ⟨hstatus, hout _ _ (by simp [selfClearing]), hout _ _ (by simp [selfClearing]),
    fun hat => ⟨hout _ _ (by simp [selfClearing]) hat, hout _ _ (by simp [selfClearing]) hat⟩⟩

theorem store_wholeWord (word new : UInt32) : wholeWord.store word new.toNat = new := by
  refine UInt32.toNat_inj.mp (Nat.eq_of_testBit_eq fun i => ?_)
  have hcovers : wholeWord.Covers i ↔ i < 32 := by simp [Field.Covers, wholeWord]
  rw [Field.testBit_store]
  split_ifs with hi
  · rfl
  · have hout : 32 ≤ i := not_lt.mp (hcovers.not.mp hi)
    rw [Field.testBit_eq_false word hout, Field.testBit_eq_false new hout]

theorem refusal?_ne_stalled {t : Transfer} {e : Error} (h : Controller.refusal? t = some e) :
    e ≠ .stalled := by
  rintro rfl
  unfold Controller.refusal? at h
  split_ifs at h
  all_goals cases h

/-- **A transfer that is refused says nothing to the block.** -/
theorem transfer_refused (serve : Handler Host σ) (c : Controller) {t : Transfer} {e : Error}
    (h : Controller.refusal? t = some e) (s : σ) :
    ((c.transfer t).run serve s).value.result = .error e ∧
      accesses ((c.transfer t).run serve s).trace = [] := by
  rw [Controller.transfer, h]
  simp only
  split_ifs
  · exact ⟨rfl, rfl⟩
  · exact ⟨rfl, rfl⟩

/-! ### Exchanges -/

variable {serve : Handler Host σ}

theorem raw_startExchange {f : Field} (hf : Lasting Block.transferControl f) (word : UInt32)
    (contents : Nat) : f.raw (Block.startExchange.store word contents) = f.raw word := by
  refine Field.raw_congr fun i hi => ?_
  rw [Field.testBit_store, if_neg ((hf i hi).2.1 rfl)]

theorem raw_softReset {f : Field} (hf : Lasting Block.globalControl f) (word : UInt32)
    (contents : Nat) : f.raw (Block.softReset.store word contents) = f.raw word := by
  refine Field.raw_congr fun i hi => ?_
  rw [Field.testBit_store, if_neg ((hf i hi).2.2.1 rfl)]

theorem raw_fifoReset {f : Field} (hf : Lasting Block.fifoControl f) (word : UInt32)
    (m n : Nat) :
    f.raw (Block.transmitReset.store (Block.receiveReset.store word m) n) = f.raw word := by
  refine Field.raw_congr fun i hi => ?_
  obtain ⟨hreceive, htransmit⟩ := (hf i hi).2.2.2 rfl
  rw [Field.testBit_store, if_neg htransmit, Field.testBit_store, if_neg hreceive]

namespace Storing

/-- Without a request to the block, its words stay. -/
theorem alike_of_silent {α : Type} (S : Storing serve) (p : Program Host α) {s : σ}
    (h : accesses (p.run serve s).trace = []) (offset : Nat) :
    Alike offset (S.word (p.run serve s).state offset) (S.word s offset) := by
  induction p generalizing s with
  | done a => exact Alike.rfl
  | ask q next ih =>
    have hother : ∀ new, q ≠ .block (.write offset new) := by
      rintro new rfl
      exact absurd h (by simp [Program.run, accesses, access?])
    -- a request to the block would be the first of the accesses
    have hrest : accesses ((next (serve q s).1).run serve (serve q s).2).trace = [] := by
      cases q with
      | block q => exact absurd h (by simp [Program.run, accesses, access?])
      | supply q => exact h
      | note diagnostic => exact h
    intro i hi
    exact (ih _ hrest i hi).trans (S.other offset q s hother i hi)

variable {S : Storing serve} {offset : Nat} {f : Field}

section Lasting
variable (hf : Lasting offset f)
include hf

theorem field_of_silent {α : Type} {p : Program Host α} {s : σ}
    (h : accesses (p.run serve s).trace = []) :
    S.field offset f (p.run serve s).state = S.field offset f s :=
  Field.raw_congr fun i hi => S.alike_of_silent p h offset i (hf i hi)

theorem keeps_supply (q : Supply.Request) :
    (Host.supply q).Keeps serve (S.field offset f) :=
  .ask (field_other hf fun _ h => by cases h) fun _ => .pure _

theorem keeps_fill : ∀ bytes : Bytes, (Controller.fill bytes).Keeps serve (S.field offset f)
  | [] => .pure _
  | b :: rest => .bind (keeps_push hf b) fun _ => keeps_fill rest

theorem keeps_drain : ∀ count : Nat, (Controller.drain count).Keeps serve (S.field offset f)
  | 0 => .pure _
  | count + 1 => .bind (keeps_pull hf) fun _ => .bind (keeps_drain count) fun _ => .pure _

theorem keeps_await (count : Nat) :
    ∀ patience : Nat, (Controller.await count patience).Keeps serve (S.field offset f)
  | 0 => .pure _
  | patience + 1 => by
    refine .bind (keeps_read hf _) fun status => ?_
    split_ifs
    · exact keeps_await count patience
    · exact .pure _

theorem keeps_change {other : Nat} {change : UInt32 → UInt32}
    (hchange : other = offset → ∀ word, f.raw (change word) = f.raw word) :
    (Host.modify other change).Keeps serve (S.field offset f) := by
  by_cases h : other = offset
  · subst h
    exact keeps_modify hf (hchange rfl)
  · exact keeps_modify_other hf h _

theorem keeps_start : (Host.modify Block.transferControl fun word =>
    Block.startExchange.store word 1).Keeps serve (S.field offset f) :=
  keeps_change hf fun h word => raw_startExchange (h ▸ hf) word 1

theorem keeps_fifoReset : (Host.modify Block.fifoControl fun word =>
    Block.transmitReset.store (Block.receiveReset.store word 1) 1).Keeps serve
      (S.field offset f) :=
  keeps_change hf fun h word => raw_fifoReset (h ▸ hf) word 1 1

end Lasting

section Settled
variable (hf : Settled offset f)
include hf

theorem keeps_exchange (c : Controller) (bytes : Bytes) :
    (c.exchange bytes).Keeps serve (S.field offset f) := by
  have hcounter : ∀ other ∈ counters, ∀ word,
      (Host.write other word).Keeps serve (S.field offset f) :=
    fun other hother => keeps_write hf.lasting fun h => hf.apart (h ▸ hother)
  refine .bind (hcounter _ (by simp [counters]) _) fun _ => ?_
  refine .bind (hcounter _ (by simp [counters]) _) fun _ => ?_
  refine .bind (hcounter _ (by simp [counters]) _) fun _ => ?_
  refine .bind (keeps_fill hf.lasting bytes) fun _ => ?_
  refine .bind (keeps_start hf.lasting) fun _ => ?_
  refine .bind (keeps_await hf.lasting _ _) fun enough => ?_
  split_ifs
  · exact .bind (keeps_drain hf.lasting _) fun _ => .pure _
  · exact .pure _

/-- **Exchanges change no settled field.** -/
theorem keeps_exchangeAll (c : Controller) :
    ∀ pieces : List Bytes, (c.exchangeAll pieces).Keeps serve (S.field offset f)
  | [] => .pure _
  | bytes :: rest => by
    refine .bind (keeps_exchange hf c bytes) fun received => ?_
    cases received with
    | none => exact .pure _
    | some received => exact .bind (keeps_exchangeAll c rest) fun _ => .pure _

end Settled

/-! ### Calls -/

/-- The program comes, for this field, to the stores that its value tells. -/
def Makes {α : Type} (S : Storing serve) (offset : Nat) (f : Field) (p : Program Host α)
    (xs : α → List Store) : Prop :=
  ∀ s, S.field offset f (p.run serve s).state =
    Store.held offset f (xs (p.run serve s).value) (S.field offset f s)

section Makes
variable {α β : Type}

theorem makes_of_keeps {p : Program Host α} (h : p.Keeps serve (S.field offset f)) :
    Makes S offset f p fun _ => [] := h

/-- Stores that do not depend on the value go before those that follow. -/
theorem Makes.bind {p : Program Host α} {next : α → Program Host β} {xs : List Store}
    {ys : β → List Store} (hp : Makes S offset f p fun _ => xs)
    (hnext : ∀ a, Makes S offset f (next a) ys) :
    Makes S offset f (p >>= next) fun b => xs ++ ys b := by
  intro s
  rw [Program.state_bind, Program.value_bind, hnext, hp, Store.held_append]

theorem Makes.after {p : Program Host α} {next : α → Program Host β} {ys : β → List Store}
    (hp : p.Keeps serve (S.field offset f)) (hnext : ∀ a, Makes S offset f (next a) ys) :
    Makes S offset f (p >>= next) ys := (makes_of_keeps hp).bind hnext

theorem makes_pure {a : α} {xs : α → List Store} (h : xs a = []) :
    Makes S offset f (pure a) xs := by
  intro s
  rw [run_pure, h]
  rfl

end Makes

section Settled
variable (hf : Settled offset f)
include hf

/-- **A change made of stores makes these stores**, if what else it does is not seen. -/
theorem makes_modify {other : Nat} {change : UInt32 → UInt32} {xs : List Store}
    (hwithin : Within other xs)
    (hchange : other = offset → ∀ word, f.raw (change word) = f.raw (Store.apply other xs word)) :
    Makes S offset f (Host.modify other change) fun _ => xs := by
  intro s
  by_cases h : other = offset
  · subst h
    refine field_modify (g := Store.held other f xs) hf.lasting (fun word => ?_) s
    rw [hchange rfl, Store.raw_apply (hf.clear_of_within hwithin)]
  · -- the field lies in another register, which neither the change nor the stores touch
    rw [keeps_modify_other hf.lasting h change s, Store.held_none]
    exact fun x hx => Store.into?_other ((hwithin x hx).1.trans_ne h)

theorem makes_driveIf (drives : Bool) (select : Nat) (active : Bool) :
    Makes S offset f (driveIf drives select active) fun _ => driveStores drives select active := by
  cases drives with
  | false => exact makes_pure rfl
  | true =>
    show Makes S offset f (Controller.drive select active) fun _ => selectStores select active
    refine makes_modify hf (within_selectStores select active) ?_
    intro _ word
    rw [apply_selectStores]

/-- Up to its end, a transfer makes the stores that open the transaction. -/
theorem makes_move (c : Controller) (t : Transfer) :
    Makes S offset f (c.move t) fun _ => driveStores t.framing.opens t.select true := by
  have hrest : ∀ stop : Prop, ∀ _ : Decidable stop, ∀ pieces : List Bytes,
      (if stop then pure none else c.exchangeAll pieces).Keeps serve (S.field offset f) := by
    intro stop _ pieces
    split_ifs
    · exact .pure _
    · exact keeps_exchangeAll hf c pieces
  intro s
  rw [move_eq, Program.state_bind]
  refine ((Program.Keeps.bind (keeps_fifoReset hf.lasting) fun _ =>
    hrest _ inferInstance _) _).trans ?_
  exact makes_driveIf hf t.framing.opens t.select true s

theorem makes_transfer (c : Controller) (t : Transfer) :
    Makes S offset f (c.transfer t) fun outcome => transferStores t outcome.result := by
  cases href : Controller.refusal? t with
  | some e =>
    have hnone : transferStores t (.error e) = [] := by
      have hgone := refusal?_ne_stalled href
      cases e <;> first | rfl | contradiction
    intro s
    obtain ⟨hresult, hsilent⟩ := transfer_refused serve c href s
    show S.field offset f _ = Store.held offset f (transferStores t _) _
    rw [field_of_silent hf.lasting hsilent, hresult, hnone]
    rfl
  | none =>
    intro s
    have hmove := makes_move (S := S) hf c t s
    rw [transfer_eq href, Program.state_bind, Program.value_bind]
    cases ((c.move t).run serve s).value with
    | none => exact hmove
    | some received =>
      have hclose := makes_driveIf (S := S) hf t.framing.closes t.select false
        ((c.move t).run serve s).state
      rw [Program.state_bind, Program.value_bind]
      refine hclose.trans ?_
      rw [hmove, ← Store.held_append]
      rfl

theorem makes_claim (c : Controller) :
    Makes S offset f c.claim fun answer => stores ⟨.claim, answer⟩ := by
  refine .after (keeps_supply hf.lasting _) fun busClock => ?_
  rcases busClock with fault | _
  · exact .after (keeps_note hf.lasting _) fun _ => makes_pure rfl
  refine .after (keeps_supply hf.lasting _) fun moduleClock => ?_
  rcases moduleClock with fault | _
  · exact .after (keeps_note hf.lasting _) fun _ => .after (keeps_supply hf.lasting _) fun _ =>
      makes_pure rfl
  refine .after (keeps_supply hf.lasting _) fun resetLine => ?_
  rcases resetLine with fault | _
  · exact .after (keeps_note hf.lasting _) fun _ => .after (keeps_supply hf.lasting _) fun _ =>
      .after (keeps_supply hf.lasting _) fun _ => makes_pure rfl
  -- all three were granted, and only now is the block touched
  have hpower : Makes S offset f (Host.modify Block.globalControl fun word =>
      Block.softReset.store (Block.transmitPause.store (Block.busEnable.store
        (Block.master.store word 1) 1) 1) 1) fun _ => powerStores := by
    refine makes_modify hf (by simp [Within, powerStores, touched]) fun h word => ?_
    rw [raw_softReset (h ▸ hf.lasting)]
    simp [Store.apply, powerStores]
  have hidle : Makes S offset f (Host.modify Block.transferControl fun word =>
      Block.selectLevel.store (Block.manualSelect.store word 1) 1) fun _ => idleStores := by
    refine makes_modify hf (by simp [Within, idleStores, touched]) fun _ word => ?_
    simp [Store.apply, idleStores]
  have hdone : Makes S offset f (pure (.ok ()) : Program Host (Except Error Unit)) fun _ => [] :=
    makes_pure rfl
  have hon := hpower.bind fun _ => hidle.bind fun _ => hdone
  -- the stores of a claim depend on its answer, which is known by now only at a state
  exact fun s => hon s

theorem makes_release (c : Controller) :
    Makes S offset f c.release fun answer => stores ⟨.release, answer⟩ := by
  have hleave : Makes S offset f (Host.modify Block.globalControl fun word =>
      Block.busEnable.store word 0) fun _ => [⟨Block.globalControl, Block.busEnable, 0⟩] := by
    refine makes_modify hf (by simp [Within, touched]) fun _ word => ?_
    simp [Store.apply]
  exact hleave.bind fun _ => makes_of_keeps (.bind (keeps_supply hf.lasting _) fun _ =>
    .bind (keeps_supply hf.lasting _) fun _ => .bind (keeps_supply hf.lasting _) fun _ => .pure _)

theorem makes_setMode (mode : Mode) :
    Makes S offset f (Controller.setMode mode) fun answer => stores ⟨.setMode mode, answer⟩ := by
  have hmode : Makes S offset f (Host.modify Block.transferControl (modeWord mode))
      fun _ => modeStores mode := by
    refine makes_modify hf (by simp [Within, modeStores, touched]) fun _ word => ?_
    simp [Store.apply, modeStores, modeWord]
  exact hmode.bind fun _ => makes_of_keeps (.pure _)

theorem makes_setSpeed (hz : Nat) :
    Makes S offset f (Controller.setSpeed hz) fun answer => stores ⟨.setSpeed hz, answer⟩ := by
  have hdivide : Makes S offset f (Host.write Block.clockControl (clockWord (clampSpeed hz)))
      fun _ => [⟨Block.clockControl, wholeWord, (clockWord (clampSpeed hz)).toNat⟩] := by
    intro s
    by_cases h : Block.clockControl = offset
    · subst h
      have hwithin : Within Block.clockControl
          [⟨Block.clockControl, wholeWord, (clockWord (clampSpeed hz)).toNat⟩] := by
        simp [Within, touched]
      refine (field_write hf.lasting _ s).trans ?_
      refine Eq.trans ?_ (Store.raw_apply (hf.clear_of_within hwithin) _)
      simp only [Store.apply, if_true, store_wholeWord]
    · rw [keeps_write hf.lasting h, Store.held_none]
      simp [Store.into?, h]
  exact hdivide.bind fun _ => makes_of_keeps (.bind (keeps_read hf.lasting _) fun _ =>
    .bind (keeps_note hf.lasting _) fun _ => .pure _)

/-- **A call makes the stores that it and its answer tell.** -/
theorem makes_serve (c : Controller) :
    ∀ q : Bus.Request, Makes S offset f (c.serve q) fun answer => stores ⟨q, answer⟩
  | .claim => makes_claim hf c
  | .release => makes_release hf c
  | .setSpeed hz => makes_setSpeed hf hz
  | .setMode mode => makes_setMode hf mode
  | .transfer t => makes_transfer hf c t
  | .note diagnostic => keeps_note hf.lasting diagnostic

end Settled

end Storing

end SocBringup.Spi
