import SocBringup.Proofs.Program.Yields
import SocBringup.Proofs.Spi.ChipSelect

/-! # A transfer stays inside its buffers

A transfer goes through its buffers slice by slice, one slice for each exchange. A slice that reaches
past the end of a buffer is no slice at all. Here a transfer is carried out as a loop over slices that
may not be there, and they always are: what was checked at the start is enough for all of them.

* `slice?`, `overwrite?`: a slice of a buffer, read and written.
* `Controller.exchangeSlices`: the loop, and the three ways in which it may end.
* `yields_exchange`: as many bytes come in as go out.
* `exchangeSlices_eq`: from any place on, the loop exchanges the pieces of what is left to send.
* `transferSlices_eq`: a transfer by slices is a transfer.
* `Controller.transfer_vetted`: which transfers are refused and why, what is left alone then, and that
  all others go through. -/

namespace SocBringup.Spi

variable {σ : Type}

/-! ### Slices -/

/-- The bytes of a buffer from `start` up, `count` of them, if they are all below `limit` and there. -/
def slice? (limit : Nat) (buffer : Bytes) (start count : Nat) : Option Bytes :=
  if start + count ≤ limit ∧ start + count ≤ buffer.length then
    some ((buffer.drop start).take count)
  else none

/-- A buffer with some bytes written from `start` up, if their place is below `limit` and there. -/
def overwrite? (limit : Nat) (buffer : Bytes) (start : Nat) (bytes : Bytes) : Option Bytes :=
  if start + bytes.length ≤ limit ∧ start + bytes.length ≤ buffer.length then
    some (buffer.take start ++ bytes ++ buffer.drop (start + bytes.length))
  else none

/-- A slice of what is left of the bytes below the limit. -/
theorem slice?_eq {limit start count : Nat} {buffer : Bytes} (h : start + count ≤ limit)
    (hlimit : limit ≤ buffer.length) :
    slice? limit buffer start count = some (((buffer.take limit).drop start).take count) := by
  rw [slice?, if_pos ⟨h, h.trans hlimit⟩, List.drop_take, List.take_take, min_eq_left (by omega)]

/-- Writing on where the last bytes end. -/
theorem overwrite?_append {limit : Nat} {buffer written bytes : Bytes}
    (h : written.length + bytes.length ≤ limit) (hlimit : limit ≤ buffer.length) :
    overwrite? limit (written ++ buffer.drop written.length) written.length bytes =
      some ((written ++ bytes) ++ buffer.drop (written ++ bytes).length) := by
  have hlength : (written ++ buffer.drop written.length).length = buffer.length := by
    rw [List.length_append, List.length_drop]
    omega
  rw [overwrite?, if_pos ⟨h, hlength ▸ h.trans hlimit⟩, List.take_left, ← List.drop_drop,
    List.drop_left, List.drop_drop, List.length_append]

/-- **The pieces from any place on** are a slice, and the pieces from its end on. -/
theorem chunks_drop {size start count : Nat} {bytes : Bytes} (hsize : 0 < size)
    (hstart : start < bytes.length) (hcount : count = min size (bytes.length - start)) :
    chunks size (bytes.drop start) =
      (bytes.drop start).take count :: chunks size (bytes.drop (start + count)) := by
  have hleft : (bytes.drop start).length = bytes.length - start := List.length_drop
  have hgo : ¬ (size = 0 ∨ bytes.drop start = []) := by
    rw [not_or, ← List.length_eq_zero_iff, hleft]
    omega
  have htake : (bytes.drop start).take size = (bytes.drop start).take count := by
    rw [List.take_eq_take_min, hleft, hcount]
  have hdrop : (bytes.drop start).drop size = bytes.drop (start + count) := by
    rw [List.drop_drop]
    rcases Nat.le_total size (bytes.length - start) with hle | hle
    · rw [hcount, min_eq_left hle]
    · rw [List.drop_eq_nil_of_le (by omega), List.drop_eq_nil_of_le (by omega)]
  rw [chunks, if_neg hgo, htake, hdrop]

/-! ### The loop -/

/-- How the loop of a transfer may end. -/
inductive Ending where
  /-- A slice was not there. -/
  | outOfRange
  /-- Patience ran out. -/
  | stalled
  /-- All was moved, and this is the receive buffer. -/
  | moved (buffer : Option Bytes)

namespace Controller

/-- The bytes to send from `start` up: a slice of the data, or zeroes where there is none. -/
def sendSlice? (t : Transfer) (start count : Nat) : Option Bytes :=
  match t.send with
  | some data => slice? (t.bits / 8) data start count
  | none => some (List.replicate count 0)

/-- The receive buffer, if there is one, with some bytes written from `start` up. -/
def receiveSlice? (t : Transfer) (buffer : Option Bytes) (start : Nat) (bytes : Bytes) :
    Option (Option Bytes) :=
  match buffer with
  | some buffer => (overwrite? (t.bits / 8) buffer start bytes).map some
  | none => some none

/-- **The loop of a transfer** from `start` on: as much as goes into the FIFO, or as is left. -/
def exchangeSlices (c : Controller) (t : Transfer) (start : Nat) (buffer : Option Bytes) :
    Program Host Ending :=
  if t.bits / 8 ≤ start then return .moved buffer
  -- a FIFO with no room for a byte would have the loop go on for ever
  else if min c.chunkSize (t.bits / 8 - start) = 0 then return .stalled
  else
    match sendSlice? t start (min c.chunkSize (t.bits / 8 - start)) with
    | none => return .outOfRange
    | some bytes => do
      match ← c.exchange bytes with
      | none => return .stalled
      | some received =>
        match receiveSlice? t buffer start received with
        | none => return .outOfRange
        | some buffer =>
          exchangeSlices c t (start + min c.chunkSize (t.bits / 8 - start)) buffer
termination_by t.bits / 8 - start

/-- What a transfer by slices leaves, if all its slices are there. -/
def finish (t : Transfer) : Ending → Program Host (Option Outcome)
  | .outOfRange => return none
  | .stalled => return some ⟨.error .stalled, t.receive⟩
  | .moved buffer => do
    driveIf t.framing.closes t.select false
    return some ⟨.ok (), buffer⟩

/-- A transfer by slices. -/
def transferSlices (c : Controller) (t : Transfer) : Program Host (Option Outcome) :=
  match refusal? t with
  | some _ => some <$> c.transfer t
  | none => do
    driveIf t.framing.opens t.select true
    Host.modify Block.fifoControl fun word =>
      Block.transmitReset.store (Block.receiveReset.store word 1) 1
    let ending ← c.exchangeSlices t 0 t.receive
    finish t ending

end Controller

/-! ### Exchanges -/

theorem yields_drain (count : Nat) :
    (Controller.drain count).Yields fun received => received.length = count := by
  induction count with
  | zero => exact .pure rfl
  | succ count ih =>
    exact .after fun b => ih.bind fun rest hrest => .pure (congrArg (· + 1) hrest)

/-- **As many bytes come in as go out.** -/
theorem yields_exchange (c : Controller) (bytes : Bytes) :
    (c.exchange bytes).Yields fun r => ∀ received ∈ r, received.length = bytes.length := by
  refine .after fun _ => .after fun _ => .after fun _ => .after fun _ => .after fun _ =>
    .after fun arrived => ?_
  cases arrived with
  | false => exact .pure fun _ h => absurd h (Option.not_mem_none _)
  | true =>
    refine (yields_drain bytes.length).bind fun received hreceived => .pure ?_
    rintro _ ⟨⟩
    exact hreceived

/-! ### Transfers that fit -/

/-- **A transfer that fits**: whole bytes, on a chip select that there is, and no buffer too short. -/
structure Transfer.Fits (t : Transfer) : Prop where
  bytes : 8 ∣ t.bits
  select : t.select ≤ maxSelect
  send : ∀ data ∈ t.send, t.bits / 8 ≤ data.length
  receive : ∀ buffer ∈ t.receive, t.bits / 8 ≤ buffer.length

section Fitting
variable {t : Transfer} (h : t.Fits)
include h

theorem Transfer.Fits.refusal? : Controller.refusal? t = none :=
  refusal?_eq_none (Nat.mul_div_cancel' h.bytes).symm h.select h.send h.receive

theorem Transfer.Fits.length_outgoing : (Controller.outgoing t).length = t.bits / 8 :=
  Spi.length_outgoing (Nat.mul_div_cancel' h.bytes).symm h.send

/-- The bytes to send are there, up to the length of the transfer. -/
theorem sendSlice?_eq {start count : Nat} (hend : start + count ≤ t.bits / 8) :
    Controller.sendSlice? t start count =
      some (((Controller.outgoing t).drop start).take count) := by
  unfold Controller.sendSlice? Controller.outgoing
  rcases hdata : t.send with _ | data
  · rw [List.drop_replicate, List.take_replicate, min_eq_left (by omega)]
  · exact slice?_eq hend (h.send data hdata)

/-- So is the place for those that come in. -/
theorem receiveSlice?_eq {written received : Bytes}
    (hend : written.length + received.length ≤ t.bits / 8) :
    Controller.receiveSlice? t (Controller.filled t written) written.length received =
      some (Controller.filled t (written ++ received)) := by
  unfold Controller.receiveSlice? Controller.filled
  rcases hbuffer : t.receive with _ | buffer
  · rfl
  · rw [Option.map_some, Option.map_some]
    simp only [overwrite?_append hend (h.receive buffer hbuffer), Option.map_some]

/-- **From any place on, the loop exchanges the pieces of what is left to send.** What was written so
far is as long as what was sent, so that the next slices are in their places again. -/
theorem exchangeSlices_eq (c : Controller) (hsize : 0 < c.chunkSize) (written : Bytes)
    (hwritten : written.length ≤ t.bits / 8) :
    c.exchangeSlices t written.length (Controller.filled t written) = (do
      match ← c.exchangeAll (chunks c.chunkSize ((Controller.outgoing t).drop written.length)) with
      | none => return .stalled
      | some received => return .moved (Controller.filled t (written ++ received))) := by
  have hlength := h.length_outgoing
  rw [Controller.exchangeSlices]
  by_cases hend : t.bits / 8 ≤ written.length
  · rw [if_pos hend, List.drop_eq_nil_of_le (by omega), chunks, if_pos (.inr rfl)]
    show _ = pure (Ending.moved (Controller.filled t (written ++ [])))
    rw [List.append_nil]
  · generalize hcount : min c.chunkSize (t.bits / 8 - written.length) = count
    have hpiece : (((Controller.outgoing t).drop written.length).take count).length = count := by
      rw [List.length_take, List.length_drop]
      omega
    rw [if_neg hend, if_neg (by omega), sendSlice?_eq h (by omega),
      chunks_drop hsize (by omega) (by rw [hlength, hcount]), Controller.exchangeAll, bind_assoc]
    refine (yields_exchange c _).bind_congr fun r hr => ?_
    cases r with
    | none => rfl
    | some received =>
      have hreceived : received.length = count := (hr received rfl).trans hpiece
      have hnext : (written ++ received).length = written.length + count := by
        rw [List.length_append, hreceived]
      have ih := exchangeSlices_eq c hsize (written ++ received) (by omega)
      rw [hnext] at ih
      simp only [receiveSlice?_eq h (by omega : written.length + received.length ≤ t.bits / 8), ih,
        bind_assoc]
      refine bind_congr fun more => ?_
      cases more with
      | none => rfl
      | some more => simp only [Option.map_some, pure_bind, List.append_assoc]
termination_by t.bits / 8 - written.length

/-- **A transfer by slices is a transfer.** No slice is missing. -/
theorem transferSlices_eq (c : Controller) (hsize : 0 < c.chunkSize) :
    c.transferSlices t = some <$> c.transfer t := by
  have hnil : Controller.filled t [] = t.receive := by
    unfold Controller.filled
    cases t.receive <;> rfl
  have hloop := exchangeSlices_eq h c hsize [] (Nat.zero_le _)
  rw [hnil, List.length_nil, List.drop_zero] at hloop
  have hgo : ¬ (c.chunkSize = 0 ∧ Controller.outgoing t ≠ []) := fun hstuck => hsize.ne' hstuck.1
  rw [Controller.transferSlices, h.refusal?, transfer_eq h.refusal?, move_eq, if_neg hgo, hloop]
  simp only [map_eq_pure_bind, bind_assoc]
  refine bind_congr fun _ => bind_congr fun _ => bind_congr fun r => ?_
  cases r with
  | none => rfl
  | some received =>
    simp only [pure_bind, bind_assoc]
    rfl

/-- **A transfer that fits goes through** on a block that delivers. -/
theorem exists_result_ok {serve : Handler Host σ} {depth : Nat} (hdepth : 2 ≤ depth)
    (hdepth' : depth ≤ 256) (D : Delivering serve depth) (s : σ) :
    ∃ patience, ∀ c : Controller, c.depth = depth → patience < c.patience →
      ((c.transfer t).run serve s).value.result = .ok () := by
  obtain ⟨opening, fifo, bursts, s', patience, -, -, -, hmove⟩ :=
    exists_move hdepth hdepth' D h.select s
  refine ⟨patience, fun c hc hp => ?_⟩
  rw [transfer_eq h.refusal?, Program.value_bind, hmove c hc hp]
  simp only [Program.value_bind, run_pure]

end Fitting

/-! ### Refusals -/

theorem isShort_iff {buffer : Option Bytes} {length : Nat} :
    Controller.isShort buffer length = true ↔ ∃ bytes ∈ buffer, bytes.length < length := by
  cases buffer with
  | none => simp [Controller.isShort]
  | some bytes => simp [Controller.isShort]

theorem Transfer.fits_iff {t : Transfer} :
    t.Fits ↔ 8 ∣ t.bits ∧ t.select ≤ maxSelect ∧ ¬ ((∃ data ∈ t.send, data.length < t.bits / 8) ∨
      ∃ buffer ∈ t.receive, buffer.length < t.bits / 8) := by
  constructor
  · rintro ⟨hbytes, hselect, hsend, hreceive⟩
    refine ⟨hbytes, hselect, ?_⟩
    rintro (⟨data, hdata, hshort⟩ | ⟨buffer, hbuffer, hshort⟩)
    · exact absurd (hsend data hdata) (not_le.mpr hshort)
    · exact absurd (hreceive buffer hbuffer) (not_le.mpr hshort)
  · rintro ⟨hbytes, hselect, hlong⟩
    rw [not_or] at hlong
    exact ⟨hbytes, hselect, fun data hdata => not_lt.mp fun hshort => hlong.1 ⟨data, hdata, hshort⟩,
      fun buffer hbuffer => not_lt.mp fun hshort => hlong.2 ⟨buffer, hbuffer, hshort⟩⟩

/-- **What is refused, and why.** The first check that fails decides. -/
theorem refusal?_iff (t : Transfer) :
    (Controller.refusal? t = some .nonByteAligned ↔ ¬ 8 ∣ t.bits) ∧
    (Controller.refusal? t = some .invalidChipSelect ↔ 8 ∣ t.bits ∧ maxSelect < t.select) ∧
    (Controller.refusal? t = some .shortBuffer ↔ 8 ∣ t.bits ∧ t.select ≤ maxSelect ∧
      ((∃ data ∈ t.send, data.length < t.bits / 8) ∨
        ∃ buffer ∈ t.receive, buffer.length < t.bits / 8)) ∧
    (Controller.refusal? t = none ↔ t.Fits) := by
  rw [Transfer.fits_iff, ← isShort_iff, ← isShort_iff, ← Bool.or_eq_true, Nat.dvd_iff_mod_eq_zero]
  unfold Controller.refusal?
  split_ifs with hbytes hselect hshort
  · simp [hbytes]
  · simp [not_not.mp hbytes, hselect]
  · simp [not_not.mp hbytes, not_lt.mp hselect, hselect, hshort]
  · simp [not_not.mp hbytes, not_lt.mp hselect, hselect, hshort]

/-- The error of a transfer is that of its checks, unless patience ran out. -/
theorem result_eq_error_iff (serve : Handler Host σ) (c : Controller) (t : Transfer) {e : Error}
    (he : e ≠ .stalled) (s : σ) :
    ((c.transfer t).run serve s).value.result = .error e ↔ Controller.refusal? t = some e := by
  cases href : Controller.refusal? t with
  | some e' =>
    rw [(transfer_refused serve c href s).1, Except.error.injEq, Option.some.injEq]
  | none =>
    rcases result_transfer serve c href s with hresult | hresult <;> rw [hresult]
    · simp
    · simp [he.symm]

/-- **A transfer that is refused leaves its buffer as it is.** -/
theorem buffer_refused (serve : Handler Host σ) (c : Controller) {t : Transfer} {e : Error}
    (h : Controller.refusal? t = some e) (s : σ) :
    ((c.transfer t).run serve s).value.buffer = t.receive := by
  rw [Controller.transfer, h]
  simp only
  split_ifs <;> rfl

/-- **Transfers are vetted.** Whatever the block holds, a transfer is refused for its length, else for
its chip select, else for a buffer, and for nothing else. A transfer that is refused makes no access
to the block and leaves the receive buffer as it is. One that is not goes through both buffers by
slices below its length, all of which are there. It can only end well or go on waiting for bytes,
and ends well on a block that delivers. -/
theorem Controller.transfer_vetted {depth : Nat} (hdepth : 2 ≤ depth) (hdepth' : depth ≤ 256)
    (serve : Handler Host σ) (t : Transfer) (s : σ) :
    (∀ c : Controller, c.depth = depth →
      let r := (c.transfer t).run serve s
      (r.value.result = .error .nonByteAligned ↔ ¬ 8 ∣ t.bits) ∧
      (r.value.result = .error .invalidChipSelect ↔ 8 ∣ t.bits ∧ maxSelect < t.select) ∧
      (r.value.result = .error .shortBuffer ↔ 8 ∣ t.bits ∧ t.select ≤ maxSelect ∧
        ((∃ data ∈ t.send, data.length < t.bits / 8) ∨
          ∃ buffer ∈ t.receive, buffer.length < t.bits / 8)) ∧
      (¬ t.Fits → accesses r.trace = [] ∧ r.value.buffer = t.receive) ∧
      (t.Fits → c.transferSlices t = some <$> c.transfer t ∧
        (r.value.result = .ok () ∨ r.value.result = .error .stalled))) ∧
    (t.Fits → ∀ _ : Delivering serve depth, ∃ patience, ∀ c : Controller, c.depth = depth →
      patience < c.patience → ((c.transfer t).run serve s).value.result = .ok ()) := by
  obtain ⟨hbytes, hselect, hshort, hfits⟩ := refusal?_iff t
  refine ⟨fun c hc => ?_, fun h D => exists_result_ok h hdepth hdepth' D s⟩
  intro r
  refine ⟨(result_eq_error_iff serve c t (by decide) s).trans hbytes,
    (result_eq_error_iff serve c t (by decide) s).trans hselect,
    (result_eq_error_iff serve c t (by decide) s).trans hshort, fun hrefused => ?_, fun h => ?_⟩
  · obtain ⟨e, href⟩ := Option.ne_none_iff_exists'.mp (hfits.not.mpr hrefused)
    exact ⟨(transfer_refused serve c href s).2, buffer_refused serve c href s⟩
  · have hsize : c.chunkSize = depth - 1 := by
      rw [chunkSize_eq (by omega) (by omega), hc]
    exact ⟨transferSlices_eq h c (by omega), result_transfer serve c h.refusal? s⟩

/-- Five bytes received, three at a time, into a buffer that is longer. Of one bit more, none are. -/
theorem Controller.transfer_vetted_fiveReceived :
    let t : Transfer := { select := 1, bits := 40, receive := some [0, 0, 0, 0, 0, 7] }
    let odd : Transfer := { t with bits := 41 }
    t.Fits ∧ (∃ patience, ∀ c : Controller, c.depth = 4 → patience < c.patience →
        c.transferSlices t = some <$> c.transfer t ∧
        ((c.transfer t).run (Bench.host []) { dribble := 1 }).value.result = .ok ()) ∧
      ∀ c : Controller, c.depth = 4 →
        let r := (c.transfer odd).run (Bench.host []) { dribble := 1 }
        r.value.result = .error .nonByteAligned ∧ accesses r.trace = [] ∧
          r.value.buffer = some [0, 0, 0, 0, 0, 7] := by
  intro t odd
  have hfits : t.Fits := ((refusal?_iff t).2.2.2).mp (by decide)
  have hodd : ¬ odd.Fits := fun h => absurd h.bytes (by decide)
  have hdepth : 2 ≤ 4 := by decide
  have hdepth' : 4 ≤ 256 := by decide
  obtain ⟨hall, hends⟩ := transfer_vetted hdepth hdepth' (Bench.host []) t { dribble := 1 }
  obtain ⟨hall', -⟩ := transfer_vetted hdepth hdepth' (Bench.host []) odd { dribble := 1 }
  obtain ⟨patience, hpatience⟩ := hends hfits (Bench.delivering [] 4 (by decide))
  refine ⟨hfits, ⟨patience, fun c hc hp => ⟨?_, hpatience c hc hp⟩⟩, fun c hc => ?_⟩
  · obtain ⟨-, -, -, -, hslices⟩ := hall c hc
    exact (hslices hfits).1
  · obtain ⟨hbytes, -, -, hrefused, -⟩ := hall' c hc
    exact ⟨hbytes.mpr (by decide), hrefused hodd⟩

end SocBringup.Spi
