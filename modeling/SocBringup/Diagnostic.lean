import SocBringup.Mmc.Control
import SocBringup.Spi.Mode
import SocBringup.Text.Hex

/-! # Diagnostics: what the library reports while it works

A diagnostic says what happened; `Diagnostic.level` says how much it matters and
`Diagnostic.message` how it is worded. -/

namespace SocBringup

/-- How much a diagnostic matters. -/
inductive Level where
  | debug
  | warn
  | error
  deriving DecidableEq

/-- Something worth reporting. -/
inductive Diagnostic where
  /-- A clock number past the end of the clock tree. -/
  | outsideTree (clock : Nat)
  /-- A walk through the clock tree that was given up. -/
  | treeTooDeep (clock : Nat)
  /-- A clock tree node that was not validated for the chip. -/
  | nodePending (clock : Nat)
  /-- A clock tree entry without a node. -/
  | nodeUnset (clock : Nat)
  /-- A multiplexer that selects none of its parents. -/
  | noParent (clock index : Nat)
  /-- A clock without a gate. -/
  | gateMissing (clock : Nat)
  /-- A clock gate that is switched; the last number is the position of its lowest bit. -/
  | gateSwitched (clock offset position : Nat) (on : Bool)
  /-- A reset number without a line. -/
  | resetMissing (line : Nat)
  /-- A reset line that is switched; the last number is the position of its lowest bit. -/
  | resetSwitched (line offset position : Nat) (released : Bool)
  /-- A rate was asked of a chip without a clock tree. -/
  | noClockTree (clock : Nat)
  /-- A rate was requested of a clock the chip does not know. -/
  | clockUnknown (clock : Nat)
  /-- A rate was requested of a clock whose rate cannot be chosen. -/
  | rateNotSettable (clock : Nat)
  | resetBound (lines : Nat)
  | resetRequested (line : Nat)
  | resetFreed (line : Nat)
  | mmcZeroRate
  /-- No divider takes the source down to the requested rate. -/
  | mmcUnreachable (requested source : UInt64)
  | mmcProgrammed (offset : Nat) (requested actual : UInt64) (control : Mmc.Control)
  | probing (driver device compatible : String)
  | nodeFound (name compatible : String) (base : Nat)
  | nodeWithoutWindow (name compatible : String)
  | spiResetRefused (device : String)
  | spiBound (device : String) (base depth : Nat)
  | spiBusClockRefused
  | spiModuleClockRefused
  | spiResetReleaseRefused
  | spiUnaligned
  | spiSpeed (hz : Nat) (divider : UInt32)
  | spiClaim (bus select hz : Nat) (mode : Spi.Mode)

namespace Diagnostic

/-- How much a diagnostic matters. -/
def level : Diagnostic → Level
  | treeTooDeep _ | noParent _ _ => .warn
  | mmcZeroRate | mmcUnreachable _ _ | spiResetRefused _ | spiBusClockRefused
  | spiModuleClockRefused | spiResetReleaseRefused => .error
  | _ => .debug

/-- The wording of a diagnostic; `showBase` writes the address of an SPI register block. -/
def message (showBase : Nat → String) : Diagnostic → String
  | outsideTree clock => s!"ccu: clk {clock} is outside the tree"
  | treeTooDeep clock => s!"ccu: clk {clock}: tree too deep"
  | nodePending clock => s!"ccu: clk {clock} is not initialized"
  | nodeUnset clock => s!"ccu: clk {clock} is unset"
  | noParent clock index => s!"ccu: clk {clock}: no parent at mux index {index}"
  | gateMissing clock => s!"gate: clk {clock} unhandled"
  | gateSwitched clock offset position on =>
    let state := if on then "on" else "off"
    s!"gate: clk {clock}, off#{hexText offset}, BIT({position}), {state}"
  | resetMissing line => s!"reset: line {line} unhandled"
  | resetSwitched line offset position released =>
    let action := if released then "deassert" else "assert"
    s!"reset: {action} line {line}, off#{hexText offset}, BIT({position})"
  | noClockTree clock => s!"clk: {clock}: no clock tree"
  | clockUnknown clock => s!"clk: {clock}: unhandled"
  | rateNotSettable clock => s!"clk: {clock}: cannot set rate"
  | resetBound lines => s!"reset: binding {lines} lines"
  | resetRequested line => s!"reset: request {line}"
  | resetFreed line => s!"reset: free {line}"
  | mmcZeroRate => "mmc: cannot run at 0 Hz"
  | mmcUnreachable requested source => s!"mmc: cannot reach {requested} Hz from {source} Hz"
  | mmcProgrammed offset requested actual control =>
    s!"mmc: off#{hexText offset} set {requested} Hz, got {actual} Hz ({control.text})"
  | probing driver device compatible => s!"{driver}: probing {device} ({compatible})"
  | nodeFound name compatible base => s!"fdt: {name} ({compatible}) at {hexText base}"
  | nodeWithoutWindow name compatible => s!"fdt: {name} ({compatible}) has no reg"
  | spiResetRefused device => s!"{device}: failed to get reset"
  | spiBound device base depth => s!"{device}: sun6i spi at {showBase base}, fifo {depth}"
  | spiBusClockRefused => "sun6i_spi: failed to enable ahb clock"
  | spiModuleClockRefused => "sun6i_spi: failed to enable mod clock"
  | spiResetReleaseRefused => "sun6i_spi: failed to deassert reset"
  | spiUnaligned => "sun6i_spi: non byte-aligned SPI transfer"
  | spiSpeed hz divider => s!"sun6i_spi: {hz} Hz, clkctl {hexText divider.toNat}"
  | spiClaim bus select hz mode => s!"spi{bus}.{select}: claim at {hz} Hz, {mode.text}"

end Diagnostic

end SocBringup
