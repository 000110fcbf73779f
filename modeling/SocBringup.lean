import SocBringup.Bench.Partner
import SocBringup.Bench.SpiBlock
import SocBringup.Board
import SocBringup.Bytes
import SocBringup.Chip.A10
import SocBringup.Chip.A10s
import SocBringup.Chip.A23
import SocBringup.Chip.A31
import SocBringup.Chip.A64
import SocBringup.Chip.A83t
import SocBringup.Chip.Catalog
import SocBringup.Chip.Description
import SocBringup.Chip.H3
import SocBringup.Chip.H6
import SocBringup.Chip.R40
import SocBringup.Chip.V3s
import SocBringup.Clock.Rate
import SocBringup.Clock.Tree
import SocBringup.ControlUnit
import SocBringup.Controller.Clock
import SocBringup.Controller.Reset
import SocBringup.Device
import SocBringup.Devicetree.Blob
import SocBringup.Devicetree.Layout
import SocBringup.Devicetree.Lookup
import SocBringup.Devicetree.Node
import SocBringup.Devicetree.Reader
import SocBringup.Diagnostic
import SocBringup.Fault
import SocBringup.Line
import SocBringup.Mmc.Control
import SocBringup.Mmc.Pll
import SocBringup.Mmc.Setter
import SocBringup.Program
import SocBringup.Proofs.Board.Calls
import SocBringup.Proofs.Board.Independence
import SocBringup.Proofs.Clock.Checked
import SocBringup.Proofs.Clock.Climb
import SocBringup.Proofs.Clock.Dependence
import SocBringup.Proofs.Clock.Nodes
import SocBringup.Proofs.Clock.R40
import SocBringup.Proofs.Clock.Reads
import SocBringup.Proofs.Clock.Rounding
import SocBringup.Proofs.ControlUnit.Footprint
import SocBringup.Proofs.ControlUnit.Lines
import SocBringup.Proofs.ControlUnit.Operations
import SocBringup.Proofs.ControlUnit.Requests
import SocBringup.Proofs.ControlUnit.Separation
import SocBringup.Proofs.ControlUnit.Steadiness
import SocBringup.Proofs.ControlUnit.Switching
import SocBringup.Proofs.ControlUnit.Window
import SocBringup.Proofs.Devicetree.Answer
import SocBringup.Proofs.Devicetree.Binding
import SocBringup.Proofs.Devicetree.Format
import SocBringup.Proofs.Devicetree.Laws
import SocBringup.Proofs.Devicetree.Parser
import SocBringup.Proofs.Devicetree.Search
import SocBringup.Proofs.Devicetree.Walk
import SocBringup.Proofs.Devicetree.Writer
import SocBringup.Proofs.Mmc.Decoding
import SocBringup.Proofs.Mmc.Fastest
import SocBringup.Proofs.Mmc.Halving
import SocBringup.Proofs.Mmc.Order
import SocBringup.Proofs.Mmc.Programming
import SocBringup.Proofs.Mmc.Reach
import SocBringup.Proofs.Mmc.Readback
import SocBringup.Proofs.Mmc.Repeating
import SocBringup.Proofs.Program.Keeps
import SocBringup.Proofs.Program.Latest
import SocBringup.Proofs.Program.Layer
import SocBringup.Proofs.Program.Within
import SocBringup.Proofs.Program.Yields
import SocBringup.Proofs.Register.Apart
import SocBringup.Proofs.Register.Bit
import SocBringup.Proofs.Register.Factor
import SocBringup.Proofs.Register.Lens
import SocBringup.Proofs.Register.Store
import SocBringup.Proofs.Register.Trace
import SocBringup.Proofs.Register.Words
import SocBringup.Proofs.Spi.Bursts
import SocBringup.Proofs.Spi.Calls
import SocBringup.Proofs.Spi.ChipSelect
import SocBringup.Proofs.Spi.Delivery
import SocBringup.Proofs.Spi.Power
import SocBringup.Proofs.Spi.Sessions
import SocBringup.Proofs.Spi.Slices
import SocBringup.Proofs.Spi.Speed
import SocBringup.Proofs.Spi.Storing
import SocBringup.Proofs.Spi.Tracking
import SocBringup.Proofs.Spi.Transaction
import SocBringup.Proofs.Spi.Upkeep
import SocBringup.Proofs.Spi.Wire
import SocBringup.Register.Field
import SocBringup.Register.FieldBits
import SocBringup.Register.File
import SocBringup.Register.Memory
import SocBringup.Register.Space
import SocBringup.Spi.Block
import SocBringup.Spi.Bus
import SocBringup.Spi.Controller
import SocBringup.Spi.Error
import SocBringup.Spi.Host
import SocBringup.Spi.Mode
import SocBringup.Spi.Slave
import SocBringup.Text.Hex
