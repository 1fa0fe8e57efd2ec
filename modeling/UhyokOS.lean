import UhyokOS.Lib.Transition
import UhyokOS.Lib.X86
import UhyokOS.Lib.PlacedQueues
import UhyokOS.Error
import UhyokOS.Task.Manager
import UhyokOS.Task.Queues
import UhyokOS.Task.Runs
import UhyokOS.Task.Context
import UhyokOS.Task.Mailbox
import UhyokOS.Lib.Ownership
import UhyokOS.Lib.PackedBits
import UhyokOS.Memory.Bitmap
import UhyokOS.Memory.BootMap
import UhyokOS.Memory.Frames
import UhyokOS.Lib.PriorityQueue
import UhyokOS.Timer.Tick
import UhyokOS.Timer.Runs
import UhyokOS.Graphics.Geometry
import UhyokOS.Lib.CString
import UhyokOS.Terminal.Commands
import UhyokOS.Terminal.Terminal
import UhyokOS.Terminal.Listing
import UhyokOS.Terminal.Lines
import UhyokOS.Lib.Recent
import UhyokOS.Terminal.History
import UhyokOS.Terminal.Cursor
import UhyokOS.Terminal.LineEditor
import UhyokOS.Graphics.FrameBuffer
import UhyokOS.Graphics.Drawing
import UhyokOS.Graphics.Window
import UhyokOS.Layer.Manager
import UhyokOS.Lib.Restack
import UhyokOS.Layer.Stack
import UhyokOS.Layer.Active
import UhyokOS.Layer.Compositor
import UhyokOS.Layer.Redraw
import UhyokOS.Layer.Incremental
import UhyokOS.Layer.Heights
import UhyokOS.Lib.CycleRing
import UhyokOS.Usb.Trb
import UhyokOS.Usb.Ring
import UhyokOS.Usb.EventRing
import UhyokOS.Usb.DeviceManager
import UhyokOS.Usb.Xhci
import UhyokOS.Usb.Ports
import UhyokOS.Usb.Dcbaa
import UhyokOS.Memory.BootBounds
import UhyokOS.Lib.PageWalk
import UhyokOS.Memory.Paging
import UhyokOS.Memory.Reachable
import UhyokOS.Memory.ProgramBreak
import UhyokOS.Usb.ArrayMap
import UhyokOS.Usb.ArrayMapLaws
import UhyokOS.Usb.Endpoint
import UhyokOS.Usb.ControlTransfer
import UhyokOS.Lib.FueledLoop
import UhyokOS.Usb.Descriptors
import UhyokOS.Usb.EndpointContexts
import UhyokOS.Usb.HostileDescriptors
import UhyokOS.Usb.ParsedConfiguration
import UhyokOS.Graphics.Moving
import UhyokOS.Lib.TextScreen
import UhyokOS.Lib.TextLayout
import UhyokOS.Graphics.Text
import UhyokOS.Graphics.Console
import UhyokOS.Graphics.Scrolling
import UhyokOS.Graphics.ScrollPaths
import UhyokOS.Boot.Volume
import UhyokOS.Lib.ByteMemory
import UhyokOS.Boot.Elf
import UhyokOS.Boot.KernelImage
import UhyokOS.Boot.EntryPoint
import UhyokOS.Layer.Copies
import UhyokOS.Terminal.Window
import UhyokOS.Terminal.Screen
import UhyokOS.Terminal.Damage
import UhyokOS.Lib.Trace
import UhyokOS.Usb.PhaseOrder
import UhyokOS.Lib.BumpAllocation
import UhyokOS.Usb.Memory
import UhyokOS.Usb.ControllerMemory
import UhyokOS.Usb.Scratchpads
import UhyokOS.Usb.MemoryRuns
import UhyokOS.Usb.FailedRequests
import UhyokOS.Graphics.WindowParts
import UhyokOS.Layer.HitTest
import UhyokOS.Layer.HiddenDraw
import UhyokOS.Layer.Positions
import UhyokOS.Layer.Mouse
import UhyokOS.Lib.DepthFirst
import UhyokOS.Pci.Configuration
import UhyokOS.Pci.Scan
import UhyokOS.Pci.ScanBound
import UhyokOS.Lib.BitFields
import UhyokOS.Pci.Msi
import UhyokOS.Lib.LinkedList
import UhyokOS.Pci.Capabilities
import UhyokOS.Lib.RoundRobin
import UhyokOS.Task.RoundRobin
import UhyokOS.Task.RoundTrip
import UhyokOS.Task.SwitchContext
import UhyokOS.Lib.CyclicCounter
import UhyokOS.Acpi.PmTimer
import UhyokOS.Acpi.Tables
import UhyokOS.Usb.Keyboard
import UhyokOS.Graphics.RoundCorners
import UhyokOS.Lib.TextLines
import UhyokOS.Lib.BinaryDigits
import UhyokOS.Graphics.FontCompiler
import UhyokOS.Main.Kernel
import UhyokOS.Task.Profile
import UhyokOS.Main.Steps
import UhyokOS.Main.Keyboards
import UhyokOS.Main.Delivery
import UhyokOS.Main.Rest
import UhyokOS.Main.Clock
import UhyokOS.Main.Work
import UhyokOS.Main.Turns
import UhyokOS.Main.Display
import UhyokOS.Usb.DeviceTransfers
import UhyokOS.Usb.Enumeration
import UhyokOS.Usb.EnumerationSteps
import UhyokOS.Usb.EnumerationStages
import UhyokOS.Usb.EnumerationRuns
