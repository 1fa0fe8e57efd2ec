import Mathlib.Tactic.Common

/-!
# Error codes and messages

The two small data types shared by the kernel's components: `Error::Code` (the file name and line
number that `MAKE_ERROR` adds are not modelled, no function reads them back for a decision) and
the `Message` record that tasks and interrupt handlers exchange.
-/

namespace UhyokOS

/-- The codes of `class Error`.
Source: `kernel/error.hpp`, `Error::Code` -/
inductive Error
  | kSuccess | kFull | kEmpty | kNoEnoughMemory | kIndexOutOfRange | kHostControllerNotHalted
  | kInvalidSlotID | kPortNotConnected | kInvalidEndpointNumber | kTransferRingNotSet
  | kAlreadyAllocated | kNotImplemented | kInvalidDescriptor | kBufferTooSmall | kUnknownDevice
  | kNoCorrespondingSetupStage | kTransferFailed | kInvalidPhase | kUnknownXHCISpeedID
  | kNoWaiter | kNoPCIMSI | kUnknownPixelFormat | kNoSuchTask
  deriving DecidableEq, Repr

/-- Source: `kernel/message.hpp`, `LayerOperation` -/
inductive LayerOperation
  | move | moveRelative | draw | drawArea
  deriving DecidableEq, Repr

/-- Source: `kernel/message.hpp`, `Message::Type` -/
inductive MessageType
  | kInterruptXHCI | kTimerTimeout | kKeyPush | kLayer | kLayerFinish
  deriving DecidableEq, Repr

/-- The `arg` union of a message; `none` is the union of a message built from its type alone.
Source: `kernel/message.hpp`, `Message::arg` -/
inductive MessageArg
  | none
  | timer (timeout : Nat) (value : Int)
  | keyboard (modifier keycode ascii : UInt8)
  | layer (op : LayerOperation) (layerId : Nat) (x y w h : Int)
  deriving DecidableEq, Repr

/-- Source: `kernel/message.hpp`, `Message` -/
structure Message where
  /-- Which member of the union is meaningful. -/
  type : MessageType
  /-- The id of the sending task, `0` for an interrupt handler. -/
  srcTask : UInt64 := 0
  /-- The payload. -/
  arg : MessageArg := .none
  deriving DecidableEq, Repr

end UhyokOS
