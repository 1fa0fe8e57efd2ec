/-!
# Endpoints

The model of `kernel/usb/endpoint.hpp`. The `int` of an endpoint id is made from bit fields or from a
number and a direction and is never negative.
-/

namespace UhyokOS

/-- Source: `kernel/usb/endpoint.hpp`, `EndpointType` -/
inductive EndpointType
  | kControl | kIsochronous | kBulk | kInterrupt
deriving DecidableEq

/-- The conversion of a two-bit field. -/
def EndpointType.ofBits : Nat → EndpointType
  | 0 => .kControl
  | 1 => .kIsochronous
  | 2 => .kBulk
  | _ => .kInterrupt

/-- Source: `kernel/usb/endpoint.hpp`, `EndpointID` -/
structure EndpointID where
  /-- `addr_` -/
  addr : Nat
deriving DecidableEq

namespace EndpointID

/-- The constructor from a number and a direction.
Source: `kernel/usb/endpoint.hpp`, `EndpointID::EndpointID` -/
def new (epNum : Nat) (dirIn : Bool) : EndpointID := ⟨epNum <<< 1 ||| dirIn.toNat⟩

/-- Source: `kernel/usb/endpoint.hpp`, `EndpointID::Address` -/
def address (epId : EndpointID) : Nat := epId.addr

/-- Source: `kernel/usb/endpoint.hpp`, `EndpointID::Number` -/
def number (epId : EndpointID) : Nat := epId.addr >>> 1

/-- Source: `kernel/usb/endpoint.hpp`, `EndpointID::IsIn` -/
def isIn (epId : EndpointID) : Bool := epId.addr.testBit 0

/-- The direction is the low bit of the address. -/
theorem address_new (epNum : Nat) (dirIn : Bool) :
    (new epNum dirIn).address = 2 * epNum + dirIn.toNat := by
  have hdir : dirIn.toNat < 2 ^ 1 := dirIn.toNat_lt
  show epNum <<< 1 ||| dirIn.toNat = _
  rw [← Nat.shiftLeft_add_eq_or_of_lt hdir, Nat.shiftLeft_eq, Nat.mul_comm]

theorem number_new (epNum : Nat) (dirIn : Bool) : (new epNum dirIn).number = epNum := by
  have haddress := address_new epNum dirIn
  have hdir := dirIn.toNat_lt
  show (new epNum dirIn).address >>> 1 = epNum
  rw [haddress, Nat.shiftRight_eq_div_pow]
  omega

end EndpointID

/-- Source: `kernel/usb/endpoint.hpp`, `kDefaultControlPipeID` -/
def kDefaultControlPipeID : EndpointID := .new 0 true

/-- The value of `DeviceContextIndex{ep_id}`.
Source: `kernel/usb/xhci/context.hpp`, `DeviceContextIndex` -/
def deviceContextIndex (epId : EndpointID) : Nat := epId.address

/-- Source: `kernel/usb/endpoint.hpp`, `EndpointConfig` -/
structure EndpointConfig where
  epId : EndpointID
  epType : EndpointType
  maxPacketSize : Nat
  interval : Nat
deriving DecidableEq

end UhyokOS
