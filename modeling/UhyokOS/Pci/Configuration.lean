import UhyokOS.Error
import Mathlib.Data.Nat.Bitwise

/-!
# PCI configuration space

The model of the part of `kernel/pci.cpp` that reads configuration registers. The kernel writes the
address of a register to one port and reads the register from another; the address packs the numbers
of the bus, the device and the function.

* `data_makeAddress`: the address that the kernel makes names the register it means.
-/

namespace UhyokOS.Pci

/-- The place of a function: which function of which device on which bus. -/
@[ext]
structure Location where
  bus : UInt8
  device : UInt8
  function : UInt8
  deriving DecidableEq

/-- The function numbers that a register address has room for. -/
structure Location.Valid (l : Location) : Prop where
  device : l.device < 32
  function : l.function < 8

instance Location.decidableValid (l : Location) : Decidable l.Valid :=
  decidable_of_iff (l.device < 32 ∧ l.function < 8) ⟨fun h => ⟨h.1, h.2⟩, fun h => ⟨h.1, h.2⟩⟩

/-- The configuration registers of all functions, by their offset. -/
abbrev ConfigSpace := Location → UInt8 → UInt32

/-- What can be read from `CONFIG_DATA` while `CONFIG_ADDRESS` holds a value. -/
def ConfigSpace.data (space : ConfigSpace) (address : UInt32) : UInt32 :=
  space
    { bus := (address >>> 16).toUInt8
      device := (address >>> 11 &&& 0x1f).toUInt8
      function := (address >>> 8 &&& 0x7).toUInt8 }
    (address &&& 0xfc).toUInt8

/-- Source: `kernel/pci.cpp`, `MakeAddress` -/
def makeAddress (bus device function regAddr : UInt8) : UInt32 :=
  (1 : UInt32) <<< 31 ||| bus.toUInt32 <<< 16 ||| device.toUInt32 <<< 11 |||
    function.toUInt32 <<< 8 ||| (regAddr.toUInt32 &&& 0xfc)

/-- The fields of an address do not overlap. -/
theorem toNat_makeAddress {bus device function regAddr : UInt8} (hdevice : device < 32)
    (hfunction : function < 8) (hreg : regAddr &&& 0xfc = regAddr) :
    (makeAddress bus device function regAddr).toNat =
      2 ^ 31 + bus.toNat * 2 ^ 16 + device.toNat * 2 ^ 11 + function.toNat * 2 ^ 8 +
        regAddr.toNat := by
  have hbus : bus.toNat < 2 ^ 8 := bus.toNat_lt
  have hdevice : device.toNat < 32 := hdevice
  have hfunction : function.toNat < 8 := hfunction
  have hregAddr : regAddr.toNat < 2 ^ 8 := regAddr.toNat_lt
  have hregNat : regAddr.toNat &&& (0xfc : UInt32).toNat = regAddr.toNat :=
    congrArg UInt8.toNat hreg
  have hshift : ∀ x k : ℕ, x * 2 ^ k < 2 ^ 32 → x <<< k % 2 ^ 32 = x * 2 ^ k := by
    intro x k hlt
    rw [Nat.shiftLeft_eq, Nat.mod_eq_of_lt hlt]
  have hor : ∀ n a x : ℕ, x < 2 ^ n → 2 ^ n * a ||| x = 2 ^ n * a + x := fun n a x hlt =>
    (Nat.two_pow_add_eq_or_of_lt hlt a).symm
  unfold makeAddress
  simp only [UInt32.toNat_or, UInt32.toNat_shiftLeft, UInt8.toNat_toUInt32, UInt32.toNat_and, hregNat]
  show 1 <<< 31 % 2 ^ 32 ||| bus.toNat <<< 16 % 2 ^ 32 ||| device.toNat <<< 11 % 2 ^ 32 |||
    function.toNat <<< 8 % 2 ^ 32 ||| regAddr.toNat = _
  rw [hshift 1 31 (by omega), hshift bus.toNat 16 (by omega), hshift device.toNat 11 (by omega),
    hshift function.toNat 8 (by omega)]
  -- each field fits below the lowest bit of those before it
  have hbusField : 1 * 2 ^ 31 ||| bus.toNat * 2 ^ 16 = 2 ^ 16 * (2 ^ 15 + bus.toNat) := by
    rw [show 1 * 2 ^ 31 = 2 ^ 24 * 2 ^ 7 from rfl, hor 24 _ _ (by omega)]
    omega
  have hdeviceField : 2 ^ 16 * (2 ^ 15 + bus.toNat) ||| device.toNat * 2 ^ 11 =
      2 ^ 11 * (2 ^ 5 * (2 ^ 15 + bus.toNat) + device.toNat) := by
    rw [hor 16 _ _ (by omega)]
    omega
  have hfunctionField : 2 ^ 11 * (2 ^ 5 * (2 ^ 15 + bus.toNat) + device.toNat) |||
      function.toNat * 2 ^ 8 =
        2 ^ 8 * (2 ^ 3 * (2 ^ 5 * (2 ^ 15 + bus.toNat) + device.toNat) + function.toNat) := by
    rw [hor 11 _ _ (by omega)]
    omega
  rw [hbusField, hdeviceField, hfunctionField, hor 8 _ _ hregAddr]
  omega

/-- **The address names the register.** -/
theorem data_makeAddress (space : ConfigSpace) {l : Location} (hl : l.Valid) {regAddr : UInt8}
    (hreg : regAddr &&& 0xfc = regAddr) :
    space.data (makeAddress l.bus l.device l.function regAddr) = space l regAddr := by
  have hsum : (makeAddress l.bus l.device l.function regAddr).toNat = _ :=
    toNat_makeAddress hl.device hl.function hreg
  have hbus : l.bus.toNat < 2 ^ 8 := l.bus.toNat_lt
  have hdevice : l.device.toNat < 32 := hl.device
  have hfunction : l.function.toNat < 8 := hl.function
  have hregAddr : regAddr.toNat < 2 ^ 8 := regAddr.toNat_lt
  unfold ConfigSpace.data
  congr 1
  · apply Location.ext
    · apply UInt8.toNat_inj.mp
      simp only [UInt32.toNat_toUInt8, UInt32.toNat_shiftRight]
      rw [hsum]
      show (_ >>> 16) % _ = _
      rw [Nat.shiftRight_eq_div_pow]
      omega
    · apply UInt8.toNat_inj.mp
      simp only [UInt32.toNat_toUInt8, UInt32.toNat_shiftRight, UInt32.toNat_and]
      rw [hsum]
      show (_ >>> 11 &&& 2 ^ 5 - 1) % _ = _
      rw [Nat.shiftRight_eq_div_pow, Nat.and_two_pow_sub_one_eq_mod]
      omega
    · apply UInt8.toNat_inj.mp
      simp only [UInt32.toNat_toUInt8, UInt32.toNat_shiftRight, UInt32.toNat_and]
      rw [hsum]
      show (_ >>> 8 &&& 2 ^ 3 - 1) % _ = _
      rw [Nat.shiftRight_eq_div_pow, Nat.and_two_pow_sub_one_eq_mod]
      omega
  · have hlow : (makeAddress l.bus l.device l.function regAddr).toUInt8 = regAddr := by
      apply UInt8.toNat_inj.mp
      rw [UInt32.toNat_toUInt8, hsum]
      omega
    rw [UInt32.toUInt8_and, hlow]
    exact hreg

/-! ## Reading registers -/

section read

variable (space : ConfigSpace)

/-- `WriteAddress` and `ReadData`, one after the other.
Source: `kernel/pci.cpp`, `ReadVendorId` and the other readers -/
def readRegister (bus device function regAddr : UInt8) : UInt32 :=
  space.data (makeAddress bus device function regAddr)

/-- Source: `kernel/pci.cpp`, `ReadVendorId` -/
def readVendorId (bus device function : UInt8) : UInt16 :=
  (readRegister space bus device function 0x00 &&& 0xffff).toUInt16

/-- Source: `kernel/pci.cpp`, `ReadHeaderType` -/
def readHeaderType (bus device function : UInt8) : UInt8 :=
  (readRegister space bus device function 0x0c >>> 16 &&& 0xff).toUInt8

/-- Source: `kernel/pci.hpp`, `ClassCode` -/
structure ClassCode where
  base : UInt8
  sub : UInt8
  interface : UInt8
  deriving DecidableEq

/-- Source: `kernel/pci.hpp`, `ClassCode::Match(uint8_t, uint8_t)` -/
def ClassCode.match₂ (classCode : ClassCode) (b s : UInt8) : Bool :=
  b == classCode.base && s == classCode.sub

/-- Source: `kernel/pci.cpp`, `ReadClassCode` -/
def readClassCode (bus device function : UInt8) : ClassCode :=
  let reg := readRegister space bus device function 0x08
  { base := (reg >>> 24 &&& 0xff).toUInt8
    sub := (reg >>> 16 &&& 0xff).toUInt8
    interface := (reg >>> 8 &&& 0xff).toUInt8 }

/-- Source: `kernel/pci.cpp`, `ReadBusNumbers` -/
def readBusNumbers (bus device function : UInt8) : UInt32 :=
  readRegister space bus device function 0x18

end read

/-- Source: `kernel/pci.cpp`, `IsSingleFunctionDevice` -/
def isSingleFunctionDevice (headerType : UInt8) : Bool := headerType &&& 0x80 == 0

end UhyokOS.Pci
