import UhyokOS.Lib.BitFields
import UhyokOS.Pci.Scan

/-!
# Message signalled interrupts

The model of `ConfigureMSIRegister`, which reads an MSI capability, changes three of its fields and
writes all of it back. The capability has optional words, so the words behind it shift. The registers of
a device are words that hold what was written last.

* `configureMSIRegister_eq`: of all the writes only three change anything.
* `configureMSIRegister_programmed_iff`: the device sends its messages to the address that was asked
  for iff the upper word of the address, which is left alone, is absent or zero.
-/

namespace UhyokOS.Pci

open BitFields

/-! ## Writing registers -/

/-- The function that `CONFIG_ADDRESS` selects. -/
def selectedLocation (address : UInt32) : Location where
  bus := (address >>> 16).toUInt8
  device := (address >>> 11 &&& 0x1f).toUInt8
  function := (address >>> 8 &&& 0x7).toUInt8

/-- The register that `CONFIG_ADDRESS` selects. -/
def selectedRegister (address : UInt32) : UInt8 := (address &&& 0xfc).toUInt8

/-- Write to `CONFIG_DATA` while `CONFIG_ADDRESS` holds a value. -/
def ConfigSpace.writeData (space : ConfigSpace) (address value : UInt32) : ConfigSpace :=
  Function.update space (selectedLocation address)
    (Function.update (space (selectedLocation address)) (selectedRegister address) value)

/-- Source: `kernel/pci.cpp`, `ReadConfReg` -/
def readConfReg (space : ConfigSpace) (dev : Device) (regAddr : UInt8) : UInt32 :=
  readRegister space dev.bus dev.device dev.function regAddr

/-- Source: `kernel/pci.cpp`, `WriteConfReg` -/
def writeConfReg (space : ConfigSpace) (dev : Device) (regAddr : UInt8) (value : UInt32) :
    ConfigSpace :=
  space.writeData (makeAddress dev.bus dev.device dev.function regAddr) value

/-- The function whose registers are accessed for a device. -/
def Device.selected (dev : Device) : Location :=
  selectedLocation (makeAddress dev.bus dev.device dev.function 0)

/-! ## The capability -/

/-- Source: `kernel/pci.hpp`, `MSICapability` -/
structure MSICapability where
  header : UInt32 := 0
  msgAddr : UInt32 := 0
  msgUpperAddr : UInt32 := 0
  msgData : UInt32 := 0
  maskBits : UInt32 := 0
  pendingBits : UInt32 := 0

section header

variable (header : UInt32)

/-- Source: `kernel/pci.hpp`, `MSICapability`, `msi_enable` -/
def msiEnable : BitVec 1 := field header.toBitVec 16 1

/-- Source: `kernel/pci.hpp`, `MSICapability`, `multi_msg_capable` -/
def multiMsgCapable : BitVec 3 := field header.toBitVec 17 3

/-- Source: `kernel/pci.hpp`, `MSICapability`, `multi_msg_enable` -/
def multiMsgEnable : BitVec 3 := field header.toBitVec 20 3

/-- Source: `kernel/pci.hpp`, `MSICapability`, `addr_64_capable` -/
def addr64Capable : BitVec 1 := field header.toBitVec 23 1

/-- Source: `kernel/pci.hpp`, `MSICapability`, `per_vector_mask_capable` -/
def perVectorMaskCapable : BitVec 1 := field header.toBitVec 24 1

/-- Assign to `msi_enable`. -/
def setMsiEnable (v : BitVec 1) : UInt32 := ⟨setField header.toBitVec 16 v⟩

/-- Assign to `multi_msg_enable`. -/
def setMultiMsgEnable (v : BitVec 3) : UInt32 := ⟨setField header.toBitVec 20 v⟩

end header

section configure

variable (space : ConfigSpace) (dev : Device) (capAddr : UInt8)

/-- Source: `kernel/pci.cpp`, `ReadMSICapability` -/
def readMSICapability : MSICapability :=
  let msiCap : MSICapability := {}
  let msiCap := { msiCap with header := readConfReg space dev capAddr }
  let msiCap := { msiCap with msgAddr := readConfReg space dev (capAddr + 4) }
  let (msiCap, msgDataAddr) :=
    if addr64Capable msiCap.header ≠ 0 then
      ({ msiCap with msgUpperAddr := readConfReg space dev (capAddr + 8) }, capAddr + 12)
    else (msiCap, capAddr + 8)
  let msiCap := { msiCap with msgData := readConfReg space dev msgDataAddr }
  if perVectorMaskCapable msiCap.header ≠ 0 then
    { msiCap with
      maskBits := readConfReg space dev (msgDataAddr + 4)
      pendingBits := readConfReg space dev (msgDataAddr + 8) }
  else msiCap

/-- Source: `kernel/pci.cpp`, `WriteMSICapability` -/
def writeMSICapability (msiCap : MSICapability) : ConfigSpace :=
  let space := writeConfReg space dev capAddr msiCap.header
  let space := writeConfReg space dev (capAddr + 4) msiCap.msgAddr
  let (space, msgDataAddr) :=
    if addr64Capable msiCap.header ≠ 0 then
      (writeConfReg space dev (capAddr + 8) msiCap.msgUpperAddr, capAddr + 12)
    else (space, capAddr + 8)
  let space := writeConfReg space dev msgDataAddr msiCap.msgData
  if perVectorMaskCapable msiCap.header ≠ 0 then
    let space := writeConfReg space dev (msgDataAddr + 4) msiCap.maskBits
    writeConfReg space dev (msgDataAddr + 8) msiCap.pendingBits
  else space

variable (msgAddr msgData numVectorExponent : UInt32)

/-- Source: `kernel/pci.cpp`, `ConfigureMSIRegister` -/
def configureMSIRegister : Error × ConfigSpace :=
  let msiCap := readMSICapability space dev capAddr
  let enable : BitVec 3 :=
    if (multiMsgCapable msiCap.header).toNat ≤ numVectorExponent.toNat then
      multiMsgCapable msiCap.header
    else BitVec.ofNat 3 numVectorExponent.toNat
  let msiCap := { msiCap with header := setMultiMsgEnable msiCap.header enable }
  let msiCap := { msiCap with header := setMsiEnable msiCap.header 1 }
  let msiCap := { msiCap with msgAddr := msgAddr }
  let msiCap := { msiCap with msgData := msgData }
  (.kSuccess, writeMSICapability space dev capAddr msiCap)

end configure

/-- Source: `kernel/pci.cpp`, `ConfigureMSIXRegister` -/
def configureMSIXRegister (space : ConfigSpace) (_dev : Device) (_capAddr : UInt8)
    (_msgAddr _msgData _numVectorExponent : UInt32) : Error × ConfigSpace :=
  (.kNotImplemented, space)

/-! ## The registers that are accessed -/

section access

variable {space : ConfigSpace} {dev : Device} {a b : UInt8} {v : UInt32}

theorem makeAddress_eq_or (bus device function regAddr : UInt8) :
    makeAddress bus device function regAddr =
      makeAddress bus device function 0 ||| (regAddr.toUInt32 &&& 0xfc) := by
  unfold makeAddress
  rw [show (0 : UInt8).toUInt32 &&& 0xfc = 0 from rfl, UInt32.or_zero]

/-- The register does not reach into the fields above it. -/
theorem or_register_shiftRight (x : UInt32) (regAddr : UInt8) {k : UInt32} (hk : 8 ≤ k.toNat)
    (hk32 : k.toNat < 32) : (x ||| (regAddr.toUInt32 &&& 0xfc)) >>> k = x >>> k := by
  have hzero : (regAddr.toUInt32 &&& 0xfc).toNat >>> k.toNat = 0 := by
    have hle : (regAddr.toUInt32 &&& 0xfc).toNat ≤ 252 := by
      rw [UInt32.toNat_and]
      exact Nat.and_le_right
    rw [Nat.shiftRight_eq_div_pow, Nat.div_eq_of_lt]
    exact lt_of_le_of_lt hle (lt_of_lt_of_le (by decide) (Nat.pow_le_pow_right (by decide) hk))
  apply UInt32.toNat_inj.mp
  rw [UInt32.toNat_shiftRight, UInt32.toNat_shiftRight, UInt32.toNat_or, Nat.mod_eq_of_lt hk32,
    Nat.shiftRight_or_distrib, hzero, Nat.or_zero]

theorem selectedLocation_makeAddress (dev : Device) (regAddr : UInt8) :
    selectedLocation (makeAddress dev.bus dev.device dev.function regAddr) = dev.selected := by
  unfold Device.selected selectedLocation
  rw [makeAddress_eq_or dev.bus dev.device dev.function regAddr,
    or_register_shiftRight _ _ (by decide) (by decide),
    or_register_shiftRight _ _ (by decide) (by decide),
    or_register_shiftRight _ _ (by decide) (by decide)]

/-- The fields above the register do not reach into it. -/
theorem shiftLeft_and_register (x : UInt32) {k : UInt32} (hk : 8 ≤ k.toNat) (hk32 : k.toNat < 32) :
    x <<< k &&& 0xfc = 0 := by
  apply UInt32.toNat_inj.mp
  apply Nat.eq_of_testBit_eq
  intro i
  rw [UInt32.toNat_and, UInt32.toNat_shiftLeft, Nat.mod_eq_of_lt hk32, Nat.testBit_and,
    Nat.testBit_mod_two_pow, Nat.testBit_shiftLeft, UInt32.toNat_zero, Nat.zero_testBit]
  by_cases hi : i < 8
  · have hlow : ¬k.toNat ≤ i := by omega
    rw [decide_eq_false hlow, Bool.false_and, Bool.and_false, Bool.false_and]
  · have hhigh : (0xfc : UInt32).toNat.testBit i = false :=
      Nat.testBit_lt_two_pow (lt_of_lt_of_le (by decide) (Nat.pow_le_pow_right (by decide)
        (not_lt.mp hi)))
    rw [hhigh, Bool.and_false]

theorem or_and_register (x y : UInt32) : (x ||| y) &&& 0xfc = x &&& 0xfc ||| y &&& 0xfc :=
  UInt32.toBitVec_inj.mp BitVec.and_or_distrib_right

theorem selectedRegister_makeAddress (bus device function regAddr : UInt8) :
    selectedRegister (makeAddress bus device function regAddr) = regAddr &&& 0xfc := by
  have hand : makeAddress bus device function regAddr &&& 0xfc = regAddr.toUInt32 &&& 0xfc := by
    unfold makeAddress
    simp only [or_and_register]
    rw [shiftLeft_and_register _ (by decide) (by decide),
      shiftLeft_and_register _ (by decide) (by decide),
      shiftLeft_and_register _ (by decide) (by decide),
      shiftLeft_and_register _ (by decide) (by decide)]
    simp only [UInt32.zero_or, UInt32.and_assoc, UInt32.and_self]
  unfold selectedRegister
  rw [hand, UInt32.toUInt8_and, UInt8.toUInt8_toUInt32]
  rfl

theorem and_fc_ofNat : ∀ n : Fin 64, UInt8.ofNat (4 * n) &&& 0xfc = UInt8.ofNat (4 * n) := by
  decide

/-- The address of a word is the number of its register. -/
theorem and_fc_of_aligned (ha : a.toNat % 4 = 0) : a &&& 0xfc = a := by
  have hlt := a.toNat_lt
  have heq : a = UInt8.ofNat (4 * (a.toNat / 4)) := by
    rw [Nat.mul_div_cancel' (Nat.dvd_of_mod_eq_zero ha), UInt8.ofNat_toNat]
  have hword := and_fc_ofNat ⟨a.toNat / 4, by omega⟩
  rwa [← heq] at hword

theorem aligned_add (ha : a.toNat % 4 = 0) (hb : b.toNat % 4 = 0) : (a + b).toNat % 4 = 0 := by
  rw [UInt8.toNat_add]
  omega

theorem readConfReg_eq (space : ConfigSpace) (dev : Device) (ha : a.toNat % 4 = 0) :
    readConfReg space dev a = space dev.selected a := by
  have hdata : readConfReg space dev a =
      space (selectedLocation (makeAddress dev.bus dev.device dev.function a))
        (selectedRegister (makeAddress dev.bus dev.device dev.function a)) := rfl
  rw [hdata, selectedLocation_makeAddress, selectedRegister_makeAddress, and_fc_of_aligned ha]

theorem writeConfReg_eq (space : ConfigSpace) (dev : Device) (ha : a.toNat % 4 = 0) (v : UInt32) :
    writeConfReg space dev a v =
      Function.update space dev.selected (Function.update (space dev.selected) a v) := by
  unfold writeConfReg ConfigSpace.writeData
  rw [selectedLocation_makeAddress, selectedRegister_makeAddress, and_fc_of_aligned ha]

theorem writeConfReg_selected (space : ConfigSpace) (dev : Device) (ha : a.toNat % 4 = 0)
    (v : UInt32) : writeConfReg space dev a v dev.selected a = v := by
  rw [writeConfReg_eq space dev ha, Function.update_self, Function.update_self]

theorem writeConfReg_selected_of_ne (space : ConfigSpace) (dev : Device) (ha : a.toNat % 4 = 0)
    (v : UInt32) (hne : b ≠ a) : writeConfReg space dev a v dev.selected b = space dev.selected b := by
  rw [writeConfReg_eq space dev ha, Function.update_self, Function.update_of_ne hne]

theorem writeConfReg_of_ne (space : ConfigSpace) (ha : a.toNat % 4 = 0) (v : UInt32) {l : Location}
    (hne : l ≠ dev.selected) : writeConfReg space dev a v l = space l := by
  rw [writeConfReg_eq space dev ha, Function.update_of_ne hne]

/-- A register that is written with what it holds. -/
theorem writeConfReg_self (ha : a.toNat % 4 = 0) (h : space dev.selected a = v) :
    writeConfReg space dev a v = space := by
  rw [writeConfReg_eq space dev ha, ← h, Function.update_eq_self, Function.update_eq_self]

end access

/-! ## The header -/

section header

variable (header numVectorExponent : UInt32)

/-- The header that `ConfigureMSIRegister` writes. -/
def configuredHeader : UInt32 :=
  setMsiEnable (setMultiMsgEnable header
    (if (multiMsgCapable header).toNat ≤ numVectorExponent.toNat then multiMsgCapable header
      else BitVec.ofNat 3 numVectorExponent.toNat)) 1

/-- The word that holds the message data. -/
def messageDataAddr (capAddr : UInt8) : UInt8 :=
  if addr64Capable header ≠ 0 then capAddr + 12 else capAddr + 8

theorem msiEnable_configuredHeader : msiEnable (configuredHeader header numVectorExponent) = 1 :=
  field_setField_self _ _ (by decide)

/-- No more vectors than the device can send, and no more than were asked for. -/
theorem multiMsgEnable_configuredHeader :
    (multiMsgEnable (configuredHeader header numVectorExponent)).toNat =
      min (multiMsgCapable header).toNat numVectorExponent.toNat := by
  unfold configuredHeader multiMsgEnable setMsiEnable setMultiMsgEnable
  rw [field_setField_of_disjoint _ _ (by decide) (by decide), field_setField_self _ _ (by decide)]
  split_ifs with hle
  · rw [min_eq_left hle]
  · have hcapable := (multiMsgCapable header).isLt
    rw [min_eq_right (not_le.mp hle).le, BitVec.toNat_ofNat, Nat.mod_eq_of_lt (by omega)]

/-- The layout of the capability stays. -/
theorem addr64Capable_configuredHeader :
    addr64Capable (configuredHeader header numVectorExponent) = addr64Capable header := by
  unfold configuredHeader addr64Capable setMsiEnable setMultiMsgEnable
  rw [field_setField_of_disjoint _ _ (by decide) (by decide),
    field_setField_of_disjoint _ _ (by decide) (by decide)]

theorem perVectorMaskCapable_configuredHeader :
    perVectorMaskCapable (configuredHeader header numVectorExponent) =
      perVectorMaskCapable header := by
  unfold configuredHeader perVectorMaskCapable setMsiEnable setMultiMsgEnable
  rw [field_setField_of_disjoint _ _ (by decide) (by decide),
    field_setField_of_disjoint _ _ (by decide) (by decide)]

/-- The bits outside `msi_enable` and `multi_msg_enable`. -/
theorem getLsbD_configuredHeader {i : Nat} (hi : i < 32) (henable : i ≠ 16)
    (hvectors : ¬(20 ≤ i ∧ i < 23)) :
    (configuredHeader header numVectorExponent).toBitVec.getLsbD i = header.toBitVec.getLsbD i := by
  unfold configuredHeader setMsiEnable setMultiMsgEnable
  rw [getLsbD_setField _ _ hi, if_neg (by omega), getLsbD_setField _ _ hi, if_neg hvectors]

end header

/-! ## Programming the capability -/

section program

variable {space : ConfigSpace} {dev : Device} {capAddr : UInt8}

theorem messageDataAddr_eq_or (header : UInt32) (capAddr : UInt8) :
    messageDataAddr header capAddr = capAddr + 12 ∨ messageDataAddr header capAddr = capAddr + 8 :=
  ite_eq_or_eq _ _ _

theorem messageDataAddr_aligned (ha : capAddr.toNat % 4 = 0) (header : UInt32) :
    (messageDataAddr header capAddr).toNat % 4 = 0 := by
  rcases messageDataAddr_eq_or header capAddr with h | h
  · rw [h]
    exact aligned_add ha rfl
  · rw [h]
    exact aligned_add ha rfl

theorem readMSICapability_header :
    (readMSICapability space dev capAddr).header = readConfReg space dev capAddr := by
  unfold readMSICapability
  simp only
  split_ifs <;> rfl

/-- The upper word, if there is one. -/
theorem readMSICapability_msgUpperAddr (h64 : addr64Capable (readConfReg space dev capAddr) ≠ 0) :
    (readMSICapability space dev capAddr).msgUpperAddr = readConfReg space dev (capAddr + 8) := by
  unfold readMSICapability
  simp only [if_pos h64]
  split_ifs <;> rfl

/-- The words behind the message data, if they are there. -/
theorem readMSICapability_maskBits
    (hmask : perVectorMaskCapable (readConfReg space dev capAddr) ≠ 0) :
    (readMSICapability space dev capAddr).maskBits =
        readConfReg space dev (messageDataAddr (readConfReg space dev capAddr) capAddr + 4) ∧
      (readMSICapability space dev capAddr).pendingBits =
        readConfReg space dev (messageDataAddr (readConfReg space dev capAddr) capAddr + 8) := by
  unfold readMSICapability messageDataAddr
  by_cases h64 : addr64Capable (readConfReg space dev capAddr) ≠ 0
  · simp only [if_pos h64, if_pos hmask, and_self]
  · simp only [if_neg h64, if_pos hmask, and_self]

/-- Writing a capability whose optional words have not been changed. -/
theorem writeMSICapability_eq (ha : capAddr.toNat % 4 = 0) {msiCap : MSICapability}
    (hupper : addr64Capable msiCap.header ≠ 0 →
      msiCap.msgUpperAddr = space dev.selected (capAddr + 8))
    (hmask : perVectorMaskCapable msiCap.header ≠ 0 →
      msiCap.maskBits = space dev.selected (messageDataAddr msiCap.header capAddr + 4) ∧
        msiCap.pendingBits = space dev.selected (messageDataAddr msiCap.header capAddr + 8)) :
    writeMSICapability space dev capAddr msiCap =
      writeConfReg (writeConfReg (writeConfReg space dev capAddr msiCap.header) dev (capAddr + 4)
        msiCap.msgAddr) dev (messageDataAddr msiCap.header capAddr) msiCap.msgData := by
  have h4 : (capAddr + 4).toNat % 4 = 0 := aligned_add ha rfl
  have h8 : (capAddr + 8).toNat % 4 = 0 := aligned_add ha rfl
  -- the words of the message address
  generalize hspace : writeConfReg (writeConfReg space dev capAddr msiCap.header) dev (capAddr + 4)
    msiCap.msgAddr = space'
  have hkept : ∀ r, r ≠ capAddr → r ≠ capAddr + 4 → space' dev.selected r = space dev.selected r := by
    intro r hne hne4
    rw [← hspace, writeConfReg_selected_of_ne _ _ h4 _ hne4, writeConfReg_selected_of_ne _ _ ha _ hne]
  have hupper' : (if addr64Capable msiCap.header ≠ 0 then
        (writeConfReg space' dev (capAddr + 8) msiCap.msgUpperAddr, capAddr + 12)
      else (space', capAddr + 8)) = (space', messageDataAddr msiCap.header capAddr) := by
    unfold messageDataAddr
    by_cases h64 : addr64Capable msiCap.header ≠ 0
    · rw [if_pos h64, if_pos h64, writeConfReg_self h8]
      rw [hkept _ (by grind) (by grind), hupper h64]
    · rw [if_neg h64, if_neg h64]
  -- the words behind the message data
  unfold writeMSICapability
  simp only [hspace, hupper']
  by_cases hm : perVectorMaskCapable msiCap.header ≠ 0
  · obtain ⟨hbits, hpending⟩ := hmask hm
    have hdata := messageDataAddr_eq_or msiCap.header capAddr
    have hd := messageDataAddr_aligned ha msiCap.header
    generalize messageDataAddr msiCap.header capAddr = d at *
    have hbehind : ∀ r, r ≠ d → r ≠ capAddr → r ≠ capAddr + 4 →
        writeConfReg space' dev d msiCap.msgData dev.selected r = space dev.selected r := by
      intro r hne hne0 hne4
      rw [writeConfReg_selected_of_ne _ _ hd _ hne, hkept _ hne0 hne4]
    have hbits' := hbehind (d + 4) (by grind) (by grind) (by grind)
    have hpending' := hbehind (d + 8) (by grind) (by grind) (by grind)
    rw [if_pos hm, writeConfReg_self (aligned_add hd rfl) (hbits'.trans hbits.symm),
      writeConfReg_self (aligned_add hd rfl) (hpending'.trans hpending.symm)]
  · rw [if_neg hm]

/-- **Programming the capability is three writes**: the header, the lower word of the address, and the
message data. The other words are written with what was read from them. -/
theorem configureMSIRegister_eq (ha : capAddr.toNat % 4 = 0) (msgAddr msgData e : UInt32) :
    configureMSIRegister space dev capAddr msgAddr msgData e =
      (.kSuccess,
        writeConfReg
          (writeConfReg
            (writeConfReg space dev capAddr (configuredHeader (space dev.selected capAddr) e))
            dev (capAddr + 4) msgAddr)
          dev (messageDataAddr (space dev.selected capAddr) capAddr) msgData) := by
  have hread : ∀ k : UInt8, k.toNat % 4 = 0 →
      readConfReg space dev (capAddr + k) = space dev.selected (capAddr + k) := fun k hk =>
    readConfReg_eq space dev (aligned_add ha hk)
  have hfirst := readConfReg_eq space dev ha
  have hheader : (readMSICapability space dev capAddr).header = space dev.selected capAddr :=
    readMSICapability_header.trans hfirst
  have hlayout : messageDataAddr (configuredHeader (readMSICapability space dev capAddr).header e)
      capAddr = messageDataAddr (space dev.selected capAddr) capAddr := by
    unfold messageDataAddr
    rw [addr64Capable_configuredHeader, hheader]
  have hdata := messageDataAddr_aligned ha (space dev.selected capAddr)
  refine Prod.ext rfl ((writeMSICapability_eq ha ?_ ?_).trans ?_)
  · show addr64Capable (configuredHeader (readMSICapability space dev capAddr).header e) ≠ 0 →
      (readMSICapability space dev capAddr).msgUpperAddr = _
    rw [addr64Capable_configuredHeader, hheader]
    intro h64
    rw [readMSICapability_msgUpperAddr (hfirst.symm ▸ h64), hread 8 rfl]
  · show perVectorMaskCapable (configuredHeader (readMSICapability space dev capAddr).header e) ≠ 0 →
      (readMSICapability space dev capAddr).maskBits = space dev.selected
          (messageDataAddr (configuredHeader (readMSICapability space dev capAddr).header e) capAddr +
            4) ∧
        (readMSICapability space dev capAddr).pendingBits = space dev.selected
          (messageDataAddr (configuredHeader (readMSICapability space dev capAddr).header e) capAddr +
            8)
    rw [perVectorMaskCapable_configuredHeader, hlayout, hheader]
    intro hmask
    obtain ⟨hbits, hpending⟩ := readMSICapability_maskBits (hfirst.symm ▸ hmask)
    rw [hbits, hpending, hfirst, readConfReg_eq space dev (aligned_add hdata rfl),
      readConfReg_eq space dev (aligned_add hdata rfl)]
    exact ⟨rfl, rfl⟩
  · show writeConfReg (writeConfReg (writeConfReg space dev capAddr
        (configuredHeader (readMSICapability space dev capAddr).header e)) dev (capAddr + 4) msgAddr)
      dev (messageDataAddr (configuredHeader (readMSICapability space dev capAddr).header e) capAddr)
        msgData = _
    rw [hlayout, hheader]

end program

/-! ## What the device does with it -/

/-- The address that a device with these registers sends its messages to. -/
def messageAddress (regs : UInt8 → UInt32) (capAddr : UInt8) : UInt64 :=
  if addr64Capable (regs capAddr) ≠ 0 then
    (regs (capAddr + 8)).toUInt64 <<< 32 ||| (regs (capAddr + 4)).toUInt64
  else (regs (capAddr + 4)).toUInt64

/-- The message that a device with these registers sends. -/
def messageData (regs : UInt8 → UInt32) (capAddr : UInt8) : UInt32 :=
  regs (messageDataAddr (regs capAddr) capAddr)

/-- The device has been programmed, and nothing else has changed. -/
structure Programmed (before after : ConfigSpace) (dev : Device) (capAddr : UInt8)
    (msgAddr msgData numVectorExponent : UInt32) : Prop where
  address : messageAddress (after dev.selected) capAddr = msgAddr.toUInt64
  data : messageData (after dev.selected) capAddr = msgData
  enabled : msiEnable (after dev.selected capAddr) = 1
  vectors : (multiMsgEnable (after dev.selected capAddr)).toNat =
    min (multiMsgCapable (before dev.selected capAddr)).toNat numVectorExponent.toNat
  header : ∀ i < 32, i ≠ 16 → ¬(20 ≤ i ∧ i < 23) →
    (after dev.selected capAddr).toBitVec.getLsbD i =
      (before dev.selected capAddr).toBitVec.getLsbD i
  words : ∀ r, r ≠ capAddr → r ≠ capAddr + 4 →
    (addr64Capable (before dev.selected capAddr) ≠ 0 → r ≠ capAddr + 8) →
    r ≠ messageDataAddr (before dev.selected capAddr) capAddr →
    after dev.selected r = before dev.selected r
  functions : ∀ l, l ≠ dev.selected → after l = before l

/-- The upper word counts unless it is zero. -/
theorem upper_or_lower_iff (upper lower : UInt32) :
    upper.toUInt64 <<< 32 ||| lower.toUInt64 = lower.toUInt64 ↔ upper = 0 := by
  have hupper := upper.toNat_lt
  have hlower := lower.toNat_lt
  have hshift : upper.toNat <<< 32 % 2 ^ 64 = 2 ^ 32 * upper.toNat := by
    rw [Nat.shiftLeft_eq, Nat.mod_eq_of_lt (by omega), Nat.mul_comm]
  have hor : (upper.toUInt64 <<< 32 ||| lower.toUInt64).toNat =
      2 ^ 32 * upper.toNat + lower.toNat := by
    rw [UInt64.toNat_or, UInt64.toNat_shiftLeft, UInt32.toNat_toUInt64, UInt32.toNat_toUInt64]
    show upper.toNat <<< 32 % 2 ^ 64 ||| lower.toNat = _
    rw [hshift, ← Nat.two_pow_add_eq_or_of_lt hlower]
  rw [← UInt64.toNat_inj, ← UInt32.toNat_inj, hor, UInt32.toNat_toUInt64, UInt32.toNat_zero]
  omega

section program

variable (space : ConfigSpace) (dev : Device) {capAddr : UInt8}
  (msgAddr msgData numVectorExponent : UInt32)

/-- The registers afterwards. -/
theorem configured_registers (haligned : capAddr.toNat % 4 = 0) {after : ConfigSpace}
    (hafter : (configureMSIRegister space dev capAddr msgAddr msgData numVectorExponent).2 = after) :
    after dev.selected capAddr =
        configuredHeader (space dev.selected capAddr) numVectorExponent ∧
      after dev.selected (capAddr + 4) = msgAddr ∧
      after dev.selected (messageDataAddr (space dev.selected capAddr) capAddr) = msgData ∧
      (∀ r, r ≠ capAddr → r ≠ capAddr + 4 →
        r ≠ messageDataAddr (space dev.selected capAddr) capAddr →
        after dev.selected r = space dev.selected r) ∧
      ∀ l, l ≠ dev.selected → after l = space l := by
  have h4 : (capAddr + 4).toNat % 4 = 0 := aligned_add haligned rfl
  have hdata := messageDataAddr_eq_or (space dev.selected capAddr) capAddr
  have hd := messageDataAddr_aligned haligned (space dev.selected capAddr)
  rw [configureMSIRegister_eq haligned] at hafter
  dsimp only at hafter
  subst hafter
  generalize messageDataAddr (space dev.selected capAddr) capAddr = d at *
  refine ⟨?_, ?_, writeConfReg_selected _ _ hd _, ?_, ?_⟩
  · rw [writeConfReg_selected_of_ne _ _ hd _ (by grind),
      writeConfReg_selected_of_ne _ _ h4 _ (by grind), writeConfReg_selected _ _ haligned]
  · rw [writeConfReg_selected_of_ne _ _ hd _ (by grind), writeConfReg_selected _ _ h4]
  · intro r hne hne4 hne'
    rw [writeConfReg_selected_of_ne _ _ hd _ hne', writeConfReg_selected_of_ne _ _ h4 _ hne4,
      writeConfReg_selected_of_ne _ _ haligned _ hne]
  · intro l hl
    rw [writeConfReg_of_ne _ hd _ hl, writeConfReg_of_ne _ h4 _ hl,
      writeConfReg_of_ne _ haligned _ hl]

/-- **The device is programmed iff the upper word of its message address is absent or zero.** On every
layout of the capability and for all contents of the registers, `ConfigureMSIRegister` sets the lower
word of the address, the data, `msi_enable` and `multi_msg_enable`, and nothing else. -/
theorem configureMSIRegister_programmed_iff (haligned : capAddr.toNat % 4 = 0) :
    Programmed space
        (configureMSIRegister space dev capAddr msgAddr msgData numVectorExponent).2
        dev capAddr msgAddr msgData numVectorExponent ↔
      (addr64Capable (space dev.selected capAddr) ≠ 0 → space dev.selected (capAddr + 8) = 0) := by
  generalize hafter :
    (configureMSIRegister space dev capAddr msgAddr msgData numVectorExponent).2 = after
  obtain ⟨hheader, hlower, hdata, hwords, hfunctions⟩ :=
    configured_registers space dev msgAddr msgData numVectorExponent haligned hafter
  have hlayout : addr64Capable (after dev.selected capAddr) =
      addr64Capable (space dev.selected capAddr) := by
    rw [hheader, addr64Capable_configuredHeader]
  have haddress : messageAddress (after dev.selected) capAddr = msgAddr.toUInt64 ↔
      (addr64Capable (space dev.selected capAddr) ≠ 0 → space dev.selected (capAddr + 8) = 0) := by
    unfold messageAddress
    rw [hlayout, hlower]
    split_ifs with h64
    · -- the upper word has not been written
      have hplace : messageDataAddr (space dev.selected capAddr) capAddr = capAddr + 12 := if_pos h64
      rw [hwords _ (by grind) (by grind) (by grind), upper_or_lower_iff, imp_iff_right h64]
    · exact iff_of_true rfl fun h => absurd h h64
  constructor
  · intro h
    exact haddress.mp h.address
  · intro hupper
    refine ⟨haddress.mpr hupper, ?_, ?_, ?_, ?_, ?_, hfunctions⟩
    · unfold messageData messageDataAddr
      rw [hlayout]
      exact hdata
    · rw [hheader]
      exact msiEnable_configuredHeader _ _
    · rw [hheader]
      exact multiMsgEnable_configuredHeader _ _
    · intro i hi henable hvectors
      rw [hheader]
      exact getLsbD_configuredHeader _ _ hi henable hvectors
    · intro r hne hne4 _ hne'
      exact hwords r hne hne4 hne'

end program

/-- A host controller whose MSI capability at `0x90` has 64-bit addresses. -/
def xhcDevice : Device := ⟨0, 3, 0, 0, ⟨0x0c, 0x03, 0x30⟩⟩

/-- Its registers, with a value in the upper word of the message address. -/
def msiRegisters (upper : UInt32) : ConfigSpace := fun _ regAddr =>
  if regAddr = 0x90 then 0x00860005 else if regAddr = 0x98 then upper else 0

theorem configureMSIRegister_programmed_iff_xhcDevice :
    Programmed (msiRegisters 0)
      (configureMSIRegister (msiRegisters 0) xhcDevice 0x90 0xfee00000 0xc040 0).2 xhcDevice 0x90
      0xfee00000 0xc040 0 :=
  (configureMSIRegister_programmed_iff (msiRegisters 0) xhcDevice 0xfee00000 0xc040 0 rfl).mpr
    (by decide)

/-- What the upper word held before makes the device send its messages elsewhere. -/
theorem configureMSIRegister_not_programmed :
    ¬∀ (space : ConfigSpace) (dev : Device) (capAddr : UInt8)
        (msgAddr msgData numVectorExponent : UInt32),
      capAddr.toNat % 4 = 0 → capAddr.toNat + 20 ≤ 252 → numVectorExponent.toNat ≤ 7 →
        Programmed space (configureMSIRegister space dev capAddr msgAddr msgData numVectorExponent).2
          dev capAddr msgAddr msgData numVectorExponent := by
  intro hall
  have h := (hall (msiRegisters 1) xhcDevice 0x90 0xfee00000 0xc040 0 (by decide) (by decide)
    (by decide)).address
  exact absurd h (by decide)

end UhyokOS.Pci
