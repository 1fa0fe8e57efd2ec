import UhyokOS.Pci.Configuration
import UhyokOS.Lib.DepthFirst
import Mathlib.Data.List.Range

/-!
# Enumeration of PCI functions

The model of `ScanAllBus`, which lists the functions on bus `0` and, where one is a bridge to another
bus, the functions behind it. The buses may be connected in a loop, so the recursion gets fuel; a
result of `none` means that the fuel was not enough.

* `scanBus_succ`: scanning a bus is scanning its functions in order.
* `scan_traversal`: what is written to `devices` is the depth-first order of the functions.
* `scanAllBus_exact`: on a tree of buses every function is listed once.
-/

namespace UhyokOS.Pci

open DepthFirst Relation

/-- Source: `kernel/pci.hpp`, `Device` -/
structure Device where
  bus : UInt8
  device : UInt8
  function : UInt8
  headerType : UInt8
  classCode : ClassCode
  deriving DecidableEq

/-- The global variables `devices` and `num_device`. -/
structure DeviceTable where
  devices : Vector Device 32
  numDevice : Nat
  le_size : numDevice ≤ 32

namespace DeviceTable

/-- Source: `kernel/pci.cpp`, `AddDevice` -/
def addDevice (t : DeviceTable) (device : Device) : Error × DeviceTable :=
  if h : t.numDevice = 32 then (.kFull, t)
  else
    (.kSuccess,
      { devices := t.devices.set t.numDevice device (Nat.lt_of_le_of_ne t.le_size h)
        numDevice := t.numDevice + 1
        le_size := Nat.lt_of_le_of_ne t.le_size h })

/-- The devices that are listed, `devices[0..num_device)`. -/
def listed (t : DeviceTable) : List Device := t.devices.toList.take t.numDevice

end DeviceTable

/-- The outcome of a scan, if there was enough fuel. -/
abbrev ScanResult := Option (Error × DeviceTable)

/-- A loop that returns at the first error.
Source: `kernel/pci.cpp`, `ScanDevice`, `ScanBus` and `ScanAllBus` -/
def forEach {α : Type} (body : α → DeviceTable → ScanResult) : List α → DeviceTable → ScanResult
  | [], t => some (.kSuccess, t)
  | x :: xs, t =>
      (body x t).bind fun (err, t) =>
        if err ≠ .kSuccess then some (err, t) else forEach body xs t

/-- The values of a `uint8_t` that counts up. -/
def counts (first n : Nat) : List UInt8 := (List.range' first n).map UInt8.ofNat

section scan

variable (space : ConfigSpace)

/-- Source: `kernel/pci.cpp`, `ScanFunction` -/
def scanFunction (scanBus : UInt8 → DeviceTable → ScanResult) (bus device function : UInt8)
    (t : DeviceTable) : ScanResult :=
  let classCode := readClassCode space bus device function
  let headerType := readHeaderType space bus device function
  let dev : Device := ⟨bus, device, function, headerType, classCode⟩
  let (err, t) := t.addDevice dev
  if err ≠ .kSuccess then some (err, t)
  else if classCode.match₂ 0x06 0x04 then
    let busNumbers := readBusNumbers space bus device function
    let secondaryBus := (busNumbers >>> 8 &&& 0xff).toUInt8
    scanBus secondaryBus t
  else some (.kSuccess, t)

/-- Source: `kernel/pci.cpp`, `ScanDevice` -/
def scanDevice (scanBus : UInt8 → DeviceTable → ScanResult) (bus device : UInt8)
    (t : DeviceTable) : ScanResult :=
  (scanFunction space scanBus bus device 0 t).bind fun (err, t) =>
    if err ≠ .kSuccess then some (err, t)
    else if isSingleFunctionDevice (readHeaderType space bus device 0) then some (.kSuccess, t)
    else
      forEach (fun function t =>
        if readVendorId space bus device function = 0xffff then some (.kSuccess, t)
        else scanFunction space scanBus bus device function t) (counts 1 7) t

/-- Source: `kernel/pci.cpp`, `ScanBus` -/
def scanBus : Nat → UInt8 → DeviceTable → ScanResult
  | 0, _, _ => none
  | fuel + 1, bus, t =>
      forEach (fun device t =>
        if readVendorId space bus device 0 = 0xffff then some (.kSuccess, t)
        else scanDevice space (scanBus fuel) bus device t) (counts 0 32) t

/-- Source: `kernel/pci.cpp`, `ScanAllBus` -/
def scanAllBus (fuel : Nat) (t : DeviceTable) : ScanResult :=
  let t : DeviceTable := { t with numDevice := 0, le_size := Nat.zero_le 32 }
  let headerType := readHeaderType space 0 0 0
  if isSingleFunctionDevice headerType then scanBus space fuel 0 t
  else
    forEach (fun function t =>
      if readVendorId space 0 0 function = 0xffff then some (.kSuccess, t)
      else scanBus space fuel function t) (counts 0 8) t

end scan

/-! ## What is there -/

/-- Function `0` of the same device. -/
def Location.first (l : Location) : Location := { l with function := 0 }

namespace ConfigSpace

variable (space : ConfigSpace)

/-- The lower half of the first register. It is `0xffff` where there is no function. -/
def vendorId (l : Location) : UInt16 := (space l 0x00 &&& 0xffff).toUInt16

/-- The type of the header, whose highest bit is set in a device with several functions. It is the
third byte of the register. -/
def headerType (l : Location) : UInt8 := (space l 0x0c >>> 16 &&& 0xff).toUInt8

/-- The class of the device, whose three parts are the upper bytes of the register. The lowest byte
is the revision, which nobody asks for. -/
def classCode (l : Location) : ClassCode :=
  { base := (space l 0x08 >>> 24 &&& 0xff).toUInt8
    sub := (space l 0x08 >>> 16 &&& 0xff).toUInt8
    interface := (space l 0x08 >>> 8 &&& 0xff).toUInt8 }

/-- The bus behind a bridge. Between the numbers of the bus the bridge is on and of the last bus
that is reached through it. -/
def secondaryBus (l : Location) : UInt8 := (space l 0x18 >>> 8 &&& 0xff).toUInt8

/-- What is listed about a function. -/
def describe (l : Location) : Device :=
  { bus := l.bus
    device := l.device
    function := l.function
    headerType := space.headerType l
    classCode := space.classCode l }

/-- There is a function. -/
def Present (l : Location) : Prop := space.vendorId l ≠ 0xffff

/-- The function is a PCI-PCI bridge. -/
def IsBridge (l : Location) : Prop :=
  (space.classCode l).base = 0x06 ∧ (space.classCode l).sub = 0x04

/-- The device has one function only. -/
def SingleFunction (l : Location) : Prop := space.headerType l.first &&& 0x80 = 0

/-- The functions that are looked at on a bus: function `0` of a device, and the others if function `0`
is there and says that there may be others. -/
structure Scanned (l : Location) : Prop where
  valid : l.Valid
  present : space.Present l
  first : space.Present l.first
  function : l.function = 0 ∨ ¬space.SingleFunction l

/-- The buses that are connected to bus `0`. -/
inductive ReachableBus : UInt8 → Prop
  | root : ReachableBus 0
  | bridge {l : Location} : ReachableBus l.bus → space.Scanned l → space.IsBridge l →
      ReachableBus (space.secondaryBus l)

/-- The functions on the buses that are connected to bus `0`. -/
structure Reachable (l : Location) : Prop where
  bus : space.ReachableBus l.bus
  scanned : space.Scanned l

/-- The bridges form a tree: no bus is behind two bridges, and bus `0` is behind none. -/
structure IsTree : Prop where
  root : ∀ l, space.Reachable l → space.IsBridge l → space.secondaryBus l ≠ 0
  bridge : ∀ l l', space.Reachable l → space.Reachable l' → space.IsBridge l → space.IsBridge l' →
    space.secondaryBus l = space.secondaryBus l' → l = l'

/-- Whether there is a function is read from one register. -/
instance decidablePresent (l : Location) : Decidable (space.Present l) := by
  unfold Present
  infer_instance

/-- Whether a function is a bridge is read from one register. -/
instance decidableIsBridge (l : Location) : Decidable (space.IsBridge l) := by
  unfold IsBridge
  infer_instance

/-- Whether a device has one function only is read from the header of function `0`. -/
instance decidableSingleFunction (l : Location) : Decidable (space.SingleFunction l) := by
  unfold SingleFunction
  infer_instance

/-! ### In order -/

/-- The functions of a device, in order. -/
def functionsOf (bus device : UInt8) : List Location :=
  if space.Present ⟨bus, device, 0⟩ then
    ⟨bus, device, 0⟩ ::
      if space.SingleFunction ⟨bus, device, 0⟩ then []
      else ((counts 1 7).map fun function => ⟨bus, device, function⟩).filter (space.Present ·)
  else []

/-- The functions on a bus, in order. -/
def functionsOn (bus : UInt8) : List Location := (counts 0 32).flatMap (space.functionsOf bus)

/-- The functions directly behind a function: those on the bus that it is a bridge to. -/
def behind (l : Location) : List Location :=
  if space.IsBridge l then space.functionsOn (space.secondaryBus l) else []

end ConfigSpace

/-! ## Numbers -/

/-- A counter that does not wrap has the value it is meant to have. -/
theorem toNat_of_mem_range' {first n k : Nat} (h : first + n ≤ 256) (hk : k ∈ List.range' first n) :
    (UInt8.ofNat k).toNat = k :=
  UInt8.toNat_ofNat_of_lt' (Nat.lt_of_lt_of_le (List.mem_range'_1.mp hk).2 h)

/-- The loop `for (uint8_t i = first; i < first + n; ++i)` takes the values between its bounds, as
long as the upper bound is a `uint8_t` or one more. -/
theorem mem_counts {first n : Nat} (h : first + n ≤ 256) {x : UInt8} :
    x ∈ counts first n ↔ first ≤ x.toNat ∧ x.toNat < first + n := by
  unfold counts
  rw [List.mem_map]
  constructor
  · rintro ⟨k, hk, rfl⟩
    rw [toNat_of_mem_range' h hk]
    exact List.mem_range'_1.mp hk
  · intro hx
    exact ⟨x.toNat, List.mem_range'_1.mpr hx, UInt8.ofNat_toNat⟩

/-- Such a loop takes no value twice. -/
theorem nodup_counts {first n : Nat} (h : first + n ≤ 256) : (counts first n).Nodup := by
  refine List.Nodup.map_on ?_ List.nodup_range'
  intro i hi j hj heq
  have hnat := congrArg UInt8.toNat heq
  rwa [toNat_of_mem_range' h hi, toNat_of_mem_range' h hj] at hnat

/-! ## The functions on a bus -/

section functions

variable {space : ConfigSpace} {l : Location} {bus device : UInt8}

/-- Function `0` is the one whose device is asked whether there are other functions. -/
theorem Location.first_eq_iff : l.first = l ↔ l.function = 0 := by
  constructor
  · intro h
    rw [← h]
    rfl
  · intro h
    exact Location.ext rfl rfl h.symm

/-- Where function `0` of a device is there, it is looked at. -/
theorem scanned_first (hdevice : device < 32) (hpresent : space.Present ⟨bus, device, 0⟩) :
    space.Scanned ⟨bus, device, 0⟩ :=
  have hfunction : (0 : UInt8) < 8 := by decide
  ⟨⟨hdevice, hfunction⟩, hpresent, hpresent, Or.inl rfl⟩

/-- The functions of a device in order are those that are looked at: function `0` alone if it says
so or if there is none, and otherwise those of the eight that are there. -/
theorem mem_functionsOf (hdevice : device < 32) :
    l ∈ space.functionsOf bus device ↔ l.bus = bus ∧ l.device = device ∧ space.Scanned l := by
  unfold ConfigSpace.functionsOf
  split_ifs with hpresent hsingle
  · rw [List.mem_singleton]
    constructor
    · rintro rfl
      exact ⟨rfl, rfl, scanned_first hdevice hpresent⟩
    · rintro ⟨rfl, rfl, hscanned⟩
      refine (Location.first_eq_iff.mpr ?_).symm
      rcases hscanned.function with hzero | hmulti
      · exact hzero
      · exact absurd hsingle hmulti
  · rw [List.mem_cons, List.mem_filter, List.mem_map, decide_eq_true_eq]
    constructor
    · rintro (rfl | ⟨⟨function, hfunction, rfl⟩, hthere⟩)
      · exact ⟨rfl, rfl, scanned_first hdevice hpresent⟩
      · have hlt := ((mem_counts (by omega)).mp hfunction).2
        exact ⟨rfl, rfl, ⟨⟨hdevice, hlt⟩, hthere, hpresent, Or.inr hsingle⟩⟩
    · rintro ⟨rfl, rfl, hscanned⟩
      by_cases hzero : l.function = 0
      · exact Or.inl (Location.first_eq_iff.mpr hzero).symm
      · refine Or.inr ⟨⟨l.function, (mem_counts (by omega)).mpr ⟨?_, hscanned.valid.function⟩, rfl⟩,
          hscanned.present⟩
        exact Nat.one_le_iff_ne_zero.mpr fun heq => hzero (UInt8.toNat_inj.mp heq)
  · refine iff_of_false List.not_mem_nil ?_
    rintro ⟨rfl, rfl, hscanned⟩
    exact hpresent hscanned.first

/-- The functions on a bus in order are those that are looked at, on all of its 32 devices. -/
theorem mem_functionsOn : l ∈ space.functionsOn bus ↔ l.bus = bus ∧ space.Scanned l := by
  unfold ConfigSpace.functionsOn
  rw [List.mem_flatMap]
  constructor
  · rintro ⟨device, hdevice, hmem⟩
    have hlt : device < 32 := ((mem_counts (by omega)).mp hdevice).2
    obtain ⟨hbus, -, hscanned⟩ := (mem_functionsOf hlt).mp hmem
    exact ⟨hbus, hscanned⟩
  · rintro ⟨hbus, hscanned⟩
    have hlt := hscanned.valid.device
    exact ⟨l.device, (mem_counts (by omega)).mpr ⟨Nat.zero_le _, hlt⟩,
      (mem_functionsOf hlt).mpr ⟨hbus, rfl, hscanned⟩⟩

/-- No function of a device is looked at twice: the loop over the others begins at `1`. -/
theorem nodup_functionsOf (space : ConfigSpace) (bus device : UInt8) :
    (space.functionsOf bus device).Nodup := by
  unfold ConfigSpace.functionsOf
  split_ifs
  · exact List.nodup_singleton _
  · refine List.nodup_cons.mpr ⟨fun hmem => ?_, List.Nodup.filter _ ?_⟩
    · obtain ⟨function, hfunction, heq⟩ := List.mem_map.mp (List.mem_of_mem_filter hmem)
      have hge := ((mem_counts (by omega)).mp hfunction).1
      rw [(Location.mk.inj heq).2.2] at hge
      exact absurd hge (by decide)
    · exact (nodup_counts (by omega)).map fun f f' heq => (Location.mk.inj heq).2.2
  · exact List.nodup_nil

/-- No function on a bus is looked at twice. -/
theorem nodup_functionsOn (space : ConfigSpace) (bus : UInt8) : (space.functionsOn bus).Nodup := by
  refine List.nodup_flatMap.mpr ⟨fun device _ => nodup_functionsOf space bus device, ?_⟩
  refine (nodup_counts (by omega)).imp_of_mem ?_
  intro device device' hdevice hdevice' hne l hl hl'
  have hlt : device < 32 := ((mem_counts (by omega)).mp hdevice).2
  have hlt' : device' < 32 := ((mem_counts (by omega)).mp hdevice').2
  exact hne (((mem_functionsOf hlt).mp hl).2.1.symm.trans ((mem_functionsOf hlt').mp hl').2.1)

/-! ### Behind the bridges -/

/-- What is behind a function: nothing, if it is no bridge, and otherwise what is looked at on the
secondary bus. -/
theorem mem_behind {l' : Location} : l' ∈ space.behind l ↔
    space.IsBridge l ∧ l'.bus = space.secondaryBus l ∧ space.Scanned l' := by
  unfold ConfigSpace.behind
  split_ifs with hbridge
  · rw [mem_functionsOn, and_iff_right hbridge]
  · exact iff_of_false List.not_mem_nil fun h => hbridge h.1

/-- The functions that are reached from bus `0` are those on the buses that are connected to it. -/
theorem reached_iff : Reached space.behind (space.functionsOn 0) l ↔ space.Reachable l := by
  constructor
  · rintro ⟨r, hr, hpath⟩
    induction hpath with
    | refl =>
        obtain ⟨hbus, hscanned⟩ := mem_functionsOn.mp hr
        exact ⟨by rw [hbus]; exact .root, hscanned⟩
    | tail _ hmem ih =>
        obtain ⟨hbridge, hbus, hscanned⟩ := mem_behind.mp hmem
        exact ⟨by rw [hbus]; exact .bridge ih.bus ih.scanned hbridge, hscanned⟩
  · rintro ⟨hbus, hscanned⟩
    generalize hb : l.bus = bus at hbus
    induction hbus generalizing l with
    | root => exact reached_root (mem_functionsOn.mpr ⟨hb, hscanned⟩)
    | @bridge b _ hscanned' hbridge ih =>
        exact Reached.child (ih hscanned' rfl) (mem_behind.mpr ⟨hbridge, hb, hscanned⟩)

/-- A tree of buses is a forest of functions. -/
theorem isForest_of_isTree (h : space.IsTree) :
    IsForest space.behind (space.functionsOn 0) where
  roots_nodup := nodup_functionsOn space 0
  next_nodup := by
    intro l _
    unfold ConfigSpace.behind
    split_ifs
    · exact nodup_functionsOn space _
    · exact List.nodup_nil
  root := by
    intro l hl r hr hmem
    obtain ⟨hbridge, hbus, -⟩ := mem_behind.mp hmem
    exact h.root l (reached_iff.mp hl) hbridge (hbus.symm.trans (mem_functionsOn.mp hr).1)
  parent := by
    intro l l' d hl hl' hd hd'
    obtain ⟨hbridge, hbus, -⟩ := mem_behind.mp hd
    obtain ⟨hbridge', hbus', -⟩ := mem_behind.mp hd'
    exact h.bridge l l' (reached_iff.mp hl) (reached_iff.mp hl') hbridge hbridge'
      (hbus.symm.trans hbus')

end functions

/-! ## The registers that are read -/

section read

variable {space : ConfigSpace} {l : Location}

/-- Two ports are written and read, and the answer is the one of the function that was meant. -/
theorem readVendorId_eq (hl : l.Valid) :
    readVendorId space l.bus l.device l.function = space.vendorId l := by
  unfold readVendorId readRegister
  rw [data_makeAddress space hl rfl]
  rfl

/-- The header type is read from the function that was meant. -/
theorem readHeaderType_eq (hl : l.Valid) :
    readHeaderType space l.bus l.device l.function = space.headerType l := by
  unfold readHeaderType readRegister
  rw [data_makeAddress space hl rfl]
  rfl

/-- The class code is read from the function that was meant. -/
theorem readClassCode_eq (hl : l.Valid) :
    readClassCode space l.bus l.device l.function = space.classCode l := by
  unfold readClassCode readRegister
  rw [data_makeAddress space hl rfl]
  rfl

/-- All the numbers of the buses are read, of which `ScanFunction` uses the secondary bus. -/
theorem readBusNumbers_eq (hl : l.Valid) :
    readBusNumbers space l.bus l.device l.function = space l 0x18 := by
  unfold readBusNumbers readRegister
  rw [data_makeAddress space hl rfl]

/-- `Match` is called with the base class first, and asks for a PCI-PCI bridge. -/
theorem match₂_iff : (space.classCode l).match₂ 0x06 0x04 = true ↔ space.IsBridge l := by
  unfold ClassCode.match₂ ConfigSpace.IsBridge
  rw [Bool.and_eq_true, beq_iff_eq, beq_iff_eq]
  exact and_congr eq_comm eq_comm

/-- `ScanDevice` asks function `0` whether there are others, also where it is to look at another
function. -/
theorem isSingleFunctionDevice_iff :
    isSingleFunctionDevice (space.headerType l.first) = true ↔ space.SingleFunction l := beq_iff_eq

end read

/-! ## Loops -/

section loops

variable {α β : Type} {body body' : α → DeviceTable → ScanResult} {x : α} {xs ys : List α}
  {t t' : DeviceTable}

/-- A loop that does not stop at its first element goes on with the others. -/
theorem forEach_cons_of_success (h : body x t = some (.kSuccess, t')) :
    forEach body (x :: xs) t = forEach body xs t' := by
  rw [forEach, h]
  rfl

/-- A loop over one list and then another is two loops, of which the second is entered if the first
was not left with an error. -/
theorem forEach_append : forEach body (xs ++ ys) t =
    (forEach body xs t).bind fun (err, t) =>
      if err ≠ .kSuccess then some (err, t) else forEach body ys t := by
  induction xs generalizing t with
  | nil => rfl
  | cons x xs ih =>
      rw [List.cons_append, forEach, forEach, Option.bind_assoc]
      refine Option.bind_congr fun ⟨err, t⟩ _ => ?_
      dsimp only
      split_ifs with herr
      · rw [Option.bind_some, if_pos herr]
      · exact ih

/-- A loop over the elements of several lists is a loop whose body is a loop. -/
theorem forEach_flatMap {g : β → List α} {bs : List β} :
    forEach body (bs.flatMap g) t = forEach (fun b t => forEach body (g b) t) bs t := by
  induction bs generalizing t with
  | nil => rfl
  | cons b bs ih =>
      rw [List.flatMap_cons, forEach_append, forEach]
      refine Option.bind_congr fun ⟨err, t⟩ _ => ?_
      dsimp only
      rw [ih]

/-- A loop over some elements of a list is a loop that continues at the others. -/
theorem forEach_filter {keep : α → Bool} :
    forEach body (xs.filter keep) t =
      forEach (fun x t => if keep x then body x t else some (.kSuccess, t)) xs t := by
  induction xs generalizing t with
  | nil => rfl
  | cons x xs ih =>
      cases hkeep : keep x with
      | true =>
          rw [List.filter_cons_of_pos hkeep, forEach, forEach, hkeep, if_pos rfl]
          refine Option.bind_congr fun ⟨err, t⟩ _ => ?_
          dsimp only
          rw [ih]
      | false =>
          have hskip : (if keep x = true then body x t else some (.kSuccess, t)) =
              some (.kSuccess, t) := by
            rw [hkeep, if_neg Bool.false_ne_true]
          rw [List.filter_cons_of_neg (by rw [hkeep]; exact Bool.false_ne_true), ih,
            forEach_cons_of_success hskip]

/-- A loop over the images of some elements is a loop over the elements. -/
theorem forEach_map {g : β → α} {bs : List β} :
    forEach body (bs.map g) t = forEach (fun b t => body (g b) t) bs t := by
  induction bs generalizing t with
  | nil => rfl
  | cons b bs ih =>
      rw [List.map_cons, forEach, forEach]
      refine Option.bind_congr fun ⟨err, t⟩ _ => ?_
      dsimp only
      rw [ih]

/-- Two loops are equal if their bodies are on the elements of the list, whatever the table is. -/
theorem forEach_congr (h : ∀ x ∈ xs, ∀ t, body x t = body' x t) :
    forEach body xs t = forEach body' xs t := by
  induction xs generalizing t with
  | nil => rfl
  | cons x xs ih =>
      rw [forEach, forEach, h x List.mem_cons_self]
      refine Option.bind_congr fun ⟨err, t⟩ _ => ?_
      dsimp only
      rw [ih fun y hy => h y (List.mem_cons_of_mem _ hy)]

end loops

/-! ## Scanning in order -/

section order

variable {space : ConfigSpace} {scan : UInt8 → DeviceTable → ScanResult} {bus device : UInt8}

/-- Scan a function, given by its place. -/
def scanAt (space : ConfigSpace) (scan : UInt8 → DeviceTable → ScanResult) (l : Location) :
    DeviceTable → ScanResult :=
  scanFunction space scan l.bus l.device l.function

/-- The loop over the functions `1` to `7`. -/
theorem forEach_functions (hdevice : device < 32) (t : DeviceTable) :
    forEach (fun function t =>
      if readVendorId space bus device function = 0xffff then some (.kSuccess, t)
      else scanFunction space scan bus device function t) (counts 1 7) t =
        forEach (scanAt space scan)
          (((counts 1 7).map fun function => (⟨bus, device, function⟩ : Location)).filter
            (space.Present ·)) t := by
  rw [forEach_filter, forEach_map]
  refine forEach_congr fun function hfunction t => ?_
  have hlt : function < 8 := ((mem_counts (by omega)).mp hfunction).2
  have hvendor : readVendorId space bus device function =
      space.vendorId ⟨bus, device, function⟩ :=
    readVendorId_eq (l := ⟨bus, device, function⟩) ⟨hdevice, hlt⟩
  rw [hvendor]
  by_cases habsent : space.vendorId ⟨bus, device, function⟩ = 0xffff
  · have hnot : ¬space.Present ⟨bus, device, function⟩ := fun hpresent => hpresent habsent
    rw [if_pos habsent, decide_eq_false hnot, if_neg Bool.false_ne_true]
  · have hthere : space.Present ⟨bus, device, function⟩ := habsent
    rw [if_neg habsent, decide_eq_true hthere, if_pos rfl]
    rfl

/-- Scanning a device is scanning its functions in order. -/
theorem scanDevice_eq (hdevice : device < 32) (t : DeviceTable) :
    (if readVendorId space bus device 0 = 0xffff then some (.kSuccess, t)
      else scanDevice space scan bus device t) =
        forEach (scanAt space scan) (space.functionsOf bus device) t := by
  have hzero : (0 : UInt8) < 8 := by decide
  have hvendor : readVendorId space bus device 0 = space.vendorId ⟨bus, device, 0⟩ :=
    readVendorId_eq (l := ⟨bus, device, 0⟩) ⟨hdevice, hzero⟩
  have hheader : readHeaderType space bus device 0 = space.headerType ⟨bus, device, 0⟩ :=
    readHeaderType_eq (l := ⟨bus, device, 0⟩) ⟨hdevice, hzero⟩
  have hsingle : isSingleFunctionDevice (space.headerType ⟨bus, device, 0⟩) = true ↔
      space.SingleFunction ⟨bus, device, 0⟩ :=
    isSingleFunctionDevice_iff (l := ⟨bus, device, 0⟩)
  unfold ConfigSpace.functionsOf
  rw [hvendor]
  by_cases habsent : space.vendorId ⟨bus, device, 0⟩ = 0xffff
  · have hnot : ¬space.Present ⟨bus, device, 0⟩ := fun hpresent => hpresent habsent
    rw [if_pos habsent, if_neg hnot]
    rfl
  · have hpresent : space.Present ⟨bus, device, 0⟩ := habsent
    rw [if_neg habsent, if_pos hpresent, forEach, scanDevice, hheader]
    refine Option.bind_congr fun ⟨err, t⟩ _ => ?_
    dsimp only
    by_cases herr : err ≠ .kSuccess
    · rw [if_pos herr, if_pos herr]
    · rw [if_neg herr, if_neg herr]
      by_cases hone : space.SingleFunction ⟨bus, device, 0⟩
      · rw [if_pos (hsingle.mpr hone), if_pos hone]
        rfl
      · rw [if_neg fun h => hone (hsingle.mp h), if_neg hone]
        exact forEach_functions hdevice t

/-- **Scanning a bus is scanning its functions in order.** -/
theorem scanBus_succ (space : ConfigSpace) (fuel : Nat) (bus : UInt8) (t : DeviceTable) :
    scanBus space (fuel + 1) bus t =
      forEach (scanAt space (scanBus space fuel)) (space.functionsOn bus) t := by
  unfold ConfigSpace.functionsOn
  rw [forEach_flatMap, scanBus]
  refine forEach_congr fun device hdevice t => ?_
  exact scanDevice_eq ((mem_counts (by omega)).mp hdevice).2 t

end order

/-! ## The table -/

namespace DeviceTable

variable {t t' : DeviceTable} {dev : Device} {found found' : List Device}

/-- The table has been extended by some devices. -/
structure Extended (t : DeviceTable) (found : List Device) (t' : DeviceTable) : Prop where
  numDevice : t'.numDevice = t.numDevice + found.length
  listed : t'.listed = t.listed ++ found

/-- Nothing has been added to the table. -/
theorem Extended.refl (t : DeviceTable) : Extended t [] t :=
  ⟨rfl, (List.append_nil _).symm⟩

/-- What is added in two scans, one after the other, is added in that order. -/
theorem Extended.trans {t'' : DeviceTable} (h : Extended t found t') (h' : Extended t' found' t'') :
    Extended t (found ++ found') t'' where
  numDevice := by rw [h'.numDevice, h.numDevice, List.length_append, Nat.add_assoc]
  listed := by rw [h'.listed, h.listed, List.append_assoc]

/-- There is room for one more device. -/
theorem exists_addDevice (h : t.numDevice < 32) (dev : Device) :
    ∃ t', t.addDevice dev = (.kSuccess, t') ∧ Extended t [dev] t' := by
  unfold addDevice
  rw [dif_neg (Nat.ne_of_lt h)]
  refine ⟨_, rfl, rfl, ?_⟩
  unfold listed
  have hlt : t.numDevice < t.devices.toList.length := by
    rw [Vector.length_toList]
    exact h
  rw [Vector.toList_set, List.take_succ_eq_append_getElem (by rwa [List.length_set]),
    List.take_set_of_le (Nat.le_refl _), List.getElem_set_self]

end DeviceTable

/-! ## The whole scan -/

section scan

variable {space : ConfigSpace} {fuel : Nat} {t : DeviceTable} {nodes found : List Location}

/-- **The scan writes the depth-first order**, if it fits into the table. No bus is nested more deeply
than there are functions, so that much fuel is enough. -/
theorem scan_traversal (h : Traversal space.behind nodes found) (hvalid : ∀ l ∈ nodes, l.Valid)
    (hfuel : found.length ≤ fuel) (hroom : t.numDevice + found.length ≤ 32) :
    ∃ t', forEach (scanAt space (scanBus space fuel)) nodes t = some (.kSuccess, t') ∧
      t.Extended (found.map space.describe) t' := by
  induction h generalizing fuel t with
  | nil => exact ⟨t, rfl, .refl t⟩
  | @cons l nodes below after hbelow hafter ihBelow ihAfter =>
      rw [List.length_cons, List.length_append] at hfuel hroom
      have hl := hvalid l List.mem_cons_self
      obtain ⟨fuel, rfl⟩ := Nat.exists_eq_succ_of_ne_zero (Nat.ne_zero_of_lt hfuel)
      obtain ⟨t₁, hadd, hext₁⟩ := DeviceTable.exists_addDevice (t := t) (by omega) (space.describe l)
      have hnum₁ : t₁.numDevice = t.numDevice + 1 := hext₁.numDevice
      -- the bus behind the function, if it is a bridge
      have hfirst : ∃ t₂, scanAt space (scanBus space (fuel + 1)) l t = some (.kSuccess, t₂) ∧
          t₁.Extended (below.map space.describe) t₂ := by
        have hdevice : (⟨l.bus, l.device, l.function, space.headerType l, space.classCode l⟩ :
            Device) = space.describe l := rfl
        unfold scanAt scanFunction
        rw [readClassCode_eq hl, readHeaderType_eq hl, readBusNumbers_eq hl]
        simp only [hdevice, hadd, ne_eq, not_true_eq_false, if_false]
        by_cases hbridge : space.IsBridge l
        · have hbehind : space.behind l = space.functionsOn (space.secondaryBus l) := if_pos hbridge
          rw [hbehind] at ihBelow
          rw [if_pos (match₂_iff.mpr hbridge)]
          have hvalid' : ∀ l' ∈ space.functionsOn (space.secondaryBus l), l'.Valid := fun l' hl' =>
            (mem_functionsOn.mp hl').2.valid
          have hfuelBelow : below.length ≤ fuel := by omega
          have hroomBelow : t₁.numDevice + below.length ≤ 32 := by omega
          obtain ⟨t₂, hscan, hext₂⟩ := ihBelow hvalid' hfuelBelow hroomBelow
          exact ⟨t₂, (scanBus_succ space fuel _ t₁).trans hscan, hext₂⟩
        · have hbehind : space.behind l = [] := if_neg hbridge
          rw [hbehind] at hbelow
          cases hbelow
          rw [if_neg fun hmatch => hbridge (match₂_iff.mp hmatch)]
          exact ⟨t₁, rfl, .refl t₁⟩
      obtain ⟨t₂, hscan, hext₂⟩ := hfirst
      have hnum₂ := hext₂.numDevice
      rw [List.length_map] at hnum₂
      have hfuelAfter : after.length ≤ fuel + 1 := by omega
      have hroomAfter : t₂.numDevice + after.length ≤ 32 := by omega
      obtain ⟨t₃, hrest, hext₃⟩ := ihAfter (fun l' hl' => hvalid l' (List.mem_cons_of_mem _ hl'))
        hfuelAfter hroomAfter
      refine ⟨t₃, (forEach_cons_of_success hscan).trans hrest, ?_⟩
      rw [List.map_cons, List.map_append]
      exact hext₁.trans (hext₂.trans hext₃)

/-- **PCI enumeration is complete and exact on a tree of buses.** Let the host bridge have one
function, and let there be at most 32 functions on the buses that are connected to bus `0`. Then
`ScanAllBus` succeeds, and `devices` lists each of these functions once, in depth-first order, with its
header type and class code, and nothing else. -/
theorem scanAllBus_exact (hhost : isSingleFunctionDevice (space.headerType ⟨0, 0, 0⟩) = true)
    (htree : space.IsTree)
    (hcount : ∃ all : List Location, all.length ≤ 32 ∧ ∀ l, space.Reachable l → l ∈ all)
    (hfuel : 32 < fuel) (t : DeviceTable) :
    ∃ t' found, scanAllBus space fuel t = some (.kSuccess, t') ∧
      t'.numDevice = found.length ∧ t'.listed = found.map space.describe ∧ found.Nodup ∧
      (∀ l, l ∈ found ↔ space.Reachable l) ∧
      Traversal space.behind (space.functionsOn 0) found := by
  obtain ⟨all, hlen, hall⟩ := hcount
  obtain ⟨found, htraversal, hnodup, hle⟩ := exists_traversal (isForest_of_isTree htree)
    (l := all) fun l hl => hall l (reached_iff.mp hl)
  obtain ⟨fuel, rfl⟩ := Nat.exists_eq_succ_of_ne_zero (Nat.ne_zero_of_lt hfuel)
  let empty : DeviceTable := { t with numDevice := 0, le_size := Nat.zero_le 32 }
  have hvalid : ∀ l ∈ space.functionsOn 0, l.Valid := fun l hl => (mem_functionsOn.mp hl).2.valid
  have hdepth : found.length ≤ fuel := by omega
  have hroom : empty.numDevice + found.length ≤ 32 := by
    show 0 + found.length ≤ 32
    omega
  obtain ⟨t', hscan, hext⟩ := scan_traversal htraversal hvalid hdepth hroom
  refine ⟨t', found, ?_, ?_, ?_, hnodup, fun l => ?_, htraversal⟩
  · have hread : readHeaderType space 0 0 0 = space.headerType ⟨0, 0, 0⟩ :=
      readHeaderType_eq (l := ⟨0, 0, 0⟩) ⟨by decide, by decide⟩
    unfold scanAllBus
    simp only [hread, if_pos hhost]
    exact (scanBus_succ space fuel 0 empty).trans hscan
  · rw [hext.numDevice, List.length_map]
    exact Nat.zero_add _
  · rw [hext.listed]
    rfl
  · rw [mem_traversal_iff htraversal, reached_iff]

end scan

/-! ### A bridge with a device behind it -/

/-- A host bridge, a bridge to bus `1`, and there a device with the functions `0` and `2`. -/
def twoBuses : ConfigSpace := fun l regAddr =>
  let registers : List (UInt8 × UInt32) :=
    if l = ⟨0, 0, 0⟩ then [(0x00, 0x12378086), (0x08, 0x06000000)]
    else if l = ⟨0, 1, 0⟩ then
      [(0x00, 0x244e8086), (0x08, 0x06040000), (0x0c, 0x00010000), (0x18, 0x00010100)]
    else if l = ⟨1, 0, 0⟩ ∨ l = ⟨1, 0, 2⟩ then
      [(0x00, 0x9d2f8086), (0x08, 0x0c033000), (0x0c, 0x00800000)]
    else [(0x00, 0xffffffff)]
  (registers.lookup regAddr).getD 0

/-- The host bridge says that it is the only function of its device, and the device on bus `1` does
not. -/
theorem twoBuses_functions : twoBuses.functionsOn 0 = [⟨0, 0, 0⟩, ⟨0, 1, 0⟩] ∧
    twoBuses.functionsOn 1 = [⟨1, 0, 0⟩, ⟨1, 0, 2⟩] := by decide

/-- No bus but `0` and `1` is reached, since only the function `0:1.0` is a bridge. -/
theorem twoBuses_reachable {l : Location} (h : twoBuses.Reachable l) :
    l ∈ [⟨0, 0, 0⟩, ⟨0, 1, 0⟩, ⟨1, 0, 0⟩, (⟨1, 0, 2⟩ : Location)] := by
  obtain ⟨hzero, hone⟩ := twoBuses_functions
  have hbus : ∀ {bus : UInt8}, twoBuses.ReachableBus bus → bus = 0 ∨ bus = 1 := by
    intro bus hbus
    induction hbus with
    | root => exact Or.inl rfl
    | @bridge l _ hscanned hbridge ih =>
        have hbridges₀ : ∀ l ∈ twoBuses.functionsOn 0, twoBuses.secondaryBus l = 0 ∨
            twoBuses.secondaryBus l = 1 := by
          rw [hzero]
          decide
        have hbridges₁ : ∀ l ∈ twoBuses.functionsOn 1, ¬twoBuses.IsBridge l := by
          rw [hone]
          decide
        rcases ih with h | h
        · exact hbridges₀ l (mem_functionsOn.mpr ⟨h, hscanned⟩)
        · exact absurd hbridge (hbridges₁ l (mem_functionsOn.mpr ⟨h, hscanned⟩))
  have hmem : l ∈ twoBuses.functionsOn 0 ∨ l ∈ twoBuses.functionsOn 1 := by
    rcases hbus h.bus with h₀ | h₁
    · exact Or.inl (mem_functionsOn.mpr ⟨h₀, h.scanned⟩)
    · exact Or.inr (mem_functionsOn.mpr ⟨h₁, h.scanned⟩)
  rw [hzero, hone] at hmem
  exact List.mem_append.mpr hmem

/-- There is one bridge, and it does not lead back to bus `0`. -/
theorem twoBuses_isTree : twoBuses.IsTree where
  root := by
    have hall : ∀ l ∈ [⟨0, 0, 0⟩, ⟨0, 1, 0⟩, ⟨1, 0, 0⟩, (⟨1, 0, 2⟩ : Location)],
        twoBuses.IsBridge l → twoBuses.secondaryBus l ≠ 0 := by decide
    exact fun l hl => hall l (twoBuses_reachable hl)
  bridge := by
    have hall : ∀ l ∈ [⟨0, 0, 0⟩, ⟨0, 1, 0⟩, ⟨1, 0, 0⟩, (⟨1, 0, 2⟩ : Location)],
        twoBuses.IsBridge l → l = ⟨0, 1, 0⟩ := by decide
    intro l l' hl hl' hbridge hbridge' _
    rw [hall l (twoBuses_reachable hl) hbridge, hall l' (twoBuses_reachable hl') hbridge']

/-- The global variables before the first scan. -/
def noDevices : DeviceTable where
  devices := Vector.replicate 32 ⟨0, 0, 0, 0, ⟨0, 0, 0⟩⟩
  numDevice := 0
  le_size := Nat.zero_le 32

/-- The scan of the two buses succeeds with fuel for 33 levels, and lists the four functions. -/
theorem scanAllBus_exact_twoBuses :
    ∃ (t' : DeviceTable) (found : List Location),
      scanAllBus twoBuses 33 noDevices = some (.kSuccess, t') ∧
      t'.listed = found.map twoBuses.describe ∧ ∀ l, l ∈ found ↔ twoBuses.Reachable l := by
  obtain ⟨t', found, hscan, -, hlisted, -, hmem, -⟩ := scanAllBus_exact
    (by decide) twoBuses_isTree ⟨_, by decide, fun l hl => twoBuses_reachable hl⟩
    (Nat.lt_succ_self 32) noDevices
  exact ⟨t', found, hscan, hlisted, hmem⟩

end UhyokOS.Pci
