import UhyokOS.Error
import Mathlib.Algebra.Group.Nat.Defs
import Mathlib.Logic.Function.Basic

/-!
# The frame allocator

The model of class `BitmapMemoryManager`. A `FrameID` is the `size_t` it wraps. The bitmap is an
array of 64-bit words; a function is undefined (`none`) exactly where the source would index
`alloc_map_` out of bounds, and `Allocate` also where its search would not have ended within
`range_end_ - range_begin_ + 1` rounds, which never happens (`allocate_spec`).

Frame numbers are unbounded naturals: every sum of the source is compared with `range_end_` or used
as an index of the bitmap right away, long before `size_t` would wrap.
-/

namespace UhyokOS

/-- Source: `kernel/memory_manager.hpp`, `kBytesPerFrame` -/
abbrev kBytesPerFrame : Nat := 4096

/-- Source: `kernel/memory_manager.hpp`, `BitmapMemoryManager::kMaxPhysicalMemoryBytes` -/
abbrev kMaxPhysicalMemoryBytes : Nat := 137438953472

/-- `kMaxPhysicalMemoryBytes / kBytesPerFrame`.
Source: `kernel/memory_manager.hpp`, `BitmapMemoryManager::kFrameCount` -/
abbrev kFrameCount : Nat := 33554432

/-- Source: `kernel/memory_manager.hpp`, `BitmapMemoryManager::kBitsPerMapLine` -/
abbrev kBitsPerMapLine : Nat := 64

/-- The number of words of the bitmap, `kFrameCount / kBitsPerMapLine`. -/
abbrev kMapLines : Nat := 524288

example : kFrameCount = kMaxPhysicalMemoryBytes / kBytesPerFrame := by decide

example : kMapLines = kFrameCount / kBitsPerMapLine := by decide

/-- The largest `size_t`.
Source: `kernel/memory_manager.hpp`, `kNullFrame` -/
abbrev kNullFrame : Nat := 2 ^ 64 - 1

/-- Source: `kernel/memory_manager.hpp`, `BitmapMemoryManager` -/
structure BitmapMemoryManager where
  /-- `alloc_map_` -/
  allocMap : Fin kMapLines → BitVec kBitsPerMapLine := fun _ => 0
  /-- `range_begin_` -/
  rangeBegin : Nat := 0
  /-- `range_end_` -/
  rangeEnd : Nat := kFrameCount

/-- How the inner loop of `Allocate` ends. -/
inductive Scan
  /-- The loop counter reached `num_frames`. -/
  | found
  /-- The function returns, the range is exhausted. -/
  | outOfRange
  /-- `break` at a frame that is in use, at this value of the loop counter. -/
  | used (i : Nat)

namespace BitmapMemoryManager

/-- Source: `kernel/memory_manager.cpp`, `BitmapMemoryManager::GetBit` -/
def getBit (mm : BitmapMemoryManager) (frame : Nat) : Option Bool :=
  let lineIndex := frame / kBitsPerMapLine
  let bitIndex := frame % kBitsPerMapLine
  if h : lineIndex < kMapLines then
    some (mm.allocMap ⟨lineIndex, h⟩ &&& 1#64 <<< bitIndex != 0#64)
  else none

/-- Source: `kernel/memory_manager.cpp`, `BitmapMemoryManager::SetBit` -/
def setBit (mm : BitmapMemoryManager) (frame : Nat) (allocated : Bool) :
    Option BitmapMemoryManager :=
  let lineIndex := frame / kBitsPerMapLine
  let bitIndex := frame % kBitsPerMapLine
  if h : lineIndex < kMapLines then
    let line := mm.allocMap ⟨lineIndex, h⟩
    let line :=
      if allocated then line ||| 1#64 <<< bitIndex
      else line &&& ~~~(1#64 <<< bitIndex)
    some { mm with allocMap := Function.update mm.allocMap ⟨lineIndex, h⟩ line }
  else none

/-- The loop `for (i = 0; i < num_frames; ++i) SetBit(start_frame + i, allocated)`, by its last
iteration. -/
def setBits (mm : BitmapMemoryManager) (allocated : Bool) (startFrame : Nat) :
    Nat → Option BitmapMemoryManager
  | 0 => some mm
  | i + 1 => do
      let mm ← mm.setBits allocated startFrame i
      mm.setBit (startFrame + i) allocated

/-- Source: `kernel/memory_manager.cpp`, `BitmapMemoryManager::Free` -/
def free (mm : BitmapMemoryManager) (startFrame : Nat) (numFrames : Nat) :
    Option (BitmapMemoryManager × Error) :=
  (mm.setBits false startFrame numFrames).map fun mm => (mm, .kSuccess)

/-- Source: `kernel/memory_manager.cpp`, `BitmapMemoryManager::MarkAllocated` -/
def markAllocated (mm : BitmapMemoryManager) (startFrame : Nat) (numFrames : Nat) :
    Option BitmapMemoryManager :=
  mm.setBits true startFrame numFrames

/-- Source: `kernel/memory_manager.cpp`, `BitmapMemoryManager::SetMemoryRange` -/
def setMemoryRange (mm : BitmapMemoryManager) (rangeBegin rangeEnd : Nat) :
    BitmapMemoryManager :=
  { mm with rangeBegin := rangeBegin, rangeEnd := rangeEnd }

/-- The inner loop of `Allocate` with the counter at `i` and the given number of iterations left. -/
def scan (mm : BitmapMemoryManager) (startFrameId : Nat) (i : Nat) : Nat → Option Scan
  | 0 => some .found
  | remaining + 1 =>
      if startFrameId + i ≥ mm.rangeEnd then some .outOfRange
      else do
        let used ← mm.getBit (startFrameId + i)
        if used then some (.used i) else mm.scan startFrameId (i + 1) remaining

/-- The outer loop of `Allocate`, for a bounded number of rounds. -/
def allocateFrom (mm : BitmapMemoryManager) (numFrames : Nat) :
    Nat → Nat → Option (BitmapMemoryManager × Nat × Error)
  | 0, _ => none
  | rounds + 1, startFrameId => do
      match ← mm.scan startFrameId 0 numFrames with
      | .outOfRange => return (mm, kNullFrame, .kNoEnoughMemory)
      | .found =>
          let mm ← mm.markAllocated startFrameId numFrames
          return (mm, startFrameId, .kSuccess)
      | .used i => mm.allocateFrom numFrames rounds (startFrameId + (i + 1))

/-- Source: `kernel/memory_manager.cpp`, `BitmapMemoryManager::Allocate` -/
def allocate (mm : BitmapMemoryManager) (numFrames : Nat) :
    Option (BitmapMemoryManager × Nat × Error) :=
  mm.allocateFrom numFrames (mm.rangeEnd - mm.rangeBegin + 1) mm.rangeBegin

end BitmapMemoryManager

end UhyokOS
