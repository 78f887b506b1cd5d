import TapSdk.Tracker.DiskCache
import Mathlib.Logic.Function.Iterate

/-!
# The loop of `Load`, iteration by iteration

`loadLoop` says what `DiskCache::Load` returns. Here the same loop is a machine: its counters are
the 32-bit words of the source, and it keeps a record of every range of bytes it reads, counted from
`memory_start`. The length field of a record is read before any bound is tested.
-/

namespace TapSdk.Tracker

open Library

structure Span where
  offset : Nat
  size : Nat
  deriving DecidableEq

structure LoadState where
  i : UInt32
  readSize : UInt32
  curOffset : UInt32
  result : List TrackMessageImpl
  -- In program order; a range that is read again is not listed again.
  reads : List Span
  returned : Bool

def LoadState.start : LoadState := ⟨0, 0, 0, [], [], false⟩

section

variable (ext : Externals) (area : Memory) (recordCount recordSize : UInt32)
  (config : Option TrackerConfig) (clock : Nat → UInt32)

/-- The rest of iteration `i`, whose record lies in the area: `next` is the state with the counters
advanced, `header` and `offset` are those of the record. -/
def LoadState.readRecord (next : LoadState) (i : Nat) (header : RecordHeader) (offset : Nat) :
    LoadState :=
  let magicRead : LoadState := { next with reads := next.reads ++ [⟨offset, 4⟩] }
  if header.magic ≠ recordMagic then magicRead
  else
    let length := header.length.toNat
    let data := area.read (offset + recordHeaderSize) length
    let dataRead : LoadState := { magicRead with
      reads := magicRead.reads ++ [⟨offset + 4, 8⟩, ⟨offset + recordHeaderSize, length⟩] }
    if header.hash ≠ cityHash64 data then dataRead
    else
      match ext.message.parse data with
      | some proto => { dataRead with result := dataRead.result ++ [⟨config, clock i, proto⟩] }
      | none => dataRead

/-- The loop condition and one iteration. `sizeof` makes the sum in the bound test 64 bits wide,
while the counters stay 32 bits wide. -/
def LoadState.step (state : LoadState) : LoadState :=
  if state.returned then state
  else if state.i < recordCount ∧ state.readSize < recordSize then
    let offset := state.curOffset.toNat
    let header := RecordHeader.decode area offset
    let length := header.length.toNat
    let lengthRead : LoadState := { state with reads := state.reads ++ [⟨offset + 12, 4⟩] }
    if offset + recordHeaderSize + length > recordSize.toNat then
      { lengthRead with returned := true }
    else
      let next : LoadState := { lengthRead with
        i := state.i + 1
        readSize := state.readSize + UInt32.ofNat (recordHeaderSize + length)
        curOffset := state.curOffset + UInt32.ofNat (recordHeaderSize + length) }
      next.readRecord ext area config clock state.i.toNat header offset
  else { state with returned := true }

end

/-- `Load` after `iterations` rounds of its loop. -/
def OpenCache.loadState (ext : Externals) (cache : OpenCache) (clock : Nat → UInt32)
    (iterations : Nat) : LoadState :=
  if cache.areaEnd > cache.size then { LoadState.start with returned := true }
  else
    (LoadState.step ext cache.area cache.header.recordCount cache.header.recordSize
      cache.object.config clock)^[iterations] LoadState.start

/-- Ranges are counted from `memory_start`, which is the first byte of the record area: the only way
out of the area is past its end. -/
def OpenCache.InRecordArea (cache : OpenCache) (span : Span) : Prop :=
  span.offset + span.size ≤ cache.header.recordSize.toNat

instance (cache : OpenCache) (span : Span) : Decidable (cache.InRecordArea span) :=
  inferInstanceAs (Decidable (_ ≤ _))

end TapSdk.Tracker
