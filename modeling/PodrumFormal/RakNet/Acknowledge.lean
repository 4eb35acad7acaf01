import PodrumFormal.Lib.ExchangeSort
import PodrumFormal.Lib.IntervalCoding
import PodrumFormal.Stream.BinaryStream
import Mathlib.Data.UInt

/-!
# Acknowledgements

`put_packet_acknowledge` sorts the numbers in place and writes them as single
and range records; `get_packet_acknowledge` expands the records into an array
that it resizes record by record and counts in 16 bits.  A write outside the
array and a read past the datagram are `none`.
-/

set_option autoImplicit false

namespace PodrumRakNet.Acknowledge

open ByteReader PodrumStream.BinaryStream ExchangeSort IntervalCoding

def idAck : UInt8 := 0xC0
def idNack : UInt8 := 0xA0

/-! ## The encoder -/

structure RecordRun where
  startIndex : UInt32
  endIndex : UInt32
  recordCount : UInt16
  tempStream : List UInt8

def putRecord (startIndex endIndex : UInt32) : List UInt8 :=
  if startIndex = endIndex then putUnsignedByte 0x01 ++ putUnsignedTriadLe startIndex
  else putUnsignedByte 0x00 ++ putUnsignedTriadLe startIndex ++ putUnsignedTriadLe endIndex

def recordStep (run : RecordRun) (currentIndex : UInt32) : RecordRun :=
  let diff := currentIndex - run.endIndex
  if diff = 1 then { run with endIndex := currentIndex }
  else if diff > 1 then
    { startIndex := currentIndex, endIndex := currentIndex, recordCount := run.recordCount + 1
      tempStream := run.tempStream ++ putRecord run.startIndex run.endIndex }
  else run

/-- `sequenceNumbers` are the first `sequence_numbers_count` cells; `opts` picks
the NACK id. -/
def putPacketAcknowledge (sequenceNumbers : List UInt32) (opts : Bool) : List UInt8 :=
  putUnsignedByte (if opts then idNack else idAck) ++
  match exchangeSort sequenceNumbers with
  | [] => []
  | first :: rest =>
      let run := rest.foldl recordStep ⟨first, first, 0, []⟩
      putUnsignedShortBe (run.recordCount + 1) ++
        (run.tempStream ++ putRecord run.startIndex run.endIndex)

/-! ## The decoder -/

/-- The array as the source allocates it, `none` in the cells not assigned yet,
and its 16-bit count. -/
structure PacketAcknowledge where
  sequenceNumbers : List (Option UInt32)
  sequenceNumbersCount : UInt16
  deriving DecidableEq, Repr

inductive AckRecord where
  | single (index : UInt32)
  | range (index endIndex : UInt32)
  deriving DecidableEq, Repr

def reallocCells (cells : List (Option UInt32)) (count : Nat) : List (Option UInt32) :=
  cells.take count ++ List.replicate (count - cells.length) none

def writeCell (packet : PacketAcknowledge) (cell : Nat) (value : UInt32) :
    Option PacketAcknowledge :=
  if cell < packet.sequenceNumbers.length then
    some { packet with sequenceNumbers := packet.sequenceNumbers.set cell (some value) }
  else none

/-- `while (index <= end_index)`, by the number of turns. -/
def writeRange : Nat → UInt32 → PacketAcknowledge → Option PacketAcknowledge
  | 0, _, packet => some packet
  | turns + 1, index, packet => do
      let written ← writeCell packet packet.sequenceNumbersCount.toNat index
      writeRange turns (index + 1)
        { written with sequenceNumbersCount := written.sequenceNumbersCount + 1 }

def storeRecord (packet : PacketAcknowledge) : AckRecord → Option PacketAcknowledge
  | .single index =>
      let count := packet.sequenceNumbersCount + 1
      -- The count has wrapped: the cell is `count - 1 = -1`.
      if count = 0 then none
      else writeCell ⟨reallocCells packet.sequenceNumbers count.toNat, count⟩
        (count.toNat - 1) index
  | .range index endIndex =>
      let size := packet.sequenceNumbersCount.toUInt32 + (endIndex - index + 1)
      writeRange (endIndex.toNat + 1 - index.toNat) index
        { packet with sequenceNumbers := reallocCells packet.sequenceNumbers size.toNat }

def getRecord : Reader AckRecord := do
  let isSingle ← getUnsignedByte
  let index ← getUnsignedTriadLe
  if isSingle != 0 then pure (.single index)
  else do
    let endIndex ← getUnsignedTriadLe
    pure (.range index endIndex)

def getRecords : Nat → PacketAcknowledge → Reader PacketAcknowledge
  | 0, packet => pure packet
  | count + 1, packet => do
      let record ← getRecord
      let stored ← (storeRecord packet record : Option PacketAcknowledge)
      getRecords count stored

def getPacketAcknowledge : Reader PacketAcknowledge := do
  skip 1
  let recordCount ← getUnsignedShortBe
  getRecords recordCount.toNat ⟨[], 0⟩

/-- What a caller reads through the count; `none` when that leaves the array or
meets a cell nothing was written to. -/
def PacketAcknowledge.read (packet : PacketAcknowledge) : Option (List UInt32) :=
  if packet.sequenceNumbersCount.toNat ≤ packet.sequenceNumbers.length then
    (packet.sequenceNumbers.take packet.sequenceNumbersCount.toNat).mapM id
  else none

end PodrumRakNet.Acknowledge
