import PodrumFormal.Lib.Endian
import PodrumFormal.Lib.Slices
import PodrumFormal.Zlib.ZlibHelper

/-!
# Regions

A region is a file of 4096-byte sectors: a table of 1024 chunk offsets, a
table of as many timestamps, and runs of sectors with one chunk each.  An
operation is `none` where it accesses memory outside a table, the stream or
the map of free sectors.
-/

set_option autoImplicit false

namespace PodrumWorld.Region

open Endian Slices PodrumZlib.ZlibHelper

def versionGzip : UInt8 := 1
def versionDeflate : UInt8 := 2
def sectorBytes : Nat := 4096
def sectorInts : Nat := 1024
def chunkHeaderSize : Nat := 5

/-- The calls of the zlib helper: the output where the status is `Z_OK`. -/
structure Zlib where
  encode : List UInt8 → (level mode : Int) → Option (List UInt8)
  decode : List UInt8 → (mode : Int) → Option (List UInt8)

structure RegionFile where
  filePath : List UInt8
  fileStream : List UInt8
  offsets : Vector Int sectorInts
  chunkTimestamps : Vector Int sectorInts
  sectorFree : List UInt8
  isOpen : UInt8

/-! ## C integers -/

/-- The conversion to `char`, which is signed. -/
def toChar (value : Int) : Int := value.bmod (2 ^ 8)

/-- The four bytes of `(value >> 24) & 0xff` to `value & 0xff`. -/
def intBytes (value : Int) : List UInt8 := bigBytes 4 (value % 2 ^ 32).toNat

/-- Four bytes put together in an `int`. -/
def intValue (bytes : List UInt8) : Int := toInt (bigValue bytes)

/-! ## The tables -/

def tableGet (table : Vector Int sectorInts) (index : Int) : Option Int :=
  if 0 ≤ index then table[index.toNat]? else none

def tableSet (table : Vector Int sectorInts) (index value : Int) :
    Option (Vector Int sectorInts) :=
  if bound : 0 ≤ index ∧ index.toNat < sectorInts then
    some (table.set index.toNat value bound.2)
  else none

def getRegionOffset (x z : Int) (region : RegionFile) : Option Int :=
  tableGet region.offsets (x + z * 32)

def setRegionOffset (x z offset : Int) (region : RegionFile) : Option RegionFile := do
  let offsets ← tableSet region.offsets (x + z * 32) offset
  let fileStream ← writeAt region.fileStream ((x + z * 32) * 4) (intBytes offset)
  some { region with offsets, fileStream }

def getRegionTimestamp (x z : Int) (region : RegionFile) : Option Int :=
  tableGet region.chunkTimestamps (x + z * 32)

def setRegionTimestamp (x z timestamp : Int) (region : RegionFile) : Option RegionFile := do
  let chunkTimestamps ← tableSet region.chunkTimestamps (x + z * 32) timestamp
  let fileStream ←
    writeAt region.fileStream (sectorBytes + (x + z * 32) * 4) (intBytes timestamp)
  some { region with chunkTimestamps, fileStream }

/-! ## Reading a chunk -/

def outOfBounds (x z : Int) : Bool := x < 0 || x ≥ 32 || z < 0 || z ≥ 32

/-- The bytes at the head of a chunk's run: length, version and data. -/
def chunkRecord (buffer : List UInt8) : List UInt8 :=
  intBytes (buffer.length + 1) ++ (versionDeflate :: buffer)

def setRegionSector (sectorIndex : Int) (buffer : List UInt8) (region : RegionFile) :
    Option RegionFile :=
  if region.isOpen = 0 then some region
  else do
    let fileStream ←
      writeAt region.fileStream (toInt (sectorIndex * sectorBytes)) (chunkRecord buffer)
    some { region with fileStream }

def versionMode (version : List UInt8) : Option Int :=
  if version = [versionGzip] then some zlibGzipMode
  else if version = [versionDeflate] then some zlibDeflateMode
  else none

/-- The last part of `get_region_chunk`.  `length - 1` bytes are decoded, which
a length below 1 turns into more than there are. -/
def decodeChunk (zlib : Zlib) (version : List UInt8) (length : Int) (data : List UInt8) :
    Option (List UInt8) :=
  match versionMode version with
  | none => some []
  | some mode => if length < 1 then none else some ((zlib.decode data mode).getD [])

def readChunk (zlib : Zlib) (regionOffset : Int) (region : RegionFile) : Option (List UInt8) :=
  let sectorIndex := regionOffset / 256
  let sectorCount := toChar (regionOffset % 256)
  if region.sectorFree.length < toULong (sectorIndex + sectorCount) then some []
  else do
    let offset := toInt (sectorIndex * sectorBytes)
    let header ← readAt region.fileStream offset 4
    let length := intValue header
    if sectorBytes * sectorCount < length then some []
    else do
      let version ← readAt region.fileStream (offset + 4) 1
      let data ← readAt region.fileStream (offset + 5) (length - 1).toNat
      decodeChunk zlib version length data

def getRegionChunk (zlib : Zlib) (x z : Int) (region : RegionFile) : Option (List UInt8) :=
  if region.isOpen = 0 then some []
  else if outOfBounds x z then some []
  else do
    let regionOffset ← getRegionOffset x z region
    if regionOffset = 0 then some [] else readChunk zlib regionOffset region

/-! ## The search for free sectors -/

/-- The second loop of the search, over the sectors from `index` on. -/
def extendRun (required : Int) : List UInt8 → (index runStart runLength : Nat) → Nat × Nat
  | [], _, runStart, runLength => (runStart, runLength)
  | sector :: sectors, index, runStart, runLength =>
      let run :=
        if runLength ≠ 0 then
          if sector = 1 then (runStart, runLength + 1) else (runStart, 0)
        else if sector = 1 then (index, 1)
        else (runStart, runLength)
      if required ≤ run.2 then run else extendRun required sectors (index + 1) run.1 run.2

/-- `run_start` and `run_length` after both loops. -/
def findRun (required : Int) (sectorFree : List UInt8) : Int × Nat :=
  match sectorFree.findIdx? (· = 1) with
  | none => (-1, 0)
  | some first =>
      let (runStart, runLength) := extendRun required (sectorFree.drop first) first first 0
      (runStart, runLength)

/-! ## Writing a chunk -/

def requiredSectorCount (buffer : List UInt8) : Int :=
  toChar ((buffer.length + chunkHeaderSize) / sectorBytes + 1 : Nat)

/-- `(sector_index << 8) | required_sector_count`: a negative count has all its
high bits set. -/
def packOffset (sectorIndex required : Int) : Int :=
  if 0 ≤ required then sectorIndex * 256 + required else required

def markSectors (mark : UInt8) (start count : Int) (sectorFree : List UInt8) :
    Option (List UInt8) :=
  writeAt sectorFree start (List.replicate count.toNat mark)

/-- Room for `required` sectors at the end.  The loop that clears them counts
in an `int`. -/
def growRegion (required : Int) (region : RegionFile) : Option RegionFile :=
  if region.fileStream.length + sectorBytes * required.toNat < 2 ^ 31 then
    some
      { region with
        sectorFree := region.sectorFree ++ List.replicate required.toNat 0
        fileStream := region.fileStream ++ List.replicate (sectorBytes * required.toNat) 0 }
  else none

/-- The branch of a run that the search found. -/
def reuseRun (x z : Int) (outBuffer : List UInt8) (runStart required : Int)
    (region : RegionFile) : Option RegionFile := do
  let linked ← setRegionOffset x z (packOffset runStart required) region
  let sectorFree ← markSectors 0 runStart required linked.sectorFree
  setRegionSector runStart outBuffer { linked with sectorFree }

/-- The branch that takes sectors behind the end of the file. -/
def appendRun (x z : Int) (outBuffer : List UInt8) (required : Int) (region : RegionFile) :
    Option RegionFile := do
  let sectorIndex := region.sectorFree.length
  let grown ← growRegion required region
  let stored ← setRegionSector sectorIndex outBuffer grown
  setRegionOffset x z (packOffset sectorIndex required) stored

def moveChunk (x z : Int) (outBuffer : List UInt8) (region : RegionFile) : Option RegionFile :=
  let required := requiredSectorCount outBuffer
  let run := findRun required region.sectorFree
  if required ≤ run.2 then reuseRun x z outBuffer run.1 required region
  else appendRun x z outBuffer required region

/-- `time` is the answer of the clock. -/
def setRegionChunk (zlib : Zlib) (x z : Int) (buffer : List UInt8) (time : Int)
    (region : RegionFile) : Option RegionFile :=
  match zlib.encode buffer 7 zlibDeflateMode with
  | none => some region
  | some outBuffer => do
      let regionOffset ← getRegionOffset x z region
      let sectorIndex := regionOffset / 256
      let sectorCount := toChar (regionOffset % 256)
      if sectorIndex ≠ 0 ∧ sectorCount = requiredSectorCount outBuffer then
        setRegionSector sectorIndex outBuffer region
      else do
        let sectorFree ← markSectors 1 sectorIndex sectorCount region.sectorFree
        let moved ← moveChunk x z outBuffer { region with sectorFree }
        setRegionTimestamp x z time moved

/-! ## Files -/

/-- The content of the file at each path. -/
abbrev Files := List UInt8 → List UInt8

/-- The stream of a file that is shorter than a sector, or of one that is not. -/
def loadStream (file : List UInt8) : Option (List UInt8) :=
  let stream := if file.length < sectorBytes then List.replicate 8192 0 else file
  let bytesNeeded := stream.length % sectorBytes
  -- The loop that clears the added bytes counts in an `int`, which must not pass
  -- its greatest value.  Where it begins below zero it is above every size and
  -- clears nothing: the bytes are those of `realloc`, here zeros as well.
  if bytesNeeded = 0 ∨ stream.length + bytesNeeded < 2 ^ 31 ∨
      2 ^ 31 ≤ stream.length % 2 ^ 32 then
    some (stream ++ List.replicate bytesNeeded 0)
  else none

/-- The ints of the table that starts at `offset`. -/
def loadTable (offset : Nat) (stream : List UInt8) : Vector Int sectorInts :=
  Vector.ofFn fun index => intValue (slice stream (offset + 4 * index.val) 4)

/-- The sectors of an entry, if they are in the file, are not free. -/
def markEntry (sectorFree : List UInt8) (offset : Int) : Option (List UInt8) :=
  if offset ≠ 0 ∧ toULong (offset / 256 + offset % 256) ≤ sectorFree.length then
    markSectors 0 (offset / 256) (offset % 256) sectorFree
  else some sectorFree

/-- The tables and the free map of a stream. -/
def loadRegion (path fileStream : List UInt8) : Option RegionFile := do
  let unmarked ← writeAt (List.replicate (fileStream.length / sectorBytes) 1) 0 [0, 0]
  -- Both tables are read from the first two sectors.
  let _ ← readAt fileStream 0 8192
  let offsets := loadTable 0 fileStream
  let sectorFree ← offsets.toList.foldlM markEntry unmarked
  some
    { filePath := path
      fileStream
      offsets
      chunkTimestamps := loadTable sectorBytes fileStream
      sectorFree
      isOpen := 1 }

def openRegion (path : List UInt8) (files : Files) : Option RegionFile := do
  let fileStream ← loadStream (files path)
  loadRegion path fileStream

def saveRegion (region : RegionFile) (files : Files) : Files :=
  Function.update files region.filePath region.fileStream

end PodrumWorld.Region
