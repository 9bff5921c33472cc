import FsExt.Attr.ListAttrs
import FsExt.Attr.Windows
import FsExt.Sys.Extent
import FsExt.Sys.Words

set_option autoImplicit false

namespace FsExt.Attr.Windows

open Sys

def dataSuffix : List UInt16 := utf16 ":$DATA".toList

-- FILE_STREAM_INFORMATION: the offset of StreamName and the size of the struct.
def nameOffset : Nat := 24

def informationSize : Nat := 32

def streamSize (name : List UInt16) : Nat := nameOffset + 2 * (colon :: name ++ dataSuffix).length

-- The unnamed stream has an empty name. `padding` is what stands in the block up
-- to where the next entry may start.
structure StreamInformation where
  name : List UInt16
  streamSize : Nat
  streamAllocationSize : Nat
  padding : List UInt16
  plain : 0 ∉ name
  aligned : Windows.streamSize name + 2 * padding.length = alignUp (Windows.streamSize name) 8

namespace StreamInformation

def streamName (stream : StreamInformation) : List UInt16 := colon :: stream.name ++ dataSuffix

def entrySize (stream : StreamInformation) : Nat := alignUp (Windows.streamSize stream.name) 8

def header (stream : StreamInformation) (nextEntryOffset : Nat) : List UInt8 :=
  octets 4 nextEntryOffset ++ octets 4 (2 * stream.streamName.length) ++ octets 8 stream.streamSize ++
    octets 8 stream.streamAllocationSize

def entry (stream : StreamInformation) (nextEntryOffset : Nat) : List UInt8 :=
  stream.header nextEntryOffset ++ wideOctets stream.streamName ++ wideOctets stream.padding

end StreamInformation

def layout : List StreamInformation → List UInt8
  | [] => []
  | stream :: rest => stream.entry (if rest.isEmpty then 0 else stream.entrySize) ++ layout rest

inductive ListError where
  | bufferOverflow
  | other

inductive ListOp where
  | queryStreamInformation (length : Nat)

abbrev ListAnswer (_ : ListOp) : Type := Except ListError (List UInt8)

abbrev ListProgram (α : Type) := Program ListOp ListAnswer α

-- The sizes asked for are multiples of 8, so that the padding of the last entry
-- makes no difference to whether the list fits.
def streamQueries (streams : List StreamInformation) : Program.Handler ListOp ListAnswer Unit := fun op world =>
  match op with
  | .queryStreamInformation length =>
      if length < informationSize then (.error .other, world)
      else if (layout streams).length ≤ length then (.ok (layout streams), world)
      else (.error .bufferOverflow, world)

-- The bytes of the block from `start` to before `stop`, read or written while
-- `next` points at `entry`.
structure Touch where
  entry : Nat
  start : Nat
  stop : Nat
deriving DecidableEq

-- CP_UTF8 without flags: a lone surrogate becomes U+FFFD. The result counts the
-- terminator and is an int: for a longer string nothing is converted.
def wideCharToMultiByte (wide : List UInt16) : List UInt8 :=
  let converted := utf8 ((scalars wide).map fun char => char.getD '\uFFFD') ++ [0]
  if converted.length < 2 ^ 31 then converted else []

def readTouches (next : Nat) (name : List UInt16) : List Touch :=
  let unicodeName := next + nameOffset + 2
  ⟨next, unicodeName, unicodeName + 2⟩ ::
    (if name = [] then [] else [⟨next, unicodeName, unicodeName + 2 * (name.length + 1)⟩]) ++
    [⟨next, next, next + 4⟩]

structure Counted where
  info : List UInt8
  length : Nat
  namesLen : Nat
  touches : List Touch

def Counted.count (counted : Counted) (name : List UInt16) (touches : List Touch) : Counted :=
  if name = [] then ⟨counted.info, counted.length, counted.namesLen, touches ++ counted.touches⟩
  else
    ⟨counted.info, counted.length + 1, counted.namesLen + (pointerSize + (wideCharToMultiByte name).length),
      touches ++ counted.touches⟩

def cutTouches (next length last : Nat) : List Touch :=
  let unicodeName := next + nameOffset + 2
  [⟨next, unicodeName, unicodeName + 2 * (length + 1)⟩, ⟨next, last, last + 2⟩]

-- The first loop. None: an access beyond the block. The suffix is cut off a name
-- shorter than itself too, in front of the name then. A chain has fewer entries
-- than the block has bytes.
def countStreams : (turns : Nat) → (info : List UInt8) → (next : Nat) → Option Counted
  | 0, _, _ => none
  | turns + 1, info, next => do
      let unicodeName := next + nameOffset + 2
      let whole ← readWide (info.drop unicodeName)
      let last := unicodeName + 2 * whole.length - 2 * dataSuffix.length
      let info := store info last [0, 0]
      let name ← readWide (info.drop unicodeName)
      let nextEntryOffset ← readWord 4 next info
      let rest ← if nextEntryOffset = 0 then some ⟨info, 0, 0, []⟩ else countStreams turns info (next + nextEntryOffset)
      return rest.count name (cutTouches next whole.length last ++ readTouches next name)

def place (block : Block) (position : Nat) (cells : Block) : Option Block :=
  if position + cells.length ≤ block.length then some (overwrite block position cells) else none

def copyStreams (info : List UInt8) (offset : Nat) :
    (turns : Nat) → (names : Block) → (next i j : Nat) → Option (Block × List Touch)
  | 0, _, _, _, _ => none
  | turns + 1, names, next, i, j => do
      let name ← readWide (info.drop (next + nameOffset + 2))
      let converted := wideCharToMultiByte name
      let nextEntryOffset ← readWord 4 next info
      let onward := fun names i j =>
        if nextEntryOffset = 0 then some (names, []) else copyStreams info offset turns names (next + nextEntryOffset) i j
      let rest ← if name = [] then onward names i j else do
        let copied ← place names (offset + i) (bytes converted)
        let pointed ← place copied j (pointerCells (offset + i))
        onward pointed (i + converted.length) (j + pointerSize)
      return (rest.1, readTouches next name ++ rest.2)

structure Listing where
  status : Status
  table : NameTable
  touches : List Touch

def listStreams (info : List UInt8) : Option Listing := do
  let counted ← countStreams info.length info 0
  let offset := counted.length * pointerSize
  let copied ← copyStreams counted.info offset counted.info.length (blank counted.namesLen) 0 0 0
  return ⟨.ok (), ⟨some copied.1, counted.length⟩, counted.touches ++ copied.2⟩

-- None: `info_size` is zero after the last doubling there is room for in a
-- size_t.
def queryStreams (table : NameTable) : (doublings infoSize : Nat) → ListProgram (Option Listing)
  | 0, _ => return none
  | doublings + 1, infoSize =>
      .call (.queryStreamInformation (infoSize % 2 ^ 32)) fun
        | .error .bufferOverflow => queryStreams table doublings (infoSize * 2)
        | .error .other => return some ⟨.error UvError.EIO, table, []⟩
        | .ok content => return listStreams (store (List.replicate infoSize 0) 0 content)

def listAttrs (table : NameTable) : ListProgram (Option Listing) := queryStreams table 58 64

def zeroPadding (name : List UInt16) : List UInt16 :=
  List.replicate ((alignUp (streamSize name) 8 - streamSize name) / 2) 0

theorem zero_padding_aligned (name : List UInt16) :
    streamSize name + 2 * (zeroPadding name).length = alignUp (streamSize name) 8 := by
  rw [zeroPadding, List.length_replicate, alignUp, streamSize, nameOffset]
  omega

def StreamInformation.sample (name : List UInt16) (plain : 0 ∉ name) : StreamInformation :=
  ⟨name, 1, 8, zeroPadding name, plain, zero_padding_aligned name⟩

def shortNames : List StreamInformation :=
  [.sample (utf16 "a".toList) (by decide), .sample (utf16 "b".toList) (by decide), .sample (utf16 "c".toList) (by decide)]

end FsExt.Attr.Windows
