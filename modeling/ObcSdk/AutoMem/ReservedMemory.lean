import ObcSdk.Lib.BubbleSort
import ObcSdk.Lib.CText
import ObcSdk.Lib.LittleEndian
/-!
# The reserved memory, collected and shown

`collect_reserved_memory` of `sys_mem.c`, which reads the device tree or,
where it lists nothing there, `/proc/iomem`; and what
`display_memory_matrix_new` of `display.c` shows of it.
-/

namespace ObcSdk

namespace AutoMem

/-! ## The data -/

/-- `MAX_RESERVED_REGIONS`. -/
def maxReservedRegions : ℕ := 100
/-- `MAX_NAME_LEN`. -/
def maxNameLen : ℕ := 256

/-- `reserved_mem_region_t`; the size is in bytes, by its comment. -/
structure ReservedMemRegion where
  name : List Char
  startAddr : UInt64
  endAddr : UInt64
  size : UInt64

/-- An entry of `/proc/device-tree/reserved-memory`, with what its `reg`
file holds, if it has one. -/
structure DtEntry where
  dName : List Char
  reg : Option (List UInt8)

/-- Where it is read from: the directory and the file, as far as they can
be opened. -/
structure Board where
  deviceTree : Option (List DtEntry)
  iomem : Option (List Char)

/-! ## The device tree -/

/-- The names that are no region's. -/
def skippedEntry (dName : List Char) : Bool :=
  dName.head? = some '.' || dName.head? = some '#' ||
    dName = "name".toList || dName = "ranges".toList || dName = "phandle".toList

/-- Cells, most significant byte first. -/
def cell (bs : List UInt8) : UInt64 := UInt64.ofNat (leNat bs.reverse)

/-- The address and the size, of two cells each or of one, out of the
first 16 bytes. -/
def parseReg (reg : List UInt8) : Option (UInt64 × UInt64) :=
  let buf := reg.take 16
  if buf.length = 16 then some (cell (buf.take 8), cell (buf.drop 8))
  else if buf.length = 8 then some (cell (buf.take 4), cell (buf.drop 4))
  else none

/-- What is recorded of an entry. -/
def treeRegion (entry : DtEntry) : Option ReservedMemRegion :=
  if skippedEntry entry.dName then none
  else
    match entry.reg.bind parseReg with
    | none => none
    | some (addr, size) =>
      if 0 < size then
        some {
          name := (entry.dName.take (maxNameLen - 1)).takeWhile (· ≠ '@')
          startAddr := addr
          endAddr := addr + size - 1
          size := size }
      else none

/-! ## The lines of `/proc/iomem` -/

/-- The value of a hexadecimal digit, of either case. -/
def hexVal (c : Char) : Option ℕ := Numeral.digitVal c.toLower

/-- The number the hexadecimal digits in front come to, behind those
already read, and the text after them. -/
def hexDigits : ℕ → List Char → ℕ × List Char
  | acc, [] => (acc, [])
  | acc, c :: cs =>
    match hexVal c with
    | none => (acc, c :: cs)
    | some v => hexDigits (acc * 16 + v) cs

/-- The sign of a number, and the text after it. -/
def scanSign : List Char → Bool × List Char
  | '-' :: cs => (true, cs)
  | '+' :: cs => (false, cs)
  | cs => (false, cs)

/-- The text after a `0x`. -/
def skipHexMark : List Char → List Char
  | '0' :: c :: cs => if c = 'x' ∨ c = 'X' then cs else '0' :: c :: cs
  | cs => cs

/-- `%llx` of `sscanf`: what `strtoull` makes of the number in front, and
the text after it. A number too large is the largest there is. -/
def scanLlx (s : List Char) : Option (UInt64 × List Char) :=
  let r := scanSign (s.dropWhile isspace)
  let s := skipHexMark r.2
  if (s.head?.bind hexVal).isSome then
    let d := hexDigits 0 s
    some (if 2 ^ 64 ≤ d.1 then 0xFFFFFFFFFFFFFFFF
      else if r.1 then 0 - UInt64.ofNat d.1 else UInt64.ofNat d.1, d.2)
  else none

/-- `sscanf` with `"%llx-%llx"`, where it reads both. -/
def scanRange (line : List Char) : Option (UInt64 × UInt64) :=
  match scanLlx line with
  | some (first, '-' :: rest) =>
    match scanLlx rest with
    | some (last, _) => some (first, last)
    | none => none
  | _ => none

/-- What is recorded of a line. -/
def iomemRegion (line : List Char) : Option ReservedMemRegion :=
  match strchr line ':' with
  | none => none
  | some colon =>
    if (strstr line "Reserved".toList).isSome then
      match scanRange line with
      | none => none
      | some (first, last) =>
        some {
          name := (((colon.drop 1).dropWhile (· = ' ')).takeWhile (· ≠ '\n')).take (maxNameLen - 1)
          startAddr := first
          endAddr := last
          size := (last - first + 1) / 1024 }
    else none

/-! ## Collected -/

/-- What is recorded, entry after entry, as long as there is room. -/
def record {α : Type} (f : α → Option ReservedMemRegion) :
    List α → List ReservedMemRegion → List ReservedMemRegion
  | [], regions => regions
  | a :: as, regions =>
    if regions.length < maxReservedRegions then record f as (regions ++ (f a).toList)
    else regions

/-- The regions read from the device tree. -/
def treeRegions (b : Board) : List ReservedMemRegion :=
  match b.deviceTree with
  | none => []
  | some entries => record treeRegion entries []

/-- `collect_reserved_memory`: what it returns, and the regions
recorded. -/
def collectReservedMemory (b : Board) : ℤ × List ReservedMemRegion :=
  if (treeRegions b).length = 0 then
    match b.iomem with
    | none => (-1, treeRegions b)
    | some text => (0, record iomemRegion (fgetsAll 512 [] text) (treeRegions b))
  else (0, treeRegions b)

/-! ## Shown -/

/-- `reserved_item_t`. -/
structure ReservedItem where
  name : List Char
  size : UInt64

/-- The unit a size is shown in. -/
inductive SizeUnit where
  | kb
  | mb
deriving DecidableEq

/-- A line of the regions. -/
structure ReservedLine where
  name : List Char
  value : UInt64
  unit : SizeUnit

/-- `reserved_total_mb`. -/
def reservedTotalMb (regions : List ReservedMemRegion) : UInt64 :=
  regions.foldl (fun total region => total + region.size / 1024 / 1024) 0

/-- `sorted_reserved`: a copy, sorted by size. -/
def sortedReserved (regions : List ReservedMemRegion) : List ReservedItem :=
  bubbleSort (fun a b => a.size < b.size)
    (regions.map fun region => ⟨region.name.take (maxNameLen - 1), region.size⟩)

/-- A region as it is shown, in KB or, from a megabyte on, in MB. -/
def ReservedItem.line (item : ReservedItem) : ReservedLine :=
  let sizeKb := item.size / 1024
  if sizeKb < 1024 then ⟨item.name, sizeKb, .kb⟩ else ⟨item.name, sizeKb / 1024, .mb⟩

/-- What `display_memory_matrix_new` shows of the regions: the total, and
the lines, where the copy could be allocated. -/
def displayReserved (allocated : Bool) (regions : List ReservedMemRegion) :
    UInt64 × List ReservedLine :=
  (reservedTotalMb regions,
    if allocated then (sortedReserved regions).map ReservedItem.line else [])

end AutoMem

end ObcSdk
