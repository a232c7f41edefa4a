import Mathlib.Data.Nat.Bitwise
import Mathlib.Logic.Function.Basic
/-!
# The heap of the A53 core

`heap_4.c` of FreeRTOS, and what `xTaskCreate` and `prvDeleteTCB` ask of
it. The memory is its words of eight bytes, by address; a block starts
with a header, a `BlockLink_t`, of two of them. A request and a free are
one step each, as the scheduler is suspended over what they share.
`vPortGetHeapStats` reads its counters in a critical section of their own,
after the walk over the list: it is one step where no other call comes
between the two. A failed `configASSERT` spins for ever, which is `none`
here.
-/

namespace ObcSdk

namespace Amp

/-! ## Words -/

/-- A sum of two `size_t`. -/
def addSize (a b : ℕ) : ℕ := (a + b) % 2 ^ 64

/-- A difference of two `size_t`. -/
def subSize (a b : ℕ) : ℕ := (a + (2 ^ 64 - b)) % 2 ^ 64

/-- A product of two `size_t`. -/
def mulSize (a b : ℕ) : ℕ := (a * b) % 2 ^ 64

/-- `~` of a `size_t`. -/
def complement (a : ℕ) : ℕ := 2 ^ 64 - 1 - a

/-- The memory: the word at an address. -/
abbrev Mem : Type := ℕ → ℕ

/-- `configTOTAL_HEAP_SIZE`. -/
def configTotalHeapSize : ℕ := 3 * 1024 * 1024
/-- `portBYTE_ALIGNMENT`. -/
def portByteAlignment : ℕ := 16
/-- `portBYTE_ALIGNMENT_MASK`. -/
def portByteAlignmentMask : ℕ := 0x000f
/-- `sizeof( BlockLink_t )`. -/
def sizeofBlockLink : ℕ := 16
/-- `xHeapStructSize`. -/
def xHeapStructSize : ℕ :=
  addSize sizeofBlockLink (portByteAlignment - 1) &&& complement portByteAlignmentMask
/-- `heapMINIMUM_BLOCK_SIZE`. -/
def heapMinimumBlockSize : ℕ := xHeapStructSize <<< 1

/-- `pxNextFreeBlock` of the header at an address. -/
def pxNextFreeBlock (mem : Mem) (p : ℕ) : ℕ := mem p

/-- `xBlockSize` of the header at an address. -/
def xBlockSize (mem : Mem) (p : ℕ) : ℕ := mem (p + 8)

/-- A store to `pxNextFreeBlock`. -/
def setNext (mem : Mem) (p v : ℕ) : Mem := Function.update mem p v

/-- A store to `xBlockSize`. -/
def setSize (mem : Mem) (p v : ℕ) : Mem := Function.update mem (p + 8) v

/-- Where the linker puts `ucHeap` and `xStart`: apart from each other, and
neither at `NULL` nor over the end of the address space. -/
structure Layout where
  ucHeap : ℕ
  xStart : ℕ
  ucHeap_pos : 0 < ucHeap
  ucHeap_fits : ucHeap + configTotalHeapSize < 2 ^ 64
  xStart_apart : xStart + sizeofBlockLink ≤ ucHeap ∨ ucHeap + configTotalHeapSize ≤ xStart

/-- The variables of `heap_4.c`, with the memory that `ucHeap` and `xStart`
lie in. -/
structure Heap where
  mem : Mem
  pxEnd : ℕ
  xFreeBytesRemaining : ℕ
  xMinimumEverFreeBytesRemaining : ℕ
  xNumberOfSuccessfulAllocations : ℕ
  xNumberOfSuccessfulFrees : ℕ
  xBlockAllocatedBit : ℕ

/-- The heap before the first call: the initial values of the variables,
over any memory. -/
def Heap.cold (mem : Mem) : Heap := ⟨mem, 0, 0, 0, 0, 0, 0⟩

variable (lay : Layout)

/-! ## The free list -/

/-- The `for` loop of `prvInsertBlockIntoFreeList`. -/
def seekInsertion (mem : Mem) (pxBlockToInsert : ℕ) : ℕ → ℕ → Option ℕ
  | 0, _ => none
  | fuel + 1, pxIterator =>
    if pxNextFreeBlock mem pxIterator < pxBlockToInsert then
      seekInsertion mem pxBlockToInsert fuel (pxNextFreeBlock mem pxIterator)
    else some pxIterator

/-- No walk over the free list is longer. -/
def walkFuel : ℕ := configTotalHeapSize + 1

/-- `prvInsertBlockIntoFreeList`, from where the block before was found:
the block is made one with that one, if they meet. -/
def mergeBefore (mem : Mem) (pxIterator pxBlockToInsert : ℕ) : Mem × ℕ :=
  if pxIterator + xBlockSize mem pxIterator = pxBlockToInsert then
    (setSize mem pxIterator
      (addSize (xBlockSize mem pxIterator) (xBlockSize mem pxBlockToInsert)), pxIterator)
  else (mem, pxBlockToInsert)

/-- Then with the one behind it, which is not the end marker. -/
def mergeBehind (pxEnd : ℕ) (mem : Mem) (pxIterator pxBlockToInsert : ℕ) : Mem :=
  if pxBlockToInsert + xBlockSize mem pxBlockToInsert = pxNextFreeBlock mem pxIterator then
    if pxNextFreeBlock mem pxIterator ≠ pxEnd then
      let mem := setSize mem pxBlockToInsert (addSize (xBlockSize mem pxBlockToInsert)
        (xBlockSize mem (pxNextFreeBlock mem pxIterator)))
      setNext mem pxBlockToInsert (pxNextFreeBlock mem (pxNextFreeBlock mem pxIterator))
    else setNext mem pxBlockToInsert pxEnd
  else setNext mem pxBlockToInsert (pxNextFreeBlock mem pxIterator)

/-- And the block before is linked to it, if it is another. -/
def linkBefore (mem : Mem) (pxIterator pxBlockToInsert : ℕ) : Mem :=
  if pxIterator ≠ pxBlockToInsert then setNext mem pxIterator pxBlockToInsert else mem

/-- `prvInsertBlockIntoFreeList`. -/
def prvInsertBlockIntoFreeList (pxEnd : ℕ) (mem : Mem) (pxBlockToInsert : ℕ) : Option Mem :=
  (seekInsertion mem pxBlockToInsert walkFuel lay.xStart).map fun pxIterator =>
    let (mem, pxBlockToInsert) := mergeBefore mem pxIterator pxBlockToInsert
    linkBefore (mergeBehind pxEnd mem pxIterator pxBlockToInsert) pxIterator pxBlockToInsert

/-! ## Initialisation -/

/-- The first address of the heap that is aligned, and the bytes from
there on. -/
def alignedHeap : ℕ × ℕ :=
  if lay.ucHeap &&& portByteAlignmentMask ≠ 0 then
    let uxAddress :=
      addSize lay.ucHeap (portByteAlignment - 1) &&& complement portByteAlignmentMask
    (uxAddress, subSize configTotalHeapSize (subSize uxAddress lay.ucHeap))
  else (lay.ucHeap, configTotalHeapSize)

/-- Where `prvHeapInit` puts the end marker. -/
def endMarker : ℕ :=
  subSize (addSize (alignedHeap lay).1 (alignedHeap lay).2) xHeapStructSize &&&
    complement portByteAlignmentMask

/-- `prvHeapInit`. -/
def prvHeapInit (g : Heap) : Heap :=
  let pucAlignedHeap := (alignedHeap lay).1
  let mem := setNext g.mem lay.xStart pucAlignedHeap
  let mem := setSize mem lay.xStart 0
  let pxEnd := endMarker lay
  let mem := setSize mem pxEnd 0
  let mem := setNext mem pxEnd 0
  let mem := setSize mem pucAlignedHeap (subSize pxEnd pucAlignedHeap)
  let mem := setNext mem pucAlignedHeap pxEnd
  { g with
    mem := mem
    pxEnd := pxEnd
    xMinimumEverFreeBytesRemaining := xBlockSize mem pucAlignedHeap
    xFreeBytesRemaining := xBlockSize mem pucAlignedHeap
    xBlockAllocatedBit := 1 <<< (8 * 8 - 1) }

/-! ## `pvPortMalloc` -/

/-- The size of the block that a request needs, with its header and made
a multiple of the alignment, which is asserted; 0 where that is no `size_t`,
or the request is 0. -/
def blockSizeFor (xWantedSize : ℕ) : Option ℕ :=
  if 0 < xWantedSize ∧ xWantedSize < addSize xWantedSize xHeapStructSize then
    let xWantedSize := addSize xWantedSize xHeapStructSize
    if xWantedSize &&& portByteAlignmentMask ≠ 0 then
      let xRounded :=
        addSize xWantedSize (portByteAlignment - (xWantedSize &&& portByteAlignmentMask))
      if xWantedSize < xRounded then
        if xRounded &&& portByteAlignmentMask = 0 then some xRounded else none
      else some 0
    else some xWantedSize
  else some 0

/-- The `while` loop of `pvPortMalloc`: the block it stops at, and the one
before. -/
def seekFit (mem : Mem) (xWantedSize : ℕ) : ℕ → ℕ → ℕ → Option (ℕ × ℕ)
  | 0, _, _ => none
  | fuel + 1, pxPreviousBlock, pxBlock =>
    if xBlockSize mem pxBlock < xWantedSize ∧ pxNextFreeBlock mem pxBlock ≠ 0 then
      seekFit mem xWantedSize fuel pxBlock (pxNextFreeBlock mem pxBlock)
    else some (pxPreviousBlock, pxBlock)

/-- The block is split, if what is left is large enough, and what is left
goes back into the list. -/
def splitBlock (pxEnd : ℕ) (mem : Mem) (pxBlock xWantedSize : ℕ) : Option Mem :=
  if heapMinimumBlockSize < subSize (xBlockSize mem pxBlock) xWantedSize then
    let pxNewBlockLink := pxBlock + xWantedSize
    if pxNewBlockLink &&& portByteAlignmentMask = 0 then
      let mem := setSize mem pxNewBlockLink (subSize (xBlockSize mem pxBlock) xWantedSize)
      let mem := setSize mem pxBlock xWantedSize
      prvInsertBlockIntoFreeList lay pxEnd mem pxNewBlockLink
    else none
  else some mem

/-- The block found is taken out of the list and handed over. -/
def takeBlock (g : Heap) (xWantedSize pxPreviousBlock pxBlock : ℕ) : Option (Heap × ℕ) :=
  let pvReturn := pxNextFreeBlock g.mem pxPreviousBlock + xHeapStructSize
  let mem := setNext g.mem pxPreviousBlock (pxNextFreeBlock g.mem pxBlock)
  (splitBlock lay g.pxEnd mem pxBlock xWantedSize).map fun mem =>
    let xFreeBytesRemaining := subSize g.xFreeBytesRemaining (xBlockSize mem pxBlock)
    let mem := setSize mem pxBlock (xBlockSize mem pxBlock ||| g.xBlockAllocatedBit)
    let mem := setNext mem pxBlock 0
    ({ g with
        mem := mem
        xFreeBytesRemaining := xFreeBytesRemaining
        xMinimumEverFreeBytesRemaining :=
          if xFreeBytesRemaining < g.xMinimumEverFreeBytesRemaining then xFreeBytesRemaining
          else g.xMinimumEverFreeBytesRemaining
        xNumberOfSuccessfulAllocations := addSize g.xNumberOfSuccessfulAllocations 1 },
      pvReturn)

/-- `pvPortMalloc` on a heap that is initialised, up to its last
assertion. -/
def mallocFrom (g : Heap) (xWantedSize : ℕ) : Option (Heap × ℕ) :=
  if xWantedSize &&& g.xBlockAllocatedBit = 0 then
    (blockSizeFor xWantedSize).bind fun xWantedSize =>
      if 0 < xWantedSize ∧ xWantedSize ≤ g.xFreeBytesRemaining then
        (seekFit g.mem xWantedSize walkFuel lay.xStart (pxNextFreeBlock g.mem lay.xStart)).bind
          fun (pxPreviousBlock, pxBlock) =>
            if pxBlock ≠ g.pxEnd then takeBlock lay g xWantedSize pxPreviousBlock pxBlock
            else some (g, 0)
      else some (g, 0)
  else some (g, 0)

/-- `pvPortMalloc`; a `pvReturn` of 0 is `NULL`. -/
def pvPortMalloc (g : Heap) (xWantedSize : ℕ) : Option (Heap × ℕ) :=
  (mallocFrom lay (if g.pxEnd = 0 then prvHeapInit lay g else g) xWantedSize).bind
    fun (g, pvReturn) =>
      if pvReturn &&& portByteAlignmentMask = 0 then some (g, pvReturn) else none

/-! ## `vPortFree` -/

/-- `vPortFree`. -/
def vPortFree (g : Heap) (pv : ℕ) : Option Heap :=
  if pv ≠ 0 then
    let pxLink := pv - xHeapStructSize
    if xBlockSize g.mem pxLink &&& g.xBlockAllocatedBit ≠ 0 ∧
        pxNextFreeBlock g.mem pxLink = 0 then
      let mem := setSize g.mem pxLink
        (xBlockSize g.mem pxLink &&& complement g.xBlockAllocatedBit)
      (prvInsertBlockIntoFreeList lay g.pxEnd mem pxLink).map fun mem' =>
        { g with
          mem := mem'
          xFreeBytesRemaining := addSize g.xFreeBytesRemaining (xBlockSize mem pxLink)
          xNumberOfSuccessfulFrees := addSize g.xNumberOfSuccessfulFrees 1 }
    else none
  else some g

/-! ## `vPortGetHeapStats` -/

/-- What the loop of `vPortGetHeapStats` counts. -/
structure HeapWalk where
  xBlocks : ℕ
  xMaxSize : ℕ
  xMinSize : ℕ

/-- A block is counted. -/
def HeapWalk.visit (s : HeapWalk) (xBlockSize : ℕ) : HeapWalk where
  xBlocks := addSize s.xBlocks 1
  xMaxSize := if s.xMaxSize < xBlockSize then xBlockSize else s.xMaxSize
  xMinSize := if xBlockSize < s.xMinSize then xBlockSize else s.xMinSize

/-- The `do` loop of `vPortGetHeapStats`; a header at `NULL` is none. -/
def walkHeap (mem : Mem) (pxEnd : ℕ) : ℕ → ℕ → HeapWalk → Option HeapWalk
  | 0, _, _ => none
  | fuel + 1, pxBlock, s =>
    if pxBlock = 0 then none
    else if pxNextFreeBlock mem pxBlock ≠ pxEnd then
      walkHeap mem pxEnd fuel (pxNextFreeBlock mem pxBlock) (s.visit (xBlockSize mem pxBlock))
    else some (s.visit (xBlockSize mem pxBlock))

/-- `HeapStats_t`. -/
structure HeapStats where
  xAvailableHeapSpaceInBytes : ℕ
  xSizeOfLargestFreeBlockInBytes : ℕ
  xSizeOfSmallestFreeBlockInBytes : ℕ
  xNumberOfFreeBlocks : ℕ
  xMinimumEverFreeBytesRemaining : ℕ
  xNumberOfSuccessfulAllocations : ℕ
  xNumberOfSuccessfulFrees : ℕ

/-- `portMAX_DELAY`. -/
def portMaxDelay : ℕ := 0xffffffffffffffff

/-- `vPortGetHeapStats`. -/
def vPortGetHeapStats (g : Heap) : Option HeapStats :=
  let pxBlock := pxNextFreeBlock g.mem lay.xStart
  (if pxBlock ≠ 0 then walkHeap g.mem g.pxEnd walkFuel pxBlock ⟨0, 0, portMaxDelay⟩
    else some ⟨0, 0, portMaxDelay⟩).map fun s =>
      { xAvailableHeapSpaceInBytes := g.xFreeBytesRemaining
        xSizeOfLargestFreeBlockInBytes := s.xMaxSize
        xSizeOfSmallestFreeBlockInBytes := s.xMinSize
        xNumberOfFreeBlocks := s.xBlocks
        xMinimumEverFreeBytesRemaining := g.xMinimumEverFreeBytesRemaining
        xNumberOfSuccessfulAllocations := g.xNumberOfSuccessfulAllocations
        xNumberOfSuccessfulFrees := g.xNumberOfSuccessfulFrees }

/-! ## The memory of a task -/

/-- `sizeof( StackType_t )`. -/
def sizeofStackType : ℕ := 8

/-- What `xTaskCreate` does with the heap: the stack, which grows down,
then the `TCB_t`. The task gets both, or neither. -/
def xTaskCreate (sizeofTCB : ℕ) (g : Heap) (usStackDepth : ℕ) : Option (Heap × Option (ℕ × ℕ)) :=
  (pvPortMalloc lay g (mulSize usStackDepth sizeofStackType)).bind fun (g, pxStack) =>
    if pxStack ≠ 0 then
      (pvPortMalloc lay g sizeofTCB).bind fun (g, pxNewTCB) =>
        if pxNewTCB ≠ 0 then some (g, some (pxNewTCB, pxStack))
        else (vPortFree lay g pxStack).map fun g => (g, none)
    else some (g, none)

/-- `prvDeleteTCB`, for a task that `xTaskCreate` made. -/
def prvDeleteTCB (g : Heap) (pxTCB pxStack : ℕ) : Option Heap :=
  (vPortFree lay g pxStack).bind fun g => vPortFree lay g pxTCB

end Amp

end ObcSdk
