import ObcSdk.Kernel.Obcbase
/-!
# The shared memory driver

`multicore-shared-memory.c` on a 64-bit kernel: the regions it takes from
the device tree, what its `ioctl` tells of them, and which of their pages
`mmap` hands to a process. Registering the device and the messages are left
out; what the kernel finds in the tree, whether it can set up the pages and
whether it can copy from and to the process is told from outside.
-/

namespace ObcSdk

namespace Kernel

/-- `-ENODEV`. -/
abbrev eNodev : ℤ := -19
/-- `-ENOMEM`. -/
abbrev eNomem : ℤ := -12
/-- `-EAGAIN`. -/
abbrev eAgain : ℤ := -11
/-- `-EFAULT`. -/
abbrev eFault : ℤ := -14
/-- `-ENOTTY`. -/
abbrev eNotty : ℤ := -25

/-- `PAGE_SHIFT`. -/
def pageShift : UInt64 := 12
/-- `PAGE_SIZE`. -/
def pageSize : UInt32 := 4096

/-- `struct shmem_region`, with the two fields of its resource that are
read. -/
structure ShmemRegion where
  align : UInt32
  resStart : UInt64
  resEnd : UInt64
  physAddr : UInt64
  size : UInt64
deriving DecidableEq

/-- What an entry of `memory-region` leads to: its node, unless there is
none, with the node's alignment and its reserved memory, base and size. -/
structure MemoryRegion where
  node : Bool
  alignment : Option UInt32
  rmem : Option (UInt64 × UInt64)

/-- The body of the loop of `shmem_parse_dt`. -/
def parseRegion (ref : MemoryRegion) : Except ℤ ShmemRegion :=
  if ref.node = false then .error eInval
  else
    let align := match ref.alignment with
      | none => pageSize
      | some a => if a = 0 then pageSize else a
    match ref.rmem with
    | none => .error eInval
    | some (base, size) => .ok ⟨align, base, base + size - 1, base, size⟩

/-- `shmem_parse_dt`, on the device's node, the entries of its
`memory-region`, and whether there is memory for the table. -/
def shmemParseDt (np : Bool) (refs : List MemoryRegion) (alloc : Bool) :
    Except ℤ (List ShmemRegion) :=
  if np = false then .error eNodev
  else if refs = [] then .error eInval
  else if alloc = false then .error eNomem
  else refs.mapM parseRegion

/-- `resource_size`. -/
def ShmemRegion.resourceSize (region : ShmemRegion) : UInt64 :=
  region.resEnd - region.resStart + 1

/-- `shmem_region_find`. -/
def shmemRegionFind (regions : List ShmemRegion) (pgoff len : UInt64) : Option ShmemRegion :=
  let offset := pgoff <<< pageShift
  regions.find? fun region =>
    region.resStart ≤ offset ∧ offset + len ≤ region.resStart + region.resourceSize

/-- `shmem_mmap`: the number of the first page that is mapped, or its
error. -/
def shmemMmap (regions : List ShmemRegion) (pgoff len : UInt64) (remap : Bool) :
    Except ℤ UInt64 :=
  match shmemRegionFind regions pgoff len with
  | none => .error eInval
  | some region =>
    let offset := pgoff <<< pageShift
    let pfn := (region.resStart + (offset - region.resStart)) >>> pageShift
    if remap then .ok pfn else .error eAgain

/-! ## `shmem_ioctl` -/

/-- `_IOC`. -/
def ioc (dir type nr size : UInt32) : UInt32 := dir <<< 30 ||| size <<< 16 ||| type <<< 8 ||| nr

/-- `SHMEM_IOC_GET_REGION_COUNT`. -/
def shmemIocGetRegionCount : UInt32 := ioc 2 0x53 1 4
/-- `SHMEM_IOC_GET_REGION_INFO`. -/
def shmemIocGetRegionInfo : UInt32 := ioc 3 0x53 2 32

/-- `struct shmem_region_info`. -/
structure ShmemRegionInfo where
  index : UInt32
  physAddr : UInt64
  size : UInt64
  align : UInt32
  reserved : UInt32
deriving DecidableEq

/-- What is copied to the process. -/
inductive ShmemReply where
  | count (nrRegions : ℕ)
  | info (info : ShmemRegionInfo)
deriving DecidableEq

/-- `shmem_ioctl`: what it copies to the process, or its error; `argp` is
what the process has there, and the last two are whether it can be copied
from and to. -/
def shmemIoctl (regions : List ShmemRegion) (cmd : UInt32) (argp : ShmemRegionInfo)
    (copyFromUser copyToUser : Bool) : Except ℤ ShmemReply :=
  if cmd = shmemIocGetRegionCount then
    if copyToUser then .ok (.count regions.length) else .error eFault
  else if cmd = shmemIocGetRegionInfo then
    if copyFromUser = false then .error eFault
    else match regions[argp.index.toNat]? with
      | none => .error eInval
      | some region =>
        let info := { argp with
          physAddr := region.resStart
          size := region.resourceSize
          align := region.align }
        if copyToUser then .ok (.info info) else .error eFault
  else .error eNotty

end Kernel

end ObcSdk
