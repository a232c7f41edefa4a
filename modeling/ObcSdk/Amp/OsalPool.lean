import ObcSdk.Lib.Slots
/-!
# The pools of the OSAL on the A53 core

`SemaphoreP_freertos.c`, `MutexP_freertos.c` and `TaskP_freertos.c` keep
their structs in arrays and create and delete in one way: a create that
reads the count as zero zeroes the array, then claims the first unused
struct in a critical section, and sets up the kernel's object in it. Only
the claim and the release are critical sections, so a call is taken apart
into the steps between which other callers run. What the kernel's
constructor returns is told from outside.

What is handed out here is the struct. `MutexP_create` writes it into the
object that its caller has made for it, and returns that object; with
`NULL` for the object it returns `NULL` at once, and is no step of the pool.
-/

namespace ObcSdk

namespace Amp

/-! ## The steps of the calls -/

namespace OsalPool

/-- A struct of a pool, as far as creating and deleting go; `made` is
whether the kernel's object in it is set up. -/
structure Struct where
  used : Bool
  made : Bool
deriving DecidableEq

/-- Where a caller is in a call. -/
inductive Phase (n : ℕ) where
  | outside
  /-- Zeroing the array, with `j` structs behind it. -/
  | zeroing (j : ℕ)
  | ready
  | claimed (i : Fin n)
  /-- The constructor returned `NULL`. -/
  | failed (i : Fin n)
  /-- The kernel's object is deleted. -/
  | deleted (i : Fin n)
deriving DecidableEq

/-- The struct a caller has in hand. -/
def Phase.holds {n : ℕ} : Phase n → Option (Fin n)
  | .claimed i | .failed i | .deleted i => some i
  | _ => none

end OsalPool

open OsalPool

/-- **A pool and its callers.** `live` are the structs that were handed out
and not yet deleted. The count is of 32 bits in the source, and no pool is
that large. -/
structure OsalPool (Caller : Type) (n : ℕ) where
  structs : Fin n → Struct
  allocCnt : ℕ
  peak : ℕ
  phase : Caller → Phase n
  live : List (Fin n)

namespace OsalPool

/-- One step of a caller's call. -/
inductive Event (Caller : Type) (n : ℕ) where
  /-- A create is called, and reads the count. -/
  | create (k : Caller)
  /-- The next struct is zeroed. -/
  | zero (k : Caller)
  /-- The critical section of a create. -/
  | claim (k : Caller)
  /-- The kernel's constructor returns. -/
  | construct (k : Caller) (ok : Bool)
  /-- A delete is called, and deletes the kernel's object. -/
  | delete (k : Caller) (i : Fin n)
  /-- The critical section that gives the struct back. -/
  | release (k : Caller)

variable {Caller : Type} {n : ℕ}

/-- Which structs are used. -/
def used (s : OsalPool Caller n) (i : Fin n) : Bool := (s.structs i).used

/-- A pool at the start, with all memory zero. -/
def initial : OsalPool Caller n where
  structs := fun _ => ⟨false, false⟩
  allocCnt := 0
  peak := 0
  phase := fun _ => .outside
  live := []

/-- A struct is written. -/
def write (s : OsalPool Caller n) (i : Fin n) (x : Struct) : OsalPool Caller n :=
  { s with structs := Function.update s.structs i x }

variable [DecidableEq Caller]

/-- A caller goes on. -/
def goto (s : OsalPool Caller n) (k : Caller) (p : Phase n) : OsalPool Caller n :=
  { s with phase := Function.update s.phase k p }

/-- `memset`, one struct of it. -/
def zeroNext (s : OsalPool Caller n) (k : Caller) (j : ℕ) : OsalPool Caller n :=
  if h : j < n then (s.write ⟨j, h⟩ ⟨false, false⟩).goto k (.zeroing (j + 1)) else s.goto k .ready

/-- A struct is claimed. -/
def claimStruct (s : OsalPool Caller n) (k : Caller) (i : Fin n) : OsalPool Caller n :=
  { (s.write i { s.structs i with used := true }).goto k (.claimed i) with
    allocCnt := s.allocCnt + 1
    peak := max s.peak (s.allocCnt + 1) }

/-- The critical section of a create: the first unused struct, or `NULL`
from the create. -/
def claimFirst (s : OsalPool Caller n) (k : Caller) : OsalPool Caller n :=
  match Slots.firstUnused s.used with
  | some i => s.claimStruct k i
  | none => s.goto k .outside

/-- A create hands a struct out. -/
def handOut (s : OsalPool Caller n) (k : Caller) (i : Fin n) : OsalPool Caller n :=
  { (s.write i { s.structs i with made := true }).goto k .outside with live := i :: s.live }

/-- The object in a struct is deleted. -/
def deleteObject (s : OsalPool Caller n) (k : Caller) (i : Fin n) : OsalPool Caller n :=
  { (s.write i { s.structs i with made := false }).goto k (.deleted i) with
    live := s.live.erase i }

/-- The critical section that gives a struct back. -/
def giveBack (s : OsalPool Caller n) (k : Caller) (i : Fin n) : OsalPool Caller n :=
  { (s.write i { s.structs i with used := false }).goto k .outside with
    allocCnt := s.allocCnt - 1 }

/-- **One step.** A step that the caller is not at changes nothing. -/
def step (s : OsalPool Caller n) : Event Caller n → OsalPool Caller n
  | .create k =>
    match s.phase k with
    | .outside => s.goto k (if s.allocCnt = 0 then .zeroing 0 else .ready)
    | _ => s
  | .zero k =>
    match s.phase k with
    | .zeroing j => s.zeroNext k j
    | _ => s
  | .claim k =>
    match s.phase k with
    | .ready => s.claimFirst k
    | _ => s
  | .construct k ok =>
    match s.phase k with
    | .claimed i => if ok then s.handOut k i else s.goto k (.failed i)
    | _ => s
  | .delete k i =>
    match s.phase k with
    -- of a struct that is not used it is `FAILURE`
    | .outside => if s.used i then s.deleteObject k i else s
    | _ => s
  | .release k =>
    match s.phase k with
    | .failed i | .deleted i => s.giveBack k i
    | _ => s

/-- The state behind a run. -/
def run (s : OsalPool Caller n) (es : List (Event Caller n)) : OsalPool Caller n :=
  es.foldl step s

end OsalPool

/-! ## The pools -/

/-- `OSAL_FREERTOS_CONFIGNUM_SEMAPHORE`. -/
def osalFreertosConfignumSemaphore : ℕ := 256
/-- `OSAL_FREERTOS_CONFIGNUM_MUTEX`. -/
def osalFreertosConfignumMutex : ℕ := 32

/-- `gOsalSemPfreertosPool`. -/
abbrev SemaphorePool (Caller : Type) : Type := OsalPool Caller osalFreertosConfignumSemaphore
/-- `gOsalMutexPFreeRtosPool`. -/
abbrev MutexPool (Caller : Type) : Type := OsalPool Caller osalFreertosConfignumMutex

end Amp

end ObcSdk
