import ObcSdk.Kernel.Obcbase
import ObcSdk.Rootfs.Obcblock
/-!
# The start scripts

What `rcS` runs at boot and what it leads to: `S01_basedev`, whose
`mdev -s` runs the link script for every block device, `S09_obc_base`,
which loads the module that knows the boot slot, and `S10_obc_startup`,
which mounts the slot's appfs and makes a file system on it where there is
none. What the programs return that the scripts run is told from outside;
what they only print is left out.
-/

namespace ObcSdk

namespace Rootfs

open Kernel

/-! ## The system -/

/-- What a script does to a block device. -/
inductive Act where
  | mounted (d : BlockDevice)
  | formatted (d : BlockDevice)
deriving DecidableEq

/-- The links of /dev/obcblock, the devices that have their node in /dev,
what /proc/obcbase shows once it is there, the device that is mounted on
/appfs, and what was done to the devices, the latest first. -/
structure Userland where
  links : LinkDir
  present : BlockDevice → Bool
  proc : Option ObcBootInfo
  appfs : Option BlockDevice
  log : List Act

/-- What the programs return that a script runs; of `blkid`, what it
prints. -/
structure Programs where
  moduleReadable : Bool
  /-- The module finds the memory for its entries in /proc. -/
  procEntries : Bool
  rmmod : Bool
  mount : ℕ
  blkid : List Char
  mkfsExt4 : Bool
  mke2fs : Bool
  format : ℕ
  remount : ℕ
  umount : Bool

/-- An argument of a script. -/
inductive Verb where
  | start
  | stop
deriving DecidableEq

/-! ## The parts -/

/-- `obc_sysinfo_part_show`. -/
def obcSysinfoPartShow (info : ObcBootInfo) : List Char := Nat.toDigits 10 info.bootPart ++ ['\n']

/-- What a command substitution makes of an output. -/
def substituted (output : List Char) : List Char := output.rdropWhile (· = '\n')

/-- The device a target in `link_dir` is the path of. -/
def deviceAt (target : List Char) : Option BlockDevice :=
  if h : target.take 3 = "../".toList ∧ target.drop 3 ≠ [] ∧ '\n' ∉ target.drop 3 then
    some ⟨target.drop 3, h.2.1, h.2.2⟩
  else none

/-- The device behind a link, where `[ -e ]` finds one. -/
def Userland.deviceOf (w : Userland) (link : List Char) : Option BlockDevice :=
  ((w.links link).bind deviceAt).filter w.present

/-- A text has a part. -/
def hasPart (part : List Char) : List Char → Bool
  | [] => part.isEmpty
  | c :: cs => part.isPrefixOf (c :: cs) || hasPart part cs

/-- One event of a block device, and the link script run for it. -/
def Userland.uevent (w : Userland) (e : Uevent) : Userland :=
  { w with
    links := obcblock e w.links
    present := Function.update w.present e.device (e.action ≠ .remove) }

/-! ## S09_obc_base -/

/-- `insmod` of the module, whose `obcbase_init` reads the kernel's
command line. -/
def insmod (cmdline : List Char) (r : Programs) : Option ObcBootInfo :=
  match obcReadBootargs (.ok cmdline) with
  | .ok info => if r.procEntries then some info else none
  | .error _ => none

/-- `S09_obc_base`. -/
def obcBase (cmdline : List Char) (r : Programs) (w : Userland) : Verb → Userland
  | .start =>
    if w.proc.isSome then w
    else if r.moduleReadable = false then w
    else { w with proc := insmod cmdline r }
  | .stop => if w.proc.isSome ∧ r.rmmod then { w with proc := none } else w

/-! ## S10_obc_startup -/

/-- The devices that are to be mounted, by the slot. -/
def appfsLink (slot : List Char) : Option (List Char) :=
  if slot = ['0'] then some (linkName "appfs0".toList)
  else if slot = ['1'] then some (linkName "appfs1".toList)
  else none

/-- `format_appfs_if_empty`: what becomes of the system, and whether it
returns zero. -/
def formatAppfsIfEmpty (r : Programs) (device : BlockDevice) (mountRc : ℕ) (w : Userland) :
    Userland × Bool :=
  if mountRc ∉ [1, 19, 22, 255] then (w, false)
  else
    let fsInfo := substituted r.blkid
    if hasPart "TYPE=ext2".toList fsInfo ∨ hasPart "TYPE=ext3".toList fsInfo ∨
        hasPart "TYPE=ext4".toList fsInfo then (w, false)
    else if fsInfo ≠ [] then (w, false)
    else
      let w := if r.umount then { w with appfs := none } else w
      if r.mkfsExt4 = false ∧ r.mke2fs = false then (w, false)
      else ({ w with log := .formatted device :: w.log }, r.format = 0)

/-- The device is mounted on /appfs, read-only. -/
def mountAppfs (rc : ℕ) (device : BlockDevice) (w : Userland) : Userland :=
  if rc = 0 then { w with appfs := some device, log := .mounted device :: w.log } else w

/-- `S10_obc_startup`. -/
def obcStartup (r : Programs) (w : Userland) : Verb → Userland
  | .start =>
    if w.appfs.isSome then w
    else
      match w.proc with
      | none => w
      | some info =>
        match appfsLink (substituted (obcSysinfoPartShow info)) with
        | none => w
        | some link =>
          match w.deviceOf link with
          | none => w
          | some device =>
            let w := mountAppfs r.mount device w
            if r.mount = 0 then w
            else
              let f := formatAppfsIfEmpty r device r.mount w
              if f.2 then mountAppfs r.remount device f.1 else f.1
  | .stop => if w.appfs.isSome ∧ r.umount then { w with appfs := none } else w

/-! ## Runs -/

/-- What happens to the system, one after the other. -/
inductive Happening where
  | uevent (e : Uevent)
  | base (verb : Verb) (r : Programs)
  | startup (verb : Verb) (r : Programs)

/-- A kernel just started, with `/dev/obcblock` empty. -/
def Userland.initial : Userland where
  links := fun _ => none
  present := fun _ => false
  proc := none
  appfs := none
  log := []

/-- One of them. -/
def Userland.step (cmdline : List Char) (w : Userland) : Happening → Userland
  | .uevent e => w.uevent e
  | .base verb r => obcBase cmdline r w verb
  | .startup verb r => obcStartup r w verb

/-- A run. -/
def Userland.run (cmdline : List Char) (hs : List Happening) : Userland :=
  hs.foldl (Userland.step cmdline) .initial

/-- `rcS`, as far as it concerns appfs: the events `mdev -s` makes up for
the devices it finds, each time it is run, and the two scripts. -/
def rcS (coldplug : List Uevent) (r : Programs) : List Happening :=
  coldplug.map .uevent ++ [.base .start r, .startup .start r]

end Rootfs

end ObcSdk
