import Mathlib.Data.List.DropRight
import Mathlib.Data.List.Basic
import Mathlib.Tactic.Common
/-!
# The links of /dev/obcblock

The script mdev runs for every event of a block device
(`etc/mdev/obcblock`). On `add` and `change` it reads the partition's
name out of the device's `uevent` file and sets the link of that name
to the device; on `remove` it deletes the links that lead to the device.
-/

namespace ObcSdk

namespace Rootfs

/-- A block device, by the name the kernel has for it. -/
structure BlockDevice where
  name : List Char
  named : name ≠ []
  oneLine : '\n' ∉ name
deriving DecidableEq

/-- `ACTION`. -/
inductive Action where
  | add
  | change
  | remove
deriving DecidableEq

/-- An event, with what the device's `uevent` file reads as: `none` when
it cannot be read. -/
structure Uevent where
  device : BlockDevice
  action : Action
  uevent : Option (List Char)

/-- The links in `link_dir`, each with its target. A directory that is
not there yet has none. -/
abbrev LinkDir : Type := List Char → Option (List Char)

/-! ## Reading the name -/

/-- The lines `read` finds, without their NULs. One without its newline
is the file's end. -/
def readLines (content : List Char) : List (List Char) :=
  ((content.filter (· ≠ '\x00')).splitOn '\n').dropLast

/-- The field a line has behind its first equals sign. -/
def behindEq (line : List Char) : List Char := (line.dropWhile (· ≠ '=')).tail

/-- What `read` makes of a last field: an equals sign at its end is
eaten if it is the only one. -/
def lastField (value : List Char) : List Char :=
  if value.getLast? = some '=' ∧ '=' ∉ value.dropLast then value.dropLast else value

/-- `IFS='=' read -r key value`. -/
def readKeyValue (line : List Char) : List Char × List Char :=
  (line.takeWhile (· ≠ '='), lastField (behindEq line))

/-- The key of the line that is looked for. -/
def partnameKey : List Char := "PARTNAME".toList

/-- The loop that looks for it, `partname` at its end. -/
def readPartname : List (List Char) → List Char
  | [] => []
  | line :: rest =>
    let kv := readKeyValue line
    if kv.1 = partnameKey then kv.2 else readPartname rest

/-- A name the script takes: not empty, of letters, digits, `_`, `.` and
`-`. -/
def ValidPartname (partname : List Char) : Prop :=
  partname ≠ [] ∧ ∀ c ∈ partname, c.isAlphanum ∨ c = '_' ∨ c = '.' ∨ c = '-'

instance (partname : List Char) : Decidable (ValidPartname partname) :=
  @instDecidableAnd _ _ inferInstance (List.decidableBAll _ partname)

/-! ## The script -/

/-- `link_prefix`. -/
def linkPrefix : List Char := "obc_parttion_".toList

/-- The link of a name. -/
def linkName (partname : List Char) : List Char := linkPrefix ++ partname

/-- What leads to a device. -/
def linkTarget (device : BlockDevice) : List Char := "../".toList ++ device.name

/-- What `readlink` prints of a link, in a command substitution. -/
def readlink (target : List Char) : List Char := target.rdropWhile (· = '\n')

/-- The script. -/
def obcblock (e : Uevent) (links : LinkDir) : LinkDir :=
  match e.action with
  | .add | .change =>
    match e.uevent with
    | none => links
    | some content =>
      let partname := readPartname (readLines content)
      if ValidPartname partname then fun link =>
        if link = linkName partname then some (linkTarget e.device) else links link
      else links
  | .remove => fun link =>
    match links link with
    | some target =>
      if linkPrefix <+: link ∧ readlink target = linkTarget e.device then none else some target
    | none => none

end Rootfs

end ObcSdk
