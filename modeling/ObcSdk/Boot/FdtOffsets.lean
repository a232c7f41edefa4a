import ObcSdk.Boot.DeviceTree
/-!
# The search and the parse, by offsets

The functions of `obc_blk.c` that go through the device tree, over what
libfdt returns for the offsets of its nodes; an offset below zero is an
error. Each of them is given a bound on how many calls may follow, and
returns none where there are more.
-/

namespace ObcSdk

namespace Boot

/-- libfdt, for one device tree. -/
structure Fdt where
  /-- `fdt_get_name`. -/
  getName : ℤ → Option (List Char)
  /-- What `fdt_getprop` finds a property in. -/
  props : ℤ → List (String × List UInt8)
  /-- `fdt_first_subnode`. -/
  firstSubnode : ℤ → ℤ
  /-- `fdt_next_subnode`. -/
  nextSubnode : ℤ → ℤ
  /-- `fdt_subnode_offset`. -/
  subnodeOffset : ℤ → List Char → ℤ

/-- The string an `obcpart` property starts with. -/
def FdtNode.obcpart (n : FdtNode) : Option (List Char) :=
  (n.getprop "obcpart").map fun value => cString (FdtNode.chars value)

/-- The table a host's partitions go to. -/
def hostTable (pHostName : List Char) : Option PartTable :=
  if strstr pHostName configFdtObcMmcNode then some .mmc
  else if strstr pHostName configFdtObcFlashNode then some .flash
  else none

namespace Fdt

/-- A node's properties. -/
def node (F : Fdt) (offset : ℤ) : FdtNode := .mk [] (F.props offset) []

mutual

/-- `obc_blk_find_parts_node`. -/
def obcBlkFindPartsNode (F : Fdt) (pHostName : List Char) : ℕ → ℤ → Option ℤ
  | 0, _ => none
  | fuel + 1, nodeOffset =>
    if (F.node nodeOffset).obcpart.any fun obcpart => strstr obcpart pHostName then
      some nodeOffset
    else F.obcBlkFindPartsSubnodes pHostName fuel (F.firstSubnode nodeOffset)

/-- Its loop over the subnodes of a node. -/
def obcBlkFindPartsSubnodes (F : Fdt) (pHostName : List Char) : ℕ → ℤ → Option ℤ
  | 0, _ => none
  | fuel + 1, subnodeOffset =>
    if subnodeOffset < 0 then some (-1)
    else
      match F.obcBlkFindPartsNode pHostName fuel subnodeOffset with
      | none => none
      | some foundNode =>
        if 0 ≤ foundNode then some foundNode
        else F.obcBlkFindPartsSubnodes pHostName fuel (F.nextSubnode subnodeOffset)

end

/-- The loop of `obc_blk_parse_partitions`; its body is that of a node
with one subnode. -/
def obcBlkParsePartitions (F : Fdt) (t : PartTable) :
    ℕ → ℤ → BoardAbilityBlk → Option BoardAbilityBlk
  | 0, _, _ => none
  | fuel + 1, subnodeOffset, blk =>
    if subnodeOffset < 0 then some blk
    else
      let blk' := Boot.obcBlkParsePartitions t [F.node subnodeOffset] blk
      if blk.partCount t < maxPartNum then
        F.obcBlkParsePartitions t fuel (F.nextSubnode subnodeOffset) blk'
      else some blk'

/-- The loop of `obc_blk_parse_fdt` that lists the subnodes of a node
without partitions. -/
def listSubnodes (F : Fdt) : ℕ → ℤ → Option Unit
  | 0, _ => none
  | fuel + 1, subnodeOffset =>
    if subnodeOffset < 0 then some () else F.listSubnodes fuel (F.nextSubnode subnodeOffset)

/-- `obc_blk_parse_fdt`. -/
def obcBlkParseFdt (F : Fdt) (pHostName : List Char) (fuel : ℕ) (blk : BoardAbilityBlk) :
    Option BoardAbilityBlk :=
  match F.obcBlkFindPartsNode pHostName fuel 0 with
  | none => none
  | some nodeOffset =>
    if nodeOffset < 0 then some blk
    else if F.getName nodeOffset = none then some blk
    else
      let partitionsNode := F.subnodeOffset nodeOffset "partitions".toList
      if partitionsNode < 0 then
        (F.listSubnodes fuel (F.firstSubnode nodeOffset)).map fun _ => blk
      else if F.getName partitionsNode = none then some blk
      else
        match hostTable pHostName with
        | some t => F.obcBlkParsePartitions t fuel (F.firstSubnode partitionsNode) blk
        | none => some blk

/-! ## The tree behind the offsets -/

/-- Where a subnode of that name is, among siblings from an offset on. -/
def lookup (F : Fdt) (s : List Char) : ℤ → List FdtNode → Option ℤ
  | _, [] => none
  | offset, n :: rest =>
    if n.nodenameEq s then some offset else F.lookup s (F.nextSubnode offset) rest

mutual

/-- **A node is at an offset**: its name and its properties are read
there, its subnodes are what the first one and those next to it lead
through, and they are found by their names. -/
def At (F : Fdt) (offset : ℤ) : FdtNode → Prop
  | .mk name props subnodes =>
    0 ≤ offset ∧ F.getName offset = some name ∧ F.props offset = props ∧
      F.Siblings (F.firstSubnode offset) subnodes ∧
      ∀ s, match F.lookup s (F.firstSubnode offset) subnodes with
        | some o => F.subnodeOffset offset s = o
        | none => F.subnodeOffset offset s < 0

/-- Nodes follow one another from an offset on, and then none. -/
def Siblings (F : Fdt) (offset : ℤ) : List FdtNode → Prop
  | [] => offset < 0
  | n :: rest => F.At offset n ∧ F.Siblings (F.nextSubnode offset) rest

end

mutual

/-- **The tree in preorder**: a node, and behind it the trees of its
subnodes, each with the offset it is at. -/
def preorder (F : Fdt) (offset : ℤ) : FdtNode → List (ℤ × FdtNode)
  | .mk name props subnodes =>
    (offset, .mk name props subnodes) :: F.preorderSiblings (F.firstSubnode offset) subnodes

/-- The trees of siblings, one behind the other. -/
def preorderSiblings (F : Fdt) (offset : ℤ) : List FdtNode → List (ℤ × FdtNode)
  | [] => []
  | n :: rest => F.preorder offset n ++ F.preorderSiblings (F.nextSubnode offset) rest

end

end Fdt

end Boot

end ObcSdk
