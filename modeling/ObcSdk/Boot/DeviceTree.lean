import ObcSdk.Boot.Table
/-!
# Partition tables from the device tree

The part of `obc_blk.c` that reads the tables out of a flattened device
tree: the search for the node whose `obcpart` property names a host
(`obc_blk_find_parts_node`), the parse of its `partitions` child
(`obc_blk_parse_partitions`) and the choice of the table the entries go
to (`obc_blk_parse_fdt`). The tree itself is what libfdt makes of the
blob.
-/

namespace ObcSdk

namespace Boot

/-- A node of a device tree: its name, its properties and its
subnodes. -/
inductive FdtNode where
  | mk (name : List Char) (props : List (String × List UInt8)) (subnodes : List FdtNode)

namespace FdtNode

def name : FdtNode → List Char
  | mk n _ _ => n

def props : FdtNode → List (String × List UInt8)
  | mk _ p _ => p

def subnodes : FdtNode → List FdtNode
  | mk _ _ s => s

/-- `fdt_getprop`: the value of the first property of that name. -/
def getprop (n : FdtNode) (key : String) : Option (List UInt8) :=
  (n.props.find? fun p => p.1 = key).map Prod.snd

/-- A property's bytes as characters. -/
def chars (bs : List UInt8) : List Char := bs.map fun b => Char.ofNat b.toNat

/-- Whether a node's name is `s`, its unit address aside when `s` has
none. -/
def nodenameEq (n : FdtNode) (s : List Char) : Bool :=
  n.name == s || (!s.contains '@' && (s ++ ['@']).isPrefixOf n.name)

/-- `fdt_subnode_offset`. -/
def subnode (n : FdtNode) (s : List Char) : Option FdtNode := n.subnodes.find? (·.nodenameEq s)

end FdtNode

/-- `strstr`: whether `needle` occurs in `hay`. -/
def strstr (hay needle : List Char) : Bool := hay.tails.any needle.isPrefixOf

/-! ## The entries of a `partitions` node -/

/-- A string copied to the start of a character array, its NUL
included; the characters after it stay. -/
def setCString {n : ℕ} (old : Vector Char n) (s : List Char) : Vector Char n :=
  Vector.ofFn fun i =>
    if i.val < s.length then s.getD i.val '\x00'
    else if i.val = s.length then '\x00' else old[i]

/-- A big-endian cell of a `reg` property, `fdt32_to_cpu (reg[i])`. -/
def fdt32 (reg : List UInt8) (i : ℕ) : UInt32 :=
  UInt32.ofNat <| ((reg.drop (4 * i)).take 4).foldl (fun a b => 256 * a + b.toNat) 0

/-- A store to an entry through a pointer to the first one of a table:
past the MMC table it lands in the flash table, past that outside
both. -/
def BoardAbilityBlk.setPart (blk : BoardAbilityBlk) (t : PartTable) (i : ℕ)
    (f : BoardAbilityBlkParts → BoardAbilityBlkParts) : BoardAbilityBlk :=
  let j := match t with
    | .mmc => i
    | .flash => maxPartNum + i
  if h : j < maxPartNum then
    { blk with stPartsMmc := blk.stPartsMmc.set j (f blk.stPartsMmc[j]) }
  else if h : j - maxPartNum < maxPartNum then
    { blk with
      stPartsFlash := blk.stPartsFlash.set (j - maxPartNum) (f blk.stPartsFlash[j - maxPartNum]) }
  else blk

/-- A table's count. -/
def BoardAbilityBlk.setPartCount (blk : BoardAbilityBlk) : PartTable → ℤ → BoardAbilityBlk
  | .mmc, c => { blk with iPartCountMmc := c }
  | .flash, c => { blk with iPartCountFlash := c }

/-- `obc_blk_parse_partitions`, over the subnodes still to be visited.
The label and the `reg` property are stored only below the table's end,
the flag always: the loop stops after the entry that does not fit. -/
def obcBlkParsePartitions (t : PartTable) : List FdtNode → BoardAbilityBlk → BoardAbilityBlk
  | [], blk => blk
  | n :: rest, blk =>
    let c := blk.partCount t
    let room := c < maxPartNum
    let blk := match n.getprop "label" with
      | some label =>
        if room then
          blk.setPart t c.toNat fun p =>
            { p with lable := setCString p.lable ((FdtNode.chars label).take 15) }
        else blk
      | none => blk
    let blk := match n.getprop "reg" with
      | some reg =>
        if room ∧ 8 ≤ reg.length then
          blk.setPart t c.toNat fun p => { p with addr := fdt32 reg 0, size := fdt32 reg 1 }
        else blk
      | none => blk
    let blk := blk.setPart t c.toNat fun p =>
      { p with flag := if (n.getprop "bootable").isSome then 1 else 0 }
    if room then obcBlkParsePartitions t rest (blk.setPartCount t (c + 1)) else blk

/-! ## The host's node -/

mutual

/-- `obc_blk_find_parts_node`, `none` for a negative offset. -/
def obcBlkFindPartsNode (pHostName : List Char) : FdtNode → Option FdtNode
  | .mk name props subnodes =>
    match (FdtNode.mk name props subnodes).getprop "obcpart" with
    | some obcpart =>
      if strstr (cString (FdtNode.chars obcpart)) pHostName then some (.mk name props subnodes)
      else obcBlkFindPartsSubnodes pHostName subnodes
    | none => obcBlkFindPartsSubnodes pHostName subnodes

/-- Its loop over the subnodes of a node. -/
def obcBlkFindPartsSubnodes (pHostName : List Char) : List FdtNode → Option FdtNode
  | [] => none
  | n :: rest =>
    match obcBlkFindPartsNode pHostName n with
    | some found => some found
    | none => obcBlkFindPartsSubnodes pHostName rest

end

/-- `CONFIG_FDT_OBC_MMC_NODE`. -/
def configFdtObcMmcNode : List Char := "obc-mmc".toList
/-- `CONFIG_FDT_OBC_FLASH_NODE`. -/
def configFdtObcFlashNode : List Char := "obc-flash".toList

/-- `obc_blk_parse_fdt`; every error leaves the tables as they are. -/
def obcBlkParseFdt (pHostName : List Char) (root : FdtNode) (blk : BoardAbilityBlk) :
    BoardAbilityBlk :=
  match obcBlkFindPartsNode pHostName root with
  | none => blk
  | some node =>
    match node.subnode "partitions".toList with
    | none => blk
    | some partitions =>
      if strstr pHostName configFdtObcMmcNode then
        obcBlkParsePartitions .mmc partitions.subnodes blk
      else if strstr pHostName configFdtObcFlashNode then
        obcBlkParsePartitions .flash partitions.subnodes blk
      else blk

/-! ## What a device tree does not set -/

section Frame

variable {blk : BoardAbilityBlk} {t : PartTable}

@[simp] theorem BoardAbilityBlk.setPart_iRdSize {i : ℕ}
    {f : BoardAbilityBlkParts → BoardAbilityBlkParts} :
    (blk.setPart t i f).iRdSize = blk.iRdSize := by
  simp only [BoardAbilityBlk.setPart, apply_dite BoardAbilityBlk.iRdSize, dite_eq_ite, ite_self]

@[simp] theorem BoardAbilityBlk.setPartCount_iRdSize {c : ℤ} :
    (blk.setPartCount t c).iRdSize = blk.iRdSize := by
  cases t <;> rfl

theorem obcBlkParsePartitions_iRdSize {nodes : List FdtNode} :
    (obcBlkParsePartitions t nodes blk).iRdSize = blk.iRdSize := by
  induction nodes generalizing blk with
  | nil => rfl
  | cons n rest ih =>
    simp only [obcBlkParsePartitions, apply_ite BoardAbilityBlk.iRdSize, ih,
      BoardAbilityBlk.setPartCount_iRdSize, BoardAbilityBlk.setPart_iRdSize, ite_self]
    cases n.getprop "label" <;> cases n.getprop "reg" <;>
      simp [apply_ite BoardAbilityBlk.iRdSize]

/-- The parse leaves the read size as it is. -/
theorem obcBlkParseFdt_iRdSize {pHostName : List Char} {root : FdtNode} :
    (obcBlkParseFdt pHostName root blk).iRdSize = blk.iRdSize := by
  unfold obcBlkParseFdt
  split
  · rfl
  split
  · rfl
  split
  · exact obcBlkParsePartitions_iRdSize
  split
  · exact obcBlkParsePartitions_iRdSize
  · rfl

end Frame

end Boot

end ObcSdk
