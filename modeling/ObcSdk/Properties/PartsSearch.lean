import Mathlib.Data.List.Infix
import ObcSdk.Boot.FdtOffsets
import ObcSdk.Boot.Partitions
/-!
# The search for a host's partitions

Going from first subnodes to next ones the search visits the nodes in
preorder, returns the offset of the first one whose `obcpart` contains
the host's name, and ends. To contain a name is not to be it, and a node
of another host that comes first is taken.
-/

namespace ObcSdk

namespace Boot

/-- A node's `obcpart` contains the host's name. -/
def FdtNode.containsHost (pHostName : List Char) (n : FdtNode) : Bool :=
  n.obcpart.any fun obcpart => strstr obcpart pHostName

/-- A node's `obcpart` names the host. -/
def FdtNode.namesHost (pHostName : List Char) (n : FdtNode) : Bool :=
  n.obcpart = some pHostName

/-- The first node in preorder that names the host, with its offset. -/
def Fdt.hostNode (F : Fdt) (pHostName : List Char) (root : FdtNode) : Option (ℤ × FdtNode) :=
  (F.preorder 0 root).find? fun p => p.2.namesHost pHostName

/-- The tables with the entries of a host's node added: those of its
subnode `partitions`, to the host's table. -/
def hostParse (pHostName : List Char) (found : Option FdtNode) (blk : BoardAbilityBlk) :
    BoardAbilityBlk :=
  match found.bind fun n => n.subnode "partitions".toList, hostTable pHostName with
  | some partitions, some t => obcBlkParsePartitions t partitions.subnodes blk
  | _, _ => blk

/-- A run ends, with a result. -/
def EndsWith {α : Type} (run : ℕ → Option α) (a : α) : Prop :=
  ∃ fuel, ∀ fuel', fuel ≤ fuel' → run fuel' = some a

/-- **The host's partitions are found**: the search ends with the offset
of the first node that names the host, or a negative one where there is
none, and with that of no other node; and the parse ends with that node's
partitions added, all of them within the host's table. -/
structure FindsPartitions (F : Fdt) (pHostName : List Char) (root : FdtNode)
    (blk : BoardAbilityBlk) : Prop where
  found : ∃ r, EndsWith (fun fuel => F.obcBlkFindPartsNode pHostName fuel 0) r ∧
    (match F.hostNode pHostName root with
      | some p => r = p.1
      | none => r < 0) ∧
    ∀ p ∈ F.preorder 0 root, p.1 = r → p.2.namesHost pHostName = true
  parsed : EndsWith (fun fuel => F.obcBlkParseFdt pHostName fuel blk)
    (hostParse pHostName ((F.hostNode pHostName root).map Prod.snd) blk)
  within : ∀ p partitions t, F.hostNode pHostName root = some p →
    p.2.subnode "partitions".toList = some partitions → hostTable pHostName = some t →
    ∀ s ∈ partStores partitions.subnodes (blk.partCount t).toNat, s.InTable

/-- A node whose `obcpart` contains the host's name and is another comes
behind one that names the host. -/
def HostFirst (F : Fdt) (pHostName : List Char) (root : FdtNode) : Prop :=
  ∀ before p behind, F.preorder 0 root = before ++ p :: behind →
    p.2.containsHost pHostName = true → p.2.namesHost pHostName = false →
    ∃ q ∈ before, q.2.namesHost pHostName = true

/-- There is room for the host's partitions in its table. -/
def HostFits (F : Fdt) (pHostName : List Char) (root : FdtNode) (blk : BoardAbilityBlk) : Prop :=
  ∀ p partitions t, F.hostNode pHostName root = some p →
    p.2.subnode "partitions".toList = some partitions → hostTable pHostName = some t →
    partitions.subnodes ≠ [] → blk.partCount t + partitions.subnodes.length ≤ maxPartNum

section Names

variable {pHostName : List Char} {n m : FdtNode}

theorem strstr_self : strstr pHostName pHostName = true := by
  rw [strstr, List.any_eq_true]
  exact ⟨pHostName, (List.mem_tails _ _).2 (List.suffix_refl _), by simp⟩

theorem containsHost_of_namesHost (h : n.namesHost pHostName = true) :
    n.containsHost pHostName = true := by
  rw [FdtNode.namesHost, decide_eq_true_eq] at h
  rw [FdtNode.containsHost, h, Option.any_some, strstr_self]

/-- What a node names is told by its properties. -/
theorem obcpart_congr (h : n.props = m.props) : n.obcpart = m.obcpart := by
  rw [FdtNode.obcpart, FdtNode.obcpart, FdtNode.getprop, FdtNode.getprop, h]

end Names

section Lists

variable {α : Type} {l : List α} {c d : α → Bool}

/-- **The first of the one kind is the first of the other**, a part of
it, exactly where every other one of it comes behind one of the part. -/
theorem find?_eq_find?_iff (hcd : ∀ a, d a = true → c a = true) :
    l.find? c = l.find? d ↔ ∀ before a behind, l = before ++ a :: behind → c a = true →
      d a = false → ∃ b ∈ before, d b = true := by
  induction l with
  | nil =>
    refine iff_of_true rfl fun before a behind h => ?_
    simp at h
  | cons x l ih =>
    by_cases hd : d x = true
    · rw [List.find?_cons_of_pos (hcd x hd), List.find?_cons_of_pos hd]
      refine iff_of_true rfl fun before a behind h _ ha => ?_
      cases before with
      | nil =>
        rw [(List.cons.inj h).1, ha] at hd
        cases hd
      | cons y before => exact ⟨x, by rw [(List.cons.inj h).1]; exact List.mem_cons_self, hd⟩
    · by_cases hc : c x = true
      · rw [List.find?_cons_of_pos hc]
        refine iff_of_false (fun h => hd (List.find?_some h.symm)) fun h => ?_
        obtain ⟨b, hb, -⟩ := h [] x l rfl hc (by simpa using hd)
        cases hb
      · rw [List.find?_cons_of_neg hc, List.find?_cons_of_neg hd, ih]
        constructor
        · intro h before a behind hl ha hda
          cases before with
          | nil =>
            rw [(List.cons.inj hl).1] at hc
            exact absurd ha hc
          | cons y before =>
            obtain ⟨b, hb, hdb⟩ := h before a behind (List.cons.inj hl).2 ha hda
            exact ⟨b, List.mem_cons_of_mem _ hb, hdb⟩
        · intro h before a behind hl ha hda
          obtain ⟨b, hb, hdb⟩ := h (x :: before) a behind (by rw [hl, List.cons_append]) ha hda
          rcases List.mem_cons.1 hb with rfl | hb
          · exact absurd hdb hd
          · exact ⟨b, hb, hdb⟩

end Lists

section Runs

variable {F : Fdt} {pHostName s : List Char} {t : PartTable} {blk : BoardAbilityBlk}
  {root n m : FdtNode} {nodes : List FdtNode} {offset : ℤ} {p : ℤ × FdtNode}

/-- What is found at an offset is what a node there has. -/
theorem Fdt.At.facts (h : F.At offset n) :
    0 ≤ offset ∧ F.getName offset = some n.name ∧ F.props offset = n.props ∧
      F.Siblings (F.firstSubnode offset) n.subnodes ∧
      ∀ s, match F.lookup s (F.firstSubnode offset) n.subnodes with
        | some o => F.subnodeOffset offset s = o
        | none => F.subnodeOffset offset s < 0 := by
  cases n
  exact h

mutual

/-- **Every node in preorder** is at its offset. -/
theorem at_of_mem_preorder {n : FdtNode} {offset : ℤ} (h : F.At offset n)
    (hp : p ∈ F.preorder offset n) : F.At p.1 p.2 := by
  cases n with
  | mk name props subnodes =>
    rw [Fdt.preorder, List.mem_cons] at hp
    rcases hp with rfl | hp
    · exact h
    · exact at_of_mem_preorderSiblings h.facts.2.2.2.1 hp

theorem at_of_mem_preorderSiblings {nodes : List FdtNode} {offset : ℤ}
    (h : F.Siblings offset nodes) (hp : p ∈ F.preorderSiblings offset nodes) :
    F.At p.1 p.2 := by
  cases nodes with
  | nil => simp [Fdt.preorderSiblings] at hp
  | cons n rest =>
    rw [Fdt.preorderSiblings, List.mem_append] at hp
    rcases hp with hp | hp
    · exact at_of_mem_preorder h.1 hp
    · exact at_of_mem_preorderSiblings h.2 hp

end

/-- What the search returns: an offset, or `-1`. -/
def foundOffset (found : Option (ℤ × FdtNode)) : ℤ := found.elim (-1) Prod.fst

theorem endsWith_succ {α : Type} {run run' : ℕ → Option α} {a : α}
    (hrun : ∀ fuel, run (fuel + 1) = run' fuel) (h : EndsWith run' a) : EndsWith run a := by
  obtain ⟨fuel, h⟩ := h
  refine ⟨fuel + 1, fun fuel' hle => ?_⟩
  obtain ⟨k, rfl⟩ := Nat.exists_eq_add_of_le' hle
  rw [Nat.add_succ, hrun]
  exact h _ (by omega)

theorem endsWith_const {α : Type} {run : ℕ → Option α} {a : α}
    (hrun : ∀ fuel, run (fuel + 1) = some a) : EndsWith run a :=
  have hsome : EndsWith (fun _ => some a) a := ⟨0, fun _ _ => rfl⟩
  endsWith_succ hrun hsome

variable (pHostName)

mutual

/-- **The search ends**, with the first node in preorder whose `obcpart`
contains the host's name. -/
theorem endsWith_findPartsNode {n : FdtNode} {offset : ℤ} (h : F.At offset n) :
    EndsWith (fun fuel => F.obcBlkFindPartsNode pHostName fuel offset)
      (foundOffset ((F.preorder offset n).find? fun p => p.2.containsHost pHostName)) := by
  cases n with
  | mk name props subnodes =>
    obtain ⟨-, -, hprops, hsubs, -⟩ := h.facts
    have hpart : (F.node offset).obcpart = (FdtNode.mk name props subnodes).obcpart :=
      obcpart_congr hprops
    rw [Fdt.preorder]
    by_cases hc : (FdtNode.mk name props subnodes).containsHost pHostName = true
    · rw [List.find?_cons_of_pos (p := fun p : ℤ × FdtNode => p.2.containsHost pHostName) hc]
      refine endsWith_const fun fuel => ?_
      rw [Fdt.obcBlkFindPartsNode, hpart]
      exact if_pos hc
    · rw [List.find?_cons_of_neg (p := fun p : ℤ × FdtNode => p.2.containsHost pHostName) hc]
      refine endsWith_succ (fun fuel => ?_) (endsWith_findPartsSubnodes hsubs)
      rw [Fdt.obcBlkFindPartsNode, hpart]
      exact if_neg hc

theorem endsWith_findPartsSubnodes {nodes : List FdtNode} {offset : ℤ}
    (h : F.Siblings offset nodes) :
    EndsWith (fun fuel => F.obcBlkFindPartsSubnodes pHostName fuel offset)
      (foundOffset
        ((F.preorderSiblings offset nodes).find? fun p => p.2.containsHost pHostName)) := by
  cases nodes with
  | nil =>
    refine endsWith_const fun fuel => ?_
    have hneg : offset < 0 := h
    rw [Fdt.obcBlkFindPartsSubnodes, if_pos hneg]
    rfl
  | cons n rest =>
    have hnonneg : ¬ offset < 0 := not_lt.2 h.1.facts.1
    obtain ⟨fuel, hfirst⟩ := endsWith_findPartsNode h.1
    obtain ⟨fuel', hrest⟩ := endsWith_findPartsSubnodes h.2
    have hloop : ∀ k, F.obcBlkFindPartsSubnodes pHostName (k + 1) offset =
        match F.obcBlkFindPartsNode pHostName k offset with
        | none => none
        | some foundNode =>
          if 0 ≤ foundNode then some foundNode
          else F.obcBlkFindPartsSubnodes pHostName k (F.nextSubnode offset) := by
      intro k
      rw [Fdt.obcBlkFindPartsSubnodes]
      exact if_neg hnonneg
    refine endsWith_succ hloop ⟨max fuel fuel', fun k hk => ?_⟩
    have hfirst := hfirst k (by omega)
    have hrest := hrest k (by omega)
    rw [Fdt.preorderSiblings, List.find?_append]
    cases hfind : (F.preorder offset n).find? fun p => p.2.containsHost pHostName with
    | none =>
      rw [hfind] at hfirst
      simp only at hfirst
      simp only [hfirst, foundOffset, Option.elim_none, Option.none_or]
      exact hrest
    | some p =>
      have hp := (at_of_mem_preorder h.1 (List.mem_of_find?_eq_some hfind)).facts.1
      rw [hfind] at hfirst
      simp only at hfirst
      simp only [hfirst, foundOffset, Option.elim_some, Option.some_or, if_pos hp]

end

variable {pHostName}

/-- The body of the parse's loop sees the properties only. -/
theorem parsePartitions_congr (h : n.props = m.props) :
    obcBlkParsePartitions t [n] blk = obcBlkParsePartitions t [m] blk := by
  have hget : ∀ key, n.getprop key = m.getprop key := by
    intro key
    rw [FdtNode.getprop, FdtNode.getprop, h]
  simp only [obcBlkParsePartitions, hget]

/-- The parse, one turn after the other. -/
theorem parsePartitions_cons : obcBlkParsePartitions t (n :: nodes) blk =
    if blk.partCount t < maxPartNum then
      obcBlkParsePartitions t nodes (obcBlkParsePartitions t [n] blk)
    else obcBlkParsePartitions t [n] blk := by
  by_cases h : blk.partCount t < maxPartNum
  · rw [if_pos h]
    simp only [obcBlkParsePartitions, if_pos h]
  · rw [if_neg h]
    simp only [obcBlkParsePartitions, if_neg h]

/-- **The parse ends**, with the siblings' entries added. -/
theorem endsWith_parsePartitions (h : F.Siblings offset nodes) :
    EndsWith (fun fuel => F.obcBlkParsePartitions t fuel offset blk)
      (obcBlkParsePartitions t nodes blk) := by
  induction nodes generalizing offset blk with
  | nil =>
    have hneg : offset < 0 := h
    refine endsWith_const fun fuel => ?_
    rw [Fdt.obcBlkParsePartitions, if_pos hneg]
    rfl
  | cons n nodes ih =>
    obtain ⟨hnonneg, -, hprops, -, -⟩ := h.1.facts
    have hbody : obcBlkParsePartitions t [F.node offset] blk = obcBlkParsePartitions t [n] blk :=
      parsePartitions_congr hprops
    rw [parsePartitions_cons]
    by_cases hroom : blk.partCount t < maxPartNum
    · rw [if_pos hroom]
      refine endsWith_succ (fun fuel => ?_) (ih h.2)
      rw [Fdt.obcBlkParsePartitions, if_neg (not_lt.2 hnonneg)]
      simp only [if_pos hroom, hbody]
    · rw [if_neg hroom]
      refine endsWith_const fun fuel => ?_
      rw [Fdt.obcBlkParsePartitions, if_neg (not_lt.2 hnonneg)]
      simp only [if_neg hroom, hbody]

theorem endsWith_listSubnodes (h : F.Siblings offset nodes) :
    EndsWith (fun fuel => F.listSubnodes fuel offset) () := by
  induction nodes generalizing offset with
  | nil =>
    have hneg : offset < 0 := h
    refine endsWith_const fun fuel => ?_
    rw [Fdt.listSubnodes, if_pos hneg]
  | cons n nodes ih =>
    refine endsWith_succ (fun fuel => ?_) (ih h.2)
    rw [Fdt.listSubnodes, if_neg (not_lt.2 h.1.facts.1)]

/-- A subnode is looked up where it is. -/
theorem lookup_cases (h : F.Siblings offset nodes) :
    (F.lookup s offset nodes = none ∧ nodes.find? (·.nodenameEq s) = none) ∨
      ∃ o m, F.lookup s offset nodes = some o ∧ nodes.find? (·.nodenameEq s) = some m ∧
        F.At o m := by
  induction nodes generalizing offset with
  | nil => exact .inl ⟨rfl, rfl⟩
  | cons n nodes ih =>
    rw [Fdt.lookup]
    by_cases hname : n.nodenameEq s = true
    · rw [if_pos hname, List.find?_cons_of_pos (p := fun x : FdtNode => x.nodenameEq s) hname]
      exact .inr ⟨offset, n, rfl, rfl, h.1⟩
    · rw [if_neg hname, List.find?_cons_of_neg (p := fun x : FdtNode => x.nodenameEq s) hname]
      exact ih h.2

/-- A node's subnode of a name, at the offset libfdt returns for it. -/
theorem Fdt.At.subnode_cases (h : F.At offset n) :
    (F.subnodeOffset offset s < 0 ∧ n.subnode s = none) ∨
      ∃ m, n.subnode s = some m ∧ F.At (F.subnodeOffset offset s) m := by
  obtain ⟨-, -, -, hsubs, hlookup⟩ := h.facts
  have hs := hlookup s
  rcases lookup_cases (s := s) hsubs with ⟨hnone, hfind⟩ | ⟨o, m, hsome, hfind, hat⟩
  · rw [hnone] at hs
    exact .inl ⟨hs, hfind⟩
  · rw [hsome] at hs
    simp only at hs
    rw [hs]
    exact .inr ⟨m, hfind, hat⟩

variable (blk) in
/-- The parse of a node found, by where its partitions are and which table
they go to. -/
theorem parseFdt_of_found {fuel : ℕ} (hp : F.At offset n)
    (hfound : F.obcBlkFindPartsNode pHostName fuel 0 = some offset) :
    F.obcBlkParseFdt pHostName fuel blk =
      if F.subnodeOffset offset "partitions".toList < 0 then
        (F.listSubnodes fuel (F.firstSubnode offset)).map fun _ => blk
      else if F.getName (F.subnodeOffset offset "partitions".toList) = none then some blk
      else (hostTable pHostName).elim (some blk) fun t => F.obcBlkParsePartitions t fuel
        (F.firstSubnode (F.subnodeOffset offset "partitions".toList)) blk := by
  obtain ⟨hnonneg, hname, -⟩ := hp.facts
  rw [Fdt.obcBlkParseFdt, hfound]
  simp only
  rw [if_neg (not_lt.2 hnonneg), if_neg (by rw [hname]; exact Option.some_ne_none _)]
  cases hostTable pHostName <;> rfl

mutual

/-- **The search over the tree** is that over its offsets. -/
theorem obcBlkFindPartsNode_eq (F : Fdt) (pHostName : List Char) (offset : ℤ) (n : FdtNode) :
    obcBlkFindPartsNode pHostName n =
      ((F.preorder offset n).find? fun p => p.2.containsHost pHostName).map Prod.snd := by
  cases n with
  | mk name props subnodes =>
    have hsubs := obcBlkFindPartsSubnodes_eq F pHostName (F.firstSubnode offset) subnodes
    have hhost : (FdtNode.mk name props subnodes).containsHost pHostName =
        ((FdtNode.mk name props subnodes).getprop "obcpart").any fun value =>
          strstr (cString (FdtNode.chars value)) pHostName := by
      rw [FdtNode.containsHost, FdtNode.obcpart, Option.any_map]
    rw [obcBlkFindPartsNode, Fdt.preorder, hsubs, List.find?_cons]
    simp only [hhost]
    cases (FdtNode.mk name props subnodes).getprop "obcpart" with
    | none => rfl
    | some value =>
      simp only [Option.any_some]
      cases strstr (cString (FdtNode.chars value)) pHostName <;> rfl

theorem obcBlkFindPartsSubnodes_eq (F : Fdt) (pHostName : List Char) (offset : ℤ)
    (nodes : List FdtNode) : obcBlkFindPartsSubnodes pHostName nodes =
      ((F.preorderSiblings offset nodes).find? fun p => p.2.containsHost pHostName).map
        Prod.snd := by
  cases nodes with
  | nil => rfl
  | cons n rest =>
    rw [obcBlkFindPartsSubnodes, obcBlkFindPartsNode_eq F pHostName offset n,
      obcBlkFindPartsSubnodes_eq F pHostName (F.nextSubnode offset) rest, Fdt.preorderSiblings,
      List.find?_append]
    cases (F.preorder offset n).find? fun p => p.2.containsHost pHostName <;> rfl

end

variable (F pHostName root blk) in
/-- The parse over the tree adds the partitions of the node that the search
finds. -/
theorem obcBlkParseFdt_eq_hostParse : obcBlkParseFdt pHostName root blk = hostParse pHostName
    (((F.preorder 0 root).find? fun p => p.2.containsHost pHostName).map Prod.snd) blk := by
  rw [obcBlkParseFdt, hostParse, obcBlkFindPartsNode_eq F pHostName 0 root]
  cases ((F.preorder 0 root).find? fun p => p.2.containsHost pHostName).map Prod.snd with
  | none => rfl
  | some n =>
    simp only [Option.bind_some, hostTable]
    cases n.subnode "partitions".toList with
    | none => rfl
    | some partitions =>
      simp only
      split
      · rfl
      · split <;> rfl

/-- **The parse over the offsets ends**, with what the one over the tree
gives. -/
theorem endsWith_obcBlkParseFdt (h : F.At 0 root) :
    EndsWith (fun fuel => F.obcBlkParseFdt pHostName fuel blk)
      (obcBlkParseFdt pHostName root blk) := by
  rw [obcBlkParseFdt_eq_hostParse F]
  obtain ⟨fuel, hsearch⟩ := endsWith_findPartsNode pHostName h
  cases hfind : (F.preorder 0 root).find? fun p => p.2.containsHost pHostName with
  | none =>
    refine ⟨fuel, fun k hk => ?_⟩
    have hk := hsearch k hk
    rw [hfind] at hk
    simp only [foundOffset, Option.elim_none] at hk
    simp only [Fdt.obcBlkParseFdt, hk]
    rfl
  | some p =>
    have hp := at_of_mem_preorder h (List.mem_of_find?_eq_some hfind)
    have hsearch : ∀ k, fuel ≤ k → F.obcBlkFindPartsNode pHostName k 0 = some p.1 := by
      intro k hk
      have hk := hsearch k hk
      rw [hfind] at hk
      exact hk
    have hcall := fun k hk => parseFdt_of_found blk hp (hsearch k hk)
    rcases hp.subnode_cases (s := "partitions".toList) with ⟨hneg, hnone⟩ | ⟨m, hsome, hat⟩
    · obtain ⟨fuel', hlist⟩ := endsWith_listSubnodes hp.facts.2.2.2.1
      refine ⟨max fuel fuel', fun k hk => ?_⟩
      have hlist := hlist k (by omega)
      simp only at hlist
      simp only [hcall k (by omega), if_pos hneg, hlist, hostParse, Option.map_some,
        Option.bind_some, hnone]
    · obtain ⟨hnonneg', hname', -, hsubs', -⟩ := hat.facts
      cases htable : hostTable pHostName with
      | none =>
        refine ⟨fuel, fun k hk => ?_⟩
        simp only [hcall k hk, if_neg (not_lt.2 hnonneg'), hname', htable, hostParse,
          Option.map_some, Option.bind_some, hsome, Option.elim_none, reduceCtorEq, if_false]
      | some t =>
        have hends : EndsWith (fun fuel => F.obcBlkParsePartitions t fuel
            (F.firstSubnode (F.subnodeOffset p.1 "partitions".toList)) blk)
            (obcBlkParsePartitions t m.subnodes blk) := endsWith_parsePartitions hsubs'
        obtain ⟨fuel', hparse⟩ := hends
        refine ⟨max fuel fuel', fun k hk => ?_⟩
        have hparse := hparse k (by omega)
        simp only at hparse
        simp only [hcall k (by omega), if_neg (not_lt.2 hnonneg'), hname', htable, hostParse,
          Option.map_some, Option.bind_some, hsome, Option.elim_some, hparse, reduceCtorEq,
          if_false]

/-- A run ends with one result. -/
theorem EndsWith.unique {α : Type} {run : ℕ → Option α} {a b : α} (ha : EndsWith run a)
    (hb : EndsWith run b) : a = b := by
  obtain ⟨fuel, ha⟩ := ha
  obtain ⟨fuel', hb⟩ := hb
  have ha := ha _ (le_max_left fuel fuel')
  have hb := hb _ (le_max_right fuel fuel')
  exact Option.some.inj (ha.symm.trans hb)

/-- Nodes at one offset name the same. -/
theorem namesHost_congr (h : F.At offset n) (h' : F.At offset m) :
    n.namesHost pHostName = m.namesHost pHostName := by
  rw [FdtNode.namesHost, FdtNode.namesHost,
    obcpart_congr (h.facts.2.2.1.symm.trans h'.facts.2.2.1)]

/-- **The first node that contains the host's name** is the one that
names it where it is found at its offset. -/
theorem find?_eq_hostNode (h : F.At 0 root) {r : ℤ}
    (hr : r = foundOffset ((F.preorder 0 root).find? fun p => p.2.containsHost pHostName))
    (hfirst : match F.hostNode pHostName root with
      | some p => r = p.1
      | none => r < 0) :
    ((F.preorder 0 root).find? fun p => p.2.containsHost pHostName) =
      F.hostNode pHostName root := by
  have hsub : ∀ p : ℤ × FdtNode, p.2.namesHost pHostName = true →
      p.2.containsHost pHostName = true := fun p => containsHost_of_namesHost
  cases hc : (F.preorder 0 root).find? fun p => p.2.containsHost pHostName with
  | none =>
    rw [Fdt.hostNode, eq_comm, List.find?_eq_none]
    exact fun p hp hnames => List.find?_eq_none.1 hc p hp (hsub p hnames)
  | some p =>
    have hp := at_of_mem_preorder h (List.mem_of_find?_eq_some hc)
    rw [hc] at hr
    cases hd : F.hostNode pHostName root with
    | none =>
      rw [hd] at hfirst
      have hneg : p.1 < 0 := hr.symm.trans_lt hfirst
      exact absurd hneg (not_lt.2 hp.facts.1)
    | some q =>
      have hq := at_of_mem_preorder h (List.mem_of_find?_eq_some hd)
      rw [hd] at hfirst
      have hoff : p.1 = q.1 := hr.symm.trans hfirst
      have hnames : p.2.namesHost pHostName = true := by
        rw [namesHost_congr hp (hoff ▸ hq)]
        exact List.find?_some (p := fun p : ℤ × FdtNode => p.2.namesHost pHostName) hd
      -- `p` is the first that contains the name, and names it itself
      obtain ⟨-, before, behind, hl, hbefore⟩ := List.find?_eq_some_iff_append.1 hc
      rw [← hd, Fdt.hostNode, eq_comm, List.find?_eq_some_iff_append]
      refine ⟨hnames, before, behind, hl, fun b hb => ?_⟩
      have hno := hbefore b hb
      simp only [Bool.not_eq_eq_eq_not, Bool.not_true] at hno ⊢
      exact Bool.eq_false_iff.2 fun hb' => Bool.eq_false_iff.1 hno (hsub b hb')

/-- The stores for the siblings stay in the table exactly where it has room
for all of them, if there are any: the flag is stored before the count is
looked at. -/
theorem forall_inTable_iff (nodes : List FdtNode) (hcount : 0 ≤ blk.partCount t) :
    (∀ s ∈ partStores nodes (blk.partCount t).toNat, s.InTable) ↔
      (nodes ≠ [] → blk.partCount t + nodes.length ≤ maxPartNum) := by
  obtain ⟨c, hc⟩ := Int.eq_ofNat_of_zero_le hcount
  rw [hc, Int.toNat_natCast]
  cases nodes with
  | nil => simp [partStores]
  | cons n nodes =>
    by_cases hle : c ≤ maxPartNum
    · rw [inTable_partStores (n :: nodes) hle]
      simp only [ne_eq, reduceCtorEq, not_false_iff, forall_const]
      omega
    · have hflag : PartStore.flag c n.bootableFlag ∈ partStores (n :: nodes) c := by
        rw [partStores, FdtNode.stores]
        simp
      refine iff_of_false (fun hin => ?_) fun hroom => ?_
      · have hlt : c < maxPartNum := hin _ hflag
        omega
      · have hsum := hroom (List.cons_ne_nil n nodes)
        rw [List.length_cons] at hsum
        omega

/-- What is found at the offset of the host's node is that node. -/
theorem namesHost_of_found (h : F.At 0 root) (hp : p ∈ F.preorder 0 root)
    (hoff : p.1 = foundOffset (F.hostNode pHostName root)) :
    p.2.namesHost pHostName = true := by
  have hat := at_of_mem_preorder h hp
  cases hd : F.hostNode pHostName root with
  | none =>
    rw [hd] at hoff
    have hneg : p.1 < 0 := hoff.trans_lt (by decide : (-1 : ℤ) < 0)
    exact absurd hneg (not_lt.2 hat.facts.1)
  | some q =>
    have hq := at_of_mem_preorder h (List.mem_of_find?_eq_some hd)
    rw [hd] at hoff
    have hsame : p.1 = q.1 := hoff
    rw [namesHost_congr hat (hsame ▸ hq)]
    exact List.find?_some (p := fun p : ℤ × FdtNode => p.2.namesHost pHostName) hd

/-- **The host's partitions are found** exactly where no other node that
contains the host's name comes first, and its table has the room. -/
theorem findsPartitions_iff (h : F.At 0 root) (hcount : ∀ t, 0 ≤ blk.partCount t) :
    FindsPartitions F pHostName root blk ↔
      HostFirst F pHostName root ∧ HostFits F pHostName root blk := by
  have hsearch := endsWith_findPartsNode pHostName h
  have hhost : HostFirst F pHostName root ↔
      ((F.preorder 0 root).find? fun p => p.2.containsHost pHostName) =
        F.hostNode pHostName root :=
    (find?_eq_find?_iff fun p : ℤ × FdtNode => containsHost_of_namesHost).symm
  rw [hhost]
  constructor
  · intro hf
    obtain ⟨r, hend, hfirst, -⟩ := hf.found
    refine ⟨find?_eq_hostNode h (hend.unique hsearch) hfirst, fun p partitions t hp hpart ht => ?_⟩
    exact (forall_inTable_iff _ (hcount t)).1 (hf.within p partitions t hp hpart ht)
  · rintro ⟨heq, hfits⟩
    refine ⟨⟨_, hsearch, ?_, fun p hp hoff => ?_⟩, ?_, fun p partitions t hp hpart ht => ?_⟩
    · rw [heq]
      cases F.hostNode pHostName root with
      | none => exact (by decide : (-1 : ℤ) < 0)
      | some p => rfl
    · rw [heq] at hoff
      exact namesHost_of_found h hp hoff
    · rw [← heq, ← obcBlkParseFdt_eq_hostParse F]
      exact endsWith_obcBlkParseFdt h
    · exact (forall_inTable_iff _ (hcount t)).2 (hfits p partitions t hp hpart ht)

end Runs

/-- A node with one subnode is at an offset where that one is next. -/
theorem at_of_subnode {F : Fdt} {offset o : ℤ} {name : List Char}
    {props : List (String × List UInt8)} {n : FdtNode} (hn : F.At o n)
    (hoffset : 0 ≤ offset ∧ F.getName offset = some name ∧ F.props offset = props)
    (hfirst : F.firstSubnode offset = o) (hnext : F.nextSubnode o < 0)
    (hsub : ∀ s, F.subnodeOffset offset s = if n.nodenameEq s then o else -1) :
    F.At offset (.mk name props [n]) := by
  obtain ⟨hpos, hname, hprops⟩ := hoffset
  refine ⟨hpos, hname, hprops, ?_, fun s => ?_⟩
  · rw [hfirst]
    exact ⟨hn, hnext⟩
  · rw [hfirst, hsub s, Fdt.lookup]
    cases n.nodenameEq s
    · exact (by decide : (-1 : ℤ) < 0)
    · rfl

/-- A tree with one host, whose `partitions` have one subnode; each node
is at its depth. -/
def oneHost (obcpart : List UInt8) (depth : ℤ) : FdtNode :=
  let part := .mk "part".toList [] []
  let partitions := .mk "partitions".toList [] [part]
  let host := .mk "mmc".toList [("obcpart", obcpart)] [partitions]
  if depth = 0 then .mk [] [] [host] else if depth = 1 then host
  else if depth = 2 then partitions else part

/-- libfdt for that tree. -/
def oneHostFdt (obcpart : List UInt8) : Fdt where
  getName offset := some (oneHost obcpart offset).name
  props offset := (oneHost obcpart offset).props
  firstSubnode offset := if offset < 3 then offset + 1 else -1
  nextSubnode _ := -1
  subnodeOffset offset s :=
    if offset < 3 then
      if (oneHost obcpart (offset + 1)).nodenameEq s then offset + 1 else -1
    else -1

theorem at_oneHost (obcpart : List UInt8) :
    (oneHostFdt obcpart).At 0 (oneHost obcpart 0) := by
  have hneg : (-1 : ℤ) < 0 := by decide
  have hpart : (oneHostFdt obcpart).At 3 (oneHost obcpart 3) :=
    ⟨by decide, rfl, rfl, hneg, fun s => hneg⟩
  have hpartitions : (oneHostFdt obcpart).At 2 (oneHost obcpart 2) :=
    at_of_subnode hpart ⟨by decide, rfl, rfl⟩ rfl hneg fun s => rfl
  have hhost : (oneHostFdt obcpart).At 1 (oneHost obcpart 1) :=
    at_of_subnode hpartitions ⟨by decide, rfl, rfl⟩ rfl hneg fun s => rfl
  exact at_of_subnode hhost ⟨by decide, rfl, rfl⟩ rfl hneg fun s => rfl

theorem preorder_oneHost (obcpart : List UInt8) :
    (oneHostFdt obcpart).preorder 0 (oneHost obcpart 0) =
      [(0, oneHost obcpart 0), (1, oneHost obcpart 1), (2, oneHost obcpart 2),
        (3, oneHost obcpart 3)] :=
  rfl

/-- A property that names the MMC's table. -/
def mmcPart : List UInt8 := "obc-mmc".toUTF8.toList ++ [0]

/-- The one partition of the MMC is found. -/
theorem findsPartitions_mmc :
    FindsPartitions (oneHostFdt mmcPart) "obc-mmc".toList (oneHost mmcPart 0)
      BoardAbilityTable.zero.stBlk := by
  have hcount : ∀ t, 0 ≤ BoardAbilityTable.zero.stBlk.partCount t := by
    intro t
    cases t <;> decide
  have hnames : (oneHost mmcPart 1).namesHost "obc-mmc".toList = true := by decide +kernel
  refine (findsPartitions_iff (at_oneHost mmcPart) hcount).2 ⟨?_, ?_⟩
  · intro before p behind hl hc hn
    have hp : p ∈ (oneHostFdt mmcPart).preorder 0 (oneHost mmcPart 0) := by
      rw [hl]
      exact List.mem_append_right _ List.mem_cons_self
    rw [preorder_oneHost] at hp
    have hother : ∀ i ∈ [0, 2, 3],
        (oneHost mmcPart i).containsHost "obc-mmc".toList = false := by decide +kernel
    simp only [List.mem_cons, List.not_mem_nil, or_false] at hp
    rcases hp with rfl | rfl | rfl | rfl
    · exact absurd hc (Bool.eq_false_iff.1 (hother 0 (by decide)))
    · exact absurd hnames (Bool.eq_false_iff.1 hn)
    · exact absurd hc (Bool.eq_false_iff.1 (hother 2 (by decide)))
    · exact absurd hc (Bool.eq_false_iff.1 (hother 3 (by decide)))
  · intro p partitions t hp hpart ht _
    have hhost : (oneHostFdt mmcPart).hostNode "obc-mmc".toList (oneHost mmcPart 0) =
        some (1, oneHost mmcPart 1) := by
      rw [Fdt.hostNode, preorder_oneHost, List.find?_cons_of_neg (by decide +kernel)]
      exact List.find?_cons_of_pos hnames
    rw [hhost, Option.some.injEq] at hp
    subst hp
    obtain rfl : oneHost mmcPart 2 = partitions := Option.some.inj hpart
    cases t <;> decide

/-- **Another host's node is taken**: there is none of `obc-mmc`, and the
search ends with that of `obc-mmc2`. -/
theorem not_findsPartitions :
    ¬ ∀ (F : Fdt) (pHostName : List Char) (root : FdtNode) (blk : BoardAbilityBlk),
      F.At 0 root → (∀ t, 0 ≤ blk.partCount t) → FindsPartitions F pHostName root blk := by
  intro h
  set obcpart := "obc-mmc2".toUTF8.toList ++ [0] with hobcpart
  have hroot := at_oneHost obcpart
  have hcount : ∀ t, 0 ≤ BoardAbilityTable.zero.stBlk.partCount t := by
    intro t
    cases t <;> decide
  obtain ⟨r, hend, hfirst, -⟩ := (h _ "obc-mmc".toList _ _ hroot hcount).found
  have hnone : (oneHostFdt obcpart).hostNode "obc-mmc".toList (oneHost obcpart 0) = none := by
    rw [Fdt.hostNode, preorder_oneHost, hobcpart]
    decide +kernel
  have hfound : ((oneHostFdt obcpart).preorder 0 (oneHost obcpart 0)).find?
      (fun p => p.2.containsHost "obc-mmc".toList) = some (1, oneHost obcpart 1) := by
    rw [preorder_oneHost, List.find?_cons_of_neg (by decide +kernel)]
    exact List.find?_cons_of_pos (by decide +kernel)
  have hr : r = 1 := by
    have hend' := endsWith_findPartsNode "obc-mmc".toList hroot
    rw [hfound] at hend'
    exact hend.unique hend'
  rw [hnone] at hfirst
  have hneg : (1 : ℤ) < 0 := hr.symm.trans_lt hfirst
  exact absurd hneg (by decide)

end Boot

end ObcSdk
