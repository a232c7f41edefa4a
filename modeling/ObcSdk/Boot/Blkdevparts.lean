import ObcSdk.Lib.Numeral
import ObcSdk.Boot.Bootargs
/-!
# The blkdevparts grammar

What the kernel reads: a device, a colon, and parts
`size[K|M]@offset(name)` with commas between them. The text
`obc_bootargs_blkparts_set` leaves in its destination is the table's in
this grammar, `blkdevpartsText`, as long as every array takes what is
stored in it; and the reader takes that text for the table's entries
again.
-/

namespace ObcSdk

namespace Boot

/-! ## Reading -/

/-- A numeral in base `b`, of one digit at least. -/
def readDigits (b : ℕ) (cs : List Char) : Option (ℕ × List Char) :=
  let r := Numeral.scan b 0 cs
  if r.2.length = cs.length then none else some r

/-- A size or an offset: hexadecimal behind `0x`, or decimal with a
suffix. -/
def readSize : List Char → Option (ℕ × List Char)
  | '0' :: 'x' :: cs => readDigits 16 cs
  | cs =>
    match readDigits 10 cs with
    | some (n, 'K' :: cs) => some (n * 1024, cs)
    | some (n, 'M' :: cs) => some (n * 1048576, cs)
    | r => r

/-- One part: its size, its offset and its name. -/
def readPart (cs : List Char) : Option ((ℕ × ℕ × List Char) × List Char) :=
  match readSize cs with
  | some (size, '@' :: cs) =>
    match readSize cs with
    | some (offset, '(' :: cs) =>
      match cs.dropWhile (· ≠ ')') with
      | ')' :: rest => some ((size, offset, cs.takeWhile (· ≠ ')')), rest)
      | _ => none
    | _ => none
  | _ => none

/-- The parts, in at most `n` turns. -/
def readParts : ℕ → List Char → Option (List (ℕ × ℕ × List Char))
  | 0, _ => none
  | n + 1, cs =>
    match readPart cs with
    | some (p, []) => some [p]
    | some (p, ',' :: cs) => (readParts n cs).map (p :: ·)
    | _ => none

/-- A whole argument: the device and its parts. -/
def readBlkdevparts (cs : List Char) : Option (List Char × List (ℕ × ℕ × List Char)) :=
  match cs.dropWhile (· ≠ ':') with
  | [':'] => some (cs.takeWhile (· ≠ ':'), [])
  | ':' :: rest => (readParts rest.length rest).map (cs.takeWhile (· ≠ ':'), ·)
  | _ => none

/-! ## Writing -/

/-- The notation `size_to_readable` chooses. -/
def sizeText (size : UInt32) : List Char :=
  if size % (1024 * 1024) = 0 then formatD (size / (1024 * 1024)) ++ ['M']
  else if size % 1024 = 0 then formatD (size / 1024) ++ ['K']
  else ['0', 'x'] ++ formatX size

/-- One part's text. -/
def partText (p : BoardAbilityBlkParts) : List Char :=
  sizeText p.size ++ ['@'] ++ (['0', 'x'] ++ formatX p.addr) ++ ['('] ++ p.name ++ [')']

/-- The text of a list of parts. -/
def partsText : List BoardAbilityBlkParts → List Char
  | [] => []
  | [p] => partText p
  | p :: q :: ps => partText p ++ ',' :: partsText (q :: ps)

/-- The text of a whole argument. -/
def blkdevpartsText (device : List Char) (ps : List BoardAbilityBlkParts) : List Char :=
  device ++ [':'] ++ partsText ps

/-- Of `n` entries from index `i`, those not marked bootable, in
order. -/
def shownParts (parts : ℕ → BoardAbilityBlkParts) (i n : ℕ) : List BoardAbilityBlkParts :=
  ((List.range' i n).map parts).filter (·.flag = 0)

/-- What the reader is to make of an entry. -/
def BoardAbilityBlkParts.entry (p : BoardAbilityBlkParts) : ℕ × ℕ × List Char :=
  (p.size.toNat, p.addr.toNat, p.name)

/-! ## The numbers -/

section Numbers

variable {b n : ℕ} {size v : UInt32} {rest cs : List Char} {c : Char}

theorem readDigits_toDigits (hb : 1 < b) (hb' : b ≤ 16)
    (h : ∀ c ∈ rest.head?, ¬ Numeral.IsDigit b c) :
    readDigits b (Nat.toDigits b n ++ rest) = some (n, rest) := by
  have hpos := Nat.length_toDigits_pos (b := b) (n := n)
  rw [readDigits, Numeral.scan_toDigits_of_not_digit hb hb' h]
  simp only [List.length_append]
  rw [if_neg (by omega)]

/-- Below `2 ^ 31` the sign of `%d` does not show. -/
theorem formatD_eq (h : v.toNat < 2 ^ 31) : formatD v = Nat.toDigits 10 v.toNat := by
  have hi : v.toInt32.toInt = v.toNat := BitVec.toInt_eq_toNat_of_lt (by
    show 2 * v.toNat < 2 ^ 32
    omega)
  simp only [formatD, hi]
  rw [if_neg (by omega), Int.toNat_natCast]

theorem readSize_hex (h : ∀ c ∈ rest.head?, ¬ Numeral.IsDigit 16 c) :
    readSize (['0', 'x'] ++ formatX v ++ rest) = some (v.toNat, rest) := by
  rw [List.append_assoc, List.cons_append, List.singleton_append, readSize]
  exact readDigits_toDigits (by decide) (by decide) h

/-- A decimal numeral is not taken for a hexadecimal one. -/
theorem toDigits_ne_hex (hc : c ≠ 'x') : Nat.toDigits 10 n ++ c :: rest ≠ '0' :: 'x' :: cs := by
  intro h
  have hdigit : ∀ d ∈ Nat.toDigits 10 n, d ≠ 'x' := fun d hd hx =>
    Numeral.not_isDigit (b := 10) (c := 'x') (by decide)
      (hx ▸ Numeral.isDigit_of_mem_toDigits (by decide) (by decide) hd)
  match hd : Nat.toDigits 10 n with
  | [] => exact Nat.toDigits_ne_nil hd
  | [d] =>
    rw [hd] at h
    exact hc (List.cons.inj (List.cons.inj h).2).1
  | d :: e :: ds =>
    rw [hd] at h
    exact hdigit e (by rw [hd]; simp) (List.cons.inj (List.cons.inj h).2).1

/-- A numeral with a suffix is the numeral's number of the suffix's
units. -/
theorem readSize_suffix {k : ℕ} (hc : c = 'K' ∧ k = 1024 ∨ c = 'M' ∧ k = 1048576) :
    readSize (Nat.toDigits 10 n ++ c :: rest) = some (n * k, rest) := by
  have hx : c ≠ 'x' := by
    rcases hc with ⟨rfl, -⟩ | ⟨rfl, -⟩ <;> decide
  have hstop : ∀ d ∈ (c :: rest).head?, ¬ Numeral.IsDigit 10 d := by
    intro d hd
    obtain rfl := Option.some.inj hd
    rcases hc with ⟨rfl, -⟩ | ⟨rfl, -⟩ <;> exact Numeral.not_isDigit (by decide)
  rw [readSize, readDigits_toDigits (by decide) (by decide) hstop]
  · rcases hc with ⟨rfl, rfl⟩ | ⟨rfl, rfl⟩ <;> rfl
  · intro cs
    exact toDigits_ne_hex hx

/-- **Round trip of a size**, in whichever notation it was written. -/
theorem readSize_sizeText :
    readSize (sizeText size ++ '@' :: rest) = some (size.toNat, '@' :: rest) := by
  have scaled : ∀ (k : UInt32) (c : Char), c = 'K' ∧ k.toNat = 1024 ∨ c = 'M' ∧ k.toNat = 1048576 →
      size % k = 0 →
      readSize (formatD (size / k) ++ [c] ++ '@' :: rest) = some (size.toNat, '@' :: rest) := by
    intro k c hc h
    have hk : 2 ≤ k.toNat := by omega
    have hlt : (size / k).toNat < 2 ^ 31 := by
      have hsize := size.toNat_lt
      rw [UInt32.toNat_div]
      exact (Nat.div_le_div_left hk (by decide)).trans_lt (by omega)
    rw [formatD_eq hlt, List.append_assoc, List.singleton_append, readSize_suffix hc,
      div_mul_toNat h]
  unfold sizeText
  split
  · rename_i hm
    exact scaled (1024 * 1024) 'M' (Or.inr ⟨rfl, rfl⟩) hm
  split
  · rename_i hk
    exact scaled 1024 'K' (Or.inl ⟨rfl, rfl⟩) hk
  · refine readSize_hex ?_
    intro d hd
    obtain rfl := Option.some.inj hd
    exact Numeral.not_isDigit (by decide)

end Numbers

/-! ## The parts -/

section Parts

variable {p q : BoardAbilityBlkParts} {ps qs : List BoardAbilityBlkParts} {rest device : List Char}
  {n : ℕ}

variable (rest) in
theorem readPart_partText (hp : ')' ∉ p.name) :
    readPart (partText p ++ rest) = some (p.entry, rest) := by
  have hname : ∀ c ∈ p.name, (decide (c ≠ ')')) = true := by
    intro c hc
    simpa using fun h : c = ')' => hp (h ▸ hc)
  have htext : partText p ++ rest = sizeText p.size ++ '@' :: (['0', 'x'] ++ formatX p.addr ++
      '(' :: (p.name ++ ')' :: rest)) := by
    simp [partText]
  have hoff : readSize (['0', 'x'] ++ formatX p.addr ++ '(' :: (p.name ++ ')' :: rest)) =
      some (p.addr.toNat, '(' :: (p.name ++ ')' :: rest)) :=
    readSize_hex fun d hd => by
      obtain rfl := Option.some.inj hd
      exact Numeral.not_isDigit (by decide)
  simp only [readPart, htext, readSize_sizeText, hoff]
  rw [List.dropWhile_append_of_pos hname, List.takeWhile_append_of_pos hname,
    List.dropWhile_cons_of_neg (by simp), List.takeWhile_cons_of_neg (by simp), List.append_nil]
  rfl

variable (p) in
theorem partsText_cons (hps : ps ≠ []) :
    partsText (p :: ps) = partText p ++ ',' :: partsText ps := by
  cases ps with
  | nil => exact absurd rfl hps
  | cons q ps => rfl

/-- One more part goes behind a comma, or first. -/
theorem partsText_concat :
    partsText (ps ++ [p]) = partsText ps ++ ((if ps = [] then [] else [',']) ++ partText p) := by
  induction ps with
  | nil => rfl
  | cons q ps ih =>
    rw [List.cons_append, partsText_cons q (by simp), ih, if_neg (List.cons_ne_nil q ps)]
    cases ps with
    | nil => rfl
    | cons r ps => simp [partsText_cons q (List.cons_ne_nil r ps)]

/-- **Round trip of the parts.** -/
theorem readParts_partsText (hne : ps ≠ []) (hname : ∀ p ∈ ps, ')' ∉ p.name)
    (hn : ps.length ≤ n) : readParts n (partsText ps) = some (ps.map (·.entry)) := by
  induction ps generalizing n with
  | nil => exact absurd rfl hne
  | cons p ps ih =>
    obtain ⟨n, rfl⟩ : ∃ k, n = k + 1 := ⟨n - 1, by simp at hn; omega⟩
    have hp := hname p List.mem_cons_self
    cases ps with
    | nil =>
      have := readPart_partText [] hp
      rw [List.append_nil] at this
      simp only [readParts, partsText, this]
      rfl
    | cons q ps =>
      simp only [readParts, partsText_cons p (List.cons_ne_nil q ps), readPart_partText _ hp]
      rw [ih (by simp) (fun r hr => hname r (List.mem_cons_of_mem _ hr)) (by simpa using hn)]
      rfl

variable (ps) in
theorem length_le_partsText : ps.length ≤ (partsText ps).length := by
  induction ps with
  | nil => simp
  | cons p ps ih =>
    cases ps with
    | nil =>
      simp [partsText, partText]
      omega
    | cons q ps =>
      rw [partsText_cons p (List.cons_ne_nil q ps)]
      simp only [List.length_append, List.length_cons] at ih ⊢
      omega

/-- **Round trip of the argument.** -/
theorem readBlkdevparts_text (hdev : ':' ∉ device) (hname : ∀ p ∈ ps, ')' ∉ p.name) :
    readBlkdevparts (blkdevpartsText device ps) = some (device, ps.map (·.entry)) := by
  have hd : ∀ c ∈ device, (decide (c ≠ ':')) = true := by
    intro c hc
    simpa using fun h : c = ':' => hdev (h ▸ hc)
  have htext : blkdevpartsText device ps = device ++ ':' :: partsText ps := by
    simp [blkdevpartsText]
  rw [readBlkdevparts, htext, List.dropWhile_append_of_pos hd, List.takeWhile_append_of_pos hd,
    List.dropWhile_cons_of_neg (by simp), List.takeWhile_cons_of_neg (by simp), List.append_nil]
  cases ps with
  | nil => rfl
  | cons p ps =>
    have hne : partsText (p :: ps) ≠ [] := by
      intro h
      have := length_le_partsText (p :: ps)
      rw [h] at this
      simp at this
    obtain ⟨c, cs, hcs⟩ := List.exists_cons_of_ne_nil hne
    have := readParts_partsText (List.cons_ne_nil p ps) hname (length_le_partsText _)
    rw [hcs] at this ⊢
    simp only [this]
    rfl

end Parts

/-! ## What the code writes -/

section Render

variable {p : BoardAbilityBlkParts} {ps qs : List BoardAbilityBlkParts} {device : List Char}
  {parts : ℕ → BoardAbilityBlkParts} {st : BlkpartsState} {v size : UInt32} {b n i k cap : ℕ}

theorem nul_not_mem_toDigits (hb : 1 < b) (hb' : b ≤ 16) : '\x00' ∉ Nat.toDigits b n := fun h =>
  Numeral.not_isDigit (b := b) (by decide) (Numeral.isDigit_of_mem_toDigits hb hb' h)

theorem nul_not_mem_name : '\x00' ∉ p.name := by
  intro h
  have := List.all_eq_true.1 List.all_takeWhile _ h
  simp at this

theorem length_name_le : p.name.length ≤ 25 :=
  (List.takeWhile_sublist _).length_le.trans (by simp [BoardAbilityBlkParts.behind])

theorem length_toDigits_le (hb : 1 < b) (hk : 0 < k) (h : n < b ^ k) :
    (Nat.toDigits b n).length ≤ k := (Nat.length_toDigits_le_iff hb hk).2 h

theorem length_formatX_le : (formatX v).length ≤ 8 :=
  length_toDigits_le (by decide) (by decide) v.toNat_lt

variable (size) in
/-- A size takes ten characters at most, none of them a NUL. -/
theorem sizeText_spec : '\x00' ∉ sizeText size ∧ (sizeText size).length ≤ 10 := by
  have hsize := size.toNat_lt
  have dec : ∀ k : UInt32, 1024 ≤ k.toNat → ∀ c, c ≠ '\x00' →
      '\x00' ∉ formatD (size / k) ++ [c] ∧ (formatD (size / k) ++ [c]).length ≤ 10 := by
    intro k hk c hc
    have hdiv : (size / k).toNat < 2 ^ 22 := by
      rw [UInt32.toNat_div]
      exact (Nat.div_le_div_left hk (by decide)).trans_lt (by omega)
    rw [formatD_eq (by omega)]
    have hlen := length_toDigits_le (b := 10) (k := 7) (n := (size / k).toNat) (by decide)
      (by decide) (by omega)
    refine ⟨?_, by rw [List.length_append, List.length_singleton]; omega⟩
    simp only [List.mem_append, List.mem_singleton, not_or]
    exact ⟨nul_not_mem_toDigits (by decide) (by decide), hc.symm⟩
  unfold sizeText
  split
  · exact dec (1024 * 1024) (by decide) _ (by decide)
  split
  · exact dec 1024 (by decide) _ (by decide)
  · have hlen := length_formatX_le (v := size)
    refine ⟨?_, by simp; omega⟩
    simp only [List.mem_append, not_or]
    exact ⟨by decide, nul_not_mem_toDigits (by decide) (by decide)⟩

theorem sizeToReadable_eq {buffer : CBuf} :
    sizeToReadable size buffer = buffer.sprintf (sizeText size) := by
  unfold sizeToReadable sizeText
  split
  · rfl
  split <;> rfl

theorem nul_not_mem_partText : '\x00' ∉ partText p := by
  have h₁ := sizeText_spec p.size
  have h₂ : '\x00' ∉ formatX p.addr := nul_not_mem_toDigits (by decide) (by decide)
  have h₃ := nul_not_mem_name (p := p)
  simp [partText, h₁.1, h₂, h₃]

/-- `temp` takes any part. -/
theorem length_partText_le : (partText p).length ≤ 48 := by
  have h₁ := sizeText_spec p.size
  have h₂ := length_formatX_le (v := p.addr)
  have h₃ := length_name_le (p := p)
  simp [partText]
  omega

/-- The loop has rendered the parts `ps`, and stored nothing outside its
arrays. -/
structure BlkpartsState.Shows (st : BlkpartsState) (cap : ℕ) (ps : List BoardAbilityBlkParts) :
    Prop where
  holds : st.blkdevparts.Holds (partsText ps)
  length : st.blkdevparts.chars.length = cap
  temp : st.temp.chars.length = 64
  first : st.first = decide (ps = [])
  overrun : st.overrun = false
  tempOverrun : st.temp.overrun = false
  blkdevpartsOverrun : st.blkdevparts.overrun = false

/-- What a turn of the loop does: the arrays on the stack take the part,
which goes behind the text so far. -/
theorem BlkpartsState.Shows.entry_eq (h : st.Shows cap ps) (hflag : p.flag = 0) :
    ∃ temp : CBuf, temp.chars.length = 64 ∧ temp.overrun = false ∧
      '\x00' ∉ (if ps = [] then [] else [',']) ++ partText p ∧
      blkpartsEntry p st =
        ⟨st.blkdevparts.strcat ((if ps = [] then [] else [',']) ++ partText p), temp, false,
          false⟩ := by
  obtain ⟨-, -, htemp, hfirst, hover, htover, -⟩ := h
  have hsize := sizeText_spec p.size
  obtain ⟨hs, hso⟩ := CBuf.holds_sprintf (b := CBuf.new 16) hsize.1 (by simp; omega)
  have hx : '\x00' ∉ ['0', 'x'] ++ formatX p.addr := by
    simp only [List.mem_append, not_or]
    exact ⟨by decide, nul_not_mem_toDigits (by decide) (by decide)⟩
  have hxlen := length_formatX_le (v := p.addr)
  obtain ⟨ha, hao⟩ := CBuf.holds_sprintf (b := CBuf.new 16) hx (by simp; omega)
  -- the part with the comma before it, as `sprintf` puts it together
  set sep : List Char := if ps = [] then [] else [','] with hsep
  have hsepif : (if st.first then [] else [',']) = sep := by
    rw [hfirst, hsep]
    by_cases hnil : ps = [] <;> simp [hnil]
  have hsep0 : '\x00' ∉ sep ++ partText p := by
    simp only [List.mem_append, not_or]
    refine ⟨?_, nul_not_mem_partText⟩
    rw [hsep]
    split <;> simp
  have hseplen : (sep ++ partText p).length ≤ 49 := by
    have := length_partText_le (p := p)
    rw [List.length_append, hsep]
    split <;> simp <;> omega
  have htext : sep ++ sizeText p.size ++ ['@'] ++ (['0', 'x'] ++ formatX p.addr) ++ ['('] ++
      p.name ++ [')'] = sep ++ partText p := by simp [partText]
  obtain ⟨ht, hto⟩ := CBuf.holds_sprintf (b := st.temp) hsep0 (by omega)
  refine ⟨st.temp.sprintf (sep ++ partText p), ?_, by rw [hto, htover], hsep0, ?_⟩
  · rw [CBuf.sprintf, CBuf.length_store, htemp]
  · simp only [blkpartsEntry, hflag, ne_eq, not_true_eq_false, if_false, sizeToReadable_eq,
      hexToStr, hs.cString_eq, ha.cString_eq, hsepif, htext, ht.cString_eq, hover, hso, hao]
    rfl

/-- **A turn of the loop** renders one more part. -/
theorem BlkpartsState.Shows.entry (h : st.Shows cap ps) (hflag : p.flag = 0)
    (hcap : (partsText (ps ++ [p])).length < cap) : (blkpartsEntry p st).Shows cap (ps ++ [p]) := by
  obtain ⟨temp, htemp, htover, hsep, hentry⟩ := h.entry_eq hflag
  obtain ⟨hholds, hlen, -, -, -, -, hbover⟩ := h
  rw [partsText_concat, List.length_append] at hcap
  obtain ⟨hb, hbo⟩ := hholds.strcat hsep (by omega)
  rw [hentry]
  refine ⟨?_, ?_, htemp, by simp, rfl, htover, hbo.trans hbover⟩
  · rw [partsText_concat]
    exact hb
  · rw [CBuf.strcat, CBuf.length_store, hlen]

variable (ps) in
theorem length_partsText_le : (partsText ps).length ≤ (partsText (ps ++ qs)).length := by
  induction qs generalizing ps with
  | nil => simp
  | cons q qs ih =>
    have := ih (ps ++ [q])
    rw [List.append_assoc, List.singleton_append] at this
    refine le_trans ?_ this
    rw [partsText_concat, List.length_append]
    omega

/-- What is shown of the entries left is the first one's part and the
rest's. -/
theorem shownParts_succ : shownParts parts i (n + 1) =
    (if (parts i).flag = 0 then [parts i] else []) ++ shownParts parts (i + 1) n := by
  by_cases hf : (parts i).flag = 0 <;> simp [shownParts, List.range'_succ, hf]

variable (parts i n) in
/-- **The loop** renders the parts shown of the entries it visits. -/
theorem BlkpartsState.Shows.loop (h : st.Shows cap ps)
    (hcap : (partsText (ps ++ shownParts parts i n)).length < cap) :
    (blkpartsLoop parts n i st).Shows cap (ps ++ shownParts parts i n) := by
  induction n generalizing i ps st with
  | zero => simpa [blkpartsLoop, shownParts] using h
  | succ n ih =>
    rw [shownParts_succ, ← List.append_assoc] at hcap ⊢
    unfold blkpartsLoop
    refine ih _ ?_ hcap
    by_cases hf : (parts i).flag = 0
    · rw [if_pos hf] at hcap ⊢
      exact h.entry hf ((length_partsText_le _).trans_lt hcap)
    · rw [if_neg hf, List.append_nil, blkpartsEntry, if_pos hf]
      exact h

/-- The loop starts with an empty text. -/
theorem shows_start {buf : CBuf} (hpos : 0 < buf.chars.length) (hbuf : buf.overrun = false) :
    (⟨buf.store 0 ['\x00'], CBuf.new 64, true, false⟩ : BlkpartsState).Shows
      buf.chars.length [] := by
  have hstore : buf.store 0 ['\x00'] = buf.sprintf [] := rfl
  obtain ⟨h, ho⟩ := CBuf.holds_sprintf (b := buf) (s := []) (by simp) hpos
  exact ⟨by rw [hstore]; exact h, CBuf.length_store, CBuf.length_new, rfl, rfl, rfl,
    by rw [hstore, ho, hbuf]⟩

/-- **The destination holds the table's text**, where the arrays are long
enough: its own for that text, and the one on the stack for the
device. -/
theorem obcBootargsBlkpartsSet_holds {U : UBoot} {w : World} (buf : CBuf)
    (hdev : '\x00' ∉ device) (hlen : device.length ≤ 62) (hbuf : buf.overrun = false)
    (hcap : (blkdevpartsText device (shownParts (w.parts U) 0 w.partCount.toNat)).length <
      buf.chars.length) :
    ((obcBootargsBlkpartsSet U w buf device).1.Holds
        (blkdevpartsText device (shownParts (w.parts U) 0 w.partCount.toNat)) ∧
      (obcBootargsBlkpartsSet U w buf device).1.overrun = false) ∧
      (obcBootargsBlkpartsSet U w buf device).2 = false := by
  set shown := shownParts (w.parts U) 0 w.partCount.toNat
  have htotal : (device ++ [':']).length + (partsText shown).length < buf.chars.length := by
    rw [blkdevpartsText, List.length_append] at hcap
    exact hcap
  have hstart := shows_start (Nat.zero_lt_of_lt hcap) hbuf
  obtain ⟨hholds, hblen, htemp, -, hover, htover, hbover⟩ :=
    hstart.loop (w.parts U) w.partCount.toNat 0 (by
      rw [List.nil_append]
      exact Nat.lt_of_le_of_lt (Nat.le_add_left ..) htotal)
  have hcolon : '\x00' ∉ device ++ [':'] := by simp [hdev]
  obtain ⟨ht, hto⟩ := CBuf.holds_sprintf hcolon (b := (blkpartsLoop (w.parts U) w.partCount.toNat 0
    ⟨buf.store 0 ['\x00'], CBuf.new 64, true, false⟩).temp) (by rw [htemp]; simp; omega)
  have hsplice := hholds.splice ht (by rw [hblen]; exact htotal)
  rw [List.length_append, List.length_singleton, hbover] at hsplice
  refine ⟨hsplice, ?_⟩
  simp only [obcBootargsBlkpartsSet, hover, hto, htover, Bool.or_false]

end Render

end Boot

end ObcSdk
