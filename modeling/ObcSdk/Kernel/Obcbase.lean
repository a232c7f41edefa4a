import ObcSdk.Lib.CString
import ObcSdk.Lib.Numeral
import ObcSdk.Lib.Words
/-!
# The kernel's reading of the boot source

`obcbase.c`: the module that takes the slot and the medium of the boot
out of the kernel's command line. Its scanner is one over the line's
words, and finds the first field of a key.
-/

namespace ObcSdk

namespace Kernel

/-- `-EINVAL`. -/
abbrev eInval : ℤ := -22
/-- `-ENOENT`. -/
abbrev eNoent : ℤ := -2

/-- `struct obc_boot_info`. -/
structure ObcBootInfo where
  media : List Char
  mediaId : ℕ
  bootPart : ℕ
  device : List Char
deriving DecidableEq

/-- `OBC_BOOTARGS_SIZE`. -/
abbrev obcBootargsSize : ℕ := 2048

/-- The loop of `obc_get_bootarg`, from `cursor` on and in at most `n`
turns. -/
def obcGetBootargLoop (key : List Char) (valueSize : ℕ) : ℕ → List Char → Except ℤ (List Char)
  | 0, _ => .error eNoent
  | n + 1, cursor =>
    if cursor = [] then .error eNoent else
    let cursor := cursor.dropWhile (· = ' ')
    if cursor = [] then .error eNoent else
    let token := cursor.takeWhile (· ≠ ' ')
    let equals := token.idxOf '='
    if '=' ∈ token ∧ equals = key.length ∧ token.take key.length = key then
      let value := token.drop (equals + 1)
      if value = [] ∨ valueSize ≤ value.length then .error eInval else .ok value
    else obcGetBootargLoop key valueSize n (cursor.dropWhile (· ≠ ' '))

/-- `obc_get_bootarg`. A turn takes a character at least. -/
def obcGetBootarg (bootargs key : List Char) (valueSize : ℕ) : Except ℤ (List Char) :=
  obcGetBootargLoop key valueSize bootargs.length bootargs

/-- The loop again, with the caller's array: what it returns, and the
array. -/
def obcGetBootargIntoLoop (key : List Char) (valueSize : ℕ) : ℕ → List Char → CBuf → ℤ × CBuf
  | 0, _, value => (eNoent, value)
  | n + 1, cursor, value =>
    if cursor = [] then (eNoent, value) else
    let cursor := cursor.dropWhile (· = ' ')
    if cursor = [] then (eNoent, value) else
    let token := cursor.takeWhile (· ≠ ' ')
    let equals := token.idxOf '='
    if '=' ∈ token ∧ equals = key.length ∧ token.take key.length = key then
      let valueLen := token.length - equals - 1
      if valueLen = 0 ∨ valueSize ≤ valueLen then (eInval, value) else
      let value := value.store 0 ((token.drop (equals + 1)).take valueLen)
      (0, value.store valueLen ['\x00'])
    else obcGetBootargIntoLoop key valueSize n (cursor.dropWhile (· ≠ ' ')) value

/-- `obc_get_bootarg`, with its array. -/
def obcGetBootargInto (bootargs key : List Char) (value : CBuf) (valueSize : ℕ) : ℤ × CBuf :=
  obcGetBootargIntoLoop key valueSize bootargs.length bootargs value

/-- `kstrtouint` in base 10: digits behind at most one sign `+` and before
at most one newline, and a value that fits. -/
def kstrtouint (s : List Char) : Option ℕ :=
  let digits := match s with
    | '+' :: cs => cs
    | cs => cs
  let r := Numeral.scan 10 0 digits
  if r.2.length = digits.length then none else
  if 0xFFFFFFFF < r.1 then none else
  match r.2 with
  | [] | ['\n'] => some r.1
  | _ => none

/-- `obc_parse_bootargs`: what it stores in `obc_boot`, or its error. -/
def obcParseBootargs (bootargs : List Char) : Except ℤ ObcBootInfo := do
  let part ← obcGetBootarg bootargs "obcboot.part".toList 8
  let media ← obcGetBootarg bootargs "obcboot.media".toList 8
  match kstrtouint part with
  | none => .error eInval
  | some partNumber =>
    if 1 < partNumber then .error eInval else
    if media ≠ "emmc".toList ∧ media ≠ "sd".toList then .error eInval else
    let mediaId := if media = "sd".toList then 1 else 0
    .ok
      { media := media.take 7
        mediaId := mediaId
        bootPart := partNumber
        device := ("mmcblk".toList ++ Nat.toDigits 10 mediaId).take 15 }

/-- `strreplace` of one character by another, in a C string. -/
def strreplace (s : List Char) (old new : Char) : List Char :=
  s.map fun c => if c = old then new else c

/-- `obc_read_bootargs`, on what comes of allocating the buffer, opening
`/proc/cmdline` and reading it: an error, or the file's content. -/
def obcReadBootargs (cmdline : Except ℤ (List Char)) : Except ℤ ObcBootInfo := do
  let content ← cmdline
  let bootargs := cString (content.take (obcBootargsSize - 1))
  obcParseBootargs (strreplace bootargs '\n' ' ')

section Scan

variable {key cursor bootargs token : List Char} {valueSize n : ℕ}

/-- The scanner's test of a word is whether it is a field of the key. -/
theorem isField_iff : ('=' ∈ token ∧ token.idxOf '=' = key.length ∧ token.take key.length = key) ↔
    '=' ∈ token ∧ token.takeWhile (· ≠ '=') = key := by
  have htake : token.takeWhile (· ≠ '=') = token.take (token.idxOf '=') := by
    rw [List.takeWhile_eq_take_findIdx_not, List.idxOf]
    congr 2
    funext c
    rw [decide_not, Bool.not_not]
    rfl
  rw [htake]
  constructor
  · rintro ⟨hmem, hidx, hkey⟩
    exact ⟨hmem, by rw [hidx, hkey]⟩
  · rintro ⟨hmem, hkey⟩
    have hlt := List.idxOf_lt_length_of_mem hmem
    have hlen : token.idxOf '=' = key.length := by
      rw [← hkey, List.length_take, Nat.min_eq_left hlt.le]
    exact ⟨hmem, hlen, by rw [← hlen, hkey]⟩

/-- What the scanner returns for the first field it finds. -/
def takeValue (valueSize : ℕ) : Option (List Char) → Except ℤ (List Char)
  | none => .error eNoent
  | some value => if value = [] ∨ valueSize ≤ value.length then .error eInval else .ok value

theorem obcGetBootargLoop_eq (hn : cursor.length ≤ n) :
    obcGetBootargLoop key valueSize n cursor =
      takeValue valueSize (fields ' ' '=' key cursor).head? := by
  induction n generalizing cursor with
  | zero =>
    obtain rfl := List.length_eq_zero_iff.1 (Nat.le_zero.1 hn)
    rfl
  | succ n ih =>
    unfold obcGetBootargLoop
    split
    · rename_i h0
      rw [h0]
      rfl
    -- the blanks skipped hold no word, and what follows them starts with one
    have hwords := words_dropWhile ' ' cursor
    have hshort := (List.dropWhile_sublist (· = ' ') (l := cursor)).length_le
    rw [fields, ← hwords]
    simp only
    set start := cursor.dropWhile (· = ' ') with hstart
    split
    · rename_i h0
      rw [h0]
      rfl
    rename_i hne
    have hhead : ∀ c ∈ start.head?, c ≠ ' ' := by
      intro c hc
      have h := List.head?_dropWhile_not (· = ' ') cursor
      rw [← hstart, hc] at h
      simpa using h
    rw [words_of_head hhead hne, List.filterMap_cons]
    -- that word has a character, so a turn less is enough for the rest
    have hrest : (start.dropWhile (· ≠ ' ')).length ≤ n := by
      obtain ⟨c, cs, hcs⟩ := List.exists_cons_of_ne_nil hne
      have hc : c ≠ ' ' := hhead c (by rw [hcs]; rfl)
      rw [hcs, List.dropWhile_cons_of_pos (by simpa using hc)]
      have := (List.dropWhile_sublist (· ≠ ' ') (l := cs)).length_le
      rw [hcs, List.length_cons] at hshort
      omega
    by_cases hfield : '=' ∈ start.takeWhile (· ≠ ' ') ∧
        (start.takeWhile (· ≠ ' ')).takeWhile (· ≠ '=') = key
    · have htest := isField_iff.2 hfield
      rw [if_pos htest, fieldOf, if_pos hfield, htest.2.1]
      rfl
    · rw [if_neg (fun h => hfield (isField_iff.1 h)), fieldOf, if_neg hfield]
      exact ih hrest

/-- **The scanner finds the first field of the key.** -/
theorem obcGetBootarg_eq : obcGetBootarg bootargs key valueSize =
    takeValue valueSize (fields ' ' '=' key bootargs).head? :=
  obcGetBootargLoop_eq le_rfl

/-- A line that fits the buffer is read whole. -/
theorem obcReadBootargs_of_le {line : List Char} (hlen : line.length ≤ obcBootargsSize - 1)
    (hnul : '\x00' ∉ line) :
    obcReadBootargs (.ok line) = obcParseBootargs (strreplace line '\n' ' ') := by
  show obcParseBootargs (strreplace (cString (line.take (obcBootargsSize - 1))) '\n' ' ') = _
  rw [List.take_of_length_le hlen, CBuf.cString_of_not_mem hnul]

end Scan

end Kernel

end ObcSdk
