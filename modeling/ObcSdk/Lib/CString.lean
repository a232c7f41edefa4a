import ObcSdk.Lib.Words
/-!
# C strings in arrays

An array of characters of a fixed length, the string it holds up to its
first NUL, and the library calls that build strings in place. A store
outside the array is recorded and changes nothing; as long as none is,
the calls do to the string held what their names say.
-/

namespace ObcSdk

/-- The C string at the start of a character array: what precedes its
first NUL. -/
def cString (l : List Char) : List Char := l.takeWhile (· ≠ '\x00')

/-- What is in front of the first NUL of a text is in front of that of a
longer one. -/
theorem cString_append_of_mem {s t : List Char} (h : '\x00' ∈ s) :
    cString (s ++ t) = cString s := takeWhile_ne_append_of_mem h

theorem cString_append_of_not_mem {s t : List Char} (h : '\x00' ∉ s) :
    cString (s ++ t) = s ++ cString t := takeWhile_ne_append h

theorem cString_cons_of_ne {c : Char} {s : List Char} (h : c ≠ '\x00') :
    cString (c :: s) = c :: cString s :=
  List.takeWhile_cons_of_pos (by simpa using h)

theorem cString_subset {s : List Char} : cString s ⊆ s := (List.takeWhile_prefix _).subset

/-- An array of characters, and whether something was stored outside
it. -/
structure CBuf where
  chars : List Char
  overrun : Bool

namespace CBuf

/-- An array of `n` characters. -/
def new (n : ℕ) : CBuf := ⟨List.replicate n '\x00', false⟩

/-- A run of characters stored from index `pos` on. -/
def store (b : CBuf) (pos : ℕ) (s : List Char) : CBuf where
  chars := b.chars.take pos ++ s.take (b.chars.length - pos) ++ b.chars.drop (pos + s.length)
  overrun := b.overrun || decide (b.chars.length < pos + s.length)

def strlen (b : CBuf) : ℕ := (cString b.chars).length

/-- `sprintf` of a text. -/
def sprintf (b : CBuf) (s : List Char) : CBuf := b.store 0 (s ++ ['\x00'])

def strcat (b : CBuf) (s : List Char) : CBuf := b.store b.strlen (s ++ ['\x00'])

/-- `memmove` inside the array: the source is read before the
destination is written. -/
def memmove (b : CBuf) (dst src n : ℕ) : CBuf := b.store dst ((b.chars.drop src).take n)

/-- `memcpy` from another array. -/
def memcpy (b from' : CBuf) (n : ℕ) : CBuf := b.store 0 (from'.chars.take n)

/-- The array holds the string `s`, its NUL included. -/
def Holds (b : CBuf) (s : List Char) : Prop :=
  '\x00' ∉ s ∧ ∃ rest, b.chars = s ++ '\x00' :: rest

variable {b b' : CBuf} {s t : List Char} {pos n : ℕ}

theorem store_of_le (h : pos + s.length ≤ b.chars.length) :
    b.store pos s = ⟨b.chars.take pos ++ s ++ b.chars.drop (pos + s.length), b.overrun⟩ := by
  rw [store, List.take_of_length_le (l := s) (by omega), decide_eq_false (by omega), Bool.or_false]

@[simp] theorem length_store : (b.store pos s).chars.length = b.chars.length := by
  simp only [store, List.length_append, List.length_take, List.length_drop]
  omega

/-- Two runs that fit, one behind the other, are one. -/
theorem store_store (h : s.length + t.length ≤ b.chars.length) :
    (b.store 0 s).store s.length t = b.store 0 (s ++ t) := by
  rw [store_of_le (b := b) (s := s) (by omega), store_of_le (b := b) (by simpa using h),
    store_of_le (by simp; omega)]
  simp [List.drop_drop]

/-- What lies behind a run that fits is as it was. -/
theorem drop_store {k : ℕ} (hk : s.length ≤ k) (h : s.length ≤ b.chars.length) :
    (b.store 0 s).chars.drop k = b.chars.drop k := by
  obtain ⟨j, rfl⟩ := Nat.exists_eq_add_of_le hk
  rw [store_of_le (by omega)]
  simp only [List.take_zero, List.nil_append, Nat.zero_add]
  rw [← List.drop_drop, List.drop_left, List.drop_drop]

@[simp] theorem length_new : (new n).chars.length = n := by simp [new]

theorem cString_append (h : '\x00' ∉ s) : cString (s ++ '\x00' :: t) = s :=
  takeWhile_ne_append_cons h

theorem cString_of_not_mem (h : '\x00' ∉ s) : cString s = s :=
  calc cString s = cString (s ++ []) := by rw [List.append_nil]
    _ = s ++ cString [] := cString_append_of_not_mem h
    _ = s := List.append_nil s

theorem Holds.cString_eq (h : b.Holds s) : cString b.chars = s := by
  obtain ⟨hs, rest, hb⟩ := h
  rw [hb, cString_append hs]

theorem Holds.strlen_eq (h : b.Holds s) : b.strlen = s.length := by rw [strlen, h.cString_eq]

/-- `sprintf` of a text that fits. -/
theorem holds_sprintf (hs : '\x00' ∉ s) (h : s.length < b.chars.length) :
    (b.sprintf s).Holds s ∧ (b.sprintf s).overrun = b.overrun := by
  rw [sprintf, store_of_le (by simp; omega)]
  exact ⟨⟨hs, b.chars.drop (0 + (s ++ ['\x00']).length), by simp⟩, rfl⟩

/-- `strcat` of a text that fits. -/
theorem Holds.strcat (h : b.Holds s) (ht : '\x00' ∉ t)
    (hfit : s.length + t.length < b.chars.length) :
    (b.strcat t).Holds (s ++ t) ∧ (b.strcat t).overrun = b.overrun := by
  have hlen := h.strlen_eq
  obtain ⟨hs, rest, hb⟩ := h
  rw [CBuf.strcat, hlen, store_of_le (by simp; omega)]
  refine ⟨⟨by simp [hs, ht], b.chars.drop (s.length + (t ++ ['\x00']).length), ?_⟩, rfl⟩
  have htake : b.chars.take s.length = s := by rw [hb, List.take_left]
  simp [htake]

/-- **A text spliced in front.** The string is moved up by the text's
length, over itself, and the text copied before it. -/
theorem Holds.splice (h : b.Holds s) (h' : b'.Holds t)
    (hfit : t.length + s.length < b.chars.length) :
    let b₂ := (b.memmove t.length 0 (b.strlen + 1)).memcpy b' t.length
    b₂.Holds (t ++ s) ∧ b₂.overrun = b.overrun := by
  have hlen := h.strlen_eq
  obtain ⟨hs, rest, hb⟩ := h
  obtain ⟨ht, rest', hb'⟩ := h'
  have hcap : b.chars.length = s.length + 1 + rest.length := by
    rw [hb, List.length_append, List.length_cons]
    omega
  have hmove : b.memmove t.length 0 (b.strlen + 1) =
      ⟨b.chars.take t.length ++ (s ++ ['\x00']) ++ b.chars.drop (t.length + (s.length + 1)),
        b.overrun⟩ := by
    have hsrc : (b.chars.drop 0).take (b.strlen + 1) = s ++ ['\x00'] := by
      rw [hlen, hb, List.drop_zero, ← List.singleton_append, ← List.append_assoc,
        List.take_left' (by simp)]
    rw [memmove, hsrc, store_of_le (by simp; omega)]
    simp
  have htext : b'.chars.take t.length = t := by rw [hb', List.take_left]
  have htake : (b.chars.take t.length).length = t.length := by
    rw [List.length_take, Nat.min_eq_left (by omega)]
  rw [hmove, memcpy, htext, store_of_le (by simp; omega)]
  refine ⟨⟨by simp [hs, ht], b.chars.drop (t.length + (s.length + 1)), ?_⟩, rfl⟩
  simp only [List.take_zero, List.nil_append, Nat.zero_add, List.append_assoc]
  rw [List.drop_left' htake]
  simp

end CBuf

end ObcSdk
