import ObcSdk.Amp.LibcStubs
/-!
# What `vsnprintf` writes and reads

The loop over the format prints, token by token, what its conversions
say, and stops where there is no more room. A format that ends in a lone
`%` takes the NUL behind it for a conversion, and the loop goes on behind
the NUL. With a size of zero there is room for everything.
-/

namespace ObcSdk

namespace Amp

/-- The memory from the start of a format on: its characters, its NUL and
what is behind it. -/
def formatMem (f : List UInt8) (rest : Store UInt8) : Store UInt8 :=
  fun i => (f ++ [0]).getD i (rest i)

/-- What the loop makes a turn for. A lone `%` at the end is a conversion
by the NUL. -/
inductive Token where
  | literal (c : UInt8)
  | conversion (c : UInt8)
deriving DecidableEq

def tokens : List UInt8 → List Token
  | [] => []
  | c :: f =>
    if c = '%'.toUInt8 then
      match f with
      | [] => [.conversion 0]
      | c' :: f' => .conversion c' :: tokens f'
    else .literal c :: tokens f

/-- What a token prints. -/
def Token.text : Token → VaSlot → List UInt8
  | .literal c, _ => [c]
  | .conversion c, arg => conversionText c arg

def Token.takes : Token → ℕ
  | .literal _ => 0
  | .conversion c => conversionTakes c

/-- What the tokens print, from an argument on. -/
def output (ap : ℕ → VaSlot) : ℕ → List Token → List UInt8
  | _, [] => []
  | taken, t :: ts => t.text (ap taken) ++ output ap (taken + t.takes) ts

/-- **The format ends in a lone `%`** that the loop comes to. -/
def EndsOpen (limit : ℕ) (ap : ℕ → VaSlot) (f : List UInt8) (s : Printing) : Prop :=
  .conversion 0 ∈ tokens f ∧ s.count + (output ap s.taken (tokens f).dropLast).length < limit

/-- A text is printed, the format read up to an index, and nothing else
stored to but the array for numbers. -/
structure Prints (s s' : Printing) (text : List UInt8) (last : ℕ) : Prop where
  str : s'.str = (s.print text).str
  count : s'.count = (s.print text).count
  read : ∀ n ∈ s'.read, n ∈ s.read ∨ n ≤ last
  buffer : ∀ n ∈ s'.buffer.stored, n ∈ s.buffer.stored ∨ n < 32

section Loop

variable {s s' s'' : Printing} {f pre text text' : List UInt8} {rest : Store UInt8} {c : UInt8}
  {ap : ℕ → VaSlot} {limit last i k turns : ℕ} {ts : List Token} {t : Token}

theorem tokens_lone : tokens ['%'.toUInt8] = [.conversion 0] := by
  rw [tokens.eq_def]
  exact if_pos rfl

theorem tokens_conversion : tokens ('%'.toUInt8 :: c :: f) = .conversion c :: tokens f := by
  rw [tokens.eq_def]
  exact if_pos rfl

theorem tokens_literal (h : c ≠ '%'.toUInt8) : tokens (c :: f) = .literal c :: tokens f := by
  rw [tokens.eq_def]
  exact if_neg h

theorem formatMem_append (h : i ≤ f.length) :
    formatMem (pre ++ f) rest (pre.length + i) = (f ++ [0]).getD i 0 := by
  rw [formatMem, List.append_assoc, List.getD_append_right _ _ _ _ (by omega),
    Nat.add_sub_cancel_left, List.getD_eq_getElem _ _ (by simp; omega),
    List.getD_eq_getElem _ _ (by simp; omega)]

theorem formatMem_head : formatMem (pre ++ c :: f) rest pre.length = c :=
  formatMem_append (i := 0) (Nat.zero_le _)

theorem formatMem_end : formatMem (pre ++ []) rest pre.length = 0 :=
  formatMem_append (i := 0) (Nat.zero_le _)

theorem Prints.trans (h : Prints s s' text last) (h' : Prints s' s'' text' last) :
    Prints s s'' (text ++ text') last := by
  refine ⟨?_, ?_, ?_, ?_⟩
  · rw [← Printing.print_print, h'.str, Printing.print, h.str, h.count]
    rfl
  · rw [← Printing.print_print, h'.count, Printing.print_count, h.count]
    rfl
  · intro n hn
    rcases h'.read n hn with hold | hin
    · exact h.read n hold
    · exact Or.inr hin
  · intro n hn
    rcases h'.buffer n hn with hold | hin
    · exact h.buffer n hold
    · exact Or.inr hin

/-- **A turn at a character** prints it. -/
theorem turn_literal (hformat : s.format = pre.length) (hc : c ≠ '%'.toUInt8) :
    s.turn limit (formatMem (pre ++ c :: f) rest) ap =
      { s.print ([c].take (limit - s.count)) with format := pre.length + 1 } := by
  rw [Printing.turn, hformat, formatMem_head, if_neg hc, Printing.putChar_eq]
  simp only [Printing.print, hformat]

variable (f rest ap limit) in
/-- **A turn at a `%`** prints what the conversion behind it says. -/
theorem turn_conversion (hformat : s.format = pre.length) :
    ∃ buffer : Traced UInt8, (∀ n ∈ buffer.stored, n ∈ s.buffer.stored ∨ n < 32) ∧
      s.turn limit (formatMem (pre ++ '%'.toUInt8 :: f) rest) ap =
        { s.print ((conversionText (f.headD 0) (ap s.taken)).take (limit - s.count)) with
          buffer := buffer
          taken := s.taken + conversionTakes (f.headD 0)
          format := pre.length + 2
          read := s.read ++ [pre.length + 1] } := by
  have hnext : formatMem (pre ++ '%'.toUInt8 :: f) rest (pre.length + 1) = f.headD 0 := by
    rw [formatMem_append (by simp)]
    cases f <;> rfl
  obtain ⟨buffer, hin, heq⟩ := Printing.convert_eq
    { s with format := s.format + 1, read := s.read ++ [s.format + 1] } limit (f.headD 0) ap
  refine ⟨buffer, hin, ?_⟩
  rw [Printing.turn, hformat, formatMem_head, if_pos rfl]
  simp only
  rw [hnext, ← hformat, heq]
  simp only [Printing.print]

theorem Prints.mono {last' : ℕ} (h : Prints s s' text last) (hle : last ≤ last') :
    Prints s s' text last' := by
  refine ⟨h.str, h.count, ?_, h.buffer⟩
  intro n hn
  rcases h.read n hn with hold | hin
  · exact Or.inl hold
  · exact Or.inr (hin.trans hle)

/-- Where there is no room left, or no format, the loop is over. -/
theorem loop_stops {format : Store UInt8} (h : ¬ (format s.format ≠ 0 ∧ s.count < limit)) :
    Printing.loop limit format ap 1 s = some { s with read := s.read ++ [s.format] } := by
  rw [Printing.loop]
  exact if_neg h

theorem loop_goes {format : Store UInt8} (h : format s.format ≠ 0) (hroom : s.count < limit) :
    Printing.loop limit format ap (turns + 1) s =
      Printing.loop limit format ap turns
        ({ s with read := s.read ++ [s.format] }.turn limit format ap) := by
  rw [Printing.loop]
  exact if_pos ⟨h, hroom⟩

/-- The condition of the loop reads the format. -/
theorem prints_read : Prints s { s with read := s.read ++ [s.format] } [] s.format := by
  refine ⟨rfl, rfl, ?_, fun n hn => Or.inl hn⟩
  intro n hn
  simp only [List.mem_append, List.mem_singleton] at hn
  exact hn.imp_right fun h => h.le

/-- What is printed by a turn, the state it is printed from having read
the format. -/
theorem Prints.after_read (h : Prints { s with read := s.read ++ [s.format] } s' text last)
    (hle : s.format ≤ last) : Prints s s' text last :=
  (prints_read.mono hle).trans h

variable (rest ap limit) in
/-- **A turn of the loop** prints a token and comes to the next one,
unless it is at a lone `%`. -/
theorem turn_token (h0 : 0 ∉ f) (hne : f ≠ []) (hlone : f ≠ ['%'.toUInt8])
    (hformat : s.format = pre.length) :
    ∃ t pre' f', pre ++ f = pre' ++ f' ∧ 0 ∉ f' ∧ tokens f = t :: tokens f' ∧
      t ≠ .conversion 0 ∧ f'.length < f.length ∧
      (s.turn limit (formatMem (pre ++ f) rest) ap).format = pre'.length ∧
      (s.turn limit (formatMem (pre ++ f) rest) ap).taken = s.taken + t.takes ∧
      Prints s (s.turn limit (formatMem (pre ++ f) rest) ap)
        ((t.text (ap s.taken)).take (limit - s.count)) (pre.length + f.length) := by
  obtain ⟨c, g, rfl⟩ := List.exists_cons_of_ne_nil hne
  by_cases hc : c = '%'.toUInt8
  · subst hc
    obtain ⟨c', f', rfl⟩ := List.exists_cons_of_ne_nil (l := g) (by rintro rfl; exact hlone rfl)
    obtain ⟨buffer, hin, heq⟩ := turn_conversion (c' :: f') rest ap limit hformat
    simp only [List.mem_cons, not_or] at h0
    refine ⟨.conversion c', pre ++ ['%'.toUInt8, c'], f', by simp, h0.2.2, tokens_conversion,
      fun h => h0.2.1 (Token.conversion.inj h).symm, by simp only [List.length_cons]; omega,
      ?_, ?_, ?_⟩
    · rw [heq]
      simp
    · rw [heq]
      rfl
    · rw [heq]
      refine ⟨rfl, rfl, ?_, hin⟩
      intro n hn
      simp only [List.mem_append, List.mem_singleton] at hn
      refine hn.imp_right fun h => ?_
      rw [h, List.length_cons]
      omega
  · rw [List.mem_cons, not_or] at h0
    rw [turn_literal hformat hc]
    exact ⟨.literal c, pre ++ [c], g, by simp, h0.2, tokens_literal hc, Token.noConfusion,
      by simp, by simp, rfl, rfl, rfl, fun n hn => Or.inl hn, fun n hn => Or.inl hn⟩

variable (rest ap) in
/-- **The loop at a token** goes on behind it, with what is left of the
format. -/
theorem loop_token (h0 : 0 ∉ f) (hne : f ≠ []) (hlone : f ≠ ['%'.toUInt8])
    (hformat : s.format = pre.length) (hroom : s.count < limit) :
    ∃ t pre' f' s', pre ++ f = pre' ++ f' ∧ 0 ∉ f' ∧ tokens f = t :: tokens f' ∧
      t ≠ .conversion 0 ∧ f'.length < f.length ∧ s'.format = pre'.length ∧
      s'.taken = s.taken + t.takes ∧
      Prints s s' ((t.text (ap s.taken)).take (limit - s.count)) (pre.length + f.length) ∧
      ∀ turns, Printing.loop limit (formatMem (pre ++ f) rest) ap (turns + 1) s =
        Printing.loop limit (formatMem (pre' ++ f') rest) ap turns s' := by
  have hread : ({ s with read := s.read ++ [s.format] } : Printing).format = pre.length := hformat
  obtain ⟨t, pre', f', happ, h0', htokens, ht, hshort, hformat', htaken, hprints⟩ :=
    turn_token rest ap limit h0 hne hlone hread
  refine ⟨t, pre', f', _, happ, h0', htokens, ht, hshort, hformat', htaken,
    hprints.after_read (by omega), fun turns => ?_⟩
  have hchar : formatMem (pre ++ f) rest s.format ≠ 0 := by
    obtain ⟨c, g, rfl⟩ := List.exists_cons_of_ne_nil hne
    rw [hformat, formatMem_head]
    rintro rfl
    exact h0 List.mem_cons_self
  rw [loop_goes hchar hroom, ← happ]

theorem Prints.count_eq (h : Prints s s' (text.take (limit - s.count)) last) :
    s'.count = s.count + min (limit - s.count) text.length := by
  rw [h.count, Printing.print_count, List.length_take]

/-- Two texts printed one behind the other, each as far as there is
room. -/
theorem Prints.append (h : Prints s s' (text.take (limit - s.count)) last)
    (h' : Prints s' s'' (text'.take (limit - s'.count)) last) :
    Prints s s'' ((text ++ text').take (limit - s.count)) last := by
  have hroom : limit - s'.count = limit - s.count - text.length := by
    rw [h.count_eq]
    omega
  rw [List.take_append, ← hroom]
  exact h.trans h'

/-- A token printed, what is left of the format ends open where the whole
does. -/
theorem endsOpen_iff {f' : List UInt8} (htokens : tokens f = t :: tokens f')
    (hroom : s.count < limit) (htaken : s'.taken = s.taken + t.takes)
    (hprints : Prints s s' ((t.text (ap s.taken)).take (limit - s.count)) last)
    (ht : t ≠ .conversion 0) : EndsOpen limit ap f s ↔ EndsOpen limit ap f' s' := by
  rw [EndsOpen, EndsOpen, htokens, List.mem_cons, or_iff_right (Ne.symm ht)]
  refine and_congr_right fun hmem => ?_
  rw [List.dropLast_cons_of_ne_nil (List.ne_nil_of_mem hmem), output, List.length_append, htaken,
    hprints.count_eq]
  omega

variable (rest) in
/-- **The loop** prints the tokens, as far as there is room, where the
format does not end open. -/
theorem loop_prints (h0 : 0 ∉ f) (hformat : s.format = pre.length) (hroom : s.count ≤ limit)
    (hopen : ¬ EndsOpen limit ap f s) :
    ∃ turns s', Printing.loop limit (formatMem (pre ++ f) rest) ap turns s = some s' ∧
      Prints s s' ((output ap s.taken (tokens f)).take (limit - s.count))
        (pre.length + f.length) := by
  induction hn : f.length using Nat.strong_induction_on generalizing f pre s with
  | _ n ih =>
    subst hn
    have hstop : ¬ (formatMem (pre ++ f) rest s.format ≠ 0 ∧ s.count < limit) →
        (output ap s.taken (tokens f)).take (limit - s.count) = [] →
        ∃ turns s', Printing.loop limit (formatMem (pre ++ f) rest) ap turns s = some s' ∧
          Prints s s' ((output ap s.taken (tokens f)).take (limit - s.count))
            (pre.length + f.length) := by
      intro hno hnil
      rw [hnil]
      exact ⟨1, _, loop_stops hno, prints_read.mono (by omega)⟩
    rcases hroom.eq_or_lt with hfull | hlt
    · refine hstop (fun hgo => by omega) ?_
      rw [hfull, Nat.sub_self, List.take_zero]
    by_cases hne : f = []
    · subst hne
      refine hstop (fun hgo => hgo.1 ?_) List.take_nil
      rw [hformat]
      exact formatMem_end
    have hlone : f ≠ ['%'.toUInt8] := by
      rintro rfl
      rw [EndsOpen, tokens_lone] at hopen
      exact hopen ⟨List.mem_singleton_self _, hlt⟩
    obtain ⟨t, pre', f', s', happ, h0', htokens, ht, hshort, hformat', htaken, hprints, hloop⟩ :=
      loop_token rest ap h0 hne hlone hformat hlt
    have hcount := hprints.count_eq
    have hlen : pre'.length + f'.length = pre.length + f.length := by
      rw [← List.length_append, ← List.length_append, happ]
    obtain ⟨turns, s'', hrun, hrest⟩ := ih f'.length hshort h0' hformat' (by omega)
      (fun h => hopen ((endsOpen_iff htokens hlt htaken hprints ht).2 h)) rfl
    refine ⟨turns + 1, s'', (hloop turns).trans hrun, ?_⟩
    rw [htokens, output, ← htaken]
    exact hprints.append (hlen ▸ hrest)

/-- The places read stay read. -/
theorem turn_read {format : Store UInt8} : s.read ⊆ (s.turn limit format ap).read := by
  have hconvert : ∀ (s : Printing) c, (s.convert limit c ap).read = s.read := by
    intro s c
    obtain ⟨buffer, -, heq⟩ := Printing.convert_eq s limit c ap
    rw [heq]
    rfl
  rw [Printing.turn]
  split
  · simp only [hconvert]
    exact List.subset_append_left _ _
  · rw [Printing.putChar_eq]
    exact fun n hn => hn

theorem loop_read {format : Store UInt8}
    (h : Printing.loop limit format ap turns s = some s') :
    s.format ∈ s'.read ∧ s.read ⊆ s'.read := by
  induction turns generalizing s with
  | zero => cases h
  | succ turns ih =>
    have hread : ∀ s'' : Printing, s.read ++ [s.format] ⊆ s''.read →
        s.format ∈ s''.read ∧ s.read ⊆ s''.read := fun s'' hsub =>
      ⟨hsub (List.mem_append_right _ (List.mem_singleton_self _)),
        fun n hn => hsub (List.mem_append_left _ hn)⟩
    rw [Printing.loop] at h
    simp only at h
    split at h
    · exact hread s' fun n hn => (ih h).2 (turn_read hn)
    · obtain rfl := Option.some.inj h
      exact hread _ fun n hn => hn

/-- **Where the format ends open**, the loop reads behind its NUL. -/
theorem loop_overreads (h0 : 0 ∉ f) (hformat : s.format = pre.length)
    (hopen : EndsOpen limit ap f s)
    (h : Printing.loop limit (formatMem (pre ++ f) rest) ap turns s = some s') :
    pre.length + f.length + 1 ∈ s'.read := by
  induction turns generalizing f pre s with
  | zero => cases h
  | succ turns ih =>
    have hroom : s.count < limit := by
      have := hopen.2
      omega
    have hne : f ≠ [] := by
      rintro rfl
      exact List.not_mem_nil hopen.1
    by_cases hlone : f = ['%'.toUInt8]
    · subst hlone
      have hread : ({ s with read := s.read ++ [s.format] } : Printing).format = pre.length :=
        hformat
      obtain ⟨buffer, -, heq⟩ := turn_conversion [] rest ap limit hread
      have hchar : formatMem (pre ++ ['%'.toUInt8]) rest s.format ≠ 0 := by
        rw [hformat, formatMem_head]
        decide
      rw [loop_goes hchar hroom, heq] at h
      exact (loop_read h).1
    · obtain ⟨t, pre', f', s'', happ, h0', htokens, ht, -, hformat', htaken, hprints, hloop⟩ :=
        loop_token rest ap h0 hne hlone hformat hroom
      have hlen : pre'.length + f'.length = pre.length + f.length := by
        rw [← List.length_append, ← List.length_append, happ]
      rw [hloop] at h
      rw [← hlen]
      exact ih h0' hformat' ((endsOpen_iff htokens hroom htaken hprints ht).1 hopen) h

/-- The loop ends in one state at most. -/
theorem loop_unique {format : Store UInt8} {turns' : ℕ}
    (h : Printing.loop limit format ap turns s = some s')
    (h' : Printing.loop limit format ap turns' s = some s'') : s' = s'' := by
  induction turns generalizing s turns' with
  | zero => cases h
  | succ turns ih =>
    cases turns' with
    | zero => cases h'
    | succ turns' =>
      rw [Printing.loop] at h h'
      simp only at h h'
      split at h
      · rename_i hgo
        rw [if_pos hgo] at h'
        exact ih h h'
      · rename_i hno
        rw [if_neg hno] at h'
        exact Option.some.inj (h.symm.trans h')

end Loop

/-! ## The buffers -/

/-- **Inside its buffers**: at most `size` characters are stored, all of
them in the caller's buffer, which holds a NUL where it has room for one;
numbers stay in their array, and the format is read up to its NUL. -/
structure StaysInside (size : UInt64) (f : CText) (s : Printing) : Prop where
  bytes : s.str.stored.length ≤ size.toNat
  inside : ∀ n ∈ s.str.stored, n < size.toNat
  terminated : 0 < size → ∃ n < size.toNat, s.str.mem n = 0
  conversion : ∀ n ∈ s.buffer.stored, n < 32
  format : ∀ n ∈ s.read, n ≤ f.1.length

/-- `vsnprintf` returns, and stayed inside. -/
def KeepsInside (str buffer rest : Store UInt8) (size : UInt64) (f : CText) (ap : ℕ → VaSlot) :
    Prop :=
  ∃ turns r, vsnprintf turns str buffer size (formatMem f.1 rest) ap = some r ∧
    StaysInside size f r.1

/-- **Nothing goes wrong**: with no size nothing is printed, and a lone `%`
at the end comes where there is no room left. -/
structure PrintsSafely (size : UInt64) (f : CText) (ap : ℕ → VaSlot) : Prop where
  sized : size = 0 → output ap 0 (tokens f.1) = []
  closed : 0 < size → .conversion 0 ∈ tokens f.1 →
    size.toNat ≤ (output ap 0 (tokens f.1).dropLast).length + 1

section Bounds

variable {str buffer rest : Store UInt8} {size : UInt64} {f : CText} {ap : ℕ → VaSlot}
  {ts : List Token} {taken : ℕ}

theorem output_ne_nil (h : .conversion 0 ∈ ts) : output ap taken ts ≠ [] := by
  induction ts generalizing taken with
  | nil => cases h
  | cons t ts ih =>
    rw [output]
    rcases List.mem_cons.1 h with rfl | hmem
    · exact List.append_ne_nil_of_left_ne_nil (List.cons_ne_nil _ _) _
    · exact List.append_ne_nil_of_right_ne_nil _ (ih hmem)

variable (size) in
/-- The room of the loop. -/
theorem toNat_size_sub_one :
    size = 0 ∧ (size - 1).toNat = 2 ^ 64 - 1 ∨
      0 < size ∧ (size - 1).toNat = size.toNat - 1 ∧ 0 < size.toNat := by
  by_cases h : size = 0
  · subst h
    exact Or.inl ⟨rfl, rfl⟩
  · have hpos : 0 < size.toNat := Nat.pos_of_ne_zero fun hzero => h (UInt64.toNat_inj.1 hzero)
    have hone : 1 ≤ size := UInt64.le_iff_toNat_le.2 (by rw [UInt64.toNat_one]; exact hpos)
    refine Or.inr ⟨UInt64.lt_iff_toNat_lt.2 hpos, ?_, hpos⟩
    rw [UInt64.toNat_sub_of_le _ _ hone, UInt64.toNat_one]

theorem endsOpen_start {limit : ℕ} : EndsOpen limit ap f.1 (.start str buffer) ↔
    .conversion 0 ∈ tokens f.1 ∧ (output ap 0 (tokens f.1).dropLast).length < limit := by
  rw [EndsOpen, Printing.start, Nat.zero_add]

/-- A safe format does not end open. -/
theorem PrintsSafely.not_endsOpen (h : PrintsSafely size f ap) :
    ¬ EndsOpen (size - 1).toNat ap f.1 (.start str buffer) := by
  rw [endsOpen_start]
  rintro ⟨hmem, hlt⟩
  rcases toNat_size_sub_one size with ⟨hzero, -⟩ | ⟨hpos, hlimit, -⟩
  · exact output_ne_nil hmem (h.sized hzero)
  · have := h.closed hpos hmem
    omega

variable (rest) in
/-- **What `vsnprintf` leaves** where the format does not end open: the
tokens printed, as far as there is room. -/
theorem vsnprintf_prints (hopen : ¬ EndsOpen (size - 1).toNat ap f.1 (.start str buffer)) :
    ∃ turns s, Prints (.start str buffer) s
        ((output ap 0 (tokens f.1)).take (size - 1).toNat) f.1.length ∧
      vsnprintf turns str buffer size (formatMem f.1 rest) ap =
        some (if 0 < size then { s with str := s.str.put s.count 0 } else s,
          Int32.ofNat s.count) := by
  have hstart : (Printing.start str buffer).format = ([] : List UInt8).length := rfl
  obtain ⟨turns, s, hloop, hprints⟩ := loop_prints rest f.2 hstart (Nat.zero_le _) hopen
  rw [List.nil_append] at hloop
  rw [List.length_nil, Nat.zero_add] at hprints
  refine ⟨turns, s, hprints, ?_⟩
  rw [vsnprintf, hloop]
  rfl

/-- A call leaves one state at most. -/
theorem vsnprintf_unique {turns turns' : ℕ} {format : Store UInt8} {r r' : Printing × Int32}
    (h : vsnprintf turns str buffer size format ap = some r)
    (h' : vsnprintf turns' str buffer size format ap = some r') : r = r' := by
  obtain ⟨s, hs, rfl⟩ := Option.map_eq_some_iff.1 h
  obtain ⟨s', hs', rfl⟩ := Option.map_eq_some_iff.1 h'
  rw [loop_unique hs hs']

/-- What is printed lies at the start of the buffer. -/
theorem Prints.stored {s : Printing} {text : List UInt8} {last : ℕ}
    (h : Prints (.start str buffer) s text last) : s.str.stored = List.range' 0 text.length := by
  rw [h.str]
  exact Traced.putAll_stored

theorem KeepsInside.printsSafely (h : KeepsInside str buffer rest size f ap) :
    PrintsSafely size f ap := by
  obtain ⟨turns, r, hrun, hin⟩ := h
  have hclosed : ¬ EndsOpen (size - 1).toNat ap f.1 (.start str buffer) := by
    intro hopen
    obtain ⟨s, hloop, rfl⟩ := Option.map_eq_some_iff.1 hrun
    have hstart : (Printing.start str buffer).format = ([] : List UInt8).length := rfl
    have hover := loop_overreads f.2 hstart hopen hloop
    rw [List.length_nil, Nat.zero_add] at hover
    have hread := hin.format (f.1.length + 1) (by simp only; split <;> exact hover)
    omega
  refine ⟨?_, ?_⟩
  · rintro rfl
    obtain ⟨turns', s, hprints, hrun'⟩ := vsnprintf_prints rest hclosed
    have hbytes := hin.bytes
    rw [vsnprintf_unique hrun hrun', if_neg (by decide), hprints.stored, List.length_range',
      List.length_take] at hbytes
    have hlimit : ((0 : UInt64) - 1).toNat = 2 ^ 64 - 1 := rfl
    rw [hlimit, UInt64.toNat_zero] at hbytes
    exact List.eq_nil_of_length_eq_zero (by omega)
  · intro hpos hmem
    rw [endsOpen_start, not_and, Nat.not_lt] at hclosed
    have := hclosed hmem
    rcases toNat_size_sub_one size with ⟨rfl, -⟩ | ⟨-, hlimit, hsize⟩
    · exact absurd hpos (by decide)
    · omega

variable (str buffer rest) in
theorem PrintsSafely.keepsInside (h : PrintsSafely size f ap) :
    KeepsInside str buffer rest size f ap := by
  have hclosed : ¬ EndsOpen (size - 1).toNat ap f.1 (.start str buffer) := h.not_endsOpen
  obtain ⟨turns, s, hprints, hrun⟩ := vsnprintf_prints rest hclosed
  have hstored := hprints.stored
  have hcount := hprints.count
  rw [Printing.print_count, List.length_take, Printing.start, Nat.zero_add] at hcount
  rw [List.length_take] at hstored
  have hread : ∀ n ∈ s.read, n ≤ f.1.length := fun n hn =>
    (hprints.read n hn).resolve_left List.not_mem_nil
  have hbuffer : ∀ n ∈ s.buffer.stored, n < 32 := fun n hn =>
    (hprints.buffer n hn).resolve_left List.not_mem_nil
  refine ⟨turns, _, hrun, ?_⟩
  rcases toNat_size_sub_one size with ⟨rfl, -⟩ | ⟨hpos, hlimit, hsize⟩
  · rw [if_neg (by decide)]
    rw [h.sized rfl, List.length_nil, Nat.min_zero] at hstored
    exact ⟨by simp [hstored], by simp [hstored], fun h => absurd h (by decide), hbuffer, hread⟩
  · rw [if_pos hpos]
    have hlen : s.count < size.toNat := by
      omega
    refine ⟨?_, ?_, fun _ => ⟨s.count, hlen, Traced.put_mem_self⟩, hbuffer, hread⟩
    · simp only [Traced.put, hstored, List.length_append, List.length_range',
        List.length_singleton]
      omega
    · intro n hn
      simp only [Traced.put, hstored, List.mem_append, List.mem_range'_1,
        List.mem_singleton] at hn
      omega

variable (str buffer rest size f ap) in
/-- **`vsnprintf` keeps inside its buffers** exactly where it is given room,
or nothing to print, and the format does not end in a lone `%` that there
is room to come to. -/
theorem keepsInside_iff : KeepsInside str buffer rest size f ap ↔ PrintsSafely size f ap :=
  ⟨KeepsInside.printsSafely, PrintsSafely.keepsInside str buffer rest⟩

end Bounds

/-- An argument that reads as zero, and as the empty text. -/
def noArgs : ℕ → VaSlot := fun _ => ⟨0, ⟨[], List.not_mem_nil⟩⟩

/-- With no size a character is stored all the same, and a lone `%` is
read past. -/
theorem not_keepsInside :
    ¬ KeepsInside (fun _ => 0) (fun _ => 0) (fun _ => 0) 0 ⟨['a'.toUInt8], by decide⟩ noArgs ∧
    ¬ KeepsInside (fun _ => 0) (fun _ => 0) (fun _ => 0) 8 ⟨['%'.toUInt8], by decide⟩ noArgs ∧
    (vsnprintf 2 (fun _ => 0) (fun _ => 0) 8 (formatMem ['%'.toUInt8] fun _ => 0) noArgs).map
      (·.1.read) = some [0, 1, 2] := by
  refine ⟨fun h => ?_, fun h => ?_, by decide +kernel⟩
  · exact absurd (h.printsSafely.sized rfl) (by decide +kernel)
  · exact absurd (h.printsSafely.closed (by decide) (by decide)) (by decide +kernel)

end Amp

end ObcSdk
