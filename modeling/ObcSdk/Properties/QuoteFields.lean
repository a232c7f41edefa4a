import Mathlib.Data.List.GetD
import ObcSdk.Lvgl.StockInfo
/-!
# The fields of a quote

A quote's fields stand between commas, and `stock_fetch_data` numbers
them as `strtok` gives them, without the empty ones: the numbers are the
fields' own only where none of the first is empty.
-/

namespace ObcSdk

namespace Lvgl

/-- A response with a quoted text in its body. -/
structure QuotedResponse where
  head : List Char
  front : List Char
  quoted : List Char
  rest : List Char
  /-- The body is behind the first empty line. -/
  head_ends : ¬ "\r\n\r\n".toList <:+: head ++ "\r\n\r".toList
  not_mem_front : '"' ∉ front
  not_mem_quoted : '"' ∉ quoted
  /-- One `recv` stores it. -/
  fits : (head ++ ("\r\n\r\n".toList ++ (front ++ '"' :: (quoted ++ '"' :: rest)))).length ≤ 4095

namespace QuotedResponse

variable (r : QuotedResponse)

def bytes : List Char :=
  r.head ++ ("\r\n\r\n".toList ++ (r.front ++ '"' :: (r.quoted ++ '"' :: r.rest)))

/-- The fields, empty ones too. -/
def fields : List (List Char) := r.quoted.splitOn ','

/-- The fields that are not empty. -/
def tokens : List (List Char) := r.fields.filter (· ≠ [])

/-- A field by its number. -/
def field (i : ℕ) : List Char := r.fields.getD i []

end QuotedResponse

/-- All calls succeed, and the response is what is received. -/
structure QuoteHost.Delivers (host : QuoteHost) (stockCode response : List Char) : Prop where
  socket : host.socket = true
  gethostbyname : host.gethostbyname = true
  connect : host.connect = true
  send : host.send (quoteRequest stockCode) = true
  recv : host.recv (quoteRequest stockCode) = response

/-- The time of two fields. -/
def timeOf (date time : List Char) : List Char := (date ++ [' '] ++ time).take 31

/-- The data is that of the fields by their positions. -/
structure StockInfo.OfFields {F : Type} (info : StockInfo F) (ops : FloatOps F)
    (r : QuotedResponse) : Prop where
  name : info.name = (r.field 0).take 63
  openPrice : info.openPrice = ops.atof (r.field 1)
  yesterdayClose : info.yesterdayClose = ops.atof (r.field 2)
  currentPrice : info.currentPrice = ops.atof (r.field 3)
  updateTime : info.updateTime = timeOf (r.field 30) (r.field 31)

/-- A response is read by positions: from 32 fields on the data is
theirs, and with fewer it stays. -/
def QuotedResponse.Positional (r : QuotedResponse) : Prop :=
  ∀ (F : Type) (ops : FloatOps F) (host : QuoteHost) (stockCode : List Char) (info : StockInfo F),
    host.Delivers stockCode r.bytes →
      if 32 ≤ r.fields.length then
        ∃ info', stockFetchData ops host (some stockCode) (some info) = (0, some info') ∧
          info'.OfFields ops r
      else stockFetchData ops host (some stockCode) (some info) = (-1, some info)

/-- The fields that count are found at their positions: no NUL ends the
text, the first four are not empty, and leaving out the empty ones
leaves enough of them and the time as it is. -/
structure QuotedResponse.Kept (r : QuotedResponse) : Prop where
  no_nul : '\x00' ∉ r.head ++ r.front ++ r.quoted
  enough : 32 ≤ r.tokens.length
  not_nil : ∀ i < 4, r.field i ≠ []
  time_eq : timeOf (r.tokens.getD 30 []) (r.tokens.getD 31 []) = timeOf (r.field 30) (r.field 31)

/-! ## What is found -/

variable {r : QuotedResponse}

theorem strstr_quote {pre post : List Char} (h : '"' ∉ pre) :
    strstr (pre ++ '"' :: post) ['"'] = some ('"' :: post) := by
  have hpre : ¬ ['"'] <:+: pre ++ ['"'].dropLast := by
    intro hin
    exact h (by simpa using hin.subset (List.mem_singleton_self '"'))
  exact strstr_append hpre

theorem strstr_quote_of_not_mem {s : List Char} (h : '"' ∉ s) : strstr s ['"'] = none :=
  strstr_of_not_infix fun hin => h (hin.subset (List.mem_singleton_self '"'))

theorem quotedText_append {front quoted rest : List Char} (hfront : '"' ∉ front)
    (hquoted : '"' ∉ quoted) :
    quotedText (front ++ '"' :: (quoted ++ '"' :: rest)) = some quoted := by
  rw [quotedText, strstr_quote hfront]
  simp only [List.drop_succ_cons, List.drop_zero]
  rw [strstr_quote hquoted]
  simp

theorem quotedText_of_not_mem {body : List Char} (h : '"' ∉ body) : quotedText body = none := by
  rw [quotedText, strstr_quote_of_not_mem h]

theorem quotedText_of_open {front quoted : List Char} (hfront : '"' ∉ front)
    (hquoted : '"' ∉ quoted) : quotedText (front ++ '"' :: quoted) = none := by
  rw [quotedText, strstr_quote hfront]
  simp only [List.drop_succ_cons, List.drop_zero]
  rw [strstr_quote_of_not_mem hquoted]

/-- Behind a header the body is looked into. -/
theorem quoteText_append {head body : List Char}
    (h : ¬ "\r\n\r\n".toList <:+: head ++ "\r\n\r".toList) :
    quoteText (head ++ ("\r\n\r\n".toList ++ body)) = quotedText body := by
  rw [quoteText, strstr_append h]
  rfl

/-- **The text between the quotes** is found, if no NUL comes before its
end. -/
theorem quoteText_bytes (h : '\x00' ∉ r.head ++ r.front ++ r.quoted) :
    quoteText (cString r.bytes) = some r.quoted := by
  simp only [List.mem_append, not_or] at h
  obtain ⟨⟨hhead, hfront⟩, hquoted⟩ := h
  rw [QuotedResponse.bytes, cString_append_of_not_mem hhead,
    cString_append_of_not_mem (by decide), cString_append_of_not_mem hfront,
    cString_cons_of_ne (by decide), cString_append_of_not_mem hquoted,
    cString_cons_of_ne (by decide), quoteText_append r.head_ends,
    quotedText_append r.not_mem_front r.not_mem_quoted]

/-- And nothing is found if one does. -/
theorem quoteText_of_nul (h : '\x00' ∈ r.head ++ r.front ++ r.quoted) :
    quoteText (cString r.bytes) = none := by
  rw [QuotedResponse.bytes]
  by_cases hhead : '\x00' ∈ r.head
  · have hnone : strstr (cString r.head) "\r\n\r\n".toList = none := by
      refine strstr_of_not_infix fun hin => r.head_ends ?_
      exact (hin.trans (List.takeWhile_prefix _).isInfix).trans (List.prefix_append _ _).isInfix
    rw [cString_append_of_mem hhead, quoteText, hnone]
  · rw [cString_append_of_not_mem hhead, cString_append_of_not_mem (by decide),
      quoteText_append r.head_ends]
    by_cases hfront : '\x00' ∈ r.front
    · rw [cString_append_of_mem hfront]
      exact quotedText_of_not_mem fun hq => r.not_mem_front (cString_subset hq)
    · have hquoted : '\x00' ∈ r.quoted := by
        simp only [List.mem_append] at h
        exact (h.resolve_left fun h => h.elim hhead hfront)
      rw [cString_append_of_not_mem hfront, cString_cons_of_ne (by decide),
        cString_append_of_mem hquoted]
      exact quotedText_of_open r.not_mem_front fun hq => r.not_mem_quoted (cString_subset hq)

/-! ## What is returned -/

variable {F : Type} {ops : FloatOps F} {host : QuoteHost} {stockCode : List Char}
variable {info : StockInfo F}

/-- Tokens behind the 33rd are not read. -/
theorem fill_take {l : List (List Char)} :
    info.fill ops stockCode (l.take 33) = info.fill ops stockCode l := by
  have hget : ∀ i < 33, (l.take 33).getD i [] = l.getD i [] := by
    intro i hi
    rw [List.getD_eq_getElem?_getD, List.getD_eq_getElem?_getD, List.getElem?_take_of_lt hi]
  simp only [StockInfo.fill]
  rw [hget 0 (by omega), hget 1 (by omega), hget 2 (by omega), hget 3 (by omega),
    hget 30 (by omega), hget 31 (by omega)]

/-- **What is fetched** of a response that is received: its tokens'
data, if there are enough of them and no NUL stops the search. -/
theorem stockFetchData_eq (h : host.Delivers stockCode r.bytes) :
    stockFetchData ops host (some stockCode) (some info) =
      if '\x00' ∉ r.head ++ r.front ++ r.quoted ∧ 32 ≤ r.tokens.length then
        (0, some (info.fill ops stockCode r.tokens))
      else (-1, some info) := by
  have htake : (host.recv (quoteRequest stockCode)).take 4095 = r.bytes := by
    rw [h.recv]
    exact List.take_of_length_le r.fits
  have hne : r.bytes ≠ [] := by
    rw [QuotedResponse.bytes]
    exact List.append_ne_nil_of_right_ne_nil _ (List.append_ne_nil_of_left_ne_nil (by decide) _)
  rw [stockFetchData]
  simp only [h.socket, h.gethostbyname, h.connect, h.send, htake, Bool.not_true,
    Bool.false_eq_true, if_false, if_neg hne]
  by_cases hnul : '\x00' ∈ r.head ++ r.front ++ r.quoted
  · rw [quoteText_of_nul hnul, if_neg fun hand => hand.1 hnul]
  · rw [quoteText_bytes hnul]
    have hwords : words ',' r.quoted = r.tokens := rfl
    simp only
    rw [hwords, List.length_take, fill_take]
    by_cases henough : 32 ≤ r.tokens.length
    · rw [if_neg (by omega), if_pos ⟨hnul, henough⟩]
    · rw [if_pos (by omega), if_neg fun hand => henough hand.2]

/-! ## Tokens and fields -/

theorem length_tokens_le : r.tokens.length ≤ r.fields.length := List.length_filter_le _ _

theorem token_ne_nil {i : ℕ} (h : i < r.tokens.length) : r.tokens.getD i [] ≠ [] := by
  rw [List.getD_eq_getElem _ _ h]
  simpa using (List.mem_filter.1 (List.getElem_mem h)).2

/-- Where none up to it is empty, a field keeps its number. -/
theorem getD_filter_ne_nil {α : Type*} [DecidableEq α] {l : List (List α)} {i : ℕ}
    (h : ∀ j ≤ i, l.getD j [] ≠ []) : (l.filter (· ≠ [])).getD i [] = l.getD i [] := by
  induction l generalizing i with
  | nil => rfl
  | cons x l ih =>
    have hx : x ≠ [] := h 0 (Nat.zero_le i)
    rw [List.filter_cons_of_pos (by simpa using hx)]
    cases i with
    | zero => rfl
    | succ i => exact ih fun j hj => h (j + 1) (by omega)

/-- Data of the tokens is data of the fields, where those are kept. -/
theorem fill_ofFields (hnil : ∀ i < 4, r.field i ≠ [])
    (htime : timeOf (r.tokens.getD 30 []) (r.tokens.getD 31 []) =
      timeOf (r.field 30) (r.field 31)) :
    (info.fill ops stockCode r.tokens).OfFields ops r := by
  have htoken : ∀ i < 4, r.tokens.getD i [] = r.field i := fun i hi =>
    getD_filter_ne_nil fun j hj => hnil j (by omega)
  constructor
  · exact congrArg (List.take 63) (htoken 0 (by omega))
  · exact congrArg ops.atof (htoken 1 (by omega))
  · exact congrArg ops.atof (htoken 2 (by omega))
  · exact congrArg ops.atof (htoken 3 (by omega))
  · exact htime

/-- Numbers that are the texts they are converted from. -/
def FloatOps.texts : FloatOps (List Char) :=
  ⟨id, fun x _ => x, fun x _ => x, fun x _ => x, fun _ => [], fun _ => 0⟩

/-- A network on which a response comes. -/
def QuoteHost.answering (response : List Char) : QuoteHost :=
  ⟨true, true, true, fun _ => true, fun _ => response⟩

theorem QuoteHost.answering_delivers (stockCode response : List Char) :
    (QuoteHost.answering response).Delivers stockCode response := ⟨rfl, rfl, rfl, rfl, rfl⟩

/-- An entry with nothing in it. -/
def StockInfo.empty : StockInfo (List Char) := ⟨[], [], [], [], [], [], [], [], [], false⟩

/-- Fields whose data is that of the tokens are none of them empty. -/
theorem field_ne_nil (henough : 32 ≤ r.tokens.length)
    (h : (StockInfo.empty.fill .texts stockCode r.tokens).OfFields .texts r) :
    ∀ i < 4, r.field i ≠ [] := by
  have hname : (r.tokens.getD 0 []).take 63 = (r.field 0).take 63 := h.name
  have hopen : r.tokens.getD 1 [] = r.field 1 := h.openPrice
  have hyesterday : r.tokens.getD 2 [] = r.field 2 := h.yesterdayClose
  have hcurrent : r.tokens.getD 3 [] = r.field 3 := h.currentPrice
  intro i hi hnil
  have htoken := token_ne_nil (r := r) (i := i) (by omega)
  obtain rfl | rfl | rfl | rfl : i = 0 ∨ i = 1 ∨ i = 2 ∨ i = 3 := by omega
  · rw [hnil, List.take_nil, List.take_eq_nil_iff] at hname
    exact htoken (hname.resolve_left (by omega))
  · exact htoken (hopen.trans hnil)
  · exact htoken (hyesterday.trans hnil)
  · exact htoken (hcurrent.trans hnil)

/-- **Positions.** A response is read by the positions of its fields
exactly if it has too few of them, or those that count are kept at
theirs. -/
theorem positional_iff (r : QuotedResponse) :
    r.Positional ↔ r.fields.length < 32 ∨ r.Kept := by
  constructor
  · intro h
    by_cases hfew : r.fields.length < 32
    · exact .inl hfew
    · have hread := h _ .texts (.answering r.bytes) [] .empty
        (QuoteHost.answering_delivers _ _)
      rw [if_pos (Nat.le_of_not_lt hfew),
        stockFetchData_eq (QuoteHost.answering_delivers _ _)] at hread
      obtain ⟨info', heq, hof⟩ := hread
      split at heq
      · rename_i hfound
        obtain ⟨hnul, henough⟩ := hfound
        rw [Prod.mk.injEq, Option.some.injEq] at heq
        obtain ⟨-, rfl⟩ := heq
        exact .inr ⟨hnul, henough, field_ne_nil henough hof, hof.updateTime⟩
      · cases heq
  · intro h F ops host stockCode info hhost
    rw [stockFetchData_eq hhost]
    rcases h with hfew | hkept
    · have hle := length_tokens_le (r := r)
      rw [if_neg (by omega), if_neg fun hand => by omega]
    · have hle := length_tokens_le (r := r)
      have henough := hkept.enough
      rw [if_pos (by omega), if_pos ⟨hkept.no_nul, henough⟩]
      exact ⟨_, rfl, fill_ofFields hkept.not_nil hkept.time_eq⟩

/-- A quote of 34 fields, the last of them empty. -/
def closed : QuotedResponse where
  head := "HTTP/1.1 200 OK".toList
  front := "var hq_str_sh600519=".toList
  quoted := "name,1700.00,1695.50,1710.25".toList ++ (List.replicate 26 ",0".toList).flatten ++
    ",2024-01-02,15:00:03,00,".toList
  rest := ";".toList
  head_ends := by decide +kernel
  not_mem_front := by decide +kernel
  not_mem_quoted := by decide +kernel
  fits := by decide +kernel

/-- It is read by positions, the time being that of its fields. -/
theorem positional_closed :
    closed.Positional ∧
      (stockFetchData .texts (.answering closed.bytes) (some []) (some .empty)).2.map
        StockInfo.updateTime = some "2024-01-02 15:00:03".toList := by
  refine ⟨(positional_iff closed).2 (.inr ⟨?_, ?_, ?_, ?_⟩), ?_⟩
  · decide +kernel
  · decide +kernel
  · decide +kernel
  · decide +kernel
  · decide +kernel

/-- A quote of 33 fields without an opening price. -/
def unopened : QuotedResponse where
  head := "HTTP/1.1 200 OK".toList
  front := "var hq_str_sh600519=".toList
  quoted := "name,,2,3".toList ++ (List.replicate 29 ",0".toList).flatten
  rest := ";".toList
  head_ends := by decide +kernel
  not_mem_front := by decide +kernel
  not_mem_quoted := by decide +kernel
  fits := by decide +kernel

/-- Its opening price is the closing price of the day before. -/
theorem not_positional_unopened : ¬ unopened.Positional := by
  intro h
  have hread := h _ .texts (.answering unopened.bytes) [] .empty
    (QuoteHost.answering_delivers _ _)
  rw [if_pos (by decide +kernel)] at hread
  obtain ⟨info', heq, hof⟩ := hread
  have hopen : (stockFetchData .texts (.answering unopened.bytes) (some []) (some .empty)).2.map
      StockInfo.openPrice = some ['2'] := by decide +kernel
  rw [heq, Option.map_some, hof.openPrice] at hopen
  exact absurd hopen (by decide +kernel)

end Lvgl

end ObcSdk
