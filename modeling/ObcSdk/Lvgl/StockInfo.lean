import Mathlib.Data.List.DropRight
import Mathlib.Logic.Function.Basic
import ObcSdk.Lib.CString
import ObcSdk.Lib.CText
import ObcSdk.Lib.Sections
import ObcSdk.Lib.Words
/-!
# The stock screen

`stock_info.c`: the configuration file it reads and the quotes it
fetches. A character is a byte, and of an array of them there is the
string it holds: arrays start as zeros, and their last byte stays zero.
Floating point is a parameter.
-/

namespace ObcSdk

namespace Lvgl

/-! ## The data -/

/-- `MAX_STOCKS`. -/
abbrev maxStocks : ℕ := 10

/-- `stock_info_t`. -/
structure StockInfo (F : Type) where
  code : List Char
  name : List Char
  description : List Char
  currentPrice : F
  openPrice : F
  yesterdayClose : F
  changeAmount : F
  changePercent : F
  updateTime : List Char
  valid : Bool

/-- The variables of the screen's data. -/
structure StockScreen (F : Type) where
  /-- `g_stock_data`. -/
  data : Fin maxStocks → StockInfo F
  /-- `g_stock_count`. -/
  count : ℕ
  /-- `g_update_interval`. -/
  updateInterval : Int32

/-! ## The configuration file -/

def isBlank (c : Char) : Bool := c = ' ' || c = '\t' || c = '\r' || c = '\n'

/-- `trim`. -/
def trim (str : List Char) : List Char := (str.dropWhile isBlank).rdropWhile isBlank

/-- What a line says: the name of a section, or a key and its value;
`none` for one that is passed over. -/
def iniLine (line : List Char) : Option (SectionLine (List Char) (List Char × List Char)) :=
  match trim (cString line) with
  | [] => none
  | c :: cs =>
    if c = ';' ∨ c = '#' then none
    else if c = '[' then
      match strchr (c :: cs) ']' with
      | none => none
      | some stop => some (.header (cs.take (cs.length - stop.length)))
    else
      match strchr (c :: cs) '=' with
      | none => none
      | some eq =>
        let key := (c :: cs).take ((c :: cs).length - eq.length)
        some (.setting (trim key, trim (eq.drop 1)))

/-- The variables of `stock_load_config`. A `stock_index` of `-1` is
`none`. -/
structure StockLoad (F : Type) where
  sectionName : List Char
  count : ℕ
  stockIndex : Option (Fin maxStocks)
  data : Fin maxStocks → StockInfo F
  updateInterval : Int32

variable {F : Type}

/-- A setting of a stock. -/
def StockInfo.set (info : StockInfo F) (setting : List Char × List Char) : StockInfo F :=
  if setting.1 = "code".toList then { info with code := setting.2.take 15 }
  else if setting.1 = "description".toList then { info with description := setting.2.take 63 }
  else info

/-- An entry as its section starts. -/
def StockInfo.cleared (info : StockInfo F) : StockInfo F :=
  { info with valid := false, code := [], description := [] }

/-- What a line does. -/
def StockLoad.line (s : StockLoad F) :
    SectionLine (List Char) (List Char × List Char) → StockLoad F
  | .header name =>
    let name := name.take 63
    if h : name.take 5 = "Stock".toList ∧ s.count < maxStocks then
      let i : Fin maxStocks := ⟨s.count, h.2⟩
      { s with
        sectionName := name
        stockIndex := some i
        data := Function.update s.data i (s.data i).cleared
        count := s.count + 1 }
    else if name = "Settings".toList then { s with sectionName := name, stockIndex := none }
    else { s with sectionName := name }
  | .setting (key, value) =>
    if s.sectionName = "Settings".toList then
      if key = "update_interval".toList then
        { s with updateInterval := if atoi value < 1 then 5 else atoi value }
      else s
    else
      match s.stockIndex with
      | none => s
      | some i => { s with data := Function.update s.data i ((s.data i).set (key, value)) }

/-- `stock_load_config`, and what is returned. There is no file where
`fopen` fails. -/
def stockLoadConfig (g : StockScreen F) (file : Option (List Char)) : Int32 × StockScreen F :=
  match file with
  | none => (-1, g)
  | some text =>
    let s : StockLoad F := ⟨[], 0, none, g.data, g.updateInterval⟩
    let s := ((fgetsAll 256 [] text).filterMap iniLine).foldl StockLoad.line s
    (0, ⟨s.data, s.count, s.updateInterval⟩)

/-! ## A quote -/

/-- What is done with a `float`. -/
structure FloatOps (F : Type) where
  atof : List Char → F
  sub : F → F → F
  mul : F → F → F
  div : F → F → F
  ofInt : Int32 → F
  toInt : F → Int32

/-- The network: whether each call succeeds, and what `recv` stores in
answer to what was sent, nothing where it fails. -/
structure QuoteHost where
  socket : Bool
  gethostbyname : Bool
  connect : Bool
  send : List Char → Bool
  recv : List Char → List Char

/-- The request, in its array of 512. -/
def quoteRequest (stockCode : List Char) : List Char :=
  ("GET /list=".toList ++ stockCode ++ (" HTTP/1.1\r\n" ++
    "Host: hq.sinajs.cn\r\n" ++
    "User-Agent: Mozilla/5.0\r\n" ++
    "Referer: http://finance.sina.com.cn\r\n" ++
    "Connection: close\r\n\r\n").toList).take 511

/-- The text between the first two quotes of a body. -/
def quotedText (body : List Char) : Option (List Char) :=
  match strstr body ['"'] with
  | none => none
  | some start =>
    let dataStart := start.drop 1
    match strstr dataStart ['"'] with
    | none => none
    | some dataEnd => some (dataStart.take (dataStart.length - dataEnd.length))

/-- The text that holds the fields of a response. -/
def quoteText (response : List Char) : Option (List Char) :=
  match strstr response "\r\n\r\n".toList with
  | none => none
  | some body => quotedText (body.drop 4)

/-- The data, from fields of which there are enough. -/
def StockInfo.fill (ops : FloatOps F) (info : StockInfo F) (stockCode : List Char)
    (fields : List (List Char)) : StockInfo F :=
  let openPrice := ops.atof (fields.getD 1 [])
  let yesterdayClose := ops.atof (fields.getD 2 [])
  let currentPrice := ops.atof (fields.getD 3 [])
  let changeAmount := ops.sub currentPrice yesterdayClose
  let ycloseInt := ops.toInt (ops.mul yesterdayClose (ops.ofInt 100))
  let changeInt := ops.toInt (ops.mul changeAmount (ops.ofInt 10000))
  { info with
    code := stockCode.take 15
    name := (fields.getD 0 []).take 63
    openPrice := openPrice
    yesterdayClose := yesterdayClose
    currentPrice := currentPrice
    changeAmount := changeAmount
    changePercent :=
      if ycloseInt ≠ 0 then ops.div (ops.ofInt changeInt) (ops.ofInt ycloseInt) else ops.ofInt 0
    updateTime := (fields.getD 30 [] ++ [' '] ++ fields.getD 31 []).take 31
    valid := true }

/-- `stock_fetch_data`, what is returned and `*info`. -/
def stockFetchData (ops : FloatOps F) (host : QuoteHost) (stockCode : Option (List Char))
    (info : Option (StockInfo F)) : Int32 × Option (StockInfo F) :=
  match stockCode, info with
  | some stockCode, some info =>
    let request := quoteRequest stockCode
    if !host.socket then (-1, some info)
    else if !host.gethostbyname then (-1, some info)
    else if !host.connect then (-1, some info)
    else if !host.send request then (-1, some info)
    else
      -- the array has one byte more, a zero
      let response := (host.recv request).take 4095
      if response = [] then (-1, some info)
      else
        match quoteText (cString response) with
        | none => (-1, some info)
        | some data =>
          -- `strtok` gives no empty tokens
          let fields := (words ',' data).take 33
          if fields.length < 32 then (-1, some info)
          else (0, some (info.fill ops stockCode fields))
  | _, _ => (-1, info)

end Lvgl

end ObcSdk
