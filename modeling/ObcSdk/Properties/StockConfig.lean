import Mathlib.Data.List.Count
import ObcSdk.Lvgl.StockInfo
/-!
# The stocks of the configuration file

Each [Stock*] section of the file opens the next entry, and its settings
go there. So do those of the sections behind it, which `stock_load_config`
takes for its own unless they are `[Settings]` or a stock that there is
still an entry for: the entries are what the file says where what strays
in so changes nothing.
-/

namespace ObcSdk

namespace Lvgl

/-- A section of the file. -/
abbrev IniSection : Type := List Char × List (List Char × List Char)

/-- The sections of the file. -/
def fileSections (text : List Char) : List IniSection :=
  (sectionsOf ((text.splitOn '\n').filterMap iniLine)).2

def IsStock (sec : IniSection) : Prop := sec.1.take 5 = "Stock".toList

instance : DecidablePred IsStock := fun sec =>
  inferInstanceAs (Decidable (sec.1.take 5 = "Stock".toList))

def stocks (secs : List IniSection) : ℕ := secs.countP (IsStock ·)

variable {F : Type} {g : StockScreen F} {text : List Char}

/-- An entry of a section of these settings. -/
def StockInfo.configured (info : StockInfo F) (own : List (List Char × List Char)) :
    StockInfo F :=
  { info with
    code := ((lastValue "code".toList own).getD []).take 15
    description := ((lastValue "description".toList own).getD []).take 63
    valid := false }

/-- The variables are as the file says: an entry for each of the first
[Stock*] sections, with the last values given in it, and nothing else
changed. -/
structure Loads (g : StockScreen F) (text : List Char) : Prop where
  returns : (stockLoadConfig g (some text)).1 = 0
  count_eq : (stockLoadConfig g (some text)).2.count = min maxStocks (stocks (fileSections text))
  entry : ∀ before sec after, fileSections text = before ++ sec :: after → IsStock sec →
    ∀ h : stocks before < maxStocks,
      (stockLoadConfig g (some text)).2.data ⟨stocks before, h⟩ =
        (g.data ⟨stocks before, h⟩).configured sec.2
  rest : ∀ i : Fin maxStocks, stocks (fileSections text) ≤ i →
    (stockLoadConfig g (some text)).2.data i = g.data i

/-- The settings that go to an entry from other sections: of all of them
up to `[Settings]` or a stock that there is an entry for, as `count` are
taken. -/
def strays (count : ℕ) : List IniSection → List (List Char × List Char)
  | [] => []
  | sec :: secs =>
    if IsStock sec ∧ count < maxStocks then []
    else if sec.1 = "Settings".toList then []
    else sec.2 ++ strays count secs

/-- The keys that are read, and the characters kept of a value. -/
def stockFields : List (List Char × ℕ) := [("code".toList, 15), ("description".toList, 63)]

/-- Nothing strays into an entry but what is there. -/
def NothingStrays (secs : List IniSection) : Prop :=
  ∀ before sec after, secs = before ++ sec :: after → IsStock sec → stocks before < maxStocks →
    ∀ field ∈ stockFields, ∀ value ∈ lastValue field.1 (strays (stocks before + 1) after),
      value.take field.2 = ((lastValue field.1 sec.2).getD []).take field.2

/-! ## Lines -/

theorem trim_concat {l : List Char} : trim (l ++ ['\n']) = trim l := by
  have hn : isBlank '\n' = true := rfl
  rw [trim, trim, List.dropWhile_append]
  split
  · rename_i hall
    rw [List.isEmpty_iff.1 hall]
    rfl
  · rw [List.rdropWhile_concat_pos _ _ _ hn]

theorem iniLine_concat (l : List Char) : iniLine (l ++ ['\n']) = iniLine l := by
  by_cases h0 : '\x00' ∈ l
  · rw [iniLine, iniLine, cString_append_of_mem h0]
  · rw [iniLine, iniLine, CBuf.cString_of_not_mem h0, CBuf.cString_of_not_mem (by simpa using h0),
      trim_concat]

theorem filterMap_iniLine (hshort : ∀ line ∈ text.splitOn '\n', line.length < 256) :
    (fgetsAll 256 [] text).filterMap iniLine = (text.splitOn '\n').filterMap iniLine :=
  filterMap_fgetsAll [] rfl iniLine_concat (by omega) (by simp) (by simp) hshort

/-! ## Settings -/

/-- The settings of a stock, one after another. -/
theorem StockInfo.foldl_set (es : List (List Char × List Char)) (info : StockInfo F) :
    es.foldl StockInfo.set info =
      { info with
        code := ((lastValue "code".toList es).map (·.take 15)).getD info.code
        description :=
          ((lastValue "description".toList es).map (·.take 63)).getD info.description } := by
  induction es using List.reverseRecOn with
  | nil => rfl
  | append_singleton es e ih =>
    rw [List.foldl_append, ih]
    obtain ⟨k, v⟩ := e
    rw [lastValue_concat, lastValue_concat]
    by_cases hc : k = "code".toList
    · subst hc
      rfl
    · by_cases hd : k = "description".toList
      · subst hd
        rfl
      · rw [if_neg hc, if_neg hd, List.foldl_cons, List.foldl_nil, StockInfo.set, if_neg hc,
          if_neg hd]

/-- An entry that settings go to, if it is the one read last. -/
def StockLoad.received (s : StockLoad F) (es : List (List Char × List Char)) (i : Fin maxStocks) :
    StockInfo F :=
  if s.stockIndex = some i then es.foldl StockInfo.set (s.data i) else s.data i

/-- In `[Settings]` no entry changes. -/
theorem StockLoad.foldl_setting_of_settings {s : StockLoad F}
    (h : s.sectionName = "Settings".toList) (es : List (List Char × List Char)) :
    ∃ t, es.foldl (fun s e => s.line (.setting e)) s = { s with updateInterval := t } := by
  induction es generalizing s with
  | nil => exact ⟨s.updateInterval, rfl⟩
  | cons e es ih =>
    obtain ⟨key, value⟩ := e
    rw [List.foldl_cons, StockLoad.line, if_pos h]
    split
    · exact ih (s := { s with updateInterval := _ }) h
    · exact ih h

theorem StockLoad.received_cons (s : StockLoad F) (e : List Char × List Char)
    (es : List (List Char × List Char)) :
    StockLoad.received { s with data := s.received [e] } es = s.received (e :: es) := by
  funext i
  unfold StockLoad.received
  by_cases hi : s.stockIndex = some i
  · rw [if_pos hi, if_pos hi]
    simp [hi]
  · rw [if_neg hi, if_neg hi]
    simp [hi]

/-- Elsewhere the entry read last receives a setting. -/
theorem StockLoad.line_setting {s : StockLoad F} (h : s.sectionName ≠ "Settings".toList)
    (e : List Char × List Char) : s.line (.setting e) = { s with data := s.received [e] } := by
  obtain ⟨key, value⟩ := e
  rw [StockLoad.line, if_neg h]
  split
  · rename_i hi
    have hsame : s.received [(key, value)] = s.data := by
      funext i
      rw [StockLoad.received, hi, if_neg (by simp)]
    rw [hsame]
  · rename_i j hi
    congr 1
    funext i
    rw [StockLoad.received, hi]
    by_cases hij : i = j
    · subst hij
      rw [Function.update_self, if_pos rfl]
      rfl
    · rw [Function.update_of_ne hij, if_neg fun h => hij (Option.some.inj h).symm]

/-- And so all of them. -/
theorem StockLoad.foldl_setting {s : StockLoad F} (h : s.sectionName ≠ "Settings".toList)
    (es : List (List Char × List Char)) :
    es.foldl (fun s e => s.line (.setting e)) s = { s with data := s.received es } := by
  induction es generalizing s with
  | nil =>
    have hsame : s.received [] = s.data := by
      funext i
      rw [StockLoad.received, List.foldl_nil, ite_self]
    rw [hsame, List.foldl_nil]
  | cons e es ih =>
    rw [List.foldl_cons, StockLoad.line_setting h,
      ih (s := { s with data := s.received [e] }) h, StockLoad.received_cons]

/-! ## Sections -/

/-- A section, its header and then its settings. -/
def StockLoad.readSection (s : StockLoad F) (sec : IniSection) : StockLoad F :=
  sec.2.foldl (fun s e => s.line (.setting e)) (s.line (.header sec.1))

theorem take_eq_settings {name : List Char} :
    name.take 63 = "Settings".toList ↔ name = "Settings".toList := by
  constructor
  · intro h
    have hlen : (name.take 63).length = 8 := by rw [h]; rfl
    rw [List.length_take] at hlen
    rw [← h, List.take_of_length_le (by omega)]
  · rintro rfl
    rfl

theorem not_isStock_settings {sec : IniSection} (h : sec.1 = "Settings".toList) :
    ¬ IsStock sec := by
  rw [IsStock, h]
  decide

/-- **A stock that there is an entry for.** -/
theorem StockLoad.readSection_stock {s : StockLoad F} {sec : IniSection} (h : IsStock sec)
    (hc : s.count < maxStocks) :
    s.readSection sec =
      { s with
        sectionName := sec.1.take 63
        count := s.count + 1
        stockIndex := some ⟨s.count, hc⟩
        data := Function.update s.data ⟨s.count, hc⟩
          (sec.2.foldl StockInfo.set (s.data ⟨s.count, hc⟩).cleared) } := by
  have hstock : (sec.1.take 63).take 5 = "Stock".toList := by rwa [List.take_take]
  have hname : sec.1.take 63 ≠ "Settings".toList := fun hs =>
    not_isStock_settings (take_eq_settings.1 hs) h
  rw [StockLoad.readSection, StockLoad.line, dif_pos ⟨hstock, hc⟩, StockLoad.foldl_setting hname]
  congr 1
  funext i
  rw [StockLoad.received]
  by_cases hi : i = ⟨s.count, hc⟩
  · subst hi
    simp
  · rw [if_neg fun h => hi (Option.some.inj h).symm, Function.update_of_ne hi]
    exact Function.update_of_ne hi _ _

/-- `[Settings]`, after which no entry is open. -/
theorem StockLoad.readSection_settings {s : StockLoad F} {sec : IniSection}
    (h : sec.1 = "Settings".toList) :
    ∃ t, s.readSection sec =
      { s with sectionName := sec.1.take 63, stockIndex := none, updateInterval := t } := by
  have hname := take_eq_settings.2 h
  have hstock : ¬ ((sec.1.take 63).take 5 = "Stock".toList ∧ s.count < maxStocks) := by
    rw [hname]
    exact fun hand => absurd hand.1 (by decide)
  rw [StockLoad.readSection, StockLoad.line, dif_neg hstock, if_pos hname]
  exact StockLoad.foldl_setting_of_settings
    (s := { s with sectionName := sec.1.take 63, stockIndex := none }) hname sec.2

/-- **Any other** leaves open what is. -/
theorem StockLoad.readSection_other {s : StockLoad F} {sec : IniSection}
    (h : ¬ (IsStock sec ∧ s.count < maxStocks)) (hs : sec.1 ≠ "Settings".toList) :
    s.readSection sec = { s with sectionName := sec.1.take 63, data := s.received sec.2 } := by
  have hname := mt take_eq_settings.1 hs
  have hstock : ¬ ((sec.1.take 63).take 5 = "Stock".toList ∧ s.count < maxStocks) := by
    rwa [List.take_take]
  rw [StockLoad.readSection, StockLoad.line, dif_neg hstock, if_neg hname]
  exact StockLoad.foldl_setting (s := { s with sectionName := sec.1.take 63 }) hname sec.2

/-! ## The whole file -/

variable {s : StockLoad F} {secs before after : List IniSection} {sec : IniSection}

/-- The sections, one after another. -/
def StockLoad.run (s : StockLoad F) (secs : List IniSection) : StockLoad F :=
  secs.foldl StockLoad.readSection s

theorem StockLoad.run_cons : s.run (sec :: secs) = (s.readSection sec).run secs := rfl

theorem StockLoad.run_append : s.run (before ++ secs) = (s.run before).run secs := List.foldl_append

theorem stocks_cons : stocks (sec :: secs) = stocks secs + if IsStock sec then 1 else 0 := by
  rw [stocks, List.countP_cons]
  simp [stocks]

theorem StockLoad.count_run (h : s.count ≤ maxStocks) :
    (s.run secs).count = min maxStocks (s.count + stocks secs) := by
  induction secs generalizing s with
  | nil => exact (Nat.min_eq_right h).symm
  | cons sec secs ih =>
    rw [StockLoad.run_cons, stocks_cons]
    by_cases hstock : IsStock sec ∧ s.count < maxStocks
    · rw [StockLoad.readSection_stock hstock.1 hstock.2, ih (by simp only; omega),
        if_pos hstock.1]
      congr 1
      simp only
      omega
    · by_cases hs : sec.1 = "Settings".toList
      · obtain ⟨t, ht⟩ := StockLoad.readSection_settings (s := s) hs
        rw [ht, ih (by exact h), if_neg (not_isStock_settings hs)]
        rfl
      · rw [StockLoad.readSection_other hstock hs, ih (by exact h)]
        by_cases hi : IsStock sec
        · have hfull : maxStocks ≤ s.count := Nat.le_of_not_lt fun hc => hstock ⟨hi, hc⟩
          rw [if_pos hi, Nat.min_eq_left (by simp only; omega), Nat.min_eq_left (by omega)]
        · rw [if_neg hi]
          rfl

/-- The entry that is open is one of those counted. -/
def StockLoad.OpenCounted (s : StockLoad F) : Prop := ∀ i ∈ s.stockIndex, i.1 < s.count

theorem StockLoad.received_of_le (h : s.OpenCounted) {i : Fin maxStocks} (hi : s.count ≤ i)
    (es : List (List Char × List Char)) : s.received es i = s.data i := by
  rw [StockLoad.received, if_neg]
  intro hopen
  have hlt := h i hopen
  omega

/-- Entries behind those counted stay as they are. -/
theorem StockLoad.data_run_of_le (h : s.OpenCounted) {i : Fin maxStocks}
    (hi : s.count + stocks secs ≤ i) : (s.run secs).data i = s.data i := by
  induction secs generalizing s with
  | nil => rfl
  | cons sec secs ih =>
    rw [StockLoad.run_cons]
    rw [stocks_cons] at hi
    by_cases hstock : IsStock sec ∧ s.count < maxStocks
    · rw [if_pos hstock.1] at hi
      have hne : i ≠ ⟨s.count, hstock.2⟩ := by
        rintro rfl
        simp only at hi
        omega
      rw [StockLoad.readSection_stock hstock.1 hstock.2, ih _ (by simp only; omega)]
      · exact Function.update_of_ne hne _ _
      · intro j hj
        rw [← Option.some.inj hj]
        exact Nat.lt_succ_self s.count
    · by_cases hs : sec.1 = "Settings".toList
      · obtain ⟨t, ht⟩ := StockLoad.readSection_settings (s := s) hs
        rw [ht, ih _ (by simp only; omega)]
        intro j hj
        cases hj
      · rw [StockLoad.readSection_other hstock hs, ih (by exact h) (by simp only; omega)]
        exact StockLoad.received_of_le h (by omega) sec.2

/-- **What strays into an entry**: it is what the sections behind it
leave there. -/
theorem StockLoad.data_run_of_lt {i : Fin maxStocks} (hi : i < s.count) :
    (s.run secs).data i = s.received (strays s.count secs) i := by
  induction secs generalizing s with
  | nil => simp [StockLoad.run, StockLoad.received, strays]
  | cons sec secs ih =>
    rw [StockLoad.run_cons, strays]
    by_cases hstock : IsStock sec ∧ s.count < maxStocks
    · have hne : i ≠ ⟨s.count, hstock.2⟩ := by
        rintro rfl
        exact Nat.lt_irrefl _ hi
      rw [StockLoad.readSection_stock hstock.1 hstock.2, ih (by simp only; omega),
        if_pos hstock, StockLoad.received, StockLoad.received,
        if_neg fun h => hne (Option.some.inj h).symm, List.foldl_nil, ite_self]
      exact Function.update_of_ne hne _ _
    · rw [if_neg hstock]
      by_cases hs : sec.1 = "Settings".toList
      · obtain ⟨t, ht⟩ := StockLoad.readSection_settings (s := s) hs
        rw [ht, ih (by exact hi), if_pos hs, StockLoad.received, if_neg (by simp),
          StockLoad.received, List.foldl_nil, ite_self]
      · rw [StockLoad.readSection_other hstock hs, ih (by exact hi), if_neg hs]
        simp only [StockLoad.received]
        by_cases hopen : s.stockIndex = some i
        · rw [if_pos hopen, if_pos hopen, if_pos hopen, List.foldl_append]
        · rw [if_neg hopen, if_neg hopen, if_neg hopen]

/-- The variables as the reading starts. -/
def StockScreen.start (g : StockScreen F) : StockLoad F := ⟨[], 0, none, g.data, g.updateInterval⟩

/-- The sections are what is read of a file. -/
theorem stockLoadConfig_eq (hshort : ∀ line ∈ text.splitOn '\n', line.length < 256) :
    stockLoadConfig g (some text) =
      (0, ⟨(g.start.run (fileSections text)).data, (g.start.run (fileSections text)).count,
        (g.start.run (fileSections text)).updateInterval⟩) := by
  have hfront : ∀ es : List (List Char × List Char),
      es.foldl (fun s e => s.line (.setting e)) g.start = g.start := by
    intro es
    rw [StockLoad.foldl_setting fun h => absurd (show [] = "Settings".toList from h) (by decide)]
    rfl
  rw [stockLoadConfig, filterMap_iniLine hshort, foldl_eq_sectionsOf, ← StockScreen.start, hfront]
  rfl

/-- **An entry**: what its section says, and then what strays in. -/
theorem data_run_start (hsec : IsStock sec) (h : stocks before < maxStocks) :
    (g.start.run (before ++ sec :: after)).data ⟨stocks before, h⟩ =
      (sec.2 ++ strays (stocks before + 1) after).foldl StockInfo.set
        (g.data ⟨stocks before, h⟩).cleared := by
  have hcount : (g.start.run before).count = stocks before := by
    rw [StockLoad.count_run (Nat.zero_le _), StockScreen.start, Nat.zero_add,
      Nat.min_eq_right (Nat.le_of_lt h)]
  have hdata : (g.start.run before).data ⟨stocks before, h⟩ = g.data ⟨stocks before, h⟩ := by
    refine StockLoad.data_run_of_le (fun i hi => ?_) ?_
    · cases hi
    · simp [StockScreen.start]
  generalize hs : g.start.run before = s at hcount hdata
  rw [StockLoad.run_append, hs, StockLoad.run_cons, StockLoad.readSection_stock hsec (by omega),
    StockLoad.data_run_of_lt (by simp only; omega)]
  simp only [hcount, StockLoad.received, if_true, Function.update_self, hdata, List.foldl_append]

/-! ## What strays in -/

variable {key : List Char} {width : ℕ} {own stray : List (List Char × List Char)}

/-- A value is its section's own exactly if none strays in that is not. -/
theorem map_lastValue_append_iff :
    ((lastValue key (own ++ stray)).map (·.take width)).getD [] =
        ((lastValue key own).getD []).take width ↔
      ∀ value ∈ lastValue key stray,
        value.take width = ((lastValue key own).getD []).take width := by
  rw [lastValue_append]
  cases lastValue key stray with
  | some v => simp
  | none => cases lastValue key own <;> simp

theorem foldl_set_eq_configured_iff {info : StockInfo F} :
    (own ++ stray).foldl StockInfo.set info.cleared = info.configured own ↔
      ∀ field ∈ stockFields, ∀ value ∈ lastValue field.1 stray,
        value.take field.2 = ((lastValue field.1 own).getD []).take field.2 := by
  rw [StockInfo.foldl_set]
  simp only [StockInfo.configured, StockInfo.cleared, StockInfo.mk.injEq, and_true, true_and,
    map_lastValue_append_iff, stockFields, List.forall_mem_cons, List.not_mem_nil,
    false_implies, implies_true]

/-- **The file's stocks.** For every file whose lines fit the array, the
variables are as it says exactly if nothing strays into an entry. -/
theorem loads_iff (hshort : ∀ line ∈ text.splitOn '\n', line.length < 256) :
    Loads g text ↔ NothingStrays (fileSections text) := by
  constructor
  · intro h before sec after heq hsec hroom
    have hentry := h.entry before sec after heq hsec hroom
    rw [stockLoadConfig_eq hshort] at hentry
    simp only at hentry
    rw [heq, data_run_start hsec hroom] at hentry
    exact foldl_set_eq_configured_iff.1 hentry
  · intro h
    refine ⟨?_, ?_, ?_, ?_⟩
    · rw [stockLoadConfig_eq hshort]
    · rw [stockLoadConfig_eq hshort]
      simp only
      rw [StockLoad.count_run (Nat.zero_le _), StockScreen.start, Nat.zero_add]
    · intro before sec after heq hsec hroom
      rw [stockLoadConfig_eq hshort]
      simp only
      rw [heq, data_run_start hsec hroom]
      exact foldl_set_eq_configured_iff.2 (h before sec after heq hsec hroom)
    · intro i hi
      rw [stockLoadConfig_eq hshort]
      refine StockLoad.data_run_of_le (fun j hj => ?_) ?_
      · cases hj
      · rw [StockScreen.start, Nat.zero_add]
        exact hi

/-- The variables as the program starts. -/
def StockScreen.zero : StockScreen ℕ where
  data _ := ⟨[], [], [], 0, 0, 0, 0, 0, [], false⟩
  count := 0
  updateInterval := 5

/-- A file with the settings between two stocks, one of them with its code
twice, and a section behind that is none of them, whose keys are not read
but for a description that is as the stock's. -/
def stockFile : List Char :=
  ("[Stock1]\ncode = sh600519\ncode = sz000001\n\n[Settings]\nupdate_interval = 30\n" ++
    "code = sz399001\n# more\n[Stock2]\ncode = sh601318\ndescription = Index\n" ++
    "[Other]\nowner = a\ndescription = Index\n").toList

/-- It is read as it says. -/
theorem loads_stockFile : Loads StockScreen.zero stockFile := by
  have hsecs : fileSections stockFile =
      [("Stock1".toList, [("code".toList, "sh600519".toList), ("code".toList, "sz000001".toList)]),
        ("Settings".toList, [("update_interval".toList, "30".toList),
          ("code".toList, "sz399001".toList)]),
        ("Stock2".toList, [("code".toList, "sh601318".toList),
          ("description".toList, "Index".toList)]),
        ("Other".toList, [("owner".toList, "a".toList),
          ("description".toList, "Index".toList)])] := by
    decide +kernel
  refine (loads_iff (by decide +kernel)).2 ?_
  rw [hsecs, NothingStrays, forall_append_cons, forall_append_cons, forall_append_cons,
    forall_append_cons]
  exact ⟨by decide +kernel, by decide +kernel, by decide +kernel, by decide +kernel,
    forall_append_nil⟩

/-- A file with a section behind the stock's, whose key goes to the
stock. -/
theorem not_loads_other :
    (∀ line ∈ "[Stock1]\ncode=a\n[Other]\ncode=b".toList.splitOn '\n', line.length < 256) ∧
      ¬ Loads StockScreen.zero "[Stock1]\ncode=a\n[Other]\ncode=b".toList := by
  refine ⟨by decide, fun h => ?_⟩
  have hentry := h.entry [] ("Stock1".toList, [("code".toList, ['a'])])
    [("Other".toList, [("code".toList, ['b'])])] (by decide) (by decide) (by decide)
  exact absurd (congrArg StockInfo.code hentry) (by decide)

end Lvgl

end ObcSdk
