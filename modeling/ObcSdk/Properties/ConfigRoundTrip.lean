import ObcSdk.Lib.Numeral
import ObcSdk.LinkNode.ConfigJson
/-!
# Reading a configuration back

`parse_config_json` takes the first place where a key's name stands in
quotes for the key, and the value behind the next colon for its value. A
string that is a key's name is such a place as well: a configuration is
read back as it is written where no string comes to stand for a key.
-/

namespace ObcSdk

namespace LinkNode

/-- The value is a string, and the name of the key. -/
def ConfigMember.Names (m : ConfigMember) (k : ConfigKey) : Prop := m.string = some k.name

instance (m : ConfigMember) (k : ConfigKey) : Decidable (m.Names k) :=
  inferInstanceAs (Decidable (m.string = some k.name))

/-- A member of another key reads as the key's own, or its absence, does:
as a string it is the same; where a number is read it is 0, and where a
truth value is, the default. -/
def ConfigMember.ReadsAs (next : ConfigMember) (k : ConfigKey) (own : Option ConfigMember) : Prop :=
  match k with
  | .text _ => next.string = own.bind ConfigMember.string
  | .autoReconnect => own ≠ some (.autoReconnect false)
  | .heartbeatInterval => own = some (.heartbeatInterval 0)

namespace ConfigJson

/-- The configuration is read back. -/
def ReadsBack (malloc : ℕ → Bool) (r : ConfigJson) : Prop :=
  parseConfigJson malloc r.text = some r.config

/-- There is memory for each string. -/
def Served (malloc : ℕ → Bool) (r : ConfigJson) : Prop :=
  ∀ m ∈ r.members, ∀ s ∈ m.member.string, malloc (s.length + 1) = true

/-- Where a string that is a key's name comes before the key, and before
any other such string, what follows it reads as the key. -/
def Undisturbed (r : ConfigJson) : Prop :=
  ∀ k before m next after, r.members = before ++ m :: next :: after →
    (∀ m' ∈ before, m'.member.key ≠ k ∧ ¬ m'.member.Names k) →
    m.member.key ≠ k → m.member.Names k → next.member.key ≠ k →
      next.member.ReadsAs k (r.find k)

end ConfigJson

/-! ## Names and values -/

namespace ConfigKey

/-- The keys there are. -/
def all : List ConfigKey :=
  [.text .wifiSsid, .text .wifiPassword, .text .deviceName, .text .deviceId, .text .serverUrl,
    .text .remarks, .autoReconnect, .heartbeatInterval]

variable {k k' : ConfigKey} {c : Char}

theorem mem_all : k ∈ all := by
  rcases k with key | _ | _
  · cases key <;> decide
  · decide
  · decide

theorem name_inj (h : k.name = k'.name) : k = k' := by
  have hall : ∀ k ∈ all, ∀ k' ∈ all, k.name = k'.name → k = k' := by decide
  exact hall k mem_all k' mem_all h

/-- Names are made of letters. -/
theorem not_mem_name (h : c.isAlpha = false) : c ∉ k.name := by
  have hall : ∀ k ∈ all, k.name.all Char.isAlpha = true := by decide
  intro hmem
  have hc := List.all_eq_true.1 (hall k mem_all) c hmem
  rw [h] at hc
  cases hc

/-- They fit where the parser puts them. -/
theorem take_quoted_name : (['"'] ++ k.name ++ ['"']).take 255 = quoted k.name := by
  have hall : ∀ k ∈ all, (['"'] ++ k.name ++ ['"']).take 255 = quoted k.name := by decide
  exact hall k mem_all

end ConfigKey

theorem JsonSpace.not_mem (s : JsonSpace) {c : Char}
    (h : ¬ (c = ' ' ∨ c = '\t' ∨ c = '\n' ∨ c = '\r')) : c ∉ s.1 := fun hc => h (s.2 c hc)

theorem JsonSpace.isspace (s : JsonSpace) {c : Char} (h : c ∈ s.1) : isspace c = true := by
  rcases s.2 c h with rfl | rfl | rfl | rfl <;> rfl

theorem isspace_head_valueText (m : ConfigMember) (rest : List Char) :
    ∃ c cs, m.valueText ++ rest = c :: cs ∧ isspace c = false := by
  cases m with
  | text key value => exact ⟨'"', _, rfl, rfl⟩
  | autoReconnect value => cases value <;> exact ⟨_, _, rfl, rfl⟩
  | heartbeatInterval value =>
    obtain ⟨c, cs, h, hc⟩ := decimal_eq_cons value.toInt
    refine ⟨c, cs ++ rest, by rw [ConfigMember.valueText, h, List.cons_append], ?_⟩
    rcases hc with rfl | hc
    · rfl
    · exact (not_sign_of_isDigit hc).1

/-- A string stands in quotes. -/
theorem valueText_of_string {m : ConfigMember} {s : List Char} (h : m.string = some s) :
    m.valueText = quoted s ∧ '"' ∉ s := by
  cases m with
  | text key value =>
    obtain rfl := Option.some.inj h
    exact ⟨rfl, value.2.1⟩
  | autoReconnect value => cases h
  | heartbeatInterval value => cases h

/-- Only a string's text has quotes. -/
theorem quote_not_mem_valueText {m : ConfigMember} (h : m.string = none) : '"' ∉ m.valueText := by
  cases m with
  | text key value => cases h
  | autoReconnect value => cases value <;> decide
  | heartbeatInterval value => exact quote_not_mem_decimal value.toInt

/-! ## What is found for a key -/

variable {post : JsonSpace} {k : ConfigKey} {m : JsonMember} {ms : List JsonMember} {sep : Char}
variable {pre json json' gap value : List Char}

variable (post ms) in
theorem membersText_eq_cons :
    ∃ c t, membersText post ',' ms = c :: t ∧ c.isAlpha = false ∧ c ≠ '"' := by
  cases ms with
  | nil => exact ⟨'}', _, rfl, by decide, by decide⟩
  | cons m ms => exact ⟨',', _, rfl, by decide, by decide⟩

/-- What comes in front of a member's key has no quotes. -/
theorem quote_not_mem_beforeKey (h : '"' ∉ pre ++ [sep]) :
    '"' ∉ pre ++ sep :: m.beforeKey.1 := by
  have hspace := m.beforeKey.not_mem (c := '"') (by decide)
  simp only [List.mem_append, List.mem_cons, List.not_mem_nil, or_false, not_or] at h ⊢
  exact ⟨h.1, h.2, hspace⟩

/-- **The key itself** is found. -/
theorem strstr_membersText_of_key (hpre : '"' ∉ pre ++ [sep]) (hkey : m.member.key = k) :
    strstr (pre ++ membersText post sep (m :: ms)) (quoted k.name) =
      some (quoted k.name ++ (m.afterKey.1 ++ ':' :: (m.beforeValue.1 ++
        (m.member.valueText ++ (m.afterValue.1 ++ membersText post ',' ms))))) := by
  rw [membersText, hkey, ← List.cons_append, ← List.append_assoc,
    strstr_quoted_append (quote_not_mem_beforeKey hpre), strstr_quoted_self]

/-- The search goes on behind the colon of another key. -/
theorem strstr_membersText_of_ne (hpre : '"' ∉ pre ++ [sep]) (hkey : m.member.key ≠ k) :
    strstr (pre ++ membersText post sep (m :: ms)) (quoted k.name) =
      strstr (m.member.valueText ++ (m.afterValue.1 ++ membersText post ',' ms))
        (quoted k.name) := by
  rw [membersText, ← List.cons_append, ← List.append_assoc,
    strstr_quoted_append (quote_not_mem_beforeKey hpre),
    strstr_quoted_of_ne (ConfigKey.not_mem_name (by decide)) (ConfigKey.not_mem_name (by decide))
      (mt ConfigKey.name_inj hkey) (m.afterKey.not_mem (by decide)) (by decide)
      (ConfigKey.not_mem_name (by decide)),
    ← List.cons_append, strstr_quoted_append]
  rw [List.mem_cons, not_or]
  exact ⟨by decide, m.beforeValue.not_mem (by decide)⟩

variable (post ms) in
/-- **A string that is its name** is found for it. -/
theorem strstr_membersText_of_names (hpre : '"' ∉ pre ++ [sep]) (hkey : m.member.key ≠ k)
    (hnames : m.member.Names k) :
    strstr (pre ++ membersText post sep (m :: ms)) (quoted k.name) =
      some (quoted k.name ++ (m.afterValue.1 ++ membersText post ',' ms)) := by
  rw [strstr_membersText_of_ne hpre hkey, (valueText_of_string hnames).1, strstr_quoted_self]

/-- **Any other member** is passed over. -/
theorem strstr_membersText_of_other (hpre : '"' ∉ pre ++ [sep]) (hkey : m.member.key ≠ k)
    (hnames : ¬ m.member.Names k) :
    strstr (pre ++ membersText post sep (m :: ms)) (quoted k.name) =
      strstr (membersText post ',' ms) (quoted k.name) := by
  have hspace : '"' ∉ m.afterValue.1 := m.afterValue.not_mem (by decide)
  rw [strstr_membersText_of_ne hpre hkey]
  cases hm : m.member.string with
  | some value =>
    obtain ⟨htext, hvalue⟩ := valueText_of_string hm
    have hne : value ≠ k.name := fun h => hnames (by rw [ConfigMember.Names, hm, h])
    obtain ⟨c, t, htail, halpha, hc⟩ := membersText_eq_cons post ms
    rw [htext, htail, strstr_quoted_of_ne (ConfigKey.not_mem_name (by decide)) hvalue hne
      hspace hc (ConfigKey.not_mem_name halpha)]
  | none =>
    rw [← List.append_assoc, strstr_quoted_append]
    rw [List.mem_append, not_or]
    exact ⟨quote_not_mem_valueText hm, hspace⟩

/-- From where a key's value is read: from its own member on, or from
behind a string that is its name. -/
def mention (k : ConfigKey) : List JsonMember → List JsonMember
  | [] => []
  | m :: ms =>
    if m.member.key = k then m :: ms
    else if m.member.Names k then ms
    else mention k ms

/-- The text from the first of these values on. -/
def valueTail (post : JsonSpace) : List JsonMember → Option (List Char)
  | [] => none
  | m :: ms => some (m.member.valueText ++ (m.afterValue.1 ++ membersText post ',' ms))

theorem valueOf_congr (h : strstr json (quoted k.name) = strstr json' (quoted k.name)) :
    valueOf json k.name = valueOf json' k.name := by
  rw [valueOf, valueOf, ConfigKey.take_quoted_name, h]

theorem colon_not_mem_quoted_append (hgap : ':' ∉ gap) : ':' ∉ quoted k.name ++ gap := by
  have hname : ':' ∉ k.name := ConfigKey.not_mem_name (by decide)
  simp [quoted, hname, hgap]

/-- Behind the place found, the value follows the next colon. -/
theorem valueOf_of_strstr {w : JsonSpace}
    (h : strstr json (quoted k.name) = some (quoted k.name ++ (gap ++ ':' :: (w.1 ++ value))))
    (hgap : ':' ∉ gap) (hvalue : ∃ c cs, value = c :: cs ∧ isspace c = false) :
    valueOf json k.name = some value := by
  obtain ⟨c, cs, rfl, hc⟩ := hvalue
  rw [valueOf, ConfigKey.take_quoted_name, h]
  simp only
  rw [← List.append_assoc, strchr_append (colon_not_mem_quoted_append hgap)]
  simp only [List.drop_succ_cons, List.drop_zero]
  rw [List.dropWhile_append_of_pos fun _ => w.isspace,
    List.dropWhile_cons_of_neg (by simp [hc])]

theorem valueOf_of_no_colon (h : strstr json (quoted k.name) = some (quoted k.name ++ gap))
    (hgap : ':' ∉ gap) : valueOf json k.name = none := by
  rw [valueOf, ConfigKey.take_quoted_name, h]
  simp only
  rw [strchr_of_not_mem (colon_not_mem_quoted_append hgap)]

/-- Behind a string the value of the next member follows, if there is
one. -/
theorem valueOf_of_string {w : JsonSpace}
    (h : strstr json (quoted k.name) =
      some (quoted k.name ++ (w.1 ++ membersText post ',' ms))) :
    valueOf json k.name = valueTail post ms := by
  have hspace : ':' ∉ w.1 := w.not_mem (by decide)
  cases ms with
  | nil =>
    refine valueOf_of_no_colon h ?_
    have hpost := post.not_mem (c := ':') (by decide)
    simp only [membersText, List.mem_append, List.mem_cons, not_or]
    exact ⟨hspace, by decide, hpost⟩
  | cons next ms =>
    have hgap : ':' ∉ w.1 ++ ',' :: (next.beforeKey.1 ++
        (quoted next.member.key.name ++ next.afterKey.1)) := by
      have hbefore := next.beforeKey.not_mem (c := ':') (by decide)
      have hname : ':' ∉ next.member.key.name := ConfigKey.not_mem_name (by decide)
      have hafter := next.afterKey.not_mem (c := ':') (by decide)
      simp [quoted, hspace, hbefore, hname, hafter]
    refine valueOf_of_strstr (w := next.beforeValue) ?_ hgap
      (isspace_head_valueText next.member _)
    rw [h, membersText]
    simp

variable (sep pre) in
/-- **The value of a key** is looked for where it is mentioned first. -/
theorem valueOf_membersText (hpre : '"' ∉ pre ++ [sep]) :
    valueOf (pre ++ membersText post sep ms) k.name = valueTail post (mention k ms) := by
  induction ms generalizing pre sep with
  | nil =>
    have hquote : '"' ∉ pre ++ membersText post sep [] := by
      have hspace := post.not_mem (c := '"') (by decide)
      simp only [membersText, List.mem_append, List.mem_cons, not_or] at hpre ⊢
      exact ⟨hpre.1, by decide, hspace⟩
    have hnone : strstr (pre ++ membersText post sep []) (quoted k.name) = none :=
      strstr_of_not_infix fun h => hquote (h.subset List.mem_cons_self)
    rw [valueOf, ConfigKey.take_quoted_name, hnone]
    rfl
  | cons m ms ih =>
    rw [mention]
    by_cases hkey : m.member.key = k
    · rw [if_pos hkey]
      exact valueOf_of_strstr (strstr_membersText_of_key hpre hkey)
        (m.afterKey.not_mem (by decide)) (isspace_head_valueText _ _)
    · rw [if_neg hkey]
      by_cases hnames : m.member.Names k
      · rw [if_pos hnames]
        exact valueOf_of_string (strstr_membersText_of_names post ms hpre hkey hnames)
      · rw [if_neg hnames, ← ih ',' [] (by decide)]
        exact valueOf_congr (strstr_membersText_of_other hpre hkey hnames)

/-! ## What is read there -/

namespace ConfigMember

/-- The value, read as a string. -/
def readString (malloc : ℕ → Bool) (m : ConfigMember) : Option (List Char) :=
  m.string.bind fun s => if malloc (s.length + 1) then some s else none

/-- As a number. -/
def readInt : ConfigMember → Int32
  | .heartbeatInterval n => n
  | _ => 0

/-- As a truth value, which is true by default. -/
def readBool : ConfigMember → Int32
  | .autoReconnect false => 0
  | _ => 1

end ConfigMember

variable {malloc : ℕ → Bool} {rest : List Char}

/-- No digit follows a value. -/
theorem not_isDigit_head_afterValue :
    ∀ c ∈ (m.afterValue.1 ++ membersText post ',' ms).head?, ¬ Numeral.IsDigit 10 c := by
  intro c hc
  rw [isDigit_ten_iff]
  rw [List.head?_append] at hc
  cases hs : m.afterValue.1 with
  | nil =>
    rw [hs] at hc
    cases ms with
    | nil => cases hc; decide
    | cons next ms => cases hc; decide
  | cons d ds =>
    have hd := m.afterValue.2 d (hs ▸ List.mem_cons_self)
    rw [hs] at hc
    cases hc
    rcases hd with rfl | rfl | rfl | rfl <;> decide

/-- A number starts as no string and no truth value does. -/
theorem ne_of_head_decimal {c : Char} (h : c = '-' ∨ Numeral.IsDigit 10 c) :
    c ≠ '"' ∧ c ≠ 't' ∧ c ≠ 'f' := by
  rw [isDigit_ten_iff] at h
  refine ⟨?_, ?_, ?_⟩ <;> rintro rfl <;> exact absurd h (by decide)

theorem extractStringValue_eq {m : ConfigMember}
    (h : valueOf json k.name = some (m.valueText ++ rest)) :
    extractStringValue malloc json k.name = m.readString malloc := by
  rw [extractStringValue, h]
  cases m with
  | text key value =>
    rw [ConfigMember.valueText, quoted_append]
    simp only
    rw [strchr_append value.2.1]
    simp [ConfigMember.readString, ConfigMember.string]
  | autoReconnect value => cases value <;> rfl
  | heartbeatInterval value =>
    obtain ⟨c, cs, hcs, hc⟩ := decimal_eq_cons value.toInt
    rw [ConfigMember.valueText, hcs, List.cons_append]
    split
    · rename_i hquote
      exact absurd (List.cons.inj (Option.some.inj hquote)).1 (ne_of_head_decimal hc).1
    · rfl

theorem extractBoolValue_eq {m : ConfigMember}
    (h : valueOf json k.name = some (m.valueText ++ rest)) :
    extractBoolValue json k.name 1 = m.readBool := by
  rw [extractBoolValue, h]
  cases m with
  | text key value => rw [ConfigMember.valueText, quoted_append]; rfl
  | autoReconnect value => cases value <;> rfl
  | heartbeatInterval value =>
    obtain ⟨c, cs, hcs, hc⟩ := decimal_eq_cons value.toInt
    obtain ⟨-, ht, hf⟩ := ne_of_head_decimal hc
    rw [ConfigMember.valueText, hcs, List.cons_append]
    simp only [List.take_succ_cons, List.cons.injEq, ht, hf, false_and, if_false]
    rfl

theorem extractIntValue_eq {m : ConfigMember}
    (h : valueOf json k.name = some (m.valueText ++ rest))
    (hrest : ∀ c ∈ rest.head?, ¬ Numeral.IsDigit 10 c) :
    extractIntValue json k.name 60 = m.readInt := by
  rw [extractIntValue, h]
  simp only
  cases m with
  | text key value =>
    rw [ConfigMember.valueText, quoted_append]
    exact atoi_of_not_digit rfl (by decide) (by decide) (by rw [isDigit_ten_iff]; decide)
  | autoReconnect value =>
    cases value
    · exact atoi_of_not_digit rfl (by decide) (by decide) (by rw [isDigit_ten_iff]; decide)
    · exact atoi_of_not_digit rfl (by decide) (by decide) (by rw [isDigit_ten_iff]; decide)
  | heartbeatInterval value => exact atoi_decimal value hrest

/-! ## The configuration read -/

variable {r : ConfigJson}

/-- The member that is read for a key. -/
def ConfigJson.read (r : ConfigJson) (k : ConfigKey) : Option ConfigMember :=
  (mention k r.members).head?.map (·.member)

variable (malloc r) in
/-- **What is read for each key.** -/
theorem extract_text (k : ConfigKey) :
    extractStringValue malloc r.text k.name = (r.read k).bind (·.readString malloc) ∧
      extractBoolValue r.text k.name 1 = (r.read k).elim 1 (·.readBool) ∧
      extractIntValue r.text k.name 60 = (r.read k).elim 60 (·.readInt) := by
  have hpre : '"' ∉ r.before.1 ++ ['{'] := by
    have hspace := r.before.not_mem (c := '"') (by decide)
    simp [hspace]
  have hvalue : valueOf r.text k.name = valueTail r.after (mention k r.members) :=
    valueOf_membersText _ _ hpre
  rw [ConfigJson.read]
  cases hm : mention k r.members with
  | nil =>
    rw [hm] at hvalue
    refine ⟨?_, ?_, ?_⟩
    · rw [extractStringValue, hvalue]; rfl
    · rw [extractBoolValue, hvalue]; rfl
    · rw [extractIntValue, hvalue]; rfl
  | cons m ms =>
    rw [hm] at hvalue
    exact ⟨extractStringValue_eq hvalue, extractBoolValue_eq hvalue,
      extractIntValue_eq hvalue not_isDigit_head_afterValue⟩

/-- For a key, what is read is what the configuration has. -/
def ConfigJson.Agrees (malloc : ℕ → Bool) (r : ConfigJson) (k : ConfigKey) : Prop :=
  match k with
  | .text _ => (r.read k).bind (·.readString malloc) = (r.find k).bind (·.string)
  | .autoReconnect => (r.read k).elim 1 (·.readBool) = (r.find k).elim 1 (·.readBool)
  | .heartbeatInterval => (r.read k).elim 60 (·.readInt) = (r.find k).elim 60 (·.readInt)

theorem find_eq_some {m : JsonMember} (h : m ∈ r.members) :
    r.find m.member.key = some m.member := by
  have hnodup := r.nodup
  rw [ConfigJson.find]
  generalize r.members = ms at h hnodup
  induction ms with
  | nil => cases h
  | cons m' ms ih =>
    rw [List.map_cons, List.nodup_cons] at hnodup
    rw [List.map_cons]
    rcases List.mem_cons.1 h with rfl | h
    · exact List.find?_cons_of_pos (by simp)
    · have hne : m'.member.key ≠ m.member.key := by
        intro heq
        exact hnodup.1 (heq ▸ List.mem_map_of_mem (f := (·.member.key)) h)
      rw [List.find?_cons_of_neg (by simpa using hne)]
      exact ih h hnodup.2

theorem key_of_find {m : ConfigMember} (h : r.find k = some m) : m.key = k := by
  simpa using List.find?_some h

theorem mem_of_find {m : ConfigMember} (h : r.find k = some m) :
    ∃ m' ∈ r.members, m'.member = m := List.mem_map.1 (List.mem_of_find?_eq_some h)

/-- The configuration that is read. -/
def ConfigJson.readConfig (malloc : ℕ → Bool) (r : ConfigJson) : DeviceConfig where
  wifiSsid := (r.read (.text .wifiSsid)).bind (·.readString malloc)
  wifiPassword := (r.read (.text .wifiPassword)).bind (·.readString malloc)
  deviceName := (r.read (.text .deviceName)).bind (·.readString malloc)
  deviceId := (r.read (.text .deviceId)).bind (·.readString malloc)
  serverUrl := (r.read (.text .serverUrl)).bind (·.readString malloc)
  autoReconnect := (r.read .autoReconnect).elim 1 (·.readBool)
  heartbeatInterval := (r.read .heartbeatInterval).elim 60 (·.readInt)
  remarks := (r.read (.text .remarks)).bind (·.readString malloc)

theorem parseConfigJson_text :
    parseConfigJson malloc r.text =
      if (r.readConfig malloc).wifiSsid = none ∧ (r.readConfig malloc).deviceName = none ∧
        (r.readConfig malloc).deviceId = none then none else some (r.readConfig malloc) := by
  have hstring (key : TextKey) := (extract_text malloc r (.text key)).1
  have hbool := (extract_text malloc r .autoReconnect).2.1
  have hint := (extract_text malloc r .heartbeatInterval).2.2
  simp only [ConfigJson.readConfig, ← hstring, ← hbool, ← hint]
  rfl

/-- What is read is the configuration exactly if it is for each key. -/
theorem readConfig_eq_iff : r.readConfig malloc = r.config ↔ ∀ k, r.Agrees malloc k := by
  have hbool : r.config.autoReconnect = (r.find .autoReconnect).elim 1 (·.readBool) := by
    rw [ConfigJson.config]
    cases r.find .autoReconnect with
    | none => rfl
    | some m =>
      cases m with
      | autoReconnect b => cases b <;> rfl
      | text key value => rfl
      | heartbeatInterval n => rfl
  have hint : r.config.heartbeatInterval = (r.find .heartbeatInterval).elim 60 (·.readInt) := by
    rw [ConfigJson.config]
    cases hown : r.find .heartbeatInterval with
    | none => rfl
    | some m =>
      have hk := key_of_find hown
      cases m with
      | heartbeatInterval n => rfl
      | text key value => cases hk
      | autoReconnect b => cases hk
  constructor
  · intro h k
    cases k with
    | text key =>
      cases key with
      | wifiSsid => exact congrArg DeviceConfig.wifiSsid h
      | wifiPassword => exact congrArg DeviceConfig.wifiPassword h
      | deviceName => exact congrArg DeviceConfig.deviceName h
      | deviceId => exact congrArg DeviceConfig.deviceId h
      | serverUrl => exact congrArg DeviceConfig.serverUrl h
      | remarks => exact congrArg DeviceConfig.remarks h
    | autoReconnect => exact (congrArg DeviceConfig.autoReconnect h).trans hbool
    | heartbeatInterval => exact (congrArg DeviceConfig.heartbeatInterval h).trans hint
  · intro h
    rw [ConfigJson.readConfig, ConfigJson.config, DeviceConfig.mk.injEq]
    exact ⟨h (.text .wifiSsid), h (.text .wifiPassword), h (.text .deviceName),
      h (.text .deviceId), h (.text .serverUrl), (h .autoReconnect).trans hbool.symm,
      (h .heartbeatInterval).trans hint.symm, h (.text .remarks)⟩

/-- One of the fields that have to be there is. -/
theorem config_named :
    ¬ (r.config.wifiSsid = none ∧ r.config.deviceName = none ∧ r.config.deviceId = none) := by
  obtain ⟨m, hm, hkey⟩ := r.named
  have hfind := find_eq_some hm
  have hstring : (r.find m.member.key).bind (·.string) ≠ none := by
    rw [hfind, Option.bind_some]
    cases hmem : m.member with
    | text key value => exact Option.some_ne_none _
    | autoReconnect b => rw [hmem, ConfigMember.key] at hkey; exact absurd hkey (by decide)
    | heartbeatInterval n => rw [hmem, ConfigMember.key] at hkey; exact absurd hkey (by decide)
  rintro ⟨hssid, hname, hid⟩
  simp only [namingKeys, List.mem_cons, List.not_mem_nil, or_false] at hkey
  rcases hkey with hkey | hkey | hkey
  · exact hstring (hkey ▸ hssid)
  · exact hstring (hkey ▸ hname)
  · exact hstring (hkey ▸ hid)

/-- **The configuration is read back** exactly if each key's value is. -/
theorem readsBack_iff_agrees : r.ReadsBack malloc ↔ ∀ k, r.Agrees malloc k := by
  rw [← readConfig_eq_iff, ConfigJson.ReadsBack, parseConfigJson_text]
  constructor
  · intro h
    split at h
    · cases h
    · exact Option.some.inj h
  · intro h
    rw [h, if_neg config_named]

/-! ## Strings that are names -/

variable {before after : List JsonMember} {next : JsonMember}

/-- A string that is a name, behind members that do not mention it, is
read for it. -/
theorem mention_of_names (hbefore : ∀ m' ∈ before, m'.member.key ≠ k ∧ ¬ m'.member.Names k)
    (hkey : m.member.key ≠ k) (hnames : m.member.Names k) :
    mention k (before ++ m :: ms) = ms := by
  induction before with
  | nil => rw [List.nil_append, mention, if_neg hkey, if_pos hnames]
  | cons m' before ih =>
    rw [List.forall_mem_cons] at hbefore
    rw [List.cons_append, mention, if_neg hbefore.1.1, if_neg hbefore.1.2, ih hbefore.2]

/-- **Either a key's own member is read for it**, or one behind a string
that is its name. -/
theorem mention_cases (k : ConfigKey) (ms : List JsonMember) :
    (mention k ms).head?.map (·.member) = (ms.map (·.member)).find? (·.key = k) ∨
      ∃ before m next after, ms = before ++ m :: next :: after ∧
        (∀ m' ∈ before, m'.member.key ≠ k ∧ ¬ m'.member.Names k) ∧
        m.member.key ≠ k ∧ m.member.Names k ∧ next.member.key ≠ k := by
  induction ms with
  | nil => exact .inl rfl
  | cons m ms ih =>
    rw [mention]
    by_cases hkey : m.member.key = k
    · rw [if_pos hkey]
      exact .inl (by simp [hkey])
    · rw [if_neg hkey, List.map_cons, List.find?_cons_of_neg (by simpa using hkey)]
      by_cases hnames : m.member.Names k
      · rw [if_pos hnames]
        cases ms with
        | nil => exact .inl rfl
        | cons next ms =>
          by_cases hnext : next.member.key = k
          · exact .inl (by simp [hnext])
          · exact .inr ⟨[], m, next, ms, rfl, by simp, hkey, hnames, hnext⟩
      · rw [if_neg hnames]
        obtain h | ⟨before, m', next, after, rfl, hbefore, hrest⟩ := ih
        · exact .inl h
        · refine .inr ⟨m :: before, m', next, after, rfl, ?_, hrest⟩
          exact List.forall_mem_cons.2 ⟨⟨hkey, hnames⟩, hbefore⟩

/-- With memory for it, a string is read as it is. -/
theorem readString_eq (h : r.Served malloc) (hm : m ∈ r.members) :
    m.member.readString malloc = m.member.string := by
  rw [ConfigMember.readString]
  cases hs : m.member.string with
  | none => rfl
  | some s => exact if_pos (h m hm s hs)

/-- Another key's member is read as the key's own exactly if it reads
so. -/
theorem agrees_iff_readsAs (hserved : r.Served malloc) (hm : next ∈ r.members)
    (hread : r.read k = some next.member) (hkey : next.member.key ≠ k) :
    r.Agrees malloc k ↔ next.member.ReadsAs k (r.find k) := by
  cases k with
  | text key =>
    rw [ConfigJson.Agrees, hread, Option.bind_some, readString_eq hserved hm]
    rfl
  | autoReconnect =>
    have hbool : next.member.readBool = 1 := by
      cases hn : next.member with
      | autoReconnect b => exact absurd (congrArg ConfigMember.key hn) hkey
      | text key value => rfl
      | heartbeatInterval n => rfl
    rw [ConfigJson.Agrees, hread, Option.elim_some, hbool, ConfigMember.ReadsAs]
    cases hown : r.find .autoReconnect with
    | none => simp
    | some m =>
      have hk := key_of_find hown
      cases m with
      | autoReconnect b => cases b <;> simp [ConfigMember.readBool]
      | text key value => cases hk
      | heartbeatInterval n => cases hk
  | heartbeatInterval =>
    have hint : next.member.readInt = 0 := by
      cases hn : next.member with
      | heartbeatInterval n => exact absurd (congrArg ConfigMember.key hn) hkey
      | text key value => rfl
      | autoReconnect b => rfl
    rw [ConfigJson.Agrees, hread, Option.elim_some, hint, ConfigMember.ReadsAs]
    cases hown : r.find .heartbeatInterval with
    | none => simp
    | some m =>
      have hk := key_of_find hown
      cases m with
      | heartbeatInterval n => simp [ConfigMember.readInt, eq_comm]
      | text key value => cases hk
      | autoReconnect b => cases hk

/-- A key's own member is read as it is. -/
theorem agrees_of_read_eq (hserved : r.Served malloc) (h : r.read k = r.find k) :
    r.Agrees malloc k := by
  cases k with
  | text key =>
    rw [ConfigJson.Agrees, h]
    cases hown : r.find (.text key) with
    | none => rfl
    | some m =>
      obtain ⟨m', hm, rfl⟩ := mem_of_find hown
      exact readString_eq hserved hm
  | autoReconnect => rw [ConfigJson.Agrees, h]
  | heartbeatInterval => rw [ConfigJson.Agrees, h]

/-- Strings that are read back have been stored. -/
theorem served_of_agrees (h : ∀ k, r.Agrees malloc k) : r.Served malloc := by
  intro m hm s hs
  have hfind := find_eq_some hm
  cases hmem : m.member with
  | text key value =>
    have hagrees := h (.text key)
    rw [hmem] at hfind hs
    rw [ConfigJson.Agrees, show r.find (.text key) = _ from hfind, Option.bind_some, hs,
      Option.bind_eq_some_iff] at hagrees
    obtain ⟨m', -, hread⟩ := hagrees
    rw [ConfigMember.readString, Option.bind_eq_some_iff] at hread
    obtain ⟨s', -, hif⟩ := hread
    split at hif
    · rename_i hmalloc
      exact Option.some.inj hif ▸ hmalloc
    · cases hif
  | autoReconnect b => rw [hmem] at hs; cases hs
  | heartbeatInterval n => rw [hmem] at hs; cases hs

/-- **Read back.** A configuration is read back as it is written exactly
if there is memory for it and no string comes to stand for a key. -/
theorem readsBack_iff (malloc : ℕ → Bool) (r : ConfigJson) :
    r.ReadsBack malloc ↔ r.Served malloc ∧ r.Undisturbed := by
  rw [readsBack_iff_agrees]
  constructor
  · intro h
    have hserved := served_of_agrees h
    refine ⟨hserved, fun k before m next after heq hbefore hkey hnames hnext => ?_⟩
    have hread : r.read k = some next.member := by
      rw [ConfigJson.read, heq, mention_of_names hbefore hkey hnames]
      rfl
    have hmem : next ∈ r.members := by rw [heq]; simp
    exact (agrees_iff_readsAs hserved hmem hread hnext).1 (h k)
  · rintro ⟨hserved, h⟩ k
    obtain hown | ⟨before, m, next, after, heq, hbefore, hkey, hnames, hnext⟩ :=
      mention_cases k r.members
    · exact agrees_of_read_eq hserved hown
    · have hread : r.read k = some next.member := by
        rw [ConfigJson.read, heq, mention_of_names hbefore hkey hnames]
        rfl
      have hmem : next ∈ r.members := by rw [heq]; simp
      exact (agrees_iff_readsAs hserved hmem hread hnext).2
        (h k before m next after heq hbefore hkey hnames hnext)

/-- No white space. -/
def JsonSpace.none : JsonSpace := ⟨[], by simp⟩

/-- A member without white space. -/
def JsonMember.plain (m : ConfigMember) : JsonMember := ⟨m, .none, .none, .none, .none⟩

/-- A configuration whose device name is a key's name. -/
def namedAsKey : ConfigJson where
  before := .none
  members :=
    [.plain (.text .deviceName ⟨"deviceId".toList, by decide⟩),
      .plain (.text .wifiSsid ⟨"home".toList, by decide⟩),
      .plain (.text .deviceId ⟨"7".toList, by decide⟩)]
  after := .none
  nodup := by decide
  named := ⟨_, List.mem_cons_self, by decide⟩

/-- Its device's number is read as the network's name. -/
theorem not_readsBack_namedAsKey : ¬ namedAsKey.ReadsBack fun _ => true := by
  rw [ConfigJson.ReadsBack]
  decide +kernel

end LinkNode

end ObcSdk
