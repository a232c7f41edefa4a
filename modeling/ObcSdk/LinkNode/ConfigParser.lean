import Mathlib.Data.Int.Basic
import Mathlib.Data.List.Basic
import ObcSdk.Lib.CString
import ObcSdk.Lib.CText
/-!
# The configuration parser

`config_parser.c`: fields looked up one by one in a text that is taken
for a JSON object, each by the first occurrence of its name in quotes.
Strings are what precedes their NUL. Whether `malloc` succeeds is a
function of the size asked for.
-/

namespace ObcSdk

namespace LinkNode

/-- `device_config_t`; `none` is for `NULL`. -/
structure DeviceConfig where
  wifiSsid : Option (List Char)
  wifiPassword : Option (List Char)
  deviceName : Option (List Char)
  deviceId : Option (List Char)
  serverUrl : Option (List Char)
  autoReconnect : Int32
  heartbeatInterval : Int32
  remarks : Option (List Char)
deriving DecidableEq

/-! ## The parser -/

/-- Where the value of a key is looked for: behind the first colon after
the first occurrence of the key in quotes, and behind white space. -/
def valueOf (json key : List Char) : Option (List Char) :=
  -- `search_key` holds 255 characters
  match strstr json ((['"'] ++ key ++ ['"']).take 255) with
  | none => none
  | some keyPos =>
    match strchr keyPos ':' with
    | none => none
    | some colon => some ((colon.drop 1).dropWhile isspace)

/-- `extract_string_value`. -/
def extractStringValue (malloc : ℕ → Bool) (json key : List Char) : Option (List Char) :=
  match valueOf json key with
  | some ('"' :: cs) =>
    match strchr cs '"' with
    | none => none
    | some stop =>
      let len := cs.length - stop.length
      if malloc (len + 1) then some (cs.take len) else none
  | _ => none

/-- `extract_int_value`. -/
def extractIntValue (json key : List Char) (default : Int32) : Int32 :=
  match valueOf json key with
  | none => default
  | some cs => atoi cs

/-- `extract_bool_value`. -/
def extractBoolValue (json key : List Char) (default : Int32) : Int32 :=
  match valueOf json key with
  | none => default
  | some cs =>
    if cs.take 4 = ['t', 'r', 'u', 'e'] then 1
    else if cs.take 5 = ['f', 'a', 'l', 's', 'e'] then 0
    else default

/-- `parse_config_json`; `none` for `-1`. -/
def parseConfigJson (malloc : ℕ → Bool) (jsonStr : List Char) : Option DeviceConfig :=
  let config : DeviceConfig :=
    { wifiSsid := extractStringValue malloc jsonStr "wifiSsid".toList
      wifiPassword := extractStringValue malloc jsonStr "wifiPassword".toList
      deviceName := extractStringValue malloc jsonStr "deviceName".toList
      deviceId := extractStringValue malloc jsonStr "deviceId".toList
      serverUrl := extractStringValue malloc jsonStr "serverUrl".toList
      remarks := extractStringValue malloc jsonStr "remarks".toList
      autoReconnect := extractBoolValue jsonStr "autoReconnect".toList 1
      heartbeatInterval := extractIntValue jsonStr "heartbeatInterval".toList 60 }
  if config.wifiSsid = none ∧ config.deviceName = none ∧ config.deviceId = none then none
  else some config

/-- `on_data_received` of `main.c`: the configuration it parses, of the
string that starts its data. -/
def onDataReceived (malloc : ℕ → Bool) (data : List Char) : Option DeviceConfig :=
  parseConfigJson malloc (cString data)

end LinkNode

end ObcSdk
