import ObcSdk.LinkNode.ConfigParser
/-!
# Configurations as JSON

A configuration as a flat JSON object: its members in some order, each
key once, with white space around keys, colons and values. A string
stands for itself, as it holds nothing that JSON would escape; a number
is written in decimal.
-/

namespace ObcSdk

namespace LinkNode

/-- The fields that are strings. -/
inductive TextKey where
  | wifiSsid
  | wifiPassword
  | deviceName
  | deviceId
  | serverUrl
  | remarks
deriving DecidableEq

inductive ConfigKey where
  | text (key : TextKey)
  | autoReconnect
  | heartbeatInterval
deriving DecidableEq

def ConfigKey.name : ConfigKey → List Char
  | .text .wifiSsid => "wifiSsid".toList
  | .text .wifiPassword => "wifiPassword".toList
  | .text .deviceName => "deviceName".toList
  | .text .deviceId => "deviceId".toList
  | .text .serverUrl => "serverUrl".toList
  | .text .remarks => "remarks".toList
  | .autoReconnect => "autoReconnect".toList
  | .heartbeatInterval => "heartbeatInterval".toList

/-- A string without quotes, backslashes and NULs. -/
abbrev PlainText : Type := { s : List Char // '"' ∉ s ∧ '\\' ∉ s ∧ '\x00' ∉ s }

/-- A key with its value. -/
inductive ConfigMember where
  | text (key : TextKey) (value : PlainText)
  | autoReconnect (value : Bool)
  | heartbeatInterval (value : Int32)
deriving DecidableEq

namespace ConfigMember

def key : ConfigMember → ConfigKey
  | .text key _ => .text key
  | .autoReconnect _ => .autoReconnect
  | .heartbeatInterval _ => .heartbeatInterval

def valueText : ConfigMember → List Char
  | .text _ value => quoted value.1
  | .autoReconnect value => if value then "true".toList else "false".toList
  | .heartbeatInterval value => decimal value.toInt

/-- The string that is the value. -/
def string : ConfigMember → Option (List Char)
  | .text _ value => some value.1
  | _ => none

end ConfigMember

/-- White space of JSON. -/
abbrev JsonSpace : Type :=
  { s : List Char // ∀ c ∈ s, c = ' ' ∨ c = '\t' ∨ c = '\n' ∨ c = '\r' }

/-- A member as it is written. -/
structure JsonMember where
  member : ConfigMember
  beforeKey : JsonSpace
  afterKey : JsonSpace
  beforeValue : JsonSpace
  afterValue : JsonSpace

/-- Members up to the end of the object, each behind a separator. -/
def membersText (after : JsonSpace) : Char → List JsonMember → List Char
  | _, [] => '}' :: after.1
  | sep, m :: ms =>
    sep :: (m.beforeKey.1 ++ (quoted m.member.key.name ++ (m.afterKey.1 ++ ':' ::
      (m.beforeValue.1 ++ (m.member.valueText ++ (m.afterValue.1 ++ membersText after ',' ms))))))

/-- The fields of which one has to be there. -/
def namingKeys : List ConfigKey := [.text .wifiSsid, .text .deviceName, .text .deviceId]

/-- A configuration, written as an object. -/
structure ConfigJson where
  before : JsonSpace
  members : List JsonMember
  after : JsonSpace
  nodup : (members.map (·.member.key)).Nodup
  named : ∃ m ∈ members, m.member.key ∈ namingKeys

namespace ConfigJson

variable (r : ConfigJson)

def text : List Char := r.before.1 ++ membersText r.after '{' r.members

/-- The member of a key. -/
def find (key : ConfigKey) : Option ConfigMember :=
  (r.members.map (·.member)).find? (·.key = key)

/-- The configuration. -/
def config : DeviceConfig where
  wifiSsid := (r.find (.text .wifiSsid)).bind ConfigMember.string
  wifiPassword := (r.find (.text .wifiPassword)).bind ConfigMember.string
  deviceName := (r.find (.text .deviceName)).bind ConfigMember.string
  deviceId := (r.find (.text .deviceId)).bind ConfigMember.string
  serverUrl := (r.find (.text .serverUrl)).bind ConfigMember.string
  autoReconnect :=
    match r.find .autoReconnect with
    | some (.autoReconnect false) => 0
    | _ => 1
  heartbeatInterval :=
    match r.find .heartbeatInterval with
    | some (.heartbeatInterval n) => n
    | _ => 60
  remarks := (r.find (.text .remarks)).bind ConfigMember.string

end ConfigJson

end LinkNode

end ObcSdk
