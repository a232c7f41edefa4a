import Mathlib.Data.Vector.Basic
import ObcSdk.Lib.Roster
/-!
# The system information screen

`sys_info.c`: the devices that send their data, the one that is shown,
and the flag for whether it is. A packet, a swipe and the refresh timer
each do what they do at one instant, between which the clock goes on; the
tick that the program reads of it has 32 bits. What is drawn and printed
is left out.
-/

namespace ObcSdk

namespace Lvgl

/-! ## The data -/

/-- `sys_info_base_t`. -/
structure SysInfoBase where
  deviceName : Vector UInt8 64
  ipAddress : Vector UInt8 32
deriving DecidableEq

/-- `sys_info_cpu_t`. Of a `float` there are its bits. -/
structure SysInfoCpu where
  usagePercent : UInt32
  temperature : UInt32
  coreCount : Int32
deriving DecidableEq

/-- `sys_info_mem_t`. -/
structure SysInfoMem where
  usagePercent : UInt32
deriving DecidableEq

/-- `sys_info_gpu_t`. -/
structure SysInfoGpu where
  hasGpu : Int32
  usagePercent : UInt32
  temperature : UInt32
  memUsagePercent : UInt32
deriving DecidableEq

/-- `sys_info_net_t`. -/
structure SysInfoNet where
  uploadSpeed : Vector UInt8 32
  downloadSpeed : Vector UInt8 32
deriving DecidableEq

/-- `sys_info_single_t`. -/
structure SysInfoSingle where
  base : SysInfoBase
  cpu : SysInfoCpu
  mem : SysInfoMem
  gpu : SysInfoGpu
  net : SysInfoNet
deriving DecidableEq

/-- The address, as `strcmp` reads it: up to its NUL. -/
def SysInfoSingle.ip (d : SysInfoSingle) : List UInt8 :=
  d.base.ipAddress.toList.takeWhile (· ≠ 0)

/-- A packet of full size, whose address ends in its field. -/
abbrev Packet : Type := { d : SysInfoSingle // 0 ∈ d.base.ipAddress.toList }

/-- All bytes zero. -/
def SysInfoSingle.zero : SysInfoSingle :=
  ⟨⟨.replicate 64 0, .replicate 32 0⟩, ⟨0, 0, 0⟩, ⟨0⟩, ⟨0, 0, 0, 0⟩,
    ⟨.replicate 32 0, .replicate 32 0⟩⟩

/-- `device_data_t`. -/
structure DeviceData where
  data : SysInfoSingle
  lastUpdate : UInt32
  active : Bool

/-- `MAX_DEVICES`. -/
abbrev maxDevices : ℕ := 8

/-- `DATA_TIMEOUT_MS`. -/
abbrev dataTimeoutMs : UInt32 := 5000

/-- The screen's variables. -/
structure SysInfo where
  /-- `g_devices`. -/
  devices : Vector DeviceData maxDevices
  deviceCount : ℤ
  currentDeviceIndex : ℤ
  /-- `g_sysinfo_data`, what is shown. -/
  sysinfoData : SysInfoSingle
  dataReceived : Bool
  lastRecvTime : UInt32

/-- The screen before any packet. What it shows then is left open. -/
def SysInfo.initial (shown : SysInfoSingle) : SysInfo :=
  ⟨.replicate maxDevices ⟨.zero, 0, false⟩, 0, 0, shown, false, 0⟩

/-- `lv_tick_get`, at a millisecond. -/
def lvTickGet (now : ℕ) : UInt32 := UInt32.ofNat now

/-! ## The devices -/

/-- An entry of `g_devices`. -/
def SysInfo.device (s : SysInfo) (i : ℕ) : DeviceData := s.devices[i]?.getD ⟨.zero, 0, false⟩

/-- `find_or_add_device`: the index, `-1` for none. -/
def findOrAddDevice (s : SysInfo) (ipAddress : List UInt8) : ℤ × SysInfo :=
  match (List.range s.deviceCount.toNat).find? fun i => (s.device i).data.ip = ipAddress with
  | some i => (i, s)
  | none =>
    if s.deviceCount < maxDevices then
      let newIndex := s.deviceCount
      (newIndex,
        { s with
          devices := s.devices.setIfInBounds newIndex.toNat
            { s.device newIndex.toNat with active := true }
          deviceCount := s.deviceCount + 1 })
    else (-1, s)

/-- `update_device_data`. -/
def updateDeviceData (s : SysInfo) (deviceIndex : ℤ) (newData : SysInfoSingle) (tick : UInt32) :
    SysInfo :=
  if deviceIndex < 0 ∨ maxDevices ≤ deviceIndex then s
  else { s with devices := s.devices.setIfInBounds deviceIndex.toNat ⟨newData, tick, true⟩ }

/-- `switch_to_device`. -/
def switchToDevice (s : SysInfo) (deviceIndex : ℤ) : SysInfo :=
  if deviceIndex < 0 ∨ s.deviceCount ≤ deviceIndex then s
  else
    let d := s.device deviceIndex.toNat
    { s with
      currentDeviceIndex := deviceIndex
      sysinfoData := d.data
      dataReceived := d.active
      lastRecvTime := d.lastUpdate }

/-! ## What happens -/

/-- `lv_dir_t`, as far as the handler tells. -/
inductive Direction where
  | top
  | bottom
  | other

/-- `gesture_event_handler`, on a gesture. -/
def gestureEventHandler (s : SysInfo) (dir : Direction) : SysInfo :=
  if s.deviceCount ≤ 1 then s
  else match dir with
    | .top => switchToDevice s ((s.currentDeviceIndex + 1).tmod s.deviceCount)
    | .bottom =>
      switchToDevice s ((s.currentDeviceIndex - 1 + s.deviceCount).tmod s.deviceCount)
    | .other => s

/-- What `udp_receiver_thread` does with a packet of full size. -/
def udpReceive (s : SysInfo) (recvData : SysInfoSingle) (tick : UInt32) : SysInfo :=
  let (deviceIndex, s) := findOrAddDevice s recvData.ip
  if 0 ≤ deviceIndex then
    let s := updateDeviceData s deviceIndex recvData tick
    if deviceIndex = s.currentDeviceIndex ∨ s.deviceCount = 1 then
      { s with sysinfoData := recvData, dataReceived := true, lastRecvTime := tick }
    else s
  else s

/-- `sysinfo_timer_callback`. -/
def sysinfoTimerCallback (s : SysInfo) (currentTime : UInt32) : SysInfo :=
  if s.dataReceived then
    let elapsed := currentTime - s.lastRecvTime
    if dataTimeoutMs < elapsed then { s with dataReceived := false } else s
  else s

/-- What the screen's variables change with. -/
inductive Event where
  | packet (recvData : Packet)
  | gesture (dir : Direction)
  | timer

/-- An event at a millisecond. -/
def step (s : SysInfo) (e : ℕ × Event) : SysInfo :=
  match e.2 with
  | .packet recvData => udpReceive s recvData.1 (lvTickGet e.1)
  | .gesture dir => gestureEventHandler s dir
  | .timer => sysinfoTimerCallback s (lvTickGet e.1)

/-- The screen after a run of events. -/
def runFrom (shown : SysInfoSingle) (events : List (ℕ × Event)) : SysInfo :=
  events.foldl step (.initial shown)

end Lvgl

end ObcSdk
