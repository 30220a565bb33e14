import Mathlib.Data.Multiset.AddSub
import SwitchLanPlay.Lan.Pcap
import SwitchLanPlay.Rpc.Connection

/-!
# Starting and stopping over RPC

`LanPlay::start` and `LanPlay::stop` (`rpc/lan-play.cpp`) with the stages of
`lan_play_init` and `lan_play_close` below them (`lan-play.c`, `lan-client.c`,
`gateway.cpp`), seen by the handles and devices they open and close.  The stages
that only fill in fields are left out.

libuv, libpcap, lwIP and the resolver answer as they like; `uv_timer_init` and
`packet_init` cannot fail.  A handle counts as closed from `uv_close` on.
-/

namespace SwitchLanPlay.Rpc.Lifecycle

open Library

/-! ## State -/

/-- What is opened on behalf of a start and stays open until it is closed. -/
inductive Resource where
  | pcapDev (name : String)
  | pollHandle (name : String)
  | client
  | clientKeepaliveTimer
  | realBroadcastTimer
  /-- `struct gateway`, with the timer, the listener and the interface of its lwIP stack -/
  | gateway
  /-- The `UvLwipBase` of a gateway, which keeps itself alive. -/
  | uvLwip
  /-- The timer of a proxy, which is closed when the proxy is destroyed. -/
  | proxyGc
  deriving DecidableEq

def Resource.isDevice : Resource → Bool
  | .pcapDev _ => true
  | _ => false

inductive LanPlayStatus where
  | none
  | running
  deriving DecidableEq

structure LanPlayConfig where
  relayServer : Bytes := []
  socks5Server : Bytes := []
  fakeInternet : Bool := false
  broadcast : Bool := false
  pmtu : Int := 0

/-- A text of `cli_options`.  `strdup` made it, or it is an argument or a literal. -/
structure OptionText where
  text : Bytes
  heap : Bool

/-- The `cli_options` that a start reads. -/
structure Options where
  broadcast : Bool := false
  pmtu : Int := 0
  fakeInternet : Bool := false
  netif : Option String := none
  relayServerAddr : Option OptionText := none
  socks5ServerAddr : Option OptionText := none

/-- The object that serves RPC commands, the options, and of `struct lan_play`
what starting and stopping uses; `fakeGateway` is the kind of stack that the gateway has. -/
structure LanPlay where
  lastError : Bytes := []
  lastConfig : LanPlayConfig := {}
  status : LanPlayStatus := .none
  config : LanPlayConfig := {}
  options : Options := {}
  broadcast : Bool := false
  pmtu : Int := 0
  lastErr : Bytes := []
  fakeGateway : Bool := false
  held : Multiset Resource := 0

/-! ## Stages -/

/-- A function that returns a code, or ends the process. -/
abbrev Stage := LanPlay → Option (Int × LanPlay)

namespace Stage

/-- A call that changes nothing here. -/
def returns (ret : Int) : Stage := fun s => some (ret, s)

/-- `RETURN_ERR`, into the 256 bytes of `last_err`. -/
def returnErr (text : Bytes) : Stage := fun s => some (-1, { s with lastErr := text.take 255 })

def acquire (resource : Resource) : Stage := fun s => some (0, { s with held := resource ::ₘ s.held })

def release (resource : Resource) : Stage := fun s => some (0, { s with held := s.held.erase resource })

/-- `ret = first(); if (ret != 0) return ret;`, and then the second stage. -/
def andThen (first second : Stage) : Stage := fun s =>
  match first s with
  | none => none
  | some (ret, s) => if ret ≠ 0 then some (ret, s) else second s

end Stage

/-- The calls into libuv and `uv_lwip` whose results are looked at. -/
inductive UvCall where
  | udpInit
  | keepaliveStart
  | realBroadcastStart
  | recvStart
  | recvStop
  | keepaliveStop
  | realBroadcastStop
  | uvlInit
  | uvlListen

/-- What the system answers during a command. -/
structure Env where
  parseAddr : Bytes → Bool
  /-- `pcap_findalldevs`, null when it fails. -/
  alldevs : Option (List PcapIf)
  uv : UvCall → Int
  /-- The connections that the gateway has when it is closed. -/
  connections : Nat

/-! ## `lan_play_init` -/

def openedResources : OpenLive → List Resource
  | .failed | .exited => []
  | .pollLeft name => [.pollHandle name]
  | .opened interf => [.pcapDev interf.name, .pollHandle interf.name]

def pcapResources (netif : Option String) (alldevs : List PcapIf) : List Resource :=
  (triedDevs netif alldevs).flatMap fun d => openedResources (uvPcapOpenLive d)

/-- A device ends the process. -/
def DeviceExits (netif : Option String) (alldevs : List PcapIf) : Prop :=
  ∃ d ∈ triedDevs netif alldevs, uvPcapOpenLive d = .exited

instance (netif : Option String) (alldevs : List PcapIf) : Decidable (DeviceExits netif alldevs) :=
  decidable_of_iff (∃ d ∈ triedDevs netif alldevs, d.activates = true ∧ getMacAddress d.mac = none) <|
    exists_congr fun _ => and_congr_right fun _ => by rw [uvPcapOpenLive_eq_exited, getMacAddress_eq_none]

/-- `init_pcap`; `uv_pcap_init` ends the process when there is no device, and
returns zero otherwise, even if none could be opened. -/
def initPcap (env : Env) : Stage := fun s =>
  match env.alldevs with
  | none => none
  | some [] => none
  | some alldevs =>
      if DeviceExits s.options.netif alldevs then none
      else
        some (0, { s with held := s.held + pcapResources s.options.netif alldevs })

/-- `lan_client_init`; the results of `uv_udp_init` and of binding are only logged. -/
def lanClientInit (env : Env) : Stage := fun s =>
  if s.pmtu ≠ 0 ∧ s.pmtu < minFragPayloadLen then none
  else
    ((if env.uv .udpInit = 0 then Stage.acquire .client else Stage.returns 0).andThen <|
      (Stage.acquire .clientKeepaliveTimer).andThen <|
      (Stage.acquire .realBroadcastTimer).andThen <|
      (Stage.returns (env.uv .keepaliveStart)).andThen <|
      (Stage.returns (env.uv .realBroadcastStart)).andThen <|
      Stage.returns (env.uv .recvStart)) s

/-- `parse_addr` of an option that is set, with the message for its failure. -/
def resolve (env : Env) (message : String) : Option OptionText → Stage
  | none => Stage.returns 0
  | some addr =>
      if env.parseAddr addr.text then Stage.returns 0 else Stage.returnErr (ascii message ++ addr.text)

/-- `gateway_init`; the calls of `UvLwipBase::init` are in `RT_ASSERT`, which ends the process. -/
def gatewayInit (env : Env) : Stage := fun s =>
  if env.uv .uvlInit ≠ 0 ∨ env.uv .uvlListen ≠ 0 then none
  else
    ((Stage.acquire .gateway).andThen <| (Stage.acquire .proxyGc).andThen <| Stage.acquire .uvLwip)
      { s with fakeGateway := s.options.fakeInternet }

/-- The options that are copied first. -/
def LanPlay.takeOptions (s : LanPlay) : LanPlay :=
  { s with broadcast := s.options.broadcast, pmtu := s.options.pmtu }

def lanPlayInit (env : Env) : Stage := fun s =>
  let options := s.options
  ((resolve env "Failed to parse and get ip address. --relay-server-addr: "
        options.relayServerAddr).andThen <|
    (initPcap env).andThen <|
    (if options.relayServerAddr.isSome then lanClientInit env else Stage.returns 0).andThen <|
    (resolve env "Failed to parse and get ip address. --socks5-server-addr: "
        options.socks5ServerAddr).andThen <|
    gatewayInit env) s.takeOptions

/-! ## `lan_play_close` -/

/-- `uv_pcap_close`: the polls are stopped; the poll handles are not closed, nor
are the devices. -/
def uvPcapClose : Stage := Stage.returns 0

/-- `lan_client_close`: the real-broadcast timer is stopped, and not closed. -/
def lanClientClose (env : Env) : Stage :=
  (Stage.returns (env.uv .recvStop)).andThen <|
    (Stage.returns (env.uv .keepaliveStop)).andThen <|
    (Stage.returns (env.uv .realBroadcastStop)).andThen <|
    (Stage.release .client).andThen <|
    Stage.release .clientKeepaliveTimer

def LanPlay.HasDevice (s : LanPlay) : Prop := ∃ resource ∈ s.held, resource.isDevice

instance (s : LanPlay) : Decidable s.HasDevice := Multiset.decidableExistsMultiset

/-- A connection comes in frames, so there is none without a device. -/
def LanPlay.connections (env : Env) (s : LanPlay) : Nat := if s.HasDevice then env.connections else 0

/-- `gateway_close`.  The stack lets go of itself only if `release` finds a connection.  The gateway
drops the proxy; a stack that is not the fake one has it as well. -/
def gatewayClose (env : Env) : Stage := fun s =>
  ((Stage.release .gateway).andThen <|
    (if s.connections env = 0 then Stage.returns 0 else Stage.release .uvLwip).andThen <|
    (if s.connections env = 0 ∧ s.fakeGateway = false then Stage.returns 0 else Stage.release .proxyGc)) s

def lanPlayClose (env : Env) : Stage := fun s =>
  (uvPcapClose.andThen <|
    (if s.options.relayServerAddr.isSome then lanClientClose env else Stage.returns 0).andThen <|
    gatewayClose env) s

/-! ## Commands -/

/-- A text without its terminator, null when it is empty. -/
def optionText (text : Bytes) : Option OptionText :=
  let str := text.takeWhile (· ≠ 0)
  if str = [] then none else some ⟨str, true⟩

/-- `OPTIONS_DEF`: the old text is freed.  The process ends when `malloc` did not make it. -/
def setOption (old : Option OptionText) (text : Bytes) : Option (Option OptionText) :=
  if old.any fun option => option.heap = false then none else some (optionText text)

namespace LanPlay

def applyConfig (s : LanPlay) : Option LanPlay := do
  let relayServerAddr ← setOption s.options.relayServerAddr s.config.relayServer
  let socks5ServerAddr ← setOption s.options.socks5ServerAddr s.config.socks5Server
  some { s with
    options.broadcast := s.config.broadcast
    options.fakeInternet := s.config.fakeInternet
    options.pmtu := s.config.pmtu
    options.relayServerAddr := relayServerAddr
    options.socks5ServerAddr := socks5ServerAddr
    lastConfig := s.config }

/-- The end of `start` and `stop`: the new status, or the error. -/
def settle (status : LanPlayStatus) (ret : Int) (s : LanPlay) : LanPlay :=
  if ret = 0 then { s with status := status } else { s with lastError := s.lastErr }

/-- What `start` and `stop` share: refuse when the status is there already. -/
def switchTo (status : LanPlayStatus) (refusal : String) (stage : Stage) : Stage := fun s =>
  if s.status = status then some (-1, { s with lastError := ascii refusal })
  else
    match stage s with
    | none => none
    | some (ret, s) => some (ret, s.settle status ret)

def start (env : Env) : Stage :=
  switchTo .running "Already running" fun s => s.applyConfig.bind (lanPlayInit env)

def stop (env : Env) : Stage :=
  switchTo .none "Already stopped" (lanPlayClose env)

end LanPlay

inductive Command where
  /-- The configuration is changed. -/
  | configure (config : LanPlayConfig)
  | start (env : Env)
  | stop (env : Env)

/-- The state after a command; null once the process has ended. -/
def Command.apply (s : LanPlay) : Command → Option LanPlay
  | .configure config => some { s with config := config }
  | .start env => (LanPlay.start env s).map Prod.snd
  | .stop env => (LanPlay.stop env s).map Prod.snd

def commandStep (command : Command) : Proc (Option LanPlay) Empty Unit :=
  Proc.update fun state => state.bind fun s => command.apply s

end SwitchLanPlay.Rpc.Lifecycle
