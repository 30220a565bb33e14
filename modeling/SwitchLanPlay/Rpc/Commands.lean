import SwitchLanPlay.Rpc.Balance

/-!
# The commands of the RPC server

`RPCServerSession::onMessage` (`rpc/rpc-server.cpp`) with the texts that it answers.
Two messages get no answer.  `std::stoi` throws two kinds of exceptions and one of
them is caught; and a start may end the process: because of a `pmtu` that was stored
without a look at it, because an argument of the command line is freed, or because the
system refuses something that the stages behind it take for granted.
-/

namespace SwitchLanPlay.Rpc.Lifecycle

open Library

/-! ## `std::stoi` with base 0 -/

def isSpace (byte : UInt8) : Bool := byte = 32 || (9 ≤ byte && byte ≤ 13)

def digitValue (byte : UInt8) : Option Nat :=
  if 48 ≤ byte ∧ byte ≤ 57 then some (byte.toNat - 48)
  else if 65 ≤ byte ∧ byte ≤ 90 then some (byte.toNat - 55)
  else if 97 ≤ byte ∧ byte ≤ 122 then some (byte.toNat - 87)
  else none

def isDigit (base : Nat) (byte : UInt8) : Bool := (digitValue byte).any (· < base)

/-- The sign, and what follows it. -/
def readSign : Bytes → Int × Bytes
  | 45 :: rest => (-1, rest)
  | 43 :: rest => (1, rest)
  | text => (1, text)

/-- The base that the first digits tell, and where the digits begin: `0x` only counts
when a digit follows. -/
def readBase : Bytes → Nat × Bytes
  | 48 :: mark :: digit :: rest =>
      if (mark = 120 ∨ mark = 88) ∧ isDigit 16 digit then (16, digit :: rest)
      else (8, 48 :: mark :: digit :: rest)
  | 48 :: rest => (8, 48 :: rest)
  | text => (10, text)

/-- The number at the beginning of a text, null when there is no digit. -/
def strtol (text : Bytes) : Option Int :=
  let (sign, text) := readSign (text.dropWhile isSpace)
  let (base, text) := readBase text
  let digits := text.takeWhile (isDigit base)
  if digits = [] then none
  else some (sign * digits.foldl (fun number digit => base * number + (digitValue digit).getD 0) 0)

inductive StoiException where
  | invalidArgument
  | outOfRange
  deriving DecidableEq

/-- `std::stoi(value, nullptr, 0)`: the text is read up to a zero byte, and the number
has to be an `int`. -/
def stoi (value : Bytes) : Except StoiException Int :=
  match strtol (value.takeWhile (· ≠ 0)) with
  | none => .error .invalidArgument
  | some number => if -2 ^ 31 ≤ number ∧ number < 2 ^ 31 then .ok number else .error .outOfRange

/-! ## Texts -/

/-- `escape`, with `stringReplace` of the quotation marks. -/
def escape (value : Bytes) : Bytes :=
  [34] ++ value.flatMap (fun byte => if byte = 34 then [92, 34] else [byte]) ++ [34]

/-- What the overloads of `kv` share. -/
def keyed (key : String) (value : Bytes) : Bytes := ascii key ++ ascii "=" ++ value ++ ascii "\n"

def kvText (key : String) (value : Bytes) : Bytes := keyed key (escape value)

def kvInt (key : String) (value : Int) : Bytes := keyed key (ascii (toString value))

def kvBool (key : String) (value : Bool) : Bytes := keyed key (ascii (if value then "true" else "false"))

def kvUInt64 (key : String) (value : UInt64) : Bytes := keyed key (ascii (toString value))

def error (value : Bytes) : Bytes := kvText "error" value

def getConfig (title : String) (config : LanPlayConfig) : Bytes :=
  ascii ("[" ++ title ++ "]\n") ++
    kvText "relayServer" config.relayServer ++
    kvText "socks5Server" config.socks5Server ++
    kvInt "pmtu" config.pmtu ++
    kvBool "fakeInternet" config.fakeInternet ++
    kvBool "broadcast" config.broadcast

structure LanPlayStatsItem where
  uploadByte : UInt64
  uploadPacket : UInt64
  downloadByte : UInt64
  downloadPacket : UInt64

structure LanPlayStats where
  client : LanPlayStatsItem
  packet : LanPlayStatsItem
  time : UInt64

def getStatsItem (item : LanPlayStatsItem) : Bytes :=
  kvUInt64 "downloadByte" item.downloadByte ++
    kvUInt64 "downloadPacket" item.downloadPacket ++
    kvUInt64 "uploadByte" item.uploadByte ++
    kvUInt64 "uploadPacket" item.uploadPacket

def getStats (stats : LanPlayStats) : Bytes :=
  ascii "[stats]\n" ++
    kvUInt64 "time" stats.time ++
    ascii "[stats.client]\n" ++ getStatsItem stats.client ++
    ascii "[stats.packet]\n" ++ getStatsItem stats.packet

/-! ## Interfaces -/

/-- An address of a `pcap_if_t`. -/
structure PcapAddr where
  family : Nat
  addr : Bytes

/-- What `getNetInterfaces` reads of a `pcap_if_t`. -/
structure NamedDevice where
  name : Bytes
  description : Option Bytes
  addresses : List PcapAddr

structure NetInterface where
  name : Bytes
  description : Bytes
  ips : List Bytes

def afInet : Nat := 2

def inetNtoa (addr : Bytes) : Bytes := ascii (".".intercalate (addr.map fun byte => toString byte.toNat))

def NamedDevice.netInterface (d : NamedDevice) : NetInterface where
  name := d.name
  description := d.description.getD []
  ips := (d.addresses.filter (·.family = afInet)).map fun taddr => inetNtoa taddr.addr

def interfaceText (netif : NetInterface) : Bytes :=
  ascii "[[interfaces]]\n" ++
    kvText "name" netif.name ++
    kvText "description" netif.description ++
    ascii "ips=[\n" ++
    netif.ips.flatMap (fun ip => ascii "  " ++ escape ip ++ ascii ",\n") ++
    ascii "]\n"

/-! ## `onMessage` -/

inductive Key where
  | status
  | listIf
  | version
  | start
  | stop
  | config
  | lastConfig
  | relayServer
  | socks5Server
  | fakeInternet
  | broadcast
  | pmtu
  | stats
  deriving DecidableEq

namespace Key

def name : Key → String
  | status => "status"
  | listIf => "listIf"
  | version => "version"
  | start => "start"
  | stop => "stop"
  | config => "config"
  | lastConfig => "lastConfig"
  | relayServer => "relayServer"
  | socks5Server => "socks5Server"
  | fakeInternet => "fakeInternet"
  | broadcast => "broadcast"
  | pmtu => "pmtu"
  | stats => "stats"

/-- The keys in the order in which `onMessage` compares them. -/
def all : List Key :=
  [status, listIf, version, start, stop, config, lastConfig, relayServer, socks5Server, fakeInternet,
    broadcast, pmtu, stats]

def find (text : Bytes) : Option Key := all.find? fun key => ascii key.name = text

end Key

/-- The text before the first `=`, and the one behind it. -/
def splitMessage (message : Bytes) : Bytes × Bytes :=
  (message.takeWhile (· ≠ 61), (message.dropWhile (· ≠ 61)).drop 1)

/-- What the system answers while a message is handled. -/
structure Answers where
  env : Env
  /-- `pcap_findalldevs`, or its error text -/
  findalldevs : Except Bytes (List NamedDevice)
  /-- the counters and the time -/
  stats : LanPlayStats
  /-- `what()` of the exception that `std::stoi` throws -/
  what : Bytes
  /-- `LANPLAY_VERSION`, which the build sets -/
  version : Bytes

/-- How a message can end without a reply. -/
inductive Ending where
  | escaped (e : StoiException)
  | exited
  deriving DecidableEq

abbrev Handled := Except Ending (Bytes × LanPlay)

/-- `start` and `stop`: the new status, or the error. -/
def switchReply (stage : Stage) (status : String) (s : LanPlay) : Handled :=
  match stage s with
  | none => .error .exited
  | some (ret, s) => .ok (if ret = 0 then kvText "status" (ascii status) else error s.lastError, s)

def configReply (config : LanPlayConfig) (s : LanPlay) : Handled :=
  .ok (getConfig "config" config, { s with config := config })

/-- The branches of `onMessage`. -/
def handle (answers : Answers) (value : Bytes) (s : LanPlay) : Key → Handled
  | .status =>
      match s.status with
      | .none => .ok (kvText "status" (ascii "None"), s)
      | .running => .ok (kvText "status" (ascii "Running"), s)
  | .listIf =>
      match answers.findalldevs with
      | .ok alldevs => .ok (alldevs.flatMap fun d => interfaceText d.netInterface, s)
      | .error errBuf => .ok (error errBuf, { s with lastError := errBuf })
  | .version => .ok (kvText "version" answers.version, s)
  | .start => switchReply (LanPlay.start answers.env) "Running" s
  | .stop => switchReply (LanPlay.stop answers.env) "None" s
  | .config => .ok (getConfig "config" s.config, s)
  | .lastConfig => .ok (getConfig "lastConfig" s.lastConfig, s)
  | .relayServer => configReply { s.config with relayServer := value } s
  | .socks5Server => configReply { s.config with socks5Server := value } s
  | .fakeInternet => configReply { s.config with fakeInternet := value = ascii "true" } s
  | .broadcast => configReply { s.config with broadcast := value = ascii "true" } s
  | .pmtu =>
      match stoi value with
      | .ok pmtu => configReply { s.config with pmtu := pmtu } s
      | .error .invalidArgument => .ok (error answers.what, s)
      | .error .outOfRange => .error (.escaped .outOfRange)
  | .stats =>
      match s.status with
      | .none => .ok (error (ascii "Not running"), { s with lastError := ascii "Not running" })
      | .running => .ok (getStats answers.stats, s)

/-- A message to a server that still exists. -/
def answer (answers : Answers) (message : Bytes) (s : LanPlay) : Handled :=
  let (key, value) := splitMessage message
  match Key.find key with
  | none => .ok (error (ascii "command not found: " ++ key), s)
  | some key => handle answers value s key

/-- `onMessage`; the server may be gone. -/
def onMessage (answers : Answers) (message : Bytes) : Option LanPlay → Except Ending (Bytes × Option LanPlay)
  | none => .ok (ascii "server lost", none)
  | some s => (answer answers message s).map fun (reply, s) => (reply, some s)

/-! ## Stages -/

/-- The stage leaves the configuration and the options alone. -/
def Stage.KeepsSettings (stage : Stage) : Prop :=
  ∀ s ret after, stage s = some (ret, after) → after.config = s.config ∧ after.options = s.options

/-- The stage returns, and leaves the settings alone. -/
structure Stage.Plain (stage : Stage) : Prop where
  total : ∀ s, stage s ≠ none
  keepsSettings : stage.KeepsSettings

namespace Stage

theorem KeepsSettings.andThen {first second : Stage} (before : first.KeepsSettings) (later : second.KeepsSettings) :
    (first.andThen second).KeepsSettings := by
  intro s ret after returned
  obtain ⟨-, failed⟩ | ⟨between, done, rest⟩ := andThen_cases returned
  · exact before s ret after failed
  · obtain ⟨config, options⟩ := before s 0 between done
    obtain ⟨config', options'⟩ := later between ret after rest
    exact ⟨config'.trans config, options'.trans options⟩

theorem andThen_eq_none {first second : Stage} {s : LanPlay} :
    first.andThen second s = none ↔
      first s = none ∨ ∃ between, first s = some (0, between) ∧ second between = none := by
  unfold Stage.andThen
  cases outcome : first s with
  | none => exact iff_of_true rfl (.inl rfl)
  | some result =>
    obtain ⟨ret, between⟩ := result
    dsimp only
    by_cases zero : ret = 0
    · rw [if_neg (not_not_intro zero), zero]
      constructor
      · intro exits
        exact .inr ⟨between, rfl, exits⟩
      · rintro (exits | ⟨_, same, exits⟩)
        · cases exits
        · cases same
          exact exits
    · rw [if_pos zero]
      constructor
      · nofun
      · rintro (exits | ⟨_, same, -⟩)
        · cases exits
        · cases same
          exact absurd rfl zero

theorem Plain.andThen_eq_none {first second : Stage} (later : second.Plain) {s : LanPlay} :
    first.andThen second s = none ↔ first s = none := by
  rw [Stage.andThen_eq_none]
  constructor
  · rintro (exits | ⟨between, -, exits⟩)
    · exact exits
    · cases later.total between exits
  · exact .inl

theorem Plain.andThen {first second : Stage} (before : first.Plain) (later : second.Plain) :
    (first.andThen second).Plain where
  total s exits := before.total s (later.andThen_eq_none.mp exits)
  keepsSettings := before.keepsSettings.andThen later.keepsSettings

theorem plain_of_some {code : Int} {change : LanPlay → LanPlay}
    (kept : ∀ s, (change s).config = s.config ∧ (change s).options = s.options) :
    Plain fun s => some (code, change s) where
  total _ := Option.some_ne_none _
  keepsSettings := by
    intro s ret after returned
    cases returned
    exact kept s

theorem plain_returns (ret : Int) : (returns ret).Plain := plain_of_some fun _ => ⟨rfl, rfl⟩

theorem plain_returnErr (text : Bytes) : (returnErr text).Plain := plain_of_some fun _ => ⟨rfl, rfl⟩

theorem plain_acquire (resource : Resource) : (acquire resource).Plain := plain_of_some fun _ => ⟨rfl, rfl⟩

theorem plain_release (resource : Resource) : (release resource).Plain := plain_of_some fun _ => ⟨rfl, rfl⟩

end Stage

section Stages

variable (env : Env)

theorem plain_resolve (message : String) (addr : Option OptionText) : (resolve env message addr).Plain := by
  rcases resolve_cases env message addr with accepted | ⟨text, refused⟩
  · rw [accepted]
    exact Stage.plain_returns 0
  · rw [refused]
    exact Stage.plain_returnErr text

theorem plain_lanClientClose : (lanClientClose env).Plain :=
  (Stage.plain_returns _).andThen <| (Stage.plain_returns _).andThen <| (Stage.plain_returns _).andThen <|
    (Stage.plain_release _).andThen (Stage.plain_release _)

theorem plain_choice (condition : Prop) [Decidable condition] (resource : Resource) :
    (if condition then Stage.returns 0 else Stage.release resource).Plain := by
  split
  · exact Stage.plain_returns 0
  · exact Stage.plain_release resource

/-- The closing stages are chosen by the state, so each is plain from each state. -/
theorem plain_gatewayClose : (gatewayClose env).Plain where
  total s := ((Stage.plain_release _).andThen ((plain_choice _ _).andThen (plain_choice _ _))).total s
  keepsSettings s := ((Stage.plain_release _).andThen ((plain_choice _ _).andThen (plain_choice _ _))).keepsSettings s

theorem plain_closeStages (relay : Bool) :
    (uvPcapClose.andThen <|
      (if relay then lanClientClose env else Stage.returns 0).andThen <| gatewayClose env).Plain := by
  cases relay with
  | true => exact (Stage.plain_returns 0).andThen ((plain_lanClientClose env).andThen (plain_gatewayClose env))
  | false => exact (Stage.plain_returns 0).andThen ((Stage.plain_returns 0).andThen (plain_gatewayClose env))

theorem plain_lanPlayClose : (lanPlayClose env).Plain where
  total s := (plain_closeStages env s.options.relayServerAddr.isSome).total s
  keepsSettings s := (plain_closeStages env s.options.relayServerAddr.isSome).keepsSettings s

/-- The stages of `lan_client_init` behind the test of the `pmtu`. -/
theorem plain_clientStages :
    ((if env.uv .udpInit = 0 then Stage.acquire .client else Stage.returns 0).andThen <|
      (Stage.acquire .clientKeepaliveTimer).andThen <|
      (Stage.acquire .realBroadcastTimer).andThen <|
      (Stage.returns (env.uv .keepaliveStart)).andThen <|
      (Stage.returns (env.uv .realBroadcastStart)).andThen <|
      Stage.returns (env.uv .recvStart)).Plain := by
  apply Stage.Plain.andThen
  · split
    · exact Stage.plain_acquire _
    · exact Stage.plain_returns 0
  · exact (Stage.plain_acquire _).andThen <| (Stage.plain_acquire _).andThen <|
      (Stage.plain_returns _).andThen <| (Stage.plain_returns _).andThen (Stage.plain_returns _)

theorem lanClientInit_eq_none {s : LanPlay} :
    lanClientInit env s = none ↔ s.pmtu ≠ 0 ∧ s.pmtu < minFragPayloadLen := by
  unfold lanClientInit
  split
  case isTrue small => exact iff_of_true rfl small
  case isFalse large => exact iff_of_false ((plain_clientStages env).total s) large

theorem keepsSettings_lanClientInit : (lanClientInit env).KeepsSettings := by
  intro s ret after returned
  unfold lanClientInit at returned
  split at returned
  case isTrue => cases returned
  case isFalse => exact (plain_clientStages env).keepsSettings s ret after returned

/-- `uv_pcap_init` ends the process: the devices cannot be listed, there is none, or one of them does. -/
def PcapExits (env : Env) (netif : Option String) : Prop :=
  env.alldevs = none ∨ env.alldevs = some [] ∨ ∃ alldevs, env.alldevs = some alldevs ∧ DeviceExits netif alldevs

theorem initPcap_eq_none {s : LanPlay} : initPcap env s = none ↔ PcapExits env s.options.netif := by
  unfold initPcap PcapExits
  rcases env.alldevs with _ | _ | ⟨first, others⟩
  · exact iff_of_true rfl (.inl rfl)
  · exact iff_of_true rfl (.inr (.inl rfl))
  · by_cases exits : DeviceExits s.options.netif (first :: others)
    · exact iff_of_true (if_pos exits) (.inr (.inr ⟨_, rfl, exits⟩))
    · refine iff_of_false ?_ ?_
      · dsimp only
        rw [if_neg exits]
        exact Option.some_ne_none _
      · rintro (absent | empty | ⟨alldevs, same, exited⟩)
        · cases absent
        · cases empty
        · cases same
          exact exits exited

theorem keepsSettings_initPcap : (initPcap env).KeepsSettings := by
  intro s ret after returned
  obtain ⟨alldevs, -, -, -, rfl⟩ := initPcap_spec returned
  exact ⟨rfl, rfl⟩

theorem keepsSettings_gatewayInit : (gatewayInit env).KeepsSettings := by
  intro s ret after returned
  obtain ⟨-, -, rfl⟩ := gatewayInit_spec returned
  exact ⟨rfl, rfl⟩

theorem keepsSettings_lanPlayInit : (lanPlayInit env).KeepsSettings := by
  intro s ret after returned
  refine ((plain_resolve env _ _).keepsSettings.andThen ((keepsSettings_initPcap env).andThen
    (Stage.KeepsSettings.andThen ?_ ((plain_resolve env _ _).keepsSettings.andThen
      (keepsSettings_gatewayInit env))))) s.takeOptions ret after returned
  split
  · exact keepsSettings_lanClientInit env
  · exact (Stage.plain_returns 0).keepsSettings

/-! ## When a start ends the process -/

/-- `lan_client_init` ends the process: there is a server, and a `pmtu` that is too small. -/
def ClientExits (options : Options) : Prop :=
  options.relayServerAddr ≠ none ∧ options.pmtu ≠ 0 ∧ options.pmtu < minFragPayloadLen

/-- `gateway_init` ends the process: it is reached, and lwIP cannot be set up. -/
structure GatewayExits (env : Env) (options : Options) : Prop where
  client : options.relayServerAddr = none ∨
    env.uv .keepaliveStart = 0 ∧ env.uv .realBroadcastStart = 0 ∧ env.uv .recvStart = 0
  proxy : ¬ Refused env options.socks5ServerAddr
  stack : env.uv .uvlInit ≠ 0 ∨ env.uv .uvlListen ≠ 0

/-- The start gets past the server address, and a later stage ends the process. -/
structure InitExits (env : Env) (options : Options) : Prop where
  resolved : ¬ Refused env options.relayServerAddr
  exits : PcapExits env options.netif ∨ ClientExits options ∨ GatewayExits env options

theorem gatewayInit_eq_none {s : LanPlay} :
    gatewayInit env s = none ↔ env.uv .uvlInit ≠ 0 ∨ env.uv .uvlListen ≠ 0 := by
  unfold gatewayInit
  split
  case isTrue failed => exact iff_of_true rfl failed
  case isFalse passed => exact iff_of_false (Option.some_ne_none _) passed

theorem proxyStages_eq_none {s : LanPlay} (addr : Option OptionText) :
    ((resolve env "Failed to parse and get ip address. --socks5-server-addr: " addr).andThen (gatewayInit env)) s = none ↔
      ¬ Refused env addr ∧ (env.uv .uvlInit ≠ 0 ∨ env.uv .uvlListen ≠ 0) := by
  by_cases refused : Refused env addr
  · obtain ⟨text, failed⟩ := refused.resolve "Failed to parse and get ip address. --socks5-server-addr: "
    rw [failed]
    exact iff_of_false (Option.some_ne_none _) fun both => both.1 refused
  · rw [resolve_of_not_refused refused, Stage.returns_zero_andThen, gatewayInit_eq_none]
    exact (and_iff_right refused).symm

/-- The client is set up. -/
theorem lanClientInit_eq_zero {s : LanPlay} (large : ¬ (s.pmtu ≠ 0 ∧ s.pmtu < minFragPayloadLen)) :
    (∃ after, lanClientInit env s = some (0, after)) ↔
      env.uv .keepaliveStart = 0 ∧ env.uv .realBroadcastStart = 0 ∧ env.uv .recvStart = 0 := by
  unfold lanClientInit
  rw [if_neg large]
  by_cases handle : env.uv .udpInit = 0 <;>
    by_cases keepalive : env.uv .keepaliveStart = 0 <;>
      by_cases broadcast : env.uv .realBroadcastStart = 0 <;>
        simp [Stage.andThen, Stage.acquire, Stage.returns, handle, keepalive, broadcast]

theorem clientStages_eq_none {s : LanPlay} (taken : s.pmtu = s.options.pmtu) :
    ((if s.options.relayServerAddr.isSome then lanClientInit env else Stage.returns 0).andThen <|
      (resolve env "Failed to parse and get ip address. --socks5-server-addr: "
        s.options.socks5ServerAddr).andThen <| gatewayInit env) s = none ↔
      ClientExits s.options ∨ GatewayExits env s.options := by
  have last : (¬ Refused env s.options.socks5ServerAddr ∧ (env.uv .uvlInit ≠ 0 ∨ env.uv .uvlListen ≠ 0)) ∧
      (s.options.relayServerAddr = none ∨
        env.uv .keepaliveStart = 0 ∧ env.uv .realBroadcastStart = 0 ∧ env.uv .recvStart = 0) ↔
      GatewayExits env s.options :=
    ⟨fun both => ⟨both.2, both.1.1, both.1.2⟩, fun exits => ⟨⟨exits.proxy, exits.stack⟩, exits.client⟩⟩
  cases relay : s.options.relayServerAddr with
  | none =>
      have noClient : ¬ ClientExits s.options := fun exits => exits.1 relay
      rw [or_iff_right noClient, ← last, relay, and_iff_left (.inl rfl)]
      exact proxyStages_eq_none env _
  | some addr =>
      rw [Stage.andThen_eq_none]
      change lanClientInit env s = none ∨ (∃ between, lanClientInit env s = some (0, between) ∧ _) ↔ _
      by_cases small : s.pmtu ≠ 0 ∧ s.pmtu < minFragPayloadLen
      · refine iff_of_true (.inl ((lanClientInit_eq_none env).mpr small)) (.inl ⟨?_, taken ▸ small⟩)
        rw [relay]
        exact Option.some_ne_none addr
      · have noClient : ¬ ClientExits s.options := fun exits => small (taken ▸ exits.2)
        have returns : lanClientInit env s ≠ none := fun exits => small ((lanClientInit_eq_none env).mp exits)
        rw [or_iff_right returns, or_iff_right noClient, ← last, relay]
        simp only [proxyStages_eq_none, exists_and_right, lanClientInit_eq_zero env small, reduceCtorEq, false_or]
        exact and_comm

theorem initStages_eq_none {s : LanPlay} (taken : s.pmtu = s.options.pmtu) :
    initStages env s.options s = none ↔
      PcapExits env s.options.netif ∨ ClientExits s.options ∨ GatewayExits env s.options := by
  rw [initStages, Stage.andThen_eq_none, initPcap_eq_none]
  by_cases exits : PcapExits env s.options.netif
  · exact iff_of_true (.inl exits) (.inl exits)
  · rw [or_iff_right exits, or_iff_right exits]
    cases outcome : initPcap env s with
    | none => exact absurd ((initPcap_eq_none env).mp outcome) exits
    | some result =>
        obtain ⟨ret, between⟩ := result
        obtain ⟨alldevs, -, -, rfl, rfl⟩ := initPcap_spec outcome
        rw [← clientStages_eq_none env (s := { s with held := s.held + pcapResources s.options.netif alldevs }) taken]
        constructor
        · rintro ⟨_, same, exits⟩
          cases same
          exact exits
        · exact fun exits => ⟨_, rfl, exits⟩

theorem lanPlayInit_eq_none {s : LanPlay} : lanPlayInit env s = none ↔ InitExits env s.options := by
  by_cases refused : Refused env s.options.relayServerAddr
  · refine iff_of_false ?_ fun exits => exits.resolved refused
    obtain ⟨text, failed⟩ := refused.resolve "Failed to parse and get ip address. --relay-server-addr: "
    unfold lanPlayInit
    dsimp only
    rw [failed]
    exact Option.some_ne_none _
  · rw [lanPlayInit_resolved refused]
    change initStages env s.takeOptions.options s.takeOptions = none ↔ _
    rw [initStages_eq_none env rfl]
    exact ⟨fun exits => ⟨refused, exits⟩, InitExits.exits⟩

end Stages

theorem LanPlay.switchTo_eq_none {status : LanPlayStatus} {refusal : String} {stage : Stage} {s : LanPlay} :
    switchTo status refusal stage s = none ↔ s.status ≠ status ∧ stage s = none := by
  unfold switchTo
  by_cases already : s.status = status
  · rw [if_pos already]
    exact iff_of_false (Option.some_ne_none _) fun exits => exits.1 already
  · rw [if_neg already]
    cases outcome : stage s with
    | none => exact iff_of_true rfl ⟨already, rfl⟩
    | some result => exact iff_of_false (Option.some_ne_none _) fun exits => Option.some_ne_none _ exits.2

/-- The options that `applyConfig` frees come from `malloc`. -/
structure Options.Owned (options : Options) : Prop where
  relay : ∀ option ∈ options.relayServerAddr, option.heap = true
  socks5 : ∀ option ∈ options.socks5ServerAddr, option.heap = true

theorem setOption_eq_none {old : Option OptionText} {text : Bytes} :
    setOption old text = none ↔ ¬ ∀ option ∈ old, option.heap = true := by
  cases old with
  | none => simp [setOption]
  | some option => simp [setOption]

theorem setOption_owned {old set : Option OptionText} {text : Bytes} (done : setOption old text = some set) :
    ∀ option ∈ set, option.heap = true := by
  intro option member
  unfold setOption at done
  split at done
  · cases done
  · cases done
    obtain ⟨-, same⟩ := Option.ite_none_left_eq_some.mp member
    cases same
    rfl

namespace LanPlay

theorem applyConfig_eq_none {s : LanPlay} : s.applyConfig = none ↔ ¬ s.options.Owned := by
  have owned : s.options.Owned ↔ (∀ option ∈ s.options.relayServerAddr, option.heap = true) ∧
      ∀ option ∈ s.options.socks5ServerAddr, option.heap = true :=
    ⟨fun owned => ⟨owned.relay, owned.socks5⟩, fun both => ⟨both.1, both.2⟩⟩
  rw [owned, not_and_or, ← @setOption_eq_none _ s.config.relayServer, ← @setOption_eq_none _ s.config.socks5Server]
  unfold applyConfig
  cases setOption s.options.relayServerAddr s.config.relayServer <;>
    cases setOption s.options.socks5ServerAddr s.config.socks5Server <;> simp

theorem applyConfig_owned {s after : LanPlay} (applied : s.applyConfig = some after) : after.options.Owned := by
  simp only [applyConfig, Option.bind_eq_bind, Option.bind_eq_some_iff, Option.some.injEq] at applied
  obtain ⟨relay, setRelay, socks5, setSocks5, rfl⟩ := applied
  exact ⟨setOption_owned setRelay, setOption_owned setSocks5⟩

end LanPlay

/-- A start ends the process: it frees an argument of the command line, or a stage behind it ends it. -/
inductive StartExits (env : Env) (s : LanPlay) : Prop where
  | freed (argument : ¬ s.options.Owned)
  | init (configured : LanPlay) (applied : s.applyConfig = some configured) (exits : InitExits env configured.options)

theorem LanPlay.start_eq_none (env : Env) (s : LanPlay) :
    s.start env = none ↔ s.status ≠ .running ∧ StartExits env s := by
  rw [start, switchTo_eq_none]
  refine and_congr_right fun _ => ?_
  cases applied : s.applyConfig with
  | none => exact iff_of_true rfl (.freed (applyConfig_eq_none.mp applied))
  | some configured =>
      rw [Option.bind_some, lanPlayInit_eq_none]
      constructor
      · exact fun exits => .init configured applied exits
      · rintro (argument | ⟨other, same, exits⟩)
        · cases (applyConfig_eq_none.mpr argument).symm.trans applied
        · cases applied.symm.trans same
          exact exits

theorem LanPlay.stop_ne_none (env : Env) (s : LanPlay) : s.stop env ≠ none := by
  rw [stop, ne_eq, switchTo_eq_none]
  exact fun exits => (plain_lanPlayClose env).total s exits.2

/-! ## The configuration -/

/-- The stage leaves the configuration alone, and no option that `free` must not get. -/
def Stage.KeepsConfig (stage : Stage) : Prop :=
  ∀ s ret after, stage s = some (ret, after) → after.config = s.config ∧ (s.options.Owned → after.options.Owned)

theorem LanPlay.settle_settings (status : LanPlayStatus) (ret : Int) (s : LanPlay) :
    (s.settle status ret).config = s.config ∧ (s.settle status ret).options = s.options := by
  unfold settle
  split <;> exact ⟨rfl, rfl⟩

theorem keepsConfig_switchTo {stage : Stage} (keeps : stage.KeepsConfig) (status : LanPlayStatus)
    (refusal : String) : (LanPlay.switchTo status refusal stage).KeepsConfig := by
  intro s ret after returned
  rcases LanPlay.switchTo_cases returned with ⟨-, rfl⟩ | ⟨-, inner, done, rfl⟩
  · exact ⟨rfl, id⟩
  · obtain ⟨config, options⟩ := inner.settle_settings status ret
    rw [config, options]
    exact keeps s ret inner done

theorem keepsConfig_start (env : Env) : (LanPlay.start env).KeepsConfig := by
  apply keepsConfig_switchTo
  intro s ret after returned
  obtain ⟨configured, applied, init⟩ := Option.bind_eq_some_iff.mp returned
  obtain ⟨config, options⟩ := keepsSettings_lanPlayInit env configured ret after init
  refine ⟨config.trans (LanPlay.applyConfig_kept applied).2.2, fun _ => ?_⟩
  rw [options]
  exact LanPlay.applyConfig_owned applied

theorem keepsConfig_stop (env : Env) : (LanPlay.stop env).KeepsConfig := by
  apply keepsConfig_switchTo
  intro s ret after returned
  obtain ⟨config, options⟩ := (plain_lanPlayClose env).keepsSettings s ret after returned
  exact ⟨config, fun owned => options ▸ owned⟩

/-! ## Replies -/

def IsError (reply : Bytes) : Prop := ∃ value, reply = error value

theorem getConfig_not_error (config : LanPlayConfig) : ¬ IsError (getConfig "config" config) := by
  rintro ⟨value, same⟩
  have opening : (getConfig "config" config).head? = some 91 := rfl
  have other : (error value).head? = some 101 := rfl
  rw [same, other] at opening
  cases opening

/-- The configuration that a branch sets. -/
def configured (value : Bytes) (config : LanPlayConfig) : Key → LanPlayConfig
  | .relayServer => { config with relayServer := value }
  | .socks5Server => { config with socks5Server := value }
  | .fakeInternet => { config with fakeInternet := value = ascii "true" }
  | .broadcast => { config with broadcast := value = ascii "true" }
  | .pmtu =>
      match stoi value with
      | .ok pmtu => { config with pmtu := pmtu }
      | .error _ => config
  | _ => config

/-- There is a reply; the configuration is as before, or it was set and the reply is not
an error.  No option comes in that `free` must not get. -/
def Replies (s : LanPlay) (config : LanPlayConfig) (handled : Handled) : Prop :=
  ∃ reply after, handled = .ok (reply, after) ∧
    (after.config = s.config ∨ after.config = config ∧ ¬ IsError reply) ∧
    (s.options.Owned → after.options.Owned)

theorem replies_of_kept {s after : LanPlay} {config : LanPlayConfig} (kept : after.config = s.config)
    (owned : s.options.Owned → after.options.Owned) (reply : Bytes) : Replies s config (.ok (reply, after)) :=
  ⟨reply, after, rfl, .inl kept, owned⟩

theorem replies_configReply (config : LanPlayConfig) (s : LanPlay) : Replies s config (configReply config s) :=
  ⟨_, _, rfl, .inr ⟨rfl, getConfig_not_error config⟩, id⟩

theorem replies_switchReply {stage : Stage} (keeps : stage.KeepsConfig) (status : String) {s : LanPlay}
    {config : LanPlayConfig} (returns : stage s ≠ none) : Replies s config (switchReply stage status s) := by
  unfold switchReply
  cases outcome : stage s with
  | none => exact absurd outcome returns
  | some result =>
      obtain ⟨same, owned⟩ := keeps s _ _ outcome
      exact replies_of_kept same owned _

/-- The branches without a reply: a number for `pmtu` that is not an `int`, and a start
that ends the process. -/
inductive Fails (answers : Answers) (value : Bytes) (s : LanPlay) : Key → Prop where
  | pmtu (range : stoi value = .error .outOfRange) : Fails answers value s .pmtu
  | start (stopped : s.status ≠ .running) (exits : StartExits answers.env s) : Fails answers value s .start

theorem Fails.handle_eq_error {answers : Answers} {value : Bytes} {s : LanPlay} {key : Key}
    (fails : Fails answers value s key) : ∃ ending, handle answers value s key = .error ending := by
  cases fails with
  | pmtu range =>
    refine ⟨.escaped .outOfRange, ?_⟩
    rw [handle, range]
  | start stopped exits =>
    refine ⟨.exited, ?_⟩
    rw [handle, switchReply, (LanPlay.start_eq_none _ _).mpr ⟨stopped, exits⟩]

theorem handle_replies {answers : Answers} {value : Bytes} {s : LanPlay} {key : Key}
    (succeeds : ¬ Fails answers value s key) :
    Replies s (configured value s.config key) (handle answers value s key) := by
  cases key with
  | pmtu =>
    rw [handle, configured]
    cases outcome : stoi value with
    | ok number => exact replies_configReply _ s
    | error e =>
      cases e with
      | invalidArgument => exact replies_of_kept rfl id _
      | outOfRange => exact absurd (.pmtu outcome) succeeds
  | start =>
    apply replies_switchReply (keepsConfig_start _)
    rw [ne_eq, LanPlay.start_eq_none]
    rintro ⟨stopped, exits⟩
    exact succeeds (.start stopped exits)
  | stop => exact replies_switchReply (keepsConfig_stop _) _ (LanPlay.stop_ne_none _ _)
  | relayServer => exact replies_configReply _ s
  | socks5Server => exact replies_configReply _ s
  | fakeInternet => exact replies_configReply _ s
  | broadcast => exact replies_configReply _ s
  | version => exact replies_of_kept rfl id _
  | config => exact replies_of_kept rfl id _
  | lastConfig => exact replies_of_kept rfl id _
  | status =>
    rw [handle]
    cases s.status with
    | none => exact replies_of_kept rfl id _
    | running => exact replies_of_kept rfl id _
  | listIf =>
    rw [handle]
    cases answers.findalldevs with
    | ok alldevs => exact replies_of_kept rfl id _
    | error errBuf => exact replies_of_kept rfl id _
  | stats =>
    rw [handle]
    cases s.status with
    | none => exact replies_of_kept rfl id _
    | running => exact replies_of_kept rfl id _

theorem Key.find_name (key : Key) : Key.find (ascii key.name) = some key := by
  cases key <;> rfl

theorem Key.find_eq_some {text : Bytes} {key : Key} : Key.find text = some key ↔ text = ascii key.name := by
  constructor
  · intro found
    unfold find at found
    have same := List.find?_some found
    exact (of_decide_eq_true same).symm
  · rintro rfl
    exact Key.find_name key

/-- The messages without a reply. -/
def Unanswered (answers : Answers) (s : LanPlay) (message : Bytes) : Prop :=
  ∃ key : Key, (splitMessage message).1 = ascii key.name ∧ Fails answers (splitMessage message).2 s key

/-- The configuration that a message sets. -/
def configuredBy (message : Bytes) (config : LanPlayConfig) : LanPlayConfig :=
  match Key.find (splitMessage message).1 with
  | none => config
  | some key => configured (splitMessage message).2 config key

theorem Unanswered.answer_eq_error {answers : Answers} {message : Bytes} {s : LanPlay}
    (unanswered : Unanswered answers s message) : ∃ ending, answer answers message s = .error ending := by
  obtain ⟨key, name, fails⟩ := unanswered
  unfold answer
  dsimp only
  rw [Key.find_eq_some.mpr name]
  exact fails.handle_eq_error

theorem answer_replies {answers : Answers} {message : Bytes} {s : LanPlay}
    (answered : ¬ Unanswered answers s message) :
    Replies s (configuredBy message s.config) (answer answers message s) := by
  unfold answer configuredBy
  dsimp only
  cases found : Key.find (splitMessage message).1 with
  | none => exact replies_of_kept rfl id _
  | some key =>
    apply handle_replies
    intro fails
    exact answered ⟨key, Key.find_eq_some.mp found, fails⟩

/-- Several messages, one after the other. -/
def converse : List (Answers × Bytes) → LanPlay → Except Ending (List Bytes × LanPlay)
  | [], s => .ok ([], s)
  | (answers, message) :: rest, s => do
      let (reply, s) ← answer answers message s
      let (replies, s) ← converse rest s
      pure (reply :: replies, s)

/-- The message does not set a `pmtu` that is too small, and the system ends no start. -/
structure Prudent (answers : Answers) (message : Bytes) : Prop where
  devices : ∃ first others, answers.env.alldevs = some (first :: others) ∧
    ∀ d ∈ first :: others, uvPcapOpenLive d ≠ .exited
  stack : answers.env.uv .uvlInit = 0 ∧ answers.env.uv .uvlListen = 0
  inRange : (splitMessage message).1 = ascii "pmtu" → stoi (splitMessage message).2 ≠ .error .outOfRange
  large : ∀ number, stoi (splitMessage message).2 = .ok number → number = 0 ∨ minFragPayloadLen ≤ number

/-- The `pmtu` is not set, or not too small. -/
def PmtuFine (config : LanPlayConfig) : Prop := config.pmtu = 0 ∨ minFragPayloadLen ≤ config.pmtu

theorem Prudent.configuredBy {answers : Answers} {message : Bytes} (prudent : Prudent answers message)
    {config : LanPlayConfig} (fine : PmtuFine config) : PmtuFine (configuredBy message config) := by
  unfold Lifecycle.configuredBy
  cases Key.find (splitMessage message).1 with
  | none => exact fine
  | some key =>
    cases key with
    | pmtu =>
      dsimp only [configured]
      cases outcome : stoi (splitMessage message).2 with
      | ok number => exact prudent.large number outcome
      | error e => exact fine
    | _ => exact fine

theorem triedDevs_subset (netif : Option String) (alldevs : List PcapIf) : triedDevs netif alldevs ⊆ alldevs := by
  cases netif with
  | none => exact List.Subset.refl _
  | some name =>
      intro d tried
      exact List.mem_of_find?_eq_some (Option.mem_toList.mp tried)

theorem Prudent.not_initExits {answers : Answers} {message : Bytes} (prudent : Prudent answers message)
    {options : Options} (fine : options.pmtu = 0 ∨ minFragPayloadLen ≤ options.pmtu) :
    ¬ InitExits answers.env options := by
  obtain ⟨first, others, found, stay⟩ := prudent.devices
  rintro ⟨-, (absent | empty | ⟨alldevs, same, d, tried, exited⟩) | ⟨-, set, small⟩ | ⟨-, -, failed⟩⟩
  · cases found.symm.trans absent
  · cases found.symm.trans empty
  · cases found.symm.trans same
    exact stay d (triedDevs_subset _ _ tried) exited
  · obtain unset | large := fine
    · exact set unset
    · exact absurd small (Int.not_lt.mpr large)
  · exact failed.elim (absurd prudent.stack.1) (absurd prudent.stack.2)

theorem LanPlay.applyConfig_pmtu {s after : LanPlay} (applied : s.applyConfig = some after) :
    after.options.pmtu = s.config.pmtu := by
  simp only [applyConfig, Option.bind_eq_bind, Option.bind_eq_some_iff, Option.some.injEq] at applied
  obtain ⟨relay, -, socks5, -, rfl⟩ := applied
  rfl

theorem Prudent.answered {answers : Answers} {message : Bytes} (prudent : Prudent answers message)
    {s : LanPlay} (fine : PmtuFine s.config) (owned : s.options.Owned) : ¬ Unanswered answers s message := by
  rintro ⟨key, name, fails⟩
  cases fails with
  | pmtu range => exact prudent.inRange name range
  | start stopped exits =>
    cases exits with
    | freed argument => exact argument owned
    | init configured applied exits =>
        refine prudent.not_initExits ?_ exits
        rw [LanPlay.applyConfig_pmtu applied]
        exact fine

/-- A conversation of such messages gets all its replies. -/
theorem converse_replies {history : List (Answers × Bytes)}
    (prudent : ∀ entry ∈ history, Prudent entry.1 entry.2) {s : LanPlay} (fine : PmtuFine s.config)
    (owned : s.options.Owned) :
    ∃ replies after, converse history s = .ok (replies, after) ∧ replies.length = history.length ∧
      PmtuFine after.config := by
  induction history generalizing s with
  | nil => exact ⟨[], s, rfl, rfl, fine⟩
  | cons entry rest ih =>
    obtain ⟨now, later⟩ := List.forall_mem_cons.mp prudent
    obtain ⟨reply, between, returned, kept, stays⟩ := answer_replies (now.answered fine owned)
    have fineBetween : PmtuFine between.config := by
      obtain same | ⟨set, -⟩ := kept
      · rw [same]
        exact fine
      · rw [set]
        exact now.configuredBy fine
    obtain ⟨replies, after, rested, counted, fineAfter⟩ := ih later fineBetween (stays owned)
    refine ⟨reply :: replies, after, ?_, congrArg Nat.succ counted, fineAfter⟩
    rw [converse, returned]
    change (converse rest between >>= fun (replies, s) => pure (reply :: replies, s)) = _
    rw [rested]
    rfl

end SwitchLanPlay.Rpc.Lifecycle
