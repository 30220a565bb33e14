import SwitchLanPlay.Rpc.Lifecycle

/-!
# What starts and stops leave open

Devices, their poll handles and the real-broadcast timer are never closed, and the stack
of a gateway only when it has a connection, hence a device.  So nothing is open exactly
when every start has failed before it opened anything.
-/

namespace SwitchLanPlay.Rpc.Lifecycle

open Library

/-! ## What stays open -/

/-- What no later command closes.  A stack is freed only if it has a connection, and then a
device is open as well. -/
def Resource.Lasting : Resource → Prop
  | .pcapDev _ | .pollHandle _ | .realBroadcastTimer | .uvLwip => True
  | _ => False

/-- One of these is open. -/
def LanPlay.Holds (P : Resource → Prop) (s : LanPlay) : Prop := ∃ resource ∈ s.held, P resource

theorem LanPlay.Holds.of_le {P : Resource → Prop} {s after : LanPlay} (holds : s.Holds P)
    (grown : s.held ≤ after.held) : after.Holds P := by
  obtain ⟨resource, member, kind⟩ := holds
  exact ⟨resource, Multiset.mem_of_le grown member, kind⟩

abbrev LanPlay.Leaky (s : LanPlay) : Prop := s.Holds Resource.Lasting

theorem LanPlay.HasDevice.leaky {s : LanPlay} (device : s.HasDevice) : s.Leaky := by
  obtain ⟨resource, member, isDevice⟩ := device
  refine ⟨resource, member, ?_⟩
  cases resource <;> trivial

/-- The stage does not close the last one of these. -/
def Stage.Keeps (P : Resource → Prop) (stage : Stage) : Prop :=
  ∀ s ret after, stage s = some (ret, after) → s.Holds P → after.Holds P

/-- Whatever the stage returns, something is open then that stays open. -/
def Stage.Leaks (stage : Stage) : Prop :=
  ∀ s ret after, stage s = some (ret, after) → after.Leaky

/-- The stage returns zero when it returns. -/
def Stage.Succeeds (stage : Stage) : Prop :=
  ∀ s ret after, stage s = some (ret, after) → ret = 0

namespace Stage

theorem andThen_cases {first second : Stage} {s after : LanPlay} {ret : Int}
    (returned : first.andThen second s = some (ret, after)) :
    (ret ≠ 0 ∧ first s = some (ret, after)) ∨
      ∃ between, first s = some (0, between) ∧ second between = some (ret, after) := by
  unfold andThen at returned
  cases outcome : first s with
  | none =>
      rw [outcome] at returned
      cases returned
  | some result =>
      obtain ⟨code, between⟩ := result
      rw [outcome] at returned
      by_cases failed : code ≠ 0
      · simp only [if_pos failed] at returned
        cases returned
        exact .inl ⟨failed, rfl⟩
      · simp only [if_neg failed] at returned
        rw [not_not.mp failed]
        exact .inr ⟨between, rfl, returned⟩

theorem Keeps.andThen {P : Resource → Prop} {first second : Stage} (before : first.Keeps P) (later : second.Keeps P) :
    (first.andThen second).Keeps P := by
  intro s ret after returned holds
  rcases andThen_cases returned with ⟨-, failed⟩ | ⟨between, passed, returned⟩
  · exact before s ret after failed holds
  · exact later between ret after returned (before s 0 between passed holds)

theorem Leaks.andThen {first second : Stage} (before : first.Leaks) (later : second.Keeps Resource.Lasting) :
    (first.andThen second).Leaks := by
  intro s ret after returned
  rcases andThen_cases returned with ⟨-, failed⟩ | ⟨between, passed, returned⟩
  · exact before s ret after failed
  · exact later between ret after returned (before s 0 between passed)

theorem Leaks.keeps {stage : Stage} (leaks : stage.Leaks) : stage.Keeps Resource.Lasting :=
  fun s ret after returned _ => leaks s ret after returned

theorem Succeeds.andThen_leaks {first second : Stage} (before : first.Succeeds) (later : second.Leaks) :
    (first.andThen second).Leaks := by
  intro s ret after returned
  rcases andThen_cases returned with ⟨nonzero, failed⟩ | ⟨between, -, returned⟩
  · exact absurd (before s ret after failed) nonzero
  · exact later between ret after returned

theorem returns_zero_andThen (stage : Stage) : (returns 0).andThen stage = stage := rfl

section Kept

variable {P : Resource → Prop}

theorem keeps_returns (ret : Int) : (returns ret).Keeps P := by
  intro s code after returned holds
  cases returned
  exact holds

theorem keeps_returnErr (text : Bytes) : (returnErr text).Keeps P := by
  intro s code after returned holds
  cases returned
  exact holds

theorem keeps_release {resource : Resource} (other : ¬ P resource) : (release resource).Keeps P := by
  intro s code after returned holds
  cases returned
  obtain ⟨kept, member, kind⟩ := holds
  refine ⟨kept, (Multiset.mem_erase_of_ne ?_).mpr member, kind⟩
  rintro rfl
  exact other kind

end Kept

theorem leaks_acquire {resource : Resource} (lasting : resource.Lasting) :
    (acquire resource).Leaks := by
  intro s code after returned
  cases returned
  exact ⟨resource, Multiset.mem_cons_self _ _, lasting⟩

theorem succeeds_returns : (returns 0).Succeeds := by
  intro s ret after returned
  cases returned
  rfl

theorem succeeds_acquire (resource : Resource) : (acquire resource).Succeeds := by
  intro s ret after returned
  cases returned
  rfl

end Stage

section Init

variable (env : Env)

theorem resolve_cases (message : String) (addr : Option OptionText) :
    resolve env message addr = Stage.returns 0 ∨
      ∃ text, resolve env message addr = Stage.returnErr text := by
  cases addr with
  | none => exact .inl rfl
  | some addr =>
      by_cases accepted : env.parseAddr addr.text
      · exact .inl (if_pos accepted)
      · exact .inr ⟨_, if_neg accepted⟩

theorem keeps_resolve (message : String) (addr : Option OptionText) : (resolve env message addr).Keeps Resource.Lasting := by
  rcases resolve_cases env message addr with accepted | ⟨text, refused⟩
  · rw [accepted]
    exact Stage.keeps_returns 0
  · rw [refused]
    exact Stage.keeps_returnErr text

/-- A device that does not fail leaves a resource that stays open. -/
theorem exists_lasting_of_opened {netif : Option String} {alldevs : List PcapIf} {d : PcapIf}
    (tried : d ∈ triedDevs netif alldevs) (opened : uvPcapOpenLive d ≠ .failed) (stays : uvPcapOpenLive d ≠ .exited) :
    ∃ resource ∈ pcapResources netif alldevs, resource.Lasting := by
  simp only [pcapResources, List.mem_flatMap]
  cases outcome : uvPcapOpenLive d with
  | failed => exact absurd outcome opened
  | exited => exact absurd outcome stays
  | pollLeft name => exact ⟨.pollHandle name, ⟨d, tried, by simp [outcome, openedResources]⟩, trivial⟩
  | opened interf =>
      exact ⟨.pcapDev interf.name, ⟨d, tried, by simp [outcome, openedResources]⟩, trivial⟩

theorem initPcap_spec {env : Env} {s after : LanPlay} {ret : Int}
    (returned : initPcap env s = some (ret, after)) :
    ∃ alldevs, env.alldevs = some alldevs ∧ ¬ DeviceExits s.options.netif alldevs ∧ ret = 0 ∧
      after = { s with held := s.held + pcapResources s.options.netif alldevs } := by
  unfold initPcap at returned
  split at returned
  · cases returned
  · cases returned
  · split at returned
    · cases returned
    · cases returned
      exact ⟨_, ‹_›, ‹_›, rfl, rfl⟩

/-- A device that is opened stays open. -/
theorem initPcap_leaks {env : Env} {s after : LanPlay} {ret : Int} {alldevs : List PcapIf} {d : PcapIf}
    (found : env.alldevs = some alldevs) (tried : d ∈ triedDevs s.options.netif alldevs)
    (opened : uvPcapOpenLive d ≠ .failed) (returned : initPcap env s = some (ret, after)) : after.Leaky := by
  obtain ⟨others, same, stays, -, rfl⟩ := initPcap_spec returned
  cases found.symm.trans same
  obtain ⟨resource, member, lasting⟩ := exists_lasting_of_opened tried opened fun exits => stays ⟨d, tried, exits⟩
  exact ⟨resource, Multiset.mem_add.mpr (.inr (Multiset.mem_coe.mpr member)), lasting⟩

theorem keeps_initPcap : (initPcap env).Keeps Resource.Lasting := by
  intro s ret after returned leaky
  obtain ⟨alldevs, -, -, -, rfl⟩ := initPcap_spec returned
  exact leaky.of_le (Multiset.le_add_right _ _)

theorem succeeds_initPcap : (initPcap env).Succeeds := fun _ _ _ returned =>
  let ⟨_, _, _, zero, _⟩ := initPcap_spec returned
  zero

theorem leaks_lanClientInit : (lanClientInit env).Leaks := by
  intro s ret after returned
  unfold lanClientInit at returned
  split at returned
  · cases returned
  · refine Stage.Succeeds.andThen_leaks ?_ ?_ s ret after returned
    · split
      · exact Stage.succeeds_acquire _
      · exact Stage.succeeds_returns
    · refine Stage.Succeeds.andThen_leaks (Stage.succeeds_acquire _) ?_
      have timer : Resource.realBroadcastTimer.Lasting := trivial
      refine (Stage.leaks_acquire timer).andThen ?_
      exact (Stage.keeps_returns _).andThen ((Stage.keeps_returns _).andThen (Stage.keeps_returns _))

theorem keeps_lanClientInit_if (relay : Bool) :
    (if relay then lanClientInit env else Stage.returns 0).Keeps Resource.Lasting := by
  split
  · exact (leaks_lanClientInit env).keeps
  · exact Stage.keeps_returns 0

theorem gatewayInit_spec {env : Env} {s after : LanPlay} {ret : Int} (returned : gatewayInit env s = some (ret, after)) :
    (env.uv .uvlInit = 0 ∧ env.uv .uvlListen = 0) ∧ ret = 0 ∧
      after = { s with
        fakeGateway := s.options.fakeInternet
        held := .uvLwip ::ₘ .proxyGc ::ₘ .gateway ::ₘ s.held } := by
  unfold gatewayInit at returned
  split at returned
  case isTrue => cases returned
  case isFalse passed =>
      cases returned
      simp only [ne_eq, not_or, not_not] at passed
      exact ⟨passed, rfl, rfl⟩

/-- A stack that was started stays, at least until a device is open. -/
theorem leaks_gatewayInit : (gatewayInit env).Leaks := by
  intro s ret after returned
  obtain ⟨-, -, rfl⟩ := gatewayInit_spec returned
  exact ⟨.uvLwip, Multiset.mem_cons_self _ _, trivial⟩

theorem keeps_lanPlayInit : (lanPlayInit env).Keeps Resource.Lasting := by
  intro s ret after returned leaky
  refine ((keeps_resolve env _ _).andThen ((keeps_initPcap env).andThen
    ((keeps_lanClientInit_if env _).andThen ((keeps_resolve env _ _).andThen
      (leaks_gatewayInit env).keeps)))) _ ret after returned ?_
  exact leaky

/-- The choice that `gateway_close` makes between two stages. -/
theorem keeps_choice {P : Resource → Prop} {resource : Resource} (condition : Prop) [Decidable condition]
    (other : ¬ P resource) : (if condition then Stage.returns 0 else Stage.release resource).Keeps P := by
  split
  · exact Stage.keeps_returns 0
  · exact Stage.keeps_release other

/-- Closing the gateway frees the stack only if there is a connection, and so a device. -/
theorem keeps_gatewayClose : (gatewayClose env).Keeps Resource.Lasting := by
  intro s ret after returned leaky
  by_cases device : s.HasDevice
  · have kept : LanPlay.HasDevice after :=
      ((Stage.keeps_release Bool.false_ne_true).andThen ((keeps_choice _ Bool.false_ne_true).andThen
        (keeps_choice _ Bool.false_ne_true))) s ret after returned device
    exact kept.leaky
  · have none : s.connections env = 0 := if_neg device
    unfold gatewayClose at returned
    rw [if_pos none] at returned
    exact ((Stage.keeps_release id).andThen ((Stage.keeps_returns 0).andThen (keeps_choice _ id))) s ret after
      returned leaky

theorem keeps_lanPlayClose : (lanPlayClose env).Keeps Resource.Lasting := by
  intro s ret after returned leaky
  refine ((Stage.keeps_returns 0).andThen (Stage.Keeps.andThen ?_ (keeps_gatewayClose env))) s ret after
    returned leaky
  split
  · exact (Stage.keeps_returns _).andThen ((Stage.keeps_returns _).andThen ((Stage.keeps_returns _).andThen
      ((Stage.keeps_release id).andThen (Stage.keeps_release id))))
  · exact Stage.keeps_returns 0

end Init

/-! ## Starts that open nothing -/

/-- The address is given, and not accepted. -/
def Refused (env : Env) (addr : Option OptionText) : Prop :=
  ∃ option, addr = some option ∧ env.parseAddr option.text = false

/-- The server address is not accepted; or there is none, no device can be opened, and the address
of the proxy is not accepted. -/
def Harmless (env : Env) (options : Options) : Prop :=
  Refused env options.relayServerAddr ∨
    options.relayServerAddr = none ∧
      (∀ alldevs, env.alldevs = some alldevs → ∀ d ∈ triedDevs options.netif alldevs, uvPcapOpenLive d = .failed) ∧
      Refused env options.socks5ServerAddr

theorem pcapResources_of_failed {netif : Option String} {alldevs : List PcapIf}
    (failed : ∀ d ∈ triedDevs netif alldevs, uvPcapOpenLive d = .failed) :
    pcapResources netif alldevs = [] := by
  refine List.flatMap_eq_nil_iff.mpr fun d tried => ?_
  rw [failed d tried]
  rfl

theorem Refused.resolve {env : Env} {addr : Option OptionText} (refused : Refused env addr) (message : String) :
    ∃ text, resolve env message addr = Stage.returnErr text := by
  obtain ⟨option, rfl, rejected⟩ := refused
  exact ⟨_, if_neg (Bool.eq_false_iff.mp rejected)⟩

theorem resolve_of_not_refused {env : Env} {addr : Option OptionText} (accepted : ¬ Refused env addr)
    (message : String) : resolve env message addr = Stage.returns 0 := by
  cases addr with
  | none => rfl
  | some option =>
      refine if_pos ?_
      by_contra rejected
      exact accepted ⟨option, rfl, Bool.eq_false_iff.mpr rejected⟩

/-- The stages behind the server address. -/
def initStages (env : Env) (options : Options) : Stage :=
  (initPcap env).andThen <|
    (if options.relayServerAddr.isSome then lanClientInit env else Stage.returns 0).andThen <|
    (resolve env "Failed to parse and get ip address. --socks5-server-addr: "
      options.socks5ServerAddr).andThen <|
    gatewayInit env

theorem lanPlayInit_resolved {env : Env} {s : LanPlay} (resolved : ¬ Refused env s.options.relayServerAddr) :
    lanPlayInit env s = initStages env s.options s.takeOptions := by
  unfold lanPlayInit
  dsimp only
  rw [resolve_of_not_refused resolved, Stage.returns_zero_andThen, initStages]

/-- A start that is not harmless leaves something open that no stop closes. -/
theorem lanPlayInit_leaks {env : Env} {s after : LanPlay} {ret : Int}
    (harmful : ¬ Harmless env s.options) (returned : lanPlayInit env s = some (ret, after)) :
    after.Leaky := by
  rw [Harmless, not_or] at harmful
  have rest := (keeps_resolve env "Failed to parse and get ip address. --socks5-server-addr: "
    s.options.socks5ServerAddr).andThen (leaks_gatewayInit env).keeps
  rw [lanPlayInit_resolved harmful.1] at returned
  cases relay : s.options.relayServerAddr with
  | some addr =>
      rw [initStages, relay] at returned
      exact (succeeds_initPcap env).andThen_leaks ((leaks_lanClientInit env).andThen rest) _ _ _ returned
  | none =>
      rw [initStages, relay] at returned
      rcases Stage.andThen_cases returned with ⟨nonzero, failed⟩ | ⟨between, passed, returned⟩
      · exact absurd (succeeds_initPcap env _ _ _ failed) nonzero
      obtain ⟨alldevs, found, -⟩ := initPcap_spec passed
      by_cases closed : ∀ d ∈ triedDevs s.options.netif alldevs, uvPcapOpenLive d = .failed
      · -- only the address of the proxy could have kept the start from opening the gateway
        have accepted : ¬ Refused env s.options.socks5ServerAddr := by
          refine fun refused => harmful.2 ⟨relay, fun others same => ?_, refused⟩
          cases found.symm.trans same
          exact closed
        rw [resolve_of_not_refused accepted] at returned
        exact leaks_gatewayInit env _ _ _ returned
      · obtain ⟨d, opened⟩ := not_forall.mp closed
        obtain ⟨tried, opened⟩ := Classical.not_imp.mp opened
        exact rest _ _ _ returned (initPcap_leaks (s := s.takeOptions) found tried opened passed)

/-- A harmless start fails, and leaves nothing open. -/
theorem lanPlayInit_harmless {env : Env} {s after : LanPlay} {ret : Int}
    (harmless : Harmless env s.options) (returned : lanPlayInit env s = some (ret, after)) :
    ret ≠ 0 ∧ after.held = s.held ∧ after.status = s.status := by
  rcases harmless with refused | ⟨relay, failed, refused⟩
  · obtain ⟨text, first⟩ := refused.resolve "Failed to parse and get ip address. --relay-server-addr: "
    unfold lanPlayInit at returned
    dsimp only at returned
    rw [first] at returned
    cases returned
    exact ⟨by decide, rfl, rfl⟩
  · have resolved : ¬ Refused env s.options.relayServerAddr := by
      rintro ⟨option, given, -⟩
      cases relay.symm.trans given
    rw [lanPlayInit_resolved resolved, initStages, relay] at returned
    rcases Stage.andThen_cases returned with ⟨nonzero, stopped⟩ | ⟨between, passed, returned⟩
    · exact absurd (succeeds_initPcap env _ _ _ stopped) nonzero
    · obtain ⟨alldevs, found, -, -, rfl⟩ := initPcap_spec passed
      obtain ⟨text, last⟩ := refused.resolve "Failed to parse and get ip address. --socks5-server-addr: "
      have nothing : pcapResources s.takeOptions.options.netif alldevs = [] :=
        pcapResources_of_failed (failed alldevs found)
      rw [nothing, Multiset.coe_nil, add_zero, last] at returned
      cases returned
      exact ⟨by decide, rfl, rfl⟩

/-! ## Runs -/

/-- The condition on a start: its configuration makes it harmless. -/
def Command.Harmless : Option LanPlay → Command → Prop
  | some s, .start env => ∀ configured, s.applyConfig = some configured → Lifecycle.Harmless env configured.options
  | _, _ => True

/-- What harmless starts leave: nothing open, and nothing running. -/
structure LanPlay.Idle (s : LanPlay) : Prop where
  held : s.held = 0
  stopped : s.status = .none

namespace LanPlay

theorem applyConfig_kept {s after : LanPlay} (configured : s.applyConfig = some after) :
    after.held = s.held ∧ after.status = s.status ∧ after.config = s.config := by
  simp only [applyConfig, Option.bind_eq_bind, Option.bind_eq_some_iff, Option.some.injEq] at configured
  obtain ⟨relay, -, socks5, -, rfl⟩ := configured
  exact ⟨rfl, rfl, rfl⟩

theorem settle_held (status : LanPlayStatus) (ret : Int) (s : LanPlay) :
    (s.settle status ret).held = s.held := by
  unfold settle
  split <;> rfl

theorem settle_status (status : LanPlayStatus) (ret : Int) (s : LanPlay) :
    (s.settle status ret).status = if ret = 0 then status else s.status := by
  unfold settle
  split <;> rfl

theorem switchTo_cases {status : LanPlayStatus} {refusal : String} {stage : Stage} {s after : LanPlay}
    {ret : Int} (returned : switchTo status refusal stage s = some (ret, after)) :
    (s.status = status ∧ after = { s with lastError := ascii refusal }) ∨
      (s.status ≠ status ∧ ∃ inner, stage s = some (ret, inner) ∧ after = inner.settle status ret) := by
  unfold switchTo at returned
  by_cases already : s.status = status
  · rw [if_pos already] at returned
    cases returned
    exact .inl ⟨already, rfl⟩
  · rw [if_neg already] at returned
    cases outcome : stage s with
    | none =>
        rw [outcome] at returned
        cases returned
    | some result =>
        rw [outcome] at returned
        cases returned
        exact .inr ⟨already, result.2, rfl, rfl⟩

theorem Holds.settle {P : Resource → Prop} {s : LanPlay} (holds : s.Holds P) (status : LanPlayStatus) (ret : Int) :
    (s.settle status ret).Holds P :=
  holds.of_le (settle_held _ _ _).ge

theorem keeps_switchTo {stage : Stage} (keeps : stage.Keeps Resource.Lasting) (status : LanPlayStatus) (refusal : String) :
    (switchTo status refusal stage).Keeps Resource.Lasting := by
  intro s ret after returned leaky
  rcases switchTo_cases returned with ⟨-, rfl⟩ | ⟨-, inner, done, rfl⟩
  · exact leaky
  · exact (keeps s ret inner done leaky).settle status ret

end LanPlay

theorem Command.apply_idle {command : Command} {s after : LanPlay} (idle : s.Idle)
    (harmless : command.Harmless (some s)) (applied : command.apply s = some after) : after.Idle := by
  cases command with
  | configure config =>
      cases applied
      exact ⟨idle.held, idle.stopped⟩
  | start env =>
      obtain ⟨⟨ret, result⟩, returned, rfl⟩ := Option.map_eq_some_iff.mp applied
      rcases LanPlay.switchTo_cases returned with ⟨running, -⟩ | ⟨-, inner, init, rfl⟩
      · cases idle.stopped.symm.trans running
      · obtain ⟨configured, config, init⟩ := Option.bind_eq_some_iff.mp init
        obtain ⟨held, status, -⟩ := LanPlay.applyConfig_kept config
        obtain ⟨failed, sameHeld, sameStatus⟩ := lanPlayInit_harmless (harmless configured config) init
        constructor
        · rw [LanPlay.settle_held, sameHeld, held, idle.held]
        · rw [LanPlay.settle_status, if_neg failed, sameStatus, status, idle.stopped]
  | stop env =>
      obtain ⟨⟨ret, result⟩, returned, rfl⟩ := Option.map_eq_some_iff.mp applied
      rcases LanPlay.switchTo_cases returned with ⟨-, rfl⟩ | ⟨notStopped, -⟩
      · exact ⟨idle.held, idle.stopped⟩
      · exact absurd idle.stopped notStopped

/-- What no stop closes stays open. -/
theorem Command.apply_leaky {command : Command} {s after : LanPlay} (leaky : s.Leaky)
    (applied : command.apply s = some after) : after.Leaky := by
  cases command with
  | configure config =>
      cases applied
      exact leaky
  | start env =>
      obtain ⟨⟨ret, result⟩, returned, rfl⟩ := Option.map_eq_some_iff.mp applied
      have keeps : Stage.Keeps Resource.Lasting fun s => s.applyConfig.bind (lanPlayInit env) := by
        intro s ret after returned leaky
        obtain ⟨configured, config, init⟩ := Option.bind_eq_some_iff.mp returned
        exact keeps_lanPlayInit env configured ret after init (leaky.of_le (LanPlay.applyConfig_kept config).1.ge)
      exact LanPlay.keeps_switchTo keeps _ _ s ret result returned leaky
  | stop env =>
      obtain ⟨⟨ret, result⟩, returned, rfl⟩ := Option.map_eq_some_iff.mp applied
      exact LanPlay.keeps_switchTo (keeps_lanPlayClose env) _ _ s ret result returned leaky

theorem Command.apply_harmful {command : Command} {s after : LanPlay} (stopped : s.status = .none)
    (harmful : ¬ command.Harmless (some s)) (applied : command.apply s = some after) : after.Leaky := by
  cases command with
  | configure config => exact absurd trivial harmful
  | stop env => exact absurd trivial harmful
  | start env =>
      obtain ⟨⟨ret, result⟩, returned, rfl⟩ := Option.map_eq_some_iff.mp applied
      rcases LanPlay.switchTo_cases returned with ⟨running, -⟩ | ⟨-, inner, init, rfl⟩
      · cases stopped.symm.trans running
      · obtain ⟨configured, config, init⟩ := Option.bind_eq_some_iff.mp init
        refine (lanPlayInit_leaks (fun harmless => harmful ?_) init).settle _ _
        intro other same
        cases config.symm.trans same
        exact harmless

/-- The object once the process has started with options of the command line. -/
def LanPlay.fresh (options : Options) : LanPlay := { options := options }

/-- The last command of a run was applied in a state that its other commands reached. -/
theorem applied_of_reached {first : List Command} {last : Command} {state : Option LanPlay} {s : LanPlay}
    (reached : (Proc.runAll commandStep (first ++ [last]) state).state = some s) :
    ∃ before, (Proc.runAll commandStep first state).state = some before ∧ last.apply before = some s := by
  rw [Proc.runAll_snoc_state] at reached
  exact Option.bind_eq_some_iff.mp reached

/-- A run whose starts are all harmless leaves nothing open. -/
theorem run_idle (options : Options) (commands : List Command) (s : LanPlay)
    (reached : (Proc.runAll commandStep commands (some (.fresh options))).state = some s)
    (harmless : Proc.Along commandStep Command.Harmless (some (.fresh options)) commands) : s.Idle := by
  induction commands using List.reverseRecOn generalizing s with
  | nil =>
      cases reached
      exact ⟨rfl, rfl⟩
  | append_singleton first last ih =>
      obtain ⟨before, through, applied⟩ := applied_of_reached reached
      rw [Proc.along_snoc, through] at harmless
      exact Command.apply_idle (ih before through harmless.1) harmless.2 applied

/-- After any other start something stays open for good. -/
theorem run_leaky (options : Options) (commands : List Command) (s : LanPlay)
    (reached : (Proc.runAll commandStep commands (some (.fresh options))).state = some s)
    (harmful : ¬ Proc.Along commandStep Command.Harmless (some (.fresh options)) commands) : s.Leaky := by
  induction commands using List.reverseRecOn generalizing s with
  | nil => exact absurd trivial harmful
  | append_singleton first last ih =>
      obtain ⟨before, through, applied⟩ := applied_of_reached reached
      by_cases earlier : Proc.Along commandStep Command.Harmless (some (.fresh options)) first
      · have idle := run_idle options first before through earlier
        rw [Proc.along_snoc, through, not_and] at harmful
        exact Command.apply_harmful idle.stopped (harmful earlier) applied
      · exact Command.apply_leaky (ih before through earlier) applied

theorem LanPlay.Holds.held_ne_zero {P : Resource → Prop} {s : LanPlay} (holds : s.Holds P) : s.held ≠ 0 := by
  intro nothing
  obtain ⟨resource, member, -⟩ := holds
  rw [nothing] at member
  exact Multiset.notMem_zero resource member

/-- In the state that any run of commands reaches, with the status none as with the other: no
resource of an earlier start is open exactly when every start has failed before it opened one, at the
server address, or without a server and without a device that opens at the address of the proxy. -/
theorem stopped_holds_nothing_iff (options : Options) (commands : List Command) (s : LanPlay)
    (reached : (Proc.runAll commandStep commands (some (.fresh options))).state = some s) :
    s.held = 0 ↔ Proc.Along commandStep Command.Harmless (some (.fresh options)) commands := by
  constructor
  · intro nothing
    by_contra harmful
    exact (run_leaky options commands s reached harmful).held_ne_zero nothing
  · exact fun harmless => (run_idle options commands s reached harmless).held

/-- A system on which every call succeeds, with one device. -/
def goodEnv : Env where
  parseAddr addr := addr.contains 58
  alldevs := some [⟨"eth0", true, 0, 0, 0, 0, dltEn10mb, .ioctl 0 fun _ => 2, 0, 0, 0⟩]
  uv _ := 0
  connections := 0

/-- The same system without permission to open its device. -/
def noDeviceEnv : Env :=
  { goodEnv with alldevs := some [⟨"eth0", true, 0, 0, 0, -8, dltEn10mb, .ioctl 0 fun _ => 2, 0, 0, 0⟩] }

/-- A server address that is not accepted, and without a device a proxy address. -/
def refusedStarts : List Command :=
  [.configure { relayServer := ascii "a" }, .start goodEnv, .configure { socks5Server := ascii "b" },
    .start noDeviceEnv, .stop noDeviceEnv]

theorem stopped_holds_nothing_refused :
    ∃ s, (Proc.runAll commandStep refusedStarts (some (.fresh {}))).state = some s ∧ s.status = .none ∧ s.held = 0 := by
  have failed : ∀ alldevs, noDeviceEnv.alldevs = some alldevs →
      ∀ d ∈ triedDevs none alldevs, uvPcapOpenLive d = .failed := by
    intro alldevs found d tried
    cases found
    rw [List.mem_singleton.mp tried]
    rfl
  have harmless : Proc.Along commandStep Command.Harmless (some (.fresh {})) refusedStarts := by
    refine ⟨trivial, ?_, trivial, ?_, trivial, trivial⟩
    · intro configured config
      cases config
      exact .inl ⟨_, rfl, rfl⟩
    · intro configured config
      cases config
      exact .inr ⟨rfl, failed, _, rfl, rfl⟩
  exact ⟨_, rfl, rfl, (stopped_holds_nothing_iff {} refusedStarts _ rfl).mpr harmless⟩

/-- A start and a stop, both successful: the device, its poll handle, the real-broadcast timer,
the stack and the timer of the proxy are still open. -/
theorem stopped_still_holds :
    ∃ s, (Proc.runAll commandStep
        [.configure { relayServer := ascii "a:1" }, .start goodEnv, .stop goodEnv]
        (some (.fresh {}))).state = some s ∧
      s.status = .none ∧
      s.held = {.uvLwip, .proxyGc, .realBroadcastTimer, .pcapDev "eth0", .pollHandle "eth0"} :=
  ⟨_, rfl, rfl, by decide +kernel⟩

/-! A start that fails at the address of the SOCKS5 server has opened the device; and a gateway
without any device leaves its stack behind. -/

example :
    ((Proc.runAll commandStep [.configure { socks5Server := ascii "nonsense" }, .start goodEnv]
      (some (.fresh {}))).state.map LanPlay.held) = some {.pcapDev "eth0", .pollHandle "eth0"} := by
  decide +kernel

example :
    ((Proc.runAll commandStep [.start noDeviceEnv, .stop noDeviceEnv] (some (.fresh {}))).state.map
      LanPlay.held) = some {.uvLwip, .proxyGc} := by
  decide +kernel

end SwitchLanPlay.Rpc.Lifecycle
