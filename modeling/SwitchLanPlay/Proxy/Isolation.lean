import SwitchLanPlay.Proxy.UdpTable

/-!
# Isolation of the sources behind the UDP proxy

Every source has a handle of its own, answers go to the source the handle was
opened for, and a source keeps its handle while it is used.  `Advance` lists
what one input can do to the table; the rest is derived from it.
-/

namespace SwitchLanPlay.Proxy

open Library

/-! ## Items -/

/-- What an item keeps for its whole life. -/
structure ProxyUdp.Continues (item item' : ProxyUdp) : Prop where
  handle : item'.handle = item.handle
  src : item'.src = item.src
  srcport : item'.srcport = item.srcport

theorem ProxyUdp.Continues.refl (item : ProxyUdp) : item.Continues item := ⟨rfl, rfl, rfl⟩

/-- The events an item causes while it serves a source. -/
def ItemEvent (key : UdpCacheKey) (item : ProxyUdp) : ProxyEvent → Prop
  | .opened _ _ => False
  | .closed _ => False
  | .sent source handle => source = key ∧ handle = item.handle
  | .datagram handle _ _ => handle = item.handle
  | .received handle => handle = item.handle
  | .sendUdpEx handle _ _ dst dstport _ _ _ =>
      handle = item.handle ∧ dst = item.src ∧ dstport = item.srcport

/-- Traffic on a handle: a datagram of its source, or one that is passed on. -/
def carries (handle : Nat) : ProxyEvent → Bool
  | .sent _ used => used = handle
  | .sendUdpEx used _ _ _ _ _ _ _ => used = handle
  | _ => false

theorem ItemEvent.carries_handle {key : UdpCacheKey} {item : ProxyUdp} {event : ProxyEvent} {handle : Nat}
    (own : ItemEvent key item event) (carried : carries handle event = true) : item.handle = handle := by
  cases event with
  | sent source used => exact own.2.symm.trans (of_decide_eq_true carried)
  | sendUdpEx used fromIp fromPort dst dstport data offset len =>
      exact own.1.symm.trans (of_decide_eq_true carried)
  | opened source used => exact own.elim
  | closed used => exact own.elim
  | datagram used peer data => cases carried
  | received used => cases carried

theorem ItemEvent.continues {key : UdpCacheKey} {item item' : ProxyUdp} {event : ProxyEvent}
    (own : ItemEvent key item event) (same : item.Continues item') : ItemEvent key item' event := by
  obtain ⟨handle, src, srcport⟩ := same
  cases event with
  | sent source used => exact ⟨own.1, own.2.trans handle.symm⟩
  | datagram used peer bytes => exact Eq.trans own handle.symm
  | received used => exact Eq.trans own handle.symm
  | sendUdpEx used fromIp fromPort dst dstport bytes offset len =>
      exact ⟨own.1.trans handle.symm, own.2.1.trans src.symm, own.2.2.trans srcport.symm⟩
  | opened source used => exact own.elim
  | closed used => exact own.elim

section Items

variable {σ : Type} (kind : ProxyKind) (now : Int) (item : ProxyUdp) (s : σ)

/-- The item that serves a source after an input. -/
structure Serves (key : UdpCacheKey) (done : Outcome σ ProxyEvent ProxyUdp) : Prop where
  state : done.state = s
  continues : item.Continues done.value
  own : ∀ event ∈ done.events, ItemEvent key item event
  fresher : done.value.expireAt = item.expireAt ∨ done.value.expireAt = now + proxyUdpTableTtl
  refreshed : ∀ event ∈ done.events, carries item.handle event = true →
    done.value.expireAt = now + proxyUdpTableTtl

theorem ProxyUdp.send_serves (key : UdpCacheKey) (dst : SockAddr) (data : Bytes) :
    Serves now item s key (item.send kind now dst data s) ∧
      (item.send kind now dst data s).value.expireAt = now + proxyUdpTableTtl := by
  cases kind with
  | direct =>
      refine ⟨⟨rfl, ⟨rfl, rfl, rfl⟩, ?_, .inr rfl, fun _ _ _ => rfl⟩, rfl⟩
      intro event member
      cases List.mem_singleton.mp member
      rfl
  | socks5 server =>
      by_cases ready : item.isReady = true
      · simp only [send, ready, if_true]
        refine ⟨⟨rfl, ⟨rfl, rfl, rfl⟩, ?_, .inr rfl, fun _ _ _ => rfl⟩, rfl⟩
        intro event member
        cases List.mem_singleton.mp member
        rfl
      · simp only [send, ready]
        exact ⟨⟨rfl, ⟨rfl, rfl, rfl⟩, fun event member => (nomatch member), .inr rfl, fun _ _ _ => rfl⟩, rfl⟩

theorem ProxyUdp.udpReady_serves (key : UdpCacheKey) (addr : SockAddr) :
    Serves now item s key (item.udpReady now addr s) := by
  unfold udpReady
  cases item.waitingData with
  | none =>
      exact ⟨rfl, ⟨rfl, rfl, rfl⟩, fun event member => (nomatch member), .inr rfl, fun _ _ _ => rfl⟩
  | some data =>
      refine ⟨rfl, ⟨rfl, rfl, rfl⟩, ?_, .inr rfl, fun _ _ _ => rfl⟩
      intro event member
      cases List.mem_singleton.mp member
      rfl

theorem ProxyUdp.onData_serves (key : UdpCacheKey) (event : UdpDataEvent) :
    Serves now item s key (item.onData kind now event s) := by
  cases kind with
  | direct =>
      refine ⟨rfl, ⟨rfl, rfl, rfl⟩, ?_, .inr rfl, fun _ _ _ => rfl⟩
      intro performed member
      cases List.mem_singleton.mp member
      exact ⟨rfl, rfl, rfl⟩
  | socks5 server =>
      by_cases other : (unpack event.data event.stack).atyp ≠ 1
      · have dropped : item.onData (.socks5 server) now event s = (pure item : Proc σ ProxyEvent _) s := by
          simp [onData, other]
        rw [dropped]
        exact ⟨rfl, .refl item, fun event member => (nomatch member), .inl rfl,
          fun event member => (nomatch member)⟩
      · simp only [onData, other, if_false]
        refine ⟨rfl, ⟨rfl, rfl, rfl⟩, ?_, .inr rfl, fun _ _ _ => rfl⟩
        intro performed member
        cases List.mem_singleton.mp member
        exact ⟨rfl, rfl, rfl⟩

end Items

/-! ## What one input can do -/

/-- The table and the events after one input. -/
inductive Advance (now : Int) (s : ProxyBase) : ProxyBase → List ProxyEvent → Prop where
  | idle : Advance now s s []
  /-- The item of a source is used and stays. -/
  | serve (key : UdpCacheKey) (item item' : ProxyUdp) (events : List ProxyEvent)
      (found : s.cacheTable.lookup key = some item) (continues : item.Continues item')
      (own : ∀ event ∈ events, ItemEvent key item event)
      (fresher : item'.expireAt = item.expireAt ∨ item'.expireAt = now + proxyUdpTableTtl)
      (refreshed : ∀ event ∈ events, carries item.handle event = true →
        item'.expireAt = now + proxyUdpTableTtl) :
      Advance now s { s with cacheTable := s.cacheTable.insert key item' } events
  /-- A source without an item that has not expired gets a new one. -/
  | replace (key : UdpCacheKey) (item : ProxyUdp) (closes events : List ProxyEvent)
      (gone : ∀ old, s.cacheTable.lookup key = some old → old.expireAt < now)
      (handle : item.handle = s.handles) (src : item.src = key.src) (srcport : item.srcport = key.srcport)
      (closing : ∀ event ∈ closes, ∃ handle, event = .closed handle)
      (own : ∀ event ∈ events, ItemEvent key item event) :
      Advance now s ⟨s.cacheTable.insert key item, s.handles + 1⟩
        (.opened key s.handles :: closes ++ events)
  | collect (closes : List ProxyEvent) (closing : ∀ event ∈ closes, ∃ handle, event = .closed handle) :
      Advance now s { s with cacheTable := s.cacheTable.alive now } closes

theorem owner_eq_some {s : ProxyBase} {handle : Nat} {key : UdpCacheKey} {item : ProxyUdp}
    (owned : s.owner handle = some ⟨key, item⟩) : s.cacheTable.lookup key = some item :=
  AList.mem_lookup_iff.mpr (List.mem_of_find?_eq_some owned)

/-- `getUdp` hands out the item of the source, or opens a new one when there is
none or it has expired. -/
theorem getUdp_cases (kind : ProxyKind) (now : Int) (key : UdpCacheKey) (s : ProxyBase) :
    (∃ item, s.cacheTable.lookup key = some item ∧
      getUdp kind now key s = ⟨item, { s with cacheTable := s.cacheTable.insert key item }, []⟩) ∨
    ((∀ old, s.cacheTable.lookup key = some old → old.expireAt < now) ∧
      ∃ closes, (∀ event ∈ closes, ∃ handle, event = ProxyEvent.closed handle) ∧
        getUdp kind now key s =
          ⟨.init kind now key s.handles,
            ⟨s.cacheTable.insert key (.init kind now key s.handles), s.handles + 1⟩,
            .opened key s.handles :: closes⟩) := by
  cases found : s.cacheTable.lookup key with
  | none =>
      refine .inr ⟨fun old impossible => (nomatch impossible), [], fun event member => (nomatch member), ?_⟩
      ext1 <;> simp [getUdp, found, newUdp, setItem]
  | some item =>
      by_cases expired : item.isExpire now = true
      · refine .inr ⟨?_, [.closed item.handle], fun event member => ?_, ?_⟩
        · rintro old ⟨⟩
          exact of_decide_eq_true expired
        · exact ⟨item.handle, List.mem_singleton.mp member⟩
        · ext1 <;> simp [getUdp, found, expired, newUdp, setItem]
      · refine .inl ⟨item, rfl, ?_⟩
        ext1 <;> simp [getUdp, found, expired, setItem]

theorem ProxyUdp.init_source (kind : ProxyKind) (now : Int) (key : UdpCacheKey) (handle : Nat) :
    (init kind now key handle).handle = handle ∧ (init kind now key handle).src = key.src ∧
      (init kind now key handle).srcport = key.srcport := by
  cases kind with
  | direct => exact ⟨rfl, rfl, rfl⟩
  | socks5 server => exact ⟨rfl, rfl, rfl⟩

/-- What `udpSend` does once it has an item. -/
theorem udpSend_outcome {kind : ProxyKind} {now : Int} {key : UdpCacheKey} {s after : ProxyBase}
    {item : ProxyUdp} {events : List ProxyEvent} (dst : SockAddr) (data : Bytes)
    (got : getUdp kind now key s = ⟨item, after, events⟩) :
    (udpSend kind now key dst data s).state =
      { after with
        cacheTable := after.cacheTable.insert key (item.send kind now dst data after).value } ∧
    (udpSend kind now key dst data s).events =
      events ++ .sent key item.handle :: (item.send kind now dst data after).events := by
  have kept := (item.send_serves kind now after key dst data).1.state
  constructor
  · simp [udpSend, setItem, got, kept]
  · simp [udpSend, setItem, got]

theorem itemEvent_sent {now : Int} {key : UdpCacheKey} {item : ProxyUdp} {s : ProxyBase}
    {done : Outcome ProxyBase ProxyEvent ProxyUdp} (serves : Serves now item s key done) :
    ∀ event ∈ .sent key item.handle :: done.events, ItemEvent key item event := by
  intro event member
  rcases List.mem_cons.mp member with rfl | inside
  · exact ⟨rfl, rfl⟩
  · exact serves.own event inside

/-- `udpSend` uses the item of the source or a new one, and the item expires a
full period later. -/
theorem udpSend_advance (kind : ProxyKind) (now : Int) (key : UdpCacheKey) (dst : SockAddr) (data : Bytes)
    (s : ProxyBase) :
    Advance now s (udpSend kind now key dst data s).state (udpSend kind now key dst data s).events ∧
      ∃ item, (udpSend kind now key dst data s).state.cacheTable.lookup key = some item ∧
        item.expireAt = now + proxyUdpTableTtl := by
  rcases getUdp_cases kind now key s with ⟨item, found, got⟩ | ⟨gone, closes, closing, got⟩
  · obtain ⟨state, events⟩ := udpSend_outcome dst data got
    obtain ⟨serves, visited⟩ := item.send_serves kind now
      { s with cacheTable := s.cacheTable.insert key item } key dst data
    rw [state, events]
    refine ⟨?_, _, AList.lookup_insert _, visited⟩
    rw [AList.insert_insert]
    exact .serve key item _ _ found serves.continues (itemEvent_sent serves) (.inr visited)
      fun _ _ _ => visited
  · obtain ⟨state, events⟩ := udpSend_outcome dst data got
    obtain ⟨serves, visited⟩ := (ProxyUdp.init kind now key s.handles).send_serves kind now
      (⟨s.cacheTable.insert key (.init kind now key s.handles), s.handles + 1⟩ : ProxyBase) key dst data
    obtain ⟨handle, src, srcport⟩ := ProxyUdp.init_source kind now key s.handles
    rw [state, events]
    refine ⟨?_, _, AList.lookup_insert _, visited⟩
    rw [AList.insert_insert]
    refine .replace key _ closes _ gone (serves.continues.handle.trans handle)
      (serves.continues.src.trans src) (serves.continues.srcport.trans srcport) closing ?_
    exact fun event member => (itemEvent_sent serves event member).continues serves.continues

theorem collectGarbage_advance (now : Int) (s : ProxyBase) :
    Advance now s (collectGarbage now s).state (collectGarbage now s).events := by
  have events : (collectGarbage now s).events = (s.cacheTable.entries.filter fun entry =>
      entry.2.isExpire now).map fun entry => .closed entry.2.handle := by
    simp [collectGarbage]
  rw [events]
  refine .collect _ fun event member => ?_
  obtain ⟨entry, -, rfl⟩ := List.mem_map.mp member
  exact ⟨entry.2.handle, rfl⟩

theorem receiveOn_advance (kind : ProxyKind) (now : Int) (handle : Nat) (event : UdpDataEvent)
    (s : ProxyBase) :
    Advance now s (receiveOn kind now handle event s).state (receiveOn kind now handle event s).events := by
  unfold receiveOn
  simp only [Proc.bind_state, Proc.bind_events, Proc.read_value, Proc.read_state, Proc.read_events,
    List.nil_append]
  cases owned : s.owner handle with
  | none => exact .idle
  | some entry =>
      obtain ⟨key, item⟩ := entry
      by_cases ready : item.isReady = true
      · simp only [ready, if_true, Proc.bind_state, Proc.bind_events, Proc.emit_state, Proc.emit_events]
        have serves := item.onData_serves kind now s key event
        simp only [setItem, Proc.update_state, Proc.update_events, List.append_nil, serves.state]
        refine .serve key item _ _ (owner_eq_some owned) serves.continues ?_ serves.fresher ?_
        · intro performed member
          rcases List.mem_cons.mp member with rfl | inside
          · rfl
          · exact serves.own performed inside
        · intro performed member carried
          rcases List.mem_cons.mp member with rfl | inside
          · cases carried
          · exact serves.refreshed performed inside carried
      · simp only [ready]
        exact .idle

theorem readyOn_advance (kind : ProxyKind) (now : Int) (handle : Nat) (addr : SockAddr) (s : ProxyBase) :
    Advance now s (readyOn kind now handle addr s).state (readyOn kind now handle addr s).events := by
  cases kind with
  | direct => exact .idle
  | socks5 server =>
      unfold readyOn
      simp only [Proc.bind_state, Proc.bind_events, Proc.read_value, Proc.read_state, Proc.read_events,
        List.nil_append]
      cases owned : s.owner handle with
      | none => exact .idle
      | some entry =>
          obtain ⟨key, item⟩ := entry
          have serves := item.udpReady_serves now s key addr
          simp only [setItem, Proc.bind_state, Proc.bind_events, Proc.update_state, Proc.update_events,
            List.append_nil, serves.state]
          exact .serve key item _ _ (owner_eq_some owned) serves.continues serves.own serves.fresher
            serves.refreshed

theorem proxyStep_advance (kind : ProxyKind) (input : Int × ProxyInput) (s : ProxyBase) :
    Advance input.1 s (proxyStep kind input s).state (proxyStep kind input s).events := by
  obtain ⟨now, call⟩ := input
  cases call with
  | udpSend key dst data => exact (udpSend_advance kind now key dst data s).1
  | gc => exact collectGarbage_advance now s
  | received handle event => exact receiveOn_advance kind now handle event s
  | udpReady handle addr => exact readyOn_advance kind now handle addr s

/-! ## Handles belong to one source -/

/-- The items of the table and everything that happened on a handle belong to
the source the handle was opened for. -/
structure Isolated (s : ProxyBase) (trace : List ProxyEvent) : Prop where
  keyed : ∀ key item, s.cacheTable.lookup key = some item →
    item.src = key.src ∧ item.srcport = key.srcport ∧ .opened key item.handle ∈ trace
  fresh : ∀ key handle, .opened key handle ∈ trace → handle < s.handles
  single : ∀ key other handle, .opened key handle ∈ trace → .opened other handle ∈ trace → key = other
  sent : ∀ key handle, .sent key handle ∈ trace → .opened key handle ∈ trace
  passed : ∀ handle fromIp fromPort dst dstport data offset len,
    .sendUdpEx handle fromIp fromPort dst dstport data offset len ∈ trace →
      .opened ⟨dst, dstport⟩ handle ∈ trace

theorem isolated_start : Isolated .start [] where
  keyed := fun key item found => by simp [ProxyBase.start] at found
  fresh := fun key handle member => nomatch member
  single := fun key other handle member => nomatch member
  sent := fun key handle member => nomatch member
  passed := fun handle fromIp fromPort dst dstport data offset len member => nomatch member

theorem Isolated.distinct {s : ProxyBase} {trace : List ProxyEvent} (isolated : Isolated s trace)
    {key other : UdpCacheKey} {item item' : ProxyUdp} (found : s.cacheTable.lookup key = some item)
    (found' : s.cacheTable.lookup other = some item') (same : item.handle = item'.handle) :
    key = other :=
  isolated.single key other item.handle (isolated.keyed key item found).2.2
    (same ▸ (isolated.keyed other item' found').2.2)

theorem lookup_of_alive {table : CacheTable} {now : Int} {key : UdpCacheKey} {item : ProxyUdp}
    (found : (table.alive now).lookup key = some item) : table.lookup key = some item :=
  AList.mem_lookup_iff.mpr (List.mem_of_mem_filter (AList.mem_lookup_iff.mp found))

theorem lookup_alive {table : CacheTable} {now : Int} {key : UdpCacheKey} {item : ProxyUdp}
    (found : table.lookup key = some item) (valid : now ≤ item.expireAt) :
    (table.alive now).lookup key = some item := by
  refine AList.mem_lookup_iff.mpr (List.mem_filter.mpr ⟨AList.mem_lookup_iff.mp found, ?_⟩)
  simpa [ProxyUdp.isExpire] using valid

/-- An event other than `opened`, for the source its handle was opened for. -/
def Attributed (trace : List ProxyEvent) : ProxyEvent → Prop
  | .opened _ _ => False
  | .sent key handle => .opened key handle ∈ trace
  | .sendUdpEx handle _ _ dst dstport _ _ _ => .opened ⟨dst, dstport⟩ handle ∈ trace
  | .closed _ => True
  | .datagram _ _ _ => True
  | .received _ => True

theorem ItemEvent.attributed {trace : List ProxyEvent} {key : UdpCacheKey} {item : ProxyUdp}
    {event : ProxyEvent} (own : ItemEvent key item event) (opened : .opened key item.handle ∈ trace)
    (src : item.src = key.src) (srcport : item.srcport = key.srcport) : Attributed trace event := by
  cases event with
  | sent source used =>
      obtain ⟨rfl, rfl⟩ := own
      exact opened
  | sendUdpEx used fromIp fromPort dst dstport bytes offset len =>
      obtain ⟨rfl, rfl, rfl⟩ := own
      have here : (⟨item.src, item.srcport⟩ : UdpCacheKey) = key := by rw [src, srcport]
      rw [Attributed, here]
      exact opened
  | opened source used => exact own.elim
  | closed used => exact own.elim
  | datagram used peer bytes => trivial
  | received used => trivial

theorem attributed_of_closing {trace closes : List ProxyEvent}
    (closing : ∀ event ∈ closes, ∃ handle, event = .closed handle) :
    ∀ event ∈ closes, Attributed trace event := by
  intro event member
  obtain ⟨handle, rfl⟩ := closing event member
  trivial

/-- Attributed events keep the trace in order. -/
theorem Isolated.append {s s' : ProxyBase} {trace events : List ProxyEvent}
    (isolated : Isolated s trace) (handles : s.handles = s'.handles)
    (attributed : ∀ event ∈ events, Attributed trace event)
    (keyed : ∀ key item, s'.cacheTable.lookup key = some item →
      item.src = key.src ∧ item.srcport = key.srcport ∧ .opened key item.handle ∈ trace) :
    Isolated s' (trace ++ events) := by
  have old : ∀ {source handle}, ProxyEvent.opened source handle ∈ trace ++ events →
      ProxyEvent.opened source handle ∈ trace := by
    intro source handle member
    rcases List.mem_append.mp member with before | inside
    · exact before
    · exact (attributed _ inside).elim
  constructor
  · intro source entry found
    obtain ⟨sameSrc, samePort, member⟩ := keyed source entry found
    exact ⟨sameSrc, samePort, List.mem_append_left events member⟩
  · intro source handle member
    exact handles ▸ isolated.fresh source handle (old member)
  · intro source other handle member member'
    exact isolated.single source other handle (old member) (old member')
  · intro source handle member
    refine List.mem_append_left events ?_
    rcases List.mem_append.mp member with before | inside
    · exact isolated.sent source handle before
    · exact attributed _ inside
  · intro handle fromIp fromPort dst dstport data offset len member
    refine List.mem_append_left events ?_
    rcases List.mem_append.mp member with before | inside
    · exact isolated.passed _ _ _ _ _ _ _ _ before
    · exact attributed _ inside

/-- A new handle is opened for a source. -/
theorem Isolated.append_opened {s : ProxyBase} {trace : List ProxyEvent} (key : UdpCacheKey)
    (isolated : Isolated s trace) :
    Isolated ⟨s.cacheTable, s.handles + 1⟩ (trace ++ [.opened key s.handles]) := by
  have opens : ∀ {source handle}, ProxyEvent.opened source handle ∈ trace ++ [.opened key s.handles] →
      .opened source handle ∈ trace ∨ source = key ∧ handle = s.handles := by
    intro source handle member
    rcases List.mem_append.mp member with before | here
    · exact .inl before
    · cases List.mem_singleton.mp here
      exact .inr ⟨rfl, rfl⟩
  have other : ∀ {event}, event ∈ trace ++ [.opened key s.handles] →
      (∀ source handle, event ≠ .opened source handle) → event ∈ trace := by
    intro event member notOpened
    rcases List.mem_append.mp member with before | here
    · exact before
    · exact absurd (List.mem_singleton.mp here) (notOpened key s.handles)
  constructor
  · intro source item found
    obtain ⟨src, srcport, member⟩ := isolated.keyed source item found
    exact ⟨src, srcport, List.mem_append_left _ member⟩
  · intro source handle member
    rcases opens member with before | ⟨-, rfl⟩
    · exact Nat.lt_succ_of_lt (isolated.fresh source handle before)
    · exact Nat.lt_succ_self s.handles
  · intro source source' handle member member'
    rcases opens member with before | ⟨rfl, rfl⟩
    · rcases opens member' with before' | ⟨rfl, rfl⟩
      · exact isolated.single source source' handle before before'
      · exact absurd (isolated.fresh source s.handles before) (Nat.lt_irrefl _)
    · rcases opens member' with before' | ⟨rfl, -⟩
      · exact absurd (isolated.fresh source' s.handles before') (Nat.lt_irrefl _)
      · rfl
  · intro source handle member
    exact List.mem_append_left _ (isolated.sent source handle (other member nofun))
  · intro handle fromIp fromPort dst dstport data offset len member
    exact List.mem_append_left _ (isolated.passed _ _ _ _ _ _ _ _ (other member nofun))

theorem lookup_insert_cases {table : CacheTable} {key source : UdpCacheKey} {new item : ProxyUdp}
    (found : (table.insert key new).lookup source = some item) :
    source = key ∧ item = new ∨ source ≠ key ∧ table.lookup source = some item := by
  rcases eq_or_ne source key with rfl | away
  · rw [AList.lookup_insert] at found
    exact .inl ⟨rfl, (Option.some.inj found).symm⟩
  · rw [AList.lookup_insert_ne away] at found
    exact .inr ⟨away, found⟩

theorem Advance.isolated {now : Int} {s s' : ProxyBase} {trace events : List ProxyEvent}
    (advance : Advance now s s' events) (isolated : Isolated s trace) : Isolated s' (trace ++ events) := by
  cases advance with
  | idle => simpa using isolated
  | serve key item item' events found continues own fresher refreshed =>
      obtain ⟨src, srcport, opened⟩ := isolated.keyed key item found
      refine isolated.append rfl ?_ ?_
      · exact fun event member => (own event member).attributed opened src srcport
      · intro source entry inside
        rcases lookup_insert_cases inside with ⟨rfl, rfl⟩ | ⟨-, before⟩
        · rw [continues.src, continues.srcport, continues.handle]
          exact ⟨src, srcport, opened⟩
        · exact isolated.keyed source entry before
  | replace key item closes events gone handle src srcport closing own =>
      have opened := isolated.append_opened key
      have member : ProxyEvent.opened key item.handle ∈ trace ++ [.opened key s.handles] := by
        simp [handle]
      rw [List.cons_append, List.append_cons]
      refine opened.append rfl ?_ ?_
      · intro event performed
        rcases List.mem_append.mp performed with closed | inside
        · exact attributed_of_closing closing event closed
        · exact (own event inside).attributed member src srcport
      · intro source entry inside
        rcases lookup_insert_cases inside with ⟨rfl, rfl⟩ | ⟨-, before⟩
        · exact ⟨src, srcport, member⟩
        · exact opened.keyed source entry before
  | collect closes closing =>
      refine isolated.append rfl (attributed_of_closing closing) ?_
      exact fun key item found => isolated.keyed key item (lookup_of_alive found)

theorem proxy_run_isolated (kind : ProxyKind) (inputs : List (Int × ProxyInput)) :
    Isolated (Proc.runAll (proxyStep kind) inputs .start).state
      (Proc.runAll (proxyStep kind) inputs .start).events := by
  refine Proc.runAll_induction (proxyStep kind) .start (fun _ => Isolated) inputs isolated_start ?_
  intro done input state events _ isolated
  exact (proxyStep_advance kind input state).isolated isolated

/-! ## A source keeps its handle -/

/-- An item that is not overdue stays in the table through one input, and
traffic on its handle gives it a full period. -/
theorem Advance.keeps {now last : Int} {s s' : ProxyBase} {trace events : List ProxyEvent}
    (advance : Advance now s s' events) (isolated : Isolated s trace) {key : UdpCacheKey} {item : ProxyUdp}
    (found : s.cacheTable.lookup key = some item) (bound : last + proxyUdpTableTtl ≤ item.expireAt)
    (later : last ≤ now) (soon : now ≤ last + proxyUdpTableTtl) :
    ∃ item', s'.cacheTable.lookup key = some item' ∧ item'.handle = item.handle ∧
      last + proxyUdpTableTtl ≤ item'.expireAt ∧
      (events.any (carries item.handle) = true → now + proxyUdpTableTtl ≤ item'.expireAt) := by
  cases advance with
  | idle => exact ⟨item, found, rfl, bound, fun impossible => nomatch impossible⟩
  | serve source other item' events found' continues own fresher refreshed =>
      rcases eq_or_ne key source with rfl | away
      · obtain rfl : item = other := Option.some.inj (found.symm.trans found')
        refine ⟨item', AList.lookup_insert _, continues.handle, ?_, fun carried => ?_⟩
        · rcases fresher with same | visited
          · rw [same]
            exact bound
          · rw [visited]
            omega
        · obtain ⟨event, member, onHandle⟩ := List.any_eq_true.mp carried
          exact le_of_eq (refreshed event member onHandle).symm
      · refine ⟨item, (AList.lookup_insert_ne away).trans found, rfl, bound, fun carried => ?_⟩
        obtain ⟨event, member, onHandle⟩ := List.any_eq_true.mp carried
        have same := (own event member).carries_handle onHandle
        exact absurd (isolated.distinct found found' same.symm) away
  | replace source new closes events gone handle src srcport closing own =>
      rcases eq_or_ne key source with rfl | away
      · have expired := gone item found
        omega
      · refine ⟨item, (AList.lookup_insert_ne away).trans found, rfl, bound, fun carried => ?_⟩
        obtain ⟨event, member, onHandle⟩ := List.any_eq_true.mp carried
        have old := isolated.fresh key item.handle (isolated.keyed key item found).2.2
        rcases List.mem_append.mp member with opens | inside
        · rcases List.mem_cons.mp opens with rfl | closed
          · cases onHandle
          · obtain ⟨used, rfl⟩ := closing event closed
            cases onHandle
        · have same := (own event inside).carries_handle onHandle
          omega
  | collect closes closing =>
      refine ⟨item, lookup_alive found (soon.trans bound), rfl, bound, fun carried => ?_⟩
      obtain ⟨event, member, onHandle⟩ := List.any_eq_true.mp carried
      obtain ⟨used, rfl⟩ := closing event member
      cases onHandle

/-- The times of the inputs that perform an event of the given sort. -/
def timesOf (kind : ProxyKind) (counts : ProxyEvent → Bool) : ProxyBase → List (Int × ProxyInput) → List Int
  | _, [] => []
  | s, input :: rest =>
      (if (proxyStep kind input s).events.any counts then [input.1] else []) ++
        timesOf kind counts (proxyStep kind input s).state rest

theorem timesOf_subset (kind : ProxyKind) (counts : ProxyEvent → Bool) (inputs : List (Int × ProxyInput)) :
    ∀ s, ∀ time ∈ timesOf kind counts s inputs, time ∈ inputs.map Prod.fst := by
  induction inputs with
  | nil => exact fun s time member => nomatch member
  | cons input rest ih =>
      intro s time member
      rcases List.mem_append.mp member with here | later
      · split at here
        · exact List.mem_cons.mpr (.inl (List.mem_singleton.mp here))
        · cases here
      · exact List.mem_cons_of_mem _ (ih _ time later)

/-- No two consecutive times are more than a period apart. -/
def NoGap (times : List Int) : Prop := times.IsChain fun earlier next => next - earlier ≤ proxyUdpTableTtl

/-- Everything up to the first of the later times comes within a period. -/
theorem NoGap.soon {last stop now : Int} {times : List Int} (noGap : NoGap (last :: (times ++ [stop])))
    (before : ∀ time ∈ times, now ≤ time) (stops : now ≤ stop) : now ≤ last + proxyUdpTableTtl := by
  unfold NoGap at noGap
  cases times with
  | nil =>
      have first := (List.isChain_cons_cons.mp noGap).1
      omega
  | cons time rest =>
      have first := (List.isChain_cons_cons.mp noGap).1
      have early := before time List.mem_cons_self
      omega

/-- An item stays in the table while its handle is used without a gap. -/
theorem keeps_handle (kind : ProxyKind) (middle : List (Int × ProxyInput)) (key : UdpCacheKey) (stop : Int) :
    ∀ (s : ProxyBase) (trace : List ProxyEvent) (item : ProxyUdp) (last : Int),
      Isolated s trace → s.cacheTable.lookup key = some item → last + proxyUdpTableTtl ≤ item.expireAt →
      (last :: middle.map Prod.fst ++ [stop]).Pairwise (· ≤ ·) →
      NoGap (last :: (timesOf kind (carries item.handle) s middle ++ [stop])) →
      ∃ item' last' trace', Isolated (Proc.runAll (proxyStep kind) middle s).state trace' ∧
        (Proc.runAll (proxyStep kind) middle s).state.cacheTable.lookup key = some item' ∧
        item'.handle = item.handle ∧ last' + proxyUdpTableTtl ≤ item'.expireAt ∧
        last' ≤ stop ∧ stop ≤ last' + proxyUdpTableTtl := by
  induction middle with
  | nil =>
      intro s trace item last isolated found bound clock noGap
      have later : last ≤ stop := by simpa using clock
      exact ⟨item, last, trace, isolated, found, rfl, bound, later,
        noGap.soon (fun time member => nomatch member) le_rfl⟩
  | cons input rest ih =>
      intro s trace item last isolated found bound clock noGap
      have advance := proxyStep_advance kind input s
      have isolated' := advance.isolated isolated
      obtain ⟨fromLast, fromInput⟩ := List.pairwise_cons.mp clock
      have later : last ≤ input.1 := fromLast input.1 (by simp)
      have afterInput := List.pairwise_cons.mp fromInput
      have upToStop : input.1 ≤ stop := afterInput.1 stop (by simp)
      have restTimes : ∀ time ∈ timesOf kind (carries item.handle) (proxyStep kind input s).state rest,
          input.1 ≤ time := by
        intro time member
        refine afterInput.1 time (List.mem_append_left _ ?_)
        exact timesOf_subset kind _ rest _ time member
      have soon : input.1 ≤ last + proxyUdpTableTtl := by
        refine noGap.soon (fun time member => ?_) upToStop
        rcases List.mem_append.mp member with here | after
        · split at here
          · exact le_of_eq (List.mem_singleton.mp here).symm
          · cases here
        · exact restTimes time after
      obtain ⟨item', found', handle, bound', refreshed⟩ := advance.keeps isolated found bound later soon
      rw [timesOf] at noGap
      by_cases used : (proxyStep kind input s).events.any (carries item.handle) = true
      · -- the item has a full period again: go on from this input
        rw [if_pos used] at noGap
        have tail : NoGap (input.1 :: (timesOf kind (carries item'.handle)
            (proxyStep kind input s).state rest ++ [stop])) := by
          rw [handle]
          exact (List.isChain_cons_cons.mp noGap).2
        obtain ⟨final, time, past, kept⟩ := ih _ _ item' input.1 isolated' found' (refreshed used)
          fromInput tail
        exact ⟨final, time, past, kept.1, kept.2.1, kept.2.2.1.trans handle, kept.2.2.2⟩
      · rw [if_neg used, List.nil_append] at noGap
        have clock' : (last :: rest.map Prod.fst ++ [stop]).Pairwise (· ≤ ·) := by
          refine List.pairwise_cons.mpr ⟨fun time member => ?_, afterInput.2⟩
          exact fromLast time (List.mem_cons_of_mem _ member)
        obtain ⟨final, time, past, kept⟩ := ih _ _ item' last isolated' found' bound' clock'
          (handle ▸ noGap)
        exact ⟨final, time, past, kept.1, kept.2.1, kept.2.2.1.trans handle, kept.2.2.2⟩

/-- The handle a source has. -/
def ProxyBase.handleOf (s : ProxyBase) (key : UdpCacheKey) : Option Nat :=
  (s.cacheTable.lookup key).map ProxyUdp.handle

/-- The proxy after these inputs. -/
def proxyAfter (kind : ProxyKind) (inputs : List (Int × ProxyInput)) : ProxyBase :=
  (Proc.runAll (proxyStep kind) inputs .start).state

/-- What happened up to then. -/
def proxyTrace (kind : ProxyKind) (inputs : List (Int × ProxyInput)) : List ProxyEvent :=
  (Proc.runAll (proxyStep kind) inputs .start).events

/-- Between two `udpSend` of a source without a gap in its traffic, its handle
stays the same. -/
theorem handleOf_kept (kind : ProxyKind) (before middle : List (Int × ProxyInput)) (key : UdpCacheKey)
    (first second : Int) (dst dst' : SockAddr) (data data' : Bytes) (handle : Nat)
    (clock : ((before ++ [(first, ProxyInput.udpSend key dst data)] ++ middle ++
      [(second, ProxyInput.udpSend key dst' data')]).map Prod.fst).Pairwise (· ≤ ·))
    (used : (proxyAfter kind (before ++ [(first, .udpSend key dst data)])).handleOf key = some handle)
    (noGap : NoGap (first :: (timesOf kind (carries handle)
      (proxyAfter kind (before ++ [(first, .udpSend key dst data)])) middle ++ [second]))) :
    (proxyAfter kind (before ++ [(first, .udpSend key dst data)] ++ middle ++
      [(second, .udpSend key dst' data')])).handleOf key = some handle := by
  have isolated := proxy_run_isolated kind (before ++ [(first, .udpSend key dst data)])
  obtain ⟨item, found, visited⟩ := (udpSend_advance kind first key dst data (proxyAfter kind before)).2
  unfold proxyAfter at used noGap found ⊢
  rw [Proc.runAll_snoc_state, Proc.runAll_append_state]
  rw [Proc.runAll_snoc_state] at used noGap isolated ⊢
  obtain rfl : item.handle = handle := by
    rw [ProxyBase.handleOf, proxyStep, found] at used
    exact Option.some.inj used
  have clock' : (first :: middle.map Prod.fst ++ [second]).Pairwise (· ≤ ·) := by
    rw [List.append_assoc, List.append_assoc, List.map_append, List.pairwise_append] at clock
    simpa using clock.2.1
  obtain ⟨item', last, trace, isolated', found', same, bound, later, soon⟩ :=
    keeps_handle kind middle key second _ _ item first isolated found (le_of_eq visited.symm) clock' noGap
  obtain ⟨final, found'', handle, -⟩ := (udpSend_advance kind second key dst' data' _).1.keeps isolated'
    found' bound later soon
  rw [ProxyBase.handleOf, proxyStep, found'', Option.map_some, handle, same]

/-- Sources behind the proxy are isolated: no handle is opened or used for two
sources, what a handle passes on goes to the source it was opened for, and a
source keeps its handle from one `udpSend` to a later one when no more than
`PROXY_UDP_TABLE_TTL` seconds passed without a `udpSend` of the source or a
datagram that the handle passed on. -/
theorem udp_proxy_isolation (kind : ProxyKind) :
    (∀ inputs key other handle,
      .opened key handle ∈ proxyTrace kind inputs ∨ .sent key handle ∈ proxyTrace kind inputs →
      .opened other handle ∈ proxyTrace kind inputs ∨ .sent other handle ∈ proxyTrace kind inputs →
      key = other) ∧
    (∀ inputs handle fromIp fromPort dst dstport data offset len,
      .sendUdpEx handle fromIp fromPort dst dstport data offset len ∈ proxyTrace kind inputs →
      ∀ key, .opened key handle ∈ proxyTrace kind inputs ↔ key = ⟨dst, dstport⟩) ∧
    (∀ before middle key first second dst dst' data data' handle,
      ((before ++ [(first, ProxyInput.udpSend key dst data)] ++ middle ++
        [(second, ProxyInput.udpSend key dst' data')]).map Prod.fst).Pairwise (· ≤ ·) →
      (proxyAfter kind (before ++ [(first, .udpSend key dst data)])).handleOf key = some handle →
      NoGap (first :: (timesOf kind (carries handle)
        (proxyAfter kind (before ++ [(first, .udpSend key dst data)])) middle ++ [second])) →
      (proxyAfter kind (before ++ [(first, .udpSend key dst data)] ++ middle ++
        [(second, .udpSend key dst' data')])).handleOf key = some handle) := by
  refine ⟨fun inputs key other handle => ?_, fun inputs handle fromIp fromPort dst dstport data offset
    len passed key => ?_, handleOf_kept kind⟩
  · have isolated := proxy_run_isolated kind inputs
    have opened : ∀ source, .opened source handle ∈ proxyTrace kind inputs ∨
        .sent source handle ∈ proxyTrace kind inputs → .opened source handle ∈ proxyTrace kind inputs := by
      rintro source (opens | sends)
      · exact opens
      · exact isolated.sent source handle sends
    intro mine theirs
    exact isolated.single key other handle (opened key mine) (opened other theirs)
  · have isolated := proxy_run_isolated kind inputs
    have opened := isolated.passed handle fromIp fromPort dst dstport data offset len passed
    constructor
    · intro member
      exact isolated.single key ⟨dst, dstport⟩ handle member opened
    · rintro rfl
      exact opened

/-- A source that gets an answer between two datagrams 40 seconds apart. -/
theorem udp_proxy_isolation_answered :
    let key : UdpCacheKey := ⟨fun _ => 10, 5000⟩
    let peer : SockAddr := ⟨fun _ => 8, 53⟩
    (proxyAfter .direct ([] ++ [(0, .udpSend key peer [1])] ++
      [(20, .received 0 ⟨[2], peer, ⟨0, 0, 0, noneIp, 0⟩⟩), (25, .gc)] ++
      [(40, .udpSend key peer [3])])).handleOf key = some 0 :=
  (udp_proxy_isolation .direct).2.2 [] _ _ _ _ _ _ _ _ 0 (by decide) (by decide +kernel)
    (by unfold NoGap; decide +kernel)

/-- A datagram that arrived on a handle counts as traffic, passed on or not. -/
def touches (handle : Nat) : ProxyEvent → Bool
  | .received used => used = handle
  | event => carries handle event

/-- The answer of the SOCKS5 server at time 20 carries a domain name (`atyp` 3)
and is dropped without a `visit`: at time 40 the source gets a new handle
although a datagram arrived on the old one 20 seconds before. -/
theorem socks5_handle_replaced :
    let kind : ProxyKind := .socks5 ⟨fun _ => 9, 1080⟩
    let key : UdpCacheKey := ⟨fun _ => 10, 5000⟩
    let peer : SockAddr := ⟨fun _ => 8, 53⟩
    let before : List (Int × ProxyInput) := [(0, .udpSend key peer [1])]
    let middle : List (Int × ProxyInput) :=
      [(0, .udpReady 0 peer), (20, .received 0 ⟨[0, 0, 0, 3, 1, 97, 0, 53, 2], peer, ⟨0, 0, 0, noneIp, 0⟩⟩)]
    (proxyAfter kind before).handleOf key = some 0 ∧
    timesOf kind (touches 0) (proxyAfter kind before) middle = [20] ∧
    NoGap [0, 20, 40] ∧
    (proxyAfter kind (before ++ middle ++ [(40, .udpSend key peer [3])])).handleOf key = some 1 := by
  refine ⟨by decide +kernel, by decide +kernel, ?_, by decide +kernel⟩
  unfold NoGap
  decide +kernel

end SwitchLanPlay.Proxy
