import SwitchLanPlay.Lan.Footprint
import SwitchLanPlay.Library.ExpiringTable

/-!
# The ARP cache as a map with expiry

The cache of `arp.c` is a slot table with expiry, with `0.0.0.0` for a blank
slot.  A run is a list of calls, each at a value of the clock.  What the cache
answers is determined by the calls of `arp_set` that returned true.
-/

namespace SwitchLanPlay

open Library SlotTable ExpiringTable

/-! ## The cache as a slot table -/

def ArpItem.slot (item : ArpItem) : Slot Ip Mac := ⟨item.ip, item.mac, item.expireAt⟩

def PacketCtx.arpTable (ctx : PacketCtx) : Fin arpCacheLen → Slot Ip Mac :=
  fun i => (ctx.arpList i).slot

theorem PacketCtx.arpFind_eq (ctx : PacketCtx) (now : Int) (ip : Ip) :
    ctx.arpFind now ip = find ctx.arpTable now ip := rfl

theorem PacketCtx.arpSlot_eq (ctx : PacketCtx) (now : Int) (ip : Ip) :
    ctx.arpSlot now ip = slotFor noneIp ctx.arpTable now ip := rfl

theorem PacketCtx.arpTable_arpSet (ctx : PacketCtx) (now : Int) (mac : Mac) (ip : Ip) :
    (ctx.arpSet now mac ip).arpTable = store noneIp ctx.arpTtl ctx.arpTable now ip mac := by
  cases chosen : ctx.arpSlot now ip with
  | none =>
      rw [store_of_none (ctx.arpSlot_eq now ip ▸ chosen)]
      simp [PacketCtx.arpSet, chosen]
  | some i =>
      rw [store_of_some (ctx.arpSlot_eq now ip ▸ chosen)]
      funext j
      by_cases here : j = i
      · subst here
        simp [PacketCtx.arpTable, PacketCtx.arpSet, chosen, ArpItem.slot]
      · simp [PacketCtx.arpTable, PacketCtx.arpSet, chosen, here]

/-! ## Calls -/

inductive ArpCall where
  | set (mac : Mac) (ip : Ip)
  | hasIp (ip : Ip)
  | getMacByIp (ip : Ip)

/-- One call at the given value of the clock. -/
def arpCallStep (input : Int × ArpCall) : Proc LanPlay Event Unit :=
  match input.2 with
  | .set mac ip => do
      let _ ← arpSet input.1 mac ip
      pure ()
  | .hasIp ip => do
      let _ ← arpHasIp input.1 ip
      pure ()
  | .getMacByIp ip => do
      let _ ← arpGetMacByIp input.1 ip
      pure ()

/-- A call of `arp_set` that returned true. -/
structure ArpLearned where
  time : Int
  mac : Mac
  ip : Ip

/-- What one call teaches the cache. -/
def arpLearns (s : LanPlay) (input : Int × ArpCall) : List ArpLearned :=
  match input.2 with
  | .set mac ip => if (arpSet input.1 mac ip s).value then [⟨input.1, mac, ip⟩] else []
  | _ => []

/-- The successful calls of `arp_set` in a run, in order. -/
def arpHistory : LanPlay → List (Int × ArpCall) → List ArpLearned
  | _, [] => []
  | s, input :: rest => arpLearns s input ++ arpHistory (arpCallStep input s).state rest

/-- The most recent successful `arp_set` for an address. -/
def mostRecentSet (history : List ArpLearned) (ip : Ip) : Option (Int × Mac) :=
  ((history.filter fun learned => learned.ip = ip).getLast?).map fun learned =>
    (learned.time, learned.mac)

theorem arpHistory_snoc (first : List (Int × ArpCall)) (last : Int × ArpCall) (s : LanPlay) :
    arpHistory s (first ++ [last]) =
      arpHistory s first ++ arpLearns (Proc.runAll arpCallStep first s).state last := by
  induction first generalizing s with
  | nil => simp [arpHistory]
  | cons input rest ih =>
      rw [List.cons_append, arpHistory, arpHistory, ih, List.append_assoc]
      rfl

theorem mostRecentSet_snoc (history : List ArpLearned) (time : Int) (mac : Mac) (ip : Ip) :
    mostRecentSet (history ++ [⟨time, mac, ip⟩]) =
      LastPut.put (mostRecentSet history) time ip mac := by
  funext other
  by_cases same : ip = other
  · subst same
    simp [mostRecentSet, LastPut.put, List.filter_append]
  · have different : other ≠ ip := fun equal => same equal.symm
    simp [mostRecentSet, LastPut.put, List.filter_append, same, different]

/-! ## One call -/

section Step

variable (s : LanPlay) (now : Int) (mac : Mac) (ip : Ip)

@[simp] theorem arpSet_value :
    (arpSet now mac ip s).value = (slotFor noneIp s.packetCtx.arpTable now ip).isSome := rfl

@[simp] theorem arpHasIp_value :
    (arpHasIp now ip s).value = (find s.packetCtx.arpTable now ip).isSome := rfl

theorem arpLearns_set :
    arpLearns s (now, .set mac ip) =
      if (slotFor noneIp s.packetCtx.arpTable now ip).isSome then [⟨now, mac, ip⟩] else [] := rfl

theorem arpGetMacByIp_value :
    (arpGetMacByIp now ip s).value =
      (find s.packetCtx.arpTable now ip).map fun i => (s.packetCtx.arpTable i).value := by
  unfold arpGetMacByIp
  rw [Proc.bind_value, Proc.read_value, ← PacketCtx.arpFind_eq]
  cases s.packetCtx.arpFind now ip <;> rfl

theorem arpGetMacByIp_core : (arpGetMacByIp now ip s).state.core = s.core :=
  (arpGetMacByIp_framed (sends_anything .header) now ip s).1

end Step

theorem PacketCtx.arpTable_of_core {s s' : LanPlay} (same : s'.core = s.core) :
    s'.packetCtx.arpTable = s.packetCtx.arpTable := by
  change s'.core.packetCtx.arpTable = s.core.packetCtx.arpTable
  rw [same]

theorem PacketCtx.arpTtl_of_core {s s' : LanPlay} (same : s'.core = s.core) :
    s'.packetCtx.arpTtl = s.packetCtx.arpTtl := by
  change s'.core.packetCtx.arpTtl = s.core.packetCtx.arpTtl
  rw [same]

theorem arpCallStep_arpTtl (input : Int × ArpCall) (s : LanPlay) :
    (arpCallStep input s).state.packetCtx.arpTtl = s.packetCtx.arpTtl := by
  obtain ⟨now, call⟩ := input
  cases call with
  | set mac ip => rfl
  | hasIp ip => rfl
  | getMacByIp ip => exact PacketCtx.arpTtl_of_core (arpGetMacByIp_core s now ip)

/-- After a call the table represents the history extended by what the call
taught. -/
theorem arpCallStep_represents (input : Int × ArpCall) {s : LanPlay} {history : List ArpLearned}
    (nonneg : 0 ≤ s.packetCtx.arpTtl)
    (represents : Represents noneIp s.packetCtx.arpTtl input.1 s.packetCtx.arpTable
      (mostRecentSet history)) :
    Represents noneIp s.packetCtx.arpTtl input.1 (arpCallStep input s).state.packetCtx.arpTable
      (mostRecentSet (history ++ arpLearns s input)) := by
  obtain ⟨now, call⟩ := input
  cases call with
  | set mac ip =>
      have stored := represents.store nonneg ip mac
      have table : (arpCallStep (now, .set mac ip) s).state.packetCtx.arpTable =
          store noneIp s.packetCtx.arpTtl s.packetCtx.arpTable now ip mac :=
        PacketCtx.arpTable_arpSet s.packetCtx now mac ip
      rw [table, arpLearns_set]
      split
      case isTrue success =>
        rw [mostRecentSet_snoc]
        simpa [success] using stored
      case isFalse failure =>
        rw [List.append_nil]
        simpa [failure] using stored
  | hasIp ip =>
      simp only [arpLearns, List.append_nil]
      exact represents
  | getMacByIp ip =>
      have table := PacketCtx.arpTable_of_core (arpGetMacByIp_core s now ip)
      simp only [arpLearns, List.append_nil]
      exact table ▸ represents

/-! ## Runs -/

/-- `arp_list_init` -/
def arpListInit : Fin arpCacheLen → ArpItem := fun _ => ⟨noneIp, noneMac, 0⟩

theorem arp_run_arpTtl (calls : List (Int × ArpCall)) (start : LanPlay) :
    (Proc.runAll arpCallStep calls start).state.packetCtx.arpTtl = start.packetCtx.arpTtl := by
  refine Proc.runAll_preserves arpCallStep start
    (fun s => s.packetCtx.arpTtl = start.packetCtx.arpTtl) calls rfl ?_
  intro input _ s same
  exact (arpCallStep_arpTtl input s).trans same

theorem arp_run_represents (calls : List (Int × ArpCall)) (start : LanPlay)
    (fresh : start.packetCtx.arpList = arpListInit) (nonneg : 0 ≤ start.packetCtx.arpTtl)
    (clock : (calls.map Prod.fst).Pairwise (· ≤ ·)) (now : Int) (past : ∀ call ∈ calls, call.1 ≤ now) :
    Represents noneIp start.packetCtx.arpTtl now
      (Proc.runAll arpCallStep calls start).state.packetCtx.arpTable
      (mostRecentSet (arpHistory start calls)) := by
  induction calls using List.reverseRecOn generalizing now with
  | nil =>
      refine represents_blank fun i => ?_
      simp [PacketCtx.arpTable, ArpItem.slot, fresh, arpListInit]
  | append_singleton first last ih =>
      rw [List.map_append, List.pairwise_append] at clock
      have before : ∀ call ∈ first, call.1 ≤ last.1 := by
        intro call member
        exact clock.2.2 call.1 (List.mem_map_of_mem member) last.1 (by simp)
      have ttl := arp_run_arpTtl first start
      have reached := ih clock.1 last.1 before
      rw [← ttl] at reached nonneg ⊢
      rw [Proc.runAll_snoc_state, arpHistory_snoc]
      exact (arpCallStep_represents last nonneg reached).advance (past last (by simp))

/-- What `arp_get_mac_by_ip` returns after a run. -/
theorem arpGetMacByIp_after (calls : List (Int × ArpCall)) (start : LanPlay) (now : Int) (ip : Ip)
    (fresh : start.packetCtx.arpList = arpListInit) (nonneg : 0 ≤ start.packetCtx.arpTtl)
    (clock : (calls.map Prod.fst ++ [now]).Pairwise (· ≤ ·)) (named : ip ≠ noneIp) :
    (arpGetMacByIp now ip (Proc.runAll arpCallStep calls start).state).value =
      LastPut.get start.packetCtx.arpTtl (mostRecentSet (arpHistory start calls)) now ip := by
  rw [List.pairwise_append] at clock
  have past : ∀ call ∈ calls, call.1 ≤ now := by
    intro call member
    exact clock.2.2 call.1 (List.mem_map_of_mem member) now (by simp)
  rw [arpGetMacByIp_value]
  exact (arp_run_represents calls start fresh nonneg clock.1 now past).find_eq_get named

theorem arpHasIp_eq_isSome (s : LanPlay) (now : Int) (ip : Ip) :
    (arpHasIp now ip s).value = (arpGetMacByIp now ip s).value.isSome := by
  rw [arpHasIp_value, arpGetMacByIp_value, Option.isSome_map]

/-- The ARP cache refines a map with expiry: a lookup succeeds exactly when the
most recent successful `arp_set` for the address is younger than `arp_ttl`, and
returns the address that call was given. -/
theorem arp_cache_refines_map (calls : List (Int × ArpCall)) (start : LanPlay) (now : Int) (ip : Ip)
    (fresh : start.packetCtx.arpList = arpListInit) (positive : 0 < start.packetCtx.arpTtl)
    (clock : (calls.map Prod.fst ++ [now]).Pairwise (· ≤ ·)) (named : ip ≠ noneIp) :
    ((arpHasIp now ip (Proc.runAll arpCallStep calls start).state).value = true ↔
      ∃ time mac, mostRecentSet (arpHistory start calls) ip = some (time, mac) ∧
        now < time + start.packetCtx.arpTtl) ∧
    ∀ mac, (arpGetMacByIp now ip (Proc.runAll arpCallStep calls start).state).value = some mac ↔
      ∃ time, mostRecentSet (arpHistory start calls) ip = some (time, mac) ∧
        now < time + start.packetCtx.arpTtl := by
  have looked := arpGetMacByIp_after calls start now ip fresh (le_of_lt positive) clock named
  constructor
  · rw [arpHasIp_eq_isSome, looked, Option.isSome_iff_exists]
    simp only [LastPut.get_eq_some_iff]
    exact exists_comm
  · intro mac
    rw [looked]
    exact LastPut.get_eq_some_iff

/-- Two hosts; the first is refreshed into the slot of the second, which has
expired, and is found there with its new address. -/
theorem arp_cache_refines_map_refreshed :
    (arpGetMacByIp 40 (fun _ => 10) (Proc.runAll arpCallStep
      [(0, .set (fun _ => 1) fun _ => 11), (20, .set (fun _ => 2) fun _ => 10),
        (31, .set (fun _ => 3) fun _ => 10)]
      (lanPlayStart 0 none (fun _ => 0) fun _ => 0)).state).value = some fun _ => 3 :=
  ((arp_cache_refines_map _ _ 40 _ rfl (by decide) (by decide) (by decide)).2 _).mpr
    ⟨31, by decide +kernel, by decide⟩

end SwitchLanPlay
