import SwitchLanPlay.Library.SlotTable
import Mathlib.Logic.Function.Basic

/-!
# A slot table with expiry

A table of fixed size keeps values under keys for `ttl` units of time.  A value
is stored in the first slot that is blank, holds the key already, or has
expired, so one key may occupy several slots at once.  Looked at from outside
the table is a map from keys to the last value stored, which forgets a value
after `ttl`: `Represents.find_eq_get` and `Represents.store` are the two halves of
that refinement.  `uniqueLive_store_iff` says when a key gets a second live slot.
-/

namespace SwitchLanPlay.Library.ExpiringTable

open SlotTable

structure Slot (K V : Type) where
  key : K
  value : V
  expireAt : Int

section Operations

variable {n : Nat} {K V : Type} [DecidableEq K]

/-- The first slot that holds the key and has not expired. -/
def find (table : Fin n → Slot K V) (now : Int) (key : K) : Option (Fin n) :=
  firstIndex fun i => decide ((table i).key = key) && decide (now < (table i).expireAt)

/-- The first slot a key may be stored in. -/
def slotFor (blank : K) (table : Fin n → Slot K V) (now : Int) (key : K) : Option (Fin n) :=
  firstIndex fun i =>
    decide ((table i).key = blank) || decide ((table i).key = key) ||
      decide ((table i).expireAt < now)

/-- Store a value; a full table stays as it is. -/
def store (blank : K) (ttl : Int) (table : Fin n → Slot K V) (now : Int) (key : K) (value : V) :
    Fin n → Slot K V :=
  match slotFor blank table now key with
  | some i => Function.update table i ⟨key, value, now + ttl⟩
  | none => table

theorem find_eq_some_iff {table : Fin n → Slot K V} {now : Int} {key : K} {i : Fin n} :
    find table now key = some i ↔
      ((table i).key = key ∧ now < (table i).expireAt) ∧
        ∀ j < i, (table j).key = key → (table j).expireAt ≤ now := by
  simp [find, firstIndex_eq_some_iff]

theorem find_eq_none_iff {table : Fin n → Slot K V} {now : Int} {key : K} :
    find table now key = none ↔ ∀ i, (table i).key = key → (table i).expireAt ≤ now := by
  simp [find, firstIndex_eq_none_iff]

theorem slotFor_eq_some {blank : K} {table : Fin n → Slot K V} {now : Int} {key : K} {i : Fin n}
    (chosen : slotFor blank table now key = some i) :
    ((table i).key = blank ∨ (table i).key = key ∨ (table i).expireAt < now) ∧
      ∀ j < i, (table j).key ≠ key := by
  obtain ⟨passes, first⟩ := firstIndex_eq_some_iff.mp chosen
  constructor
  · simpa [or_assoc] using passes
  · intro j before same
    simpa [same] using first j before

theorem store_of_some {blank : K} {ttl : Int} {table : Fin n → Slot K V} {now : Int} {key : K}
    {i : Fin n} (chosen : slotFor blank table now key = some i) (value : V) :
    store blank ttl table now key value = Function.update table i ⟨key, value, now + ttl⟩ := by
  simp [store, chosen]

theorem store_of_none {blank : K} {ttl : Int} {table : Fin n → Slot K V} {now : Int} {key : K}
    (full : slotFor blank table now key = none) (value : V) :
    store blank ttl table now key value = table := by
  simp [store, full]

end Operations

/-! ## The map with expiry -/

/-- When a value was last put under each key, and which one. -/
abbrev LastPut (K V : Type) := K → Option (Int × V)

def LastPut.put {K V : Type} [DecidableEq K] (latest : LastPut K V) (now : Int) (key : K) (value : V) :
    LastPut K V :=
  Function.update latest key (some (now, value))

/-- The value last put under a key, unless it is older than `ttl`. -/
def LastPut.get {K V : Type} (ttl : Int) (latest : LastPut K V) (now : Int) (key : K) : Option V :=
  (latest key).bind fun entry => if now < entry.1 + ttl then some entry.2 else none

theorem LastPut.get_eq_some_iff {K V : Type} {ttl now : Int} {latest : LastPut K V} {key : K}
    {value : V} :
    latest.get ttl now key = some value ↔ ∃ time, latest key = some (time, value) ∧ now < time + ttl := by
  unfold LastPut.get
  cases latest key with
  | none => simp
  | some entry =>
      obtain ⟨time, found⟩ := entry
      by_cases live : now < time + ttl
      · simp [live]
      · simp only [Option.bind_some, live, if_false, Option.some.injEq, Prod.mk.injEq]
        constructor
        · intro impossible
          cases impossible
        · rintro ⟨other, ⟨rfl, -⟩, fresh⟩
          exact absurd fresh live

/-! ## The refinement -/

section Refinement

variable {n : Nat} {K V : Type}

/-- What the slots say about one key, given when and with what it was last
put.  Either the newest slot of the key comes before all its other slots, or
that slot was given to another key after it had expired, and then the other
slots of the key have expired as well. -/
inductive Known (ttl now : Int) (table : Fin n → Slot K V) (key : K) : Option (Int × V) → Prop
  | never (absent : ∀ i, (table i).key ≠ key) : Known ttl now table key none
  | held (time : Int) (value : V) (past : time ≤ now) (i : Fin n)
      (holds : table i = ⟨key, value, time + ttl⟩) (first : ∀ j, (table j).key = key → i ≤ j)
      (newest : ∀ j, (table j).key = key → (table j).expireAt ≤ time + ttl) :
      Known ttl now table key (some (time, value))
  | expired (time : Int) (value : V) (past : time + ttl < now)
      (stale : ∀ j, (table j).key = key → (table j).expireAt < now) :
      Known ttl now table key (some (time, value))

variable {ttl now later : Int} {table : Fin n → Slot K V} {key : K} {entry : Option (Int × V)}

theorem Known.advance (known : Known ttl now table key entry) (passed : now ≤ later) :
    Known ttl later table key entry := by
  cases known with
  | never absent => exact .never absent
  | held time value past i holds first newest =>
      exact .held time value (past.trans passed) i holds first newest
  | expired time value past stale =>
      exact .expired time value (past.trans_le passed) fun j same => (stale j same).trans_le passed

/-- The table represents the map: it knows every key but the blank one. -/
def Represents (blank : K) (ttl now : Int) (table : Fin n → Slot K V) (latest : LastPut K V) : Prop :=
  ∀ key, key ≠ blank → Known ttl now table key (latest key)

variable {blank : K} {latest : LastPut K V}

theorem Represents.advance (represents : Represents blank ttl now table latest)
    (passed : now ≤ later) : Represents blank ttl later table latest :=
  fun key named => (represents key named).advance passed

theorem represents_blank {table : Fin n → Slot K V} (empty : ∀ i, (table i).key = blank) :
    Represents blank ttl now table fun _ => none :=
  fun _ named => .never fun i same => named (same.symm.trans (empty i))

variable [DecidableEq K]

/-- A lookup sees the last value that was put, while it has not expired. -/
theorem Known.find_value (known : Known ttl now table key entry) :
    (find table now key).map (fun i => (table i).value) =
      entry.bind fun last => if now < last.1 + ttl then some last.2 else none := by
  cases known with
  | never absent =>
      have missing : find table now key = none :=
        find_eq_none_iff.mpr fun i same => absurd same (absent i)
      simp [missing]
  | held time value past i holds first newest =>
      by_cases live : now < time + ttl
      · have found : find table now key = some i := by
          refine find_eq_some_iff.mpr ⟨by simpa [holds] using live, fun j before same => ?_⟩
          exact absurd (first j same) (not_le_of_gt before)
        simp [found, holds, live]
      · have missing : find table now key = none :=
          find_eq_none_iff.mpr fun j same => (newest j same).trans (le_of_not_gt live)
        simp [missing, live]
  | expired time value past stale =>
      have missing : find table now key = none :=
        find_eq_none_iff.mpr fun j same => le_of_lt (stale j same)
      simp [missing, le_of_lt past]

theorem Represents.find_eq_get (represents : Represents blank ttl now table latest)
    (named : key ≠ blank) :
    (find table now key).map (fun i => (table i).value) = latest.get ttl now key :=
  (represents key named).find_value

variable {i : Fin n} (value : V)

/-- The slot that was written comes first for its key, and expires last. -/
theorem Known.store_same (known : Known ttl now table key entry) (nonneg : 0 ≤ ttl)
    (chosen : slotFor blank table now key = some i) :
    Known ttl now (store blank ttl table now key value) key (some (now, value)) := by
  have older : ∀ j, (table j).key = key → (table j).expireAt ≤ now + ttl := by
    intro j same
    cases known with
    | never absent => exact absurd same (absent j)
    | held time old past k holds first newest => exact (newest j same).trans (by omega)
    | expired time old past stale => exact (le_of_lt (stale j same)).trans (by omega)
  rw [store_of_some chosen]
  refine .held now value (le_refl now) i (Function.update_self ..) (fun j => ?_) (fun j => ?_)
  · by_cases here : j = i
    · exact fun _ => le_of_eq here.symm
    · rw [Function.update_of_ne here]
      intro same
      exact le_of_not_gt fun before => (slotFor_eq_some chosen).2 j before same
  · by_cases here : j = i
    · subst here
      simp
    · rw [Function.update_of_ne here]
      exact older j

/-- Storing under one key keeps what the slots say about another: only a slot
that has expired is taken away from it. -/
theorem Known.store_other {other : K} (known : Known ttl now table key entry) (named : key ≠ blank)
    (different : key ≠ other) :
    Known ttl now (store blank ttl table now other value) key entry := by
  cases chosen : slotFor blank table now other with
  | none => rwa [store_of_none chosen]
  | some i =>
      rw [store_of_some chosen]
      -- a slot of `key` in the new table is one of the old table
      have kept : ∀ j, (Function.update table i ⟨other, value, now + ttl⟩ j).key = key →
          Function.update table i ⟨other, value, now + ttl⟩ j = table j := by
        intro j same
        have elsewhere : j ≠ i := by
          rintro rfl
          rw [Function.update_self] at same
          exact different same.symm
        exact Function.update_of_ne elsewhere _ _
      cases known with
      | never absent =>
          refine .never fun j same => ?_
          rw [kept j same] at same
          exact absent j same
      | held time old past k holds first newest =>
          by_cases taken : k = i
          · subst taken
            have reused := (slotFor_eq_some chosen).1
            rw [holds] at reused
            have gone : time + ttl < now :=
              (reused.resolve_left named).resolve_left different
            refine .expired time old gone fun j same => ?_
            have old := kept j same
            rw [old] at same ⊢
            exact (newest j same).trans_lt gone
          · refine .held time old past k ?_ (fun j same => ?_) (fun j same => ?_)
            · rw [Function.update_of_ne taken, holds]
            · rw [kept j same] at same
              exact first j same
            · have old := kept j same
              rw [old] at same ⊢
              exact newest j same
      | expired time old past stale =>
          refine .expired time old past fun j same => ?_
          have old := kept j same
          rw [old] at same ⊢
          exact stale j same

/-- A successful store puts the value, a failed one does nothing. -/
theorem Represents.store (nonneg : 0 ≤ ttl) (represents : Represents blank ttl now table latest)
    (key : K) (value : V) :
    Represents blank ttl now (store blank ttl table now key value)
      (if (slotFor blank table now key).isSome then latest.put now key value else latest) := by
  intro other named
  by_cases same : other = key
  · subst same
    cases chosen : slotFor blank table now other with
    | none => simpa [store_of_none chosen] using represents other named
    | some i =>
        have stored := (represents other named).store_same value nonneg chosen
        simpa [LastPut.put] using stored
  · have kept := (represents other named).store_other value named same
    have unchanged : (if (slotFor blank table now key).isSome then latest.put now key value
        else latest) other = latest other := by
      cases slotFor blank table now key <;> simp [LastPut.put, same]
    rwa [unchanged]

end Refinement

/-! ## One live slot a key -/

section UniqueLive

variable {n : Nat} {K V : Type} {now later ttl : Int} {table : Fin n → Slot K V}

/-- No two slots that have not expired hold the same key. -/
def UniqueLive (now : Int) (table : Fin n → Slot K V) : Prop :=
  ∀ i j, (table i).key = (table j).key → now < (table i).expireAt → now < (table j).expireAt → i = j

theorem UniqueLive.advance (unique : UniqueLive now table) (passed : now ≤ later) :
    UniqueLive later table :=
  fun i j same liveI liveJ => unique i j same (passed.trans_lt liveI) (passed.trans_lt liveJ)

variable [DecidableEq K] {blank key : K} (value : V)

/-- Storing keeps the live slots unique exactly when the key is stored over its
own live slot, if it has one. -/
theorem uniqueLive_store_iff (positive : 0 < ttl) (unique : UniqueLive now table) :
    UniqueLive now (store blank ttl table now key value) ↔
      ∀ j, (table j).key = key → now < (table j).expireAt → slotFor blank table now key = some j := by
  cases chosen : slotFor blank table now key with
  | none =>
      rw [store_of_none chosen]
      refine iff_of_true unique fun j same => ?_
      have passed := firstIndex_eq_none_iff.mp chosen j
      simp [same] at passed
  | some i =>
      rw [store_of_some chosen]
      constructor
      · intro uniqueAfter j same live
        by_contra other
        have elsewhere : j ≠ i := fun here => other (congrArg some here.symm)
        refine elsewhere (uniqueAfter j i ?_ ?_ ?_)
        · simp [Function.update_of_ne elsewhere, same]
        · simpa [Function.update_of_ne elsewhere] using live
        · rw [Function.update_self]
          exact Int.lt_add_of_pos_right now positive
      · intro overwritten j k same liveJ liveK
        -- a live slot of the key other than `i` would have been chosen instead
        have here : ∀ l, (Function.update table i ⟨key, value, now + ttl⟩ l).key = key →
            now < (Function.update table i ⟨key, value, now + ttl⟩ l).expireAt → l = i := by
          intro l sameKey live
          by_contra elsewhere
          rw [Function.update_of_ne elsewhere] at sameKey live
          exact elsewhere (Option.some.inj (overwritten l sameKey live)).symm
        by_cases atJ : j = i
        · subst atJ
          exact (here k (by simpa using same.symm) liveK).symm
        · by_cases atK : k = i
          · subst atK
            exact here j (by simpa using same) liveJ
          · rw [Function.update_of_ne atJ, Function.update_of_ne atK] at same
            rw [Function.update_of_ne atJ] at liveJ
            rw [Function.update_of_ne atK] at liveK
            exact unique j k same liveJ liveK

end UniqueLive

end SwitchLanPlay.Library.ExpiringTable
