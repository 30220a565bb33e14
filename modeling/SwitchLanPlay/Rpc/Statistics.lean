import SwitchLanPlay.Client.EventLoop
import SwitchLanPlay.Lan.Datagrams
import SwitchLanPlay.Rpc.Commands

/-!
# Statistics

`LanPlay::getStats` of `rpc/lan-play.cpp` reads eight counters that the handlers
of the event loop keep.  The `stats` command answers with the traffic itself: the
datagrams and frames of the run so far, and their bytes, in 64 bits.  A datagram that
`uv_udp_send` refuses is counted as well.
-/

namespace SwitchLanPlay

open Library

/-! ## Traffic -/

/-- The lengths of the datagrams of the relay. -/
def relayed (inputs : List LoopInput) : List Nat :=
  inputs.filterMap fun input =>
    match input with
    | .datagram _ datagram => some datagram.bytes.length
    | _ => none

/-- The lengths of the captured frames that `get_packet` does not refuse. -/
def captured (inputs : List LoopInput) : List Nat :=
  inputs.filterMap fun input =>
    match input with
    | .frame _ _ len _ => if len ≥ 65536 then none else some len
    | _ => none

/-- The counters for packets of the given sizes. -/
def tallyOf (sent received : List Nat) : Tally :=
  ⟨sent.sum % 2 ^ 64, sent.length % 2 ^ 64, received.sum % 2 ^ 64, received.length % 2 ^ 64⟩

theorem tallyOf_down (sent received : List Nat) (size : Nat) :
    (tallyOf sent received).down size = tallyOf sent (received ++ [size]) := by
  simp [tallyOf, Tally.down]

/-- Of the datagrams given to `uv_udp_send`, those for which it returned 0. -/
def unrefused (results : Nat → Int) (attempts : List Bytes) : List Bytes :=
  (attempts.zipIdx.filter fun attempt => results attempt.2 = 0).map Prod.fst

/-- Both tallies agree with the trace; `attempts` are the datagrams given to `uv_udp_send`. -/
structure Tallied (results : Nat → Int) (attempts : List Bytes) (datagramsIn framesIn : List Nat) (account : Account)
    (past : List Event) : Prop where
  sends : ∀ call, account.sendResults call = results (call + attempts.length)
  sent : datagrams past = unrefused results attempts
  client : account.client = tallyOf (attempts.map List.length) datagramsIn
  packet : account.packet = tallyOf ((sentFrames past).map List.length) framesIn

/-- An input is counted before its handler runs. -/
theorem Tallied.counted {results : Nat → Int} {attempts : List Bytes} {datagramsIn framesIn : List Nat}
    {account : Account} {past : List Event} (tallied : Tallied results attempts datagramsIn framesIn account past)
    (input : LoopInput) :
    Tallied results attempts (datagramsIn ++ relayed [input]) (framesIn ++ captured [input]) (input.counted account)
      past := by
  cases input with
  | datagram env datagram =>
    refine ⟨tallied.sends, tallied.sent, ?_, ?_⟩
    · exact (congrArg (Tally.down · _) tallied.client).trans (tallyOf_down _ _ _)
    · rw [show captured [.datagram env datagram] = [] from rfl, List.append_nil]
      exact tallied.packet
  | frame env memory len mac =>
    rw [show relayed [.frame env memory len mac] = [] from rfl, List.append_nil, LoopInput.counted]
    by_cases large : len ≥ 65536
    · rw [show captured [.frame env memory len mac] = [] by simp [captured, large], if_pos large, List.append_nil]
      exact tallied
    · rw [show captured [.frame env memory len mac] = [len] by simp [captured, large], if_neg large]
      exact ⟨tallied.sends, tallied.sent, tallied.client,
        (congrArg (Tally.down · len) tallied.packet).trans (tallyOf_down _ _ _)⟩
  | _ => simpa [relayed, captured, LoopInput.counted] using tallied

namespace Rpc.Lifecycle

end Rpc.Lifecycle

end SwitchLanPlay
