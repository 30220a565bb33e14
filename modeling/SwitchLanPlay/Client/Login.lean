import SwitchLanPlay.Client.EventLoop
import SwitchLanPlay.Digest.Context

/-!
# Logging in at the relay

`lan_play_init` keeps the digest of the password, and `lan_client_process_auth_me`
answers a challenge of the relay with the digest of that key and the challenge,
followed by the user name.  Over a whole run the login datagrams are these answers,
one for each challenge, whatever else the loop does in between.
-/

namespace SwitchLanPlay

open Library Digest

/-! ## Model -/

/-- The digest that a handler computes of the key and a challenge is the one of `sha1.c`:
`SHA1Init`, two calls of `SHA1Update`, and `SHA1Final`. -/
def Env.HashesBy (env : Env) (order : ByteOrder) : Prop :=
  ∀ (buffer : Bytes) (sized : buffer.length = 64) (key : Octets 20) (challenge : Bytes),
    challenge.length < 2 ^ 16 →
      digest order buffer sized [List.ofFn key, challenge] = some (env.sha1 (List.ofFn key ++ challenge))

/-! ## Specification -/

/-- The login datagrams among what was sent. -/
def logins (events : List Event) : List Bytes :=
  (datagrams events).filter fun datagram => datagram.head? = some lanClientTypeAuthMe

/-- The answer to a datagram of the relay: `sha1(sha1(password) + challenge)` and the name,
for an authentication of type 0. -/
def loginReply (password username : Bytes) (datagram : RelayDatagram) : Option Bytes :=
  if datagram.type = lanClientTypeAuthMe ∧ byteAt datagram.bytes 1 = 0 then
    some (lanClientTypeAuthMe ::
      (Standard.sha1 (Standard.sha1 password ++ datagram.bytes.drop 2) ++ username))
  else none

def LoopInput.loginReply (password username : Bytes) : LoopInput → Option Bytes
  | .datagram _ arrived => SwitchLanPlay.loginReply password username arrived
  | _ => none

/-! ## Digests -/

theorem digest_key_challenge (order : ByteOrder) (buffer : Bytes) (sized : buffer.length = 64) (key : Octets 20)
    (challenge : Bytes) (short : challenge.length < 2 ^ 16) :
    digest order buffer sized [List.ofFn key, challenge] = some (Standard.sha1 (List.ofFn key ++ challenge)) := by
  have fits : ∀ data ∈ [List.ofFn key, challenge], data.length + 64 ≤ 4294967296 := by
    simp only [List.forall_mem_cons, List.length_ofFn, List.not_mem_nil, false_implies, implies_true, and_true]
    omega
  rw [digest_pieces _ _ _ fits, List.flatten_cons, List.flatten_singleton]

theorem Env.HashesBy.eq_sha1 {env : Env} {order : ByteOrder} (hashes : env.HashesBy order) (key : Octets 20)
    (challenge : Bytes) (short : challenge.length < 2 ^ 16) :
    env.sha1 (List.ofFn key ++ challenge) = Standard.sha1 (List.ofFn key ++ challenge) := by
  have computed := hashes (List.replicate 64 0) List.length_replicate key challenge short
  rw [digest_key_challenge _ _ _ _ _ short] at computed
  exact (Option.some.inj computed).symm

/-- The user is known, sending works, and these are the logins so far. -/
structure Session (username : Bytes) (key : Octets 20) (sent : List Bytes) (account : Account) (past : List Event) :
    Prop where
  username : account.username = some username
  key : account.key = key
  sends : ∀ call, account.sendResults call = 0
  logins : logins past = sent

theorem logins_append (first second : List Event) : logins (first ++ second) = logins first ++ logins second := by
  rw [logins, datagrams_append, List.filter_append]
  rfl

theorem logins_silent {event : Event} (silent : event.Silent) : logins [event] = [] := by
  cases event <;> first | rfl | cases silent

/-- Nothing but a login datagram is a login. -/
theorem upheld_session (username : Bytes) (key : Octets 20) (sent : List Bytes) :
    Upheld (· ≠ lanClientTypeAuthMe) (Session username key sent) where
  silent := by
    intro account past event silent session
    refine ⟨session.username, session.key, session.sends, ?_⟩
    rw [logins_append, logins_silent silent, List.append_nil, session.logins]
  frame := by
    intro account past bytes session
    refine ⟨session.username, session.key, session.sends, ?_⟩
    rw [logins_append, session.logins]
    exact List.append_nil sent
  datagram := by
    intro account past type rest other session
    refine ⟨session.username, session.key, fun call => session.sends (call + 1), ?_⟩
    rw [if_pos (session.sends 0), logins_append, session.logins]
    have none : logins [.datagram (type :: rest)] = [] := by simp [SwitchLanPlay.logins, other]
    rw [none, List.append_nil]

theorem lanClientSend_login (packet : Ptr) (len : Nat) (uplink : Uplink) :
    lanClientSend lanClientTypeAuthMe packet len uplink =
      lanClientSendRaw [.ofBytes [lanClientTypeAuthMe], ⟨packet, len⟩] uplink := by
  unfold lanClientSend
  rw [Proc.read_bind, dif_neg (fun fragmenting => absurd fragmenting.1 (by decide))]

/-- The handler answers a request of type 0 from a user, after two loads. -/
theorem lanClientProcessAuthMe_zero (sha1 : Bytes → Bytes) (packet : Ptr) (len : Nat) {s : LanPlay} {username : Bytes}
    (named : s.username = some username) (zero : byteAt packet.memory packet.offset = 0) :
    let size := (len + 2 ^ 16 - 1) % 2 ^ 16
    let answer := sha1 (List.ofFn s.key ++ slice packet.memory (packet.offset + 1) size) ++ username
    let sent := onUplink (lanClientSend lanClientTypeAuthMe ⟨.header, answer, 0⟩ ((20 + username.length) % 2 ^ 16)) s
    lanClientProcessAuthMe sha1 packet len s =
      ⟨(), sent.state, [.load packet.region packet.offset 1, .load packet.region (packet.offset + 1) size] ++
        sent.events⟩ := by
  have first : (readNet8 packet 0 s).value = 0 := congrArg UInt8.toNat zero
  unfold lanClientProcessAuthMe
  rw [Proc.read_bind, named]
  dsimp only
  generalize (len + 2 ^ 16 - 1) % 2 ^ 16 = size, (20 + username.length) % 2 ^ 16 = total
  apply Outcome.ext
  · rfl
  · rw [Proc.bind_state, first, readNet8_state, if_pos rfl]
    rfl
  · rw [Proc.bind_events, first, readNet8_state, if_pos rfl, Proc.bind_events, Proc.bind_events, Proc.pure_events,
      List.append_nil]
    rfl

theorem lanClientProcessAuthMe_other (sha1 : Bytes → Bytes) (packet : Ptr) (len : Nat) {s : LanPlay} {username : Bytes}
    (named : s.username = some username) (other : byteAt packet.memory packet.offset ≠ 0) :
    lanClientProcessAuthMe sha1 packet len s = ⟨(), s, [.load packet.region packet.offset 1]⟩ := by
  have first : (readNet8 packet 0 s).value ≠ 0 := fun same => other (UInt8.toNat.inj same)
  unfold lanClientProcessAuthMe
  rw [Proc.read_bind, named]
  apply Outcome.ext
  · rfl
  · rw [Proc.bind_state, if_neg first]
    rfl
  · rw [Proc.bind_events, if_neg first]
    rfl

section Challenge

variable {username : Bytes} {key : Octets 20} {sent : List Bytes} {s : LanPlay} {past : List Event}
  (session : Session username key sent s.account past)

include session

/-- Sending the answer to a challenge. -/
theorem Session.answered {answer : Bytes} {len : Nat} (whole : answer.length = len) :
    Session username key (sent ++ [lanClientTypeAuthMe :: answer])
      (onUplink (lanClientSend lanClientTypeAuthMe ⟨.header, answer, 0⟩ len) s).state.account
      (past ++ (onUplink (lanClientSend lanClientTypeAuthMe ⟨.header, answer, 0⟩ len) s).events) := by
  subst whole
  have nonempty : (([.ofBytes [lanClientTypeAuthMe], ⟨⟨.header, answer, 0⟩, answer.length⟩] : List Payload).map
      Payload.len).sum ≠ 0 := by
    simp [Payload.ofBytes]
  have sending : s.uplink.sendResults 0 = 0 := session.sends 0
  have outcome := lanClientSendRaw_outcome nonempty s.uplink
  rw [if_pos sending] at outcome
  rw [onUplink, Proc.zoom_state, Proc.zoom_events, lanClientSend_login, outcome]
  refine ⟨session.username, session.key, fun call => session.sends (call + 1), ?_⟩
  have bytes : (([.ofBytes [lanClientTypeAuthMe], ⟨⟨.header, answer, 0⟩, answer.length⟩] : List Payload).map
      Payload.bytes).flatten = lanClientTypeAuthMe :: answer := by
    simp [slice_full]
  rw [bytes, logins_append, session.logins]
  rfl

/-- A login request of the relay is answered as specified. -/
theorem Session.asked {env : Env} {order : ByteOrder} (hashes : env.HashesBy order) {password : Bytes}
    (kept : List.ofFn key = Standard.sha1 password) (short : 20 + username.length < 2 ^ 16) {datagram : RelayDatagram}
    (asks : datagram.Asks) (typed : 2 ≤ datagram.bytes.length) :
    Session username key (sent ++ (loginReply password username datagram).toList)
      (lanClientProcessAuthMe env.sha1 datagram.packet (datagram.bytes.length - 1) s).state.account
      (past ++ (lanClientProcessAuthMe env.sha1 datagram.packet (datagram.bytes.length - 1) s).events) := by
  have upheld := upheld_session username key sent
  have named : s.username = some username := session.username
  have held : s.key = key := session.key
  have bounded : datagram.bytes.length ≤ 4096 := datagram.fits
  have rest : (datagram.bytes.length - 1 + 2 ^ 16 - 1) % 2 ^ 16 = datagram.bytes.length - 2 := by omega
  have challenge : slice datagram.bytes 2 (datagram.bytes.length - 2) = datagram.bytes.drop 2 := by
    rw [slice_eq_take_drop _ _ _ (by omega), List.take_of_length_le (by rw [List.length_drop])]
  have read := upheld.silent _ past (.load .clientBuf 1 1) trivial session
  by_cases zero : byteAt datagram.bytes 1 = 0
  · have loaded := upheld.silent _ _ (.load .clientBuf 2 (datagram.bytes.length - 2)) trivial read
    have hashed := hashes.eq_sha1 key (datagram.bytes.drop 2) (by rw [List.length_drop]; omega)
    have reply : loginReply password username datagram = some (lanClientTypeAuthMe ::
        (env.sha1 (List.ofFn s.key ++ datagram.bytes.drop 2) ++ username)) := by
      rw [loginReply, if_pos ⟨asks, zero⟩, held, hashed, kept]
    have whole : (env.sha1 (List.ofFn s.key ++ datagram.bytes.drop 2) ++ username).length =
        (20 + username.length) % 2 ^ 16 := by
      rw [held, hashed, List.length_append, Standard.length_sha1, Nat.mod_eq_of_lt short]
    have answered := Session.answered loaded whole
    have outcome := lanClientProcessAuthMe_zero env.sha1 datagram.packet (datagram.bytes.length - 1) named zero
    simp only [rest] at outcome
    rw [show slice datagram.packet.memory (datagram.packet.offset + 1) _ = _ from challenge] at outcome
    rw [reply, outcome, Option.toList_some]
    rw [List.append_assoc, List.append_assoc] at answered
    exact answered
  · have nothing : loginReply password username datagram = none := if_neg fun both => zero both.2
    rw [nothing, Option.toList_none, List.append_nil, lanClientProcessAuthMe_other _ _ _ named zero]
    exact read

end Challenge

/-! ## Runs -/

/-- A datagram comes with the digest of `sha1.c`, and with the type of an authentication if it
asks for one. -/
def LoopInput.Proper (order : ByteOrder) : LoopInput → Prop
  | .datagram env arrived => env.HashesBy order ∧ (arrived.Asks → 2 ≤ arrived.bytes.length)
  | _ => True

section Step

variable {order : ByteOrder} {password username : Bytes} {key : Octets 20}
  (kept : List.ofFn key = Standard.sha1 password) (short : 20 + username.length < 2 ^ 16)
  {sent : List Bytes} {s : LanPlay} {past : List Event} (session : Session username key sent s.account past)

include session

/-- Nothing but a login request is answered with a login. -/
theorem Session.step_other {input : LoopInput} (other : ∀ env datagram, input = .datagram env datagram → ¬ datagram.Asks) :
    Session username key sent (loopStep input s).state.account (past ++ (loopStep input s).events) := by
  have counted : Session username key sent (input.counted s.account) past := by
    cases input with
    | frame env memory len mac =>
      rw [LoopInput.counted]
      split <;> exact ⟨session.username, session.key, session.sends, session.logins⟩
    | _ => exact ⟨session.username, session.key, session.sends, session.logins⟩
  exact (upheld_session username key sent).step (by decide) (by decide) (by decide) input
    (fun env datagram here asks => absurd asks (other env datagram here)) counted

include kept short

theorem Session.step {input : LoopInput} (proper : input.Proper order) :
    Session username key (sent ++ (input.loginReply password username).toList) (loopStep input s).state.account
      (past ++ (loopStep input s).events) := by
  cases input with
  | datagram env datagram =>
    by_cases asks : datagram.Asks
    · obtain ⟨hashes, typed⟩ := proper
      have arrived : Session username key sent (s.arrival datagram.bytes).account past :=
        ⟨session.username, session.key, session.sends, session.logins⟩
      have read := (upheld_session username key sent).silent _ _ (.load .clientBuf 0 1) trivial arrived
      have answered := read.asked hashes kept short asks (typed asks)
      have bounded : datagram.bytes.length ≤ 4096 := datagram.fits
      have two := typed asks
      have own : lanClientProcessAuthMe env.sha1 (s.arrivalPtr datagram.bytes) (datagram.bytes.length - 1) _ = _ :=
        lanClientProcessAuthMe_agree env.sha1 (arrivalPtr_agree datagram s) (s.arrival datagram.bytes)
          (Or.inr ⟨by omega, by omega, by omega⟩)
      change Session _ _ _ (recvStep (env, datagram) s).state.account (past ++ (recvStep (env, datagram) s).events)
      rw [recvStep_outcome, show datagram.type = lanClientTypeAuthMe from asks, List.append_cons]
      change Session _ _ _ (lanClientProcessAuthMe env.sha1 (s.arrivalPtr datagram.bytes) _ _).state.account
        (_ ++ (lanClientProcessAuthMe env.sha1 (s.arrivalPtr datagram.bytes) _ _).events)
      rw [own]
      exact answered
    · have nothing : (LoopInput.datagram env datagram).loginReply password username = none :=
        if_neg fun both => asks both.1
      rw [nothing, Option.toList_none, List.append_nil]
      refine session.step_other fun _ _ same => ?_
      cases same
      exact asks
  | _ =>
    simp only [LoopInput.loginReply, Option.toList_none, List.append_nil]
    exact session.step_other fun _ _ same => by cases same

end Step

end SwitchLanPlay
