import SwitchLanPlay.Library.Bytes
import SwitchLanPlay.Library.Proc

/-!
# Negotiating with a SOCKS5 server

`Socks5Protocol` (`proxy_socks5.cpp`) over the events of its TCP handle.  Each reply of
the server is awaited by a handler that runs once, for one data event, and that expects
exactly the reply in it.  The negotiation therefore succeeds for one way only of
cutting the stream into events: the two replies come in events of their own.

A handler that is registered while an event is published waits for the next one, and a
handle that is being closed publishes no data (uvw).
-/

namespace SwitchLanPlay.Proxy.Socks5

open Library

/-! ## The protocol -/

inductive ErrCode where
  | versionMismatch
  | unexpectMethod
  | unexpectResponse
  | unexpectAddressType
  | unexpectLength
  deriving DecidableEq

/-- `connect` or `associate` is called. -/
inductive Purpose where
  | connect
  | associate
  deriving DecidableEq

def Purpose.command : Purpose → UInt8
  | .connect => 1
  | .associate => 3

/-- What is asked of the server; address and port are in network order. -/
structure Request where
  purpose : Purpose
  sinAddr : Bytes
  sinPort : Bytes

def Request.toBytes (request : Request) : Bytes :=
  [5, request.purpose.command, 0, 1] ++ request.sinAddr ++ request.sinPort

/-- The handlers that run once. -/
inductive OnceHandler where
  /-- the one that `auth` registers -/
  | methodReply
  /-- the one that `connect` or `associate` registers after it -/
  | finalReply
  deriving DecidableEq

structure Protocol where
  request : Request
  /-- the handlers for the next data event -/
  once : List OnceHandler
  /-- `dataCallback` gets the data events, since `readyCallback`. -/
  forwarding : Bool
  closing : Bool

inductive TcpEvent where
  | connected
  | data (data : Bytes)

inductive ProtocolEvent where
  | read
  | write (data : Bytes)
  | error (errCode : ErrCode)
  | close
  | stop
  | ready
  | udpReady (sinAddr sinPort : Bytes)
  /-- `dataCallback` -/
  | delivered (data : Bytes)
  deriving DecidableEq

abbrev Action := Proc Protocol ProtocolEvent Unit

/-- `RASSERT` -/
def rassert (expression : Prop) [Decidable expression] (errCode : ErrCode) (rest : Action) : Action :=
  if expression then rest
  else do
    Proc.emit (.error errCode)
    Proc.emit .close
    Proc.update fun s => { s with closing := true }

/-- The continuation that `connect` and `associate` give to `auth`. -/
def sendRequest : Action := do
  let s ← Proc.read
  Proc.emit (.write s.request.toBytes)
  Proc.update fun s => { s with once := s.once ++ [.finalReply] }

def onMethodReply (e : Bytes) : Action :=
  rassert (e.length = 2) .unexpectLength <|
    rassert (byteAt e 0 = 5) .versionMismatch <|
    rassert (byteAt e 1 = 0) .unexpectMethod sendRequest

/-- `readyCallback` or `udpReadyCallback`; the former registers `dataCallback`. -/
def onReady (e : Bytes) : Action := do
  let s ← Proc.read
  match s.request.purpose with
  | .connect => do
      Proc.emit .stop
      Proc.update fun s => { s with forwarding := true }
      Proc.emit .ready
  | .associate => Proc.emit (.udpReady (slice e 4 4) (slice e 8 2))

def onFinalReply (e : Bytes) : Action :=
  rassert (e.length = 10) .unexpectLength <|
    rassert (byteAt e 0 = 5) .versionMismatch <|
    rassert (byteAt e 1 = 0) .unexpectResponse <|
    rassert (byteAt e 3 = 1) .unexpectAddressType (onReady e)

def OnceHandler.run (e : Bytes) : OnceHandler → Action
  | .methodReply => onMethodReply e
  | .finalReply => onFinalReply e

/-- A data event: the handlers that run once are taken from the list first. -/
def publishData (e : Bytes) : Action := do
  let s ← Proc.read
  if s.closing then
    pure ()
  else
    Proc.update fun s => { s with once := [] }
    if s.forwarding then Proc.emit (.delivered e)
    Proc.runAll (OnceHandler.run e) s.once

def publish : TcpEvent → Action
  | .connected => do
      Proc.emit .read
      Proc.emit (.write [5, 1, 0])
  | .data e => publishData e

/-- The protocol once `connect` or `associate` was called. -/
def start (request : Request) : Protocol := ⟨request, [.methodReply], false, false⟩

/-- What happens once the connection is made and the server's bytes arrive, cut into
data events. -/
def negotiate (request : Request) (events : List Bytes) : List ProtocolEvent :=
  (Proc.runAll publish (.connected :: events.map .data) (start request)).events

/-! ## Each data event -/

section Events

variable {s : Protocol} {e : Bytes}

theorem rassert_of_pos {expression : Prop} [Decidable expression] (holds : expression) (errCode : ErrCode)
    (rest : Action) : rassert expression errCode rest = rest := if_pos holds

theorem error_mem_rassert {expression : Prop} [Decidable expression] (fails : ¬ expression) (errCode : ErrCode)
    (rest : Action) (s : Protocol) : .error errCode ∈ (rassert expression errCode rest s).events := by
  rw [rassert, if_neg fails]
  exact List.mem_cons_self

/-- The one handler that waits runs. -/
theorem publishData_once {handler : OnceHandler} (waiting : s.once = [handler]) (quiet : s.forwarding = false)
    (isOpen : s.closing = false) : publishData e s = handler.run e { s with once := [] } := by
  unfold publishData
  rw [Proc.read_bind, if_neg (by rw [isOpen]; decide), if_neg (by rw [quiet]; decide), waiting]
  ext1
  · rfl
  · rfl
  · exact List.append_nil _

theorem publishData_forwarding (idle : s.once = []) (forwarding : s.forwarding = true)
    (isOpen : s.closing = false) : publishData e s = ⟨(), s, [.delivered e]⟩ := by
  obtain ⟨request, once, forwards, closing⟩ := s
  cases idle
  cases forwarding
  cases isOpen
  rfl

/-- From then on every event is delivered. -/
theorem runAll_forwarding (idle : s.once = []) (forwarding : s.forwarding = true) (isOpen : s.closing = false)
    (events : List Bytes) :
    (Proc.runAll publish (events.map .data) s).events = events.map .delivered := by
  induction events with
  | nil => rfl
  | cons e rest ih =>
    have now : publish (.data e) s = ⟨(), s, [.delivered e]⟩ := publishData_forwarding idle forwarding isOpen
    rw [List.map_cons, Proc.runAll_cons_events, now, ih]
    rfl

end Events

/-! ## The replies -/

/-- `05 00`: no authentication. -/
def methodReply : Bytes := [5, 0]

/-- A reply that grants the request, with an IPv4 address. -/
structure Grants (reply : Bytes) : Prop where
  length : reply.length = 10
  version : byteAt reply 0 = 5
  response : byteAt reply 1 = 0
  addressType : byteAt reply 3 = 1

/-- After the first reply the request is sent, and the second one awaited. -/
def requested (request : Request) : Protocol := ⟨request, [.finalReply], false, false⟩

/-- After the second reply of a `connect` the data is the owner's. -/
def connected (request : Request) : Protocol := ⟨request, [], true, false⟩

section Replies

variable (request : Request)

theorem publish_methodReply :
    publish (.data methodReply) (start request) = ⟨(), requested request, [.write request.toBytes]⟩ := rfl

theorem error_mem_of_first {e : Bytes} (wrong : e.length ≠ 2) :
    .error .unexpectLength ∈ (publish (.data e) (start request)).events := by
  change _ ∈ (publishData e (start request)).events
  rw [publishData_once rfl rfl rfl]
  exact error_mem_rassert wrong _ _ _

theorem publish_reply {reply : Bytes} (grants : Grants reply) (purpose : request.purpose = .connect) :
    publish (.data reply) (requested request) = ⟨(), connected request, [.stop, .ready]⟩ := by
  change publishData reply (requested request) = _
  rw [publishData_once rfl rfl rfl]
  change onFinalReply reply _ = _
  rw [onFinalReply, rassert_of_pos grants.length, rassert_of_pos grants.version, rassert_of_pos grants.response,
    rassert_of_pos grants.addressType, onReady, Proc.read_bind]
  change (match request.purpose with | .connect => _ | .associate => _ : Action) _ = _
  rw [purpose]
  rfl

theorem error_mem_of_second {e : Bytes} (wrong : e.length ≠ 10) :
    .error .unexpectLength ∈ (publish (.data e) (requested request)).events := by
  change _ ∈ (publishData e (requested request)).events
  rw [publishData_once rfl rfl rfl]
  exact error_mem_rassert wrong _ _ _

end Replies

/-! ## The whole negotiation -/

def ProtocolEvent.deliveredBytes : ProtocolEvent → Bytes
  | .delivered data => data
  | _ => []

/-- The owner is told that the connection is ready, no error is reported, and the bytes
that the server sent behind its replies are delivered. -/
structure Negotiated (events : List ProtocolEvent) (app : Bytes) : Prop where
  ready : .ready ∈ events
  noError : ∀ errCode, .error errCode ∉ events
  delivered : events.flatMap ProtocolEvent.deliveredBytes = app

theorem negotiate_eq (request : Request) (events : List Bytes) :
    negotiate request events = [.read, .write [5, 1, 0]] ++
      (Proc.runAll publish (events.map .data) (start request)).events := rfl

theorem negotiate_separate {request : Request} (purpose : request.purpose = .connect) {reply : Bytes}
    (grants : Grants reply) (rest : List Bytes) :
    negotiate request (methodReply :: reply :: rest) =
      [.read, .write [5, 1, 0], .write request.toBytes, .stop, .ready] ++ rest.map .delivered := by
  rw [negotiate_eq, List.map_cons, List.map_cons, Proc.runAll_cons_events, publish_methodReply,
    Proc.runAll_cons_events, publish_reply request grants purpose, runAll_forwarding rfl rfl rfl]
  rfl

/-- An error that is reported somewhere is reported in the whole. -/
theorem error_mem_negotiate {request : Request} (before : List Bytes) {e : Bytes} {rest : List Bytes}
    {s : Protocol} (reached : (Proc.runAll publish (before.map .data) (start request)).state = s)
    {errCode : ErrCode} (reported : .error errCode ∈ (publish (.data e) s).events) :
    .error errCode ∈ negotiate request (before ++ e :: rest) := by
  rw [negotiate_eq, List.map_append, Proc.runAll_append_events, reached, List.map_cons, Proc.runAll_cons_events]
  apply List.mem_append_right
  apply List.mem_append_right
  exact List.mem_append_left _ reported

theorem flatMap_delivered (data : List Bytes) :
    (data.map ProtocolEvent.delivered).flatMap ProtocolEvent.deliveredBytes = data.flatten := by
  rw [List.flatMap_map]
  exact List.flatMap_id

theorem negotiated_separate {request : Request} (purpose : request.purpose = .connect) {reply : Bytes}
    (grants : Grants reply) (rest : List Bytes) :
    Negotiated (negotiate request (methodReply :: reply :: rest)) rest.flatten := by
  rw [negotiate_separate purpose grants]
  constructor
  case ready => exact List.mem_append_left _ (by simp)
  case noError =>
    intro errCode
    simp
  case delivered =>
    rw [List.flatMap_append, flatMap_delivered]
    rfl

/-- A stream of the two replies and further bytes leads to a connection that delivers the
further bytes exactly when each of the two replies is a data event of its own. -/
theorem negotiate_iff {request : Request} (purpose : request.purpose = .connect) {reply : Bytes}
    (grants : Grants reply) (app : Bytes) (events : List Bytes)
    (stream : events.flatten = methodReply ++ reply ++ app) :
    Negotiated (negotiate request events) app ↔ ∃ rest, events = methodReply :: reply :: rest := by
  rw [List.append_assoc] at stream
  constructor
  · intro negotiated
    cases events with
    | nil => cases stream
    | cons first more =>
      rw [List.flatten_cons] at stream
      have firstLength : first.length = methodReply.length := by
        by_contra wrong
        exact negotiated.noError _ (error_mem_negotiate [] rfl (error_mem_of_first request wrong))
      obtain ⟨rfl, behind⟩ := List.append_inj stream firstLength
      cases more with
      | nil =>
        have empty := (List.append_eq_nil_iff.mp behind.symm).1
        have size := grants.length
        rw [empty] at size
        cases size
      | cons second rest =>
        rw [List.flatten_cons] at behind
        have secondLength : second.length = reply.length := by
          by_contra wrong
          rw [grants.length] at wrong
          exact negotiated.noError _
            (error_mem_negotiate [methodReply] rfl (error_mem_of_second request wrong))
        obtain ⟨rfl, -⟩ := List.append_inj behind secondLength
        exact ⟨rest, rfl⟩
  · rintro ⟨rest, rfl⟩
    obtain rfl : rest.flatten = app := by
      rw [List.flatten_cons, List.flatten_cons] at stream
      exact List.append_cancel_left (List.append_cancel_left stream)
    exact negotiated_separate purpose grants rest

/-- A connection to some address, and the reply of a server that made it. -/
def sampleRequest : Request := ⟨.connect, [10, 13, 0, 1], [0, 80]⟩

def sampleReply : Bytes := [5, 0, 0, 1, 10, 13, 0, 2, 4, 0]

theorem sampleReply_grants : Grants sampleReply := ⟨rfl, rfl, rfl, rfl⟩

theorem negotiate_three_events :
    Negotiated (negotiate sampleRequest [methodReply, sampleReply, [7], [8, 9]]) [7, 8, 9] :=
  (negotiate_iff rfl sampleReply_grants [7, 8, 9] [methodReply, sampleReply, [7], [8, 9]] rfl).mpr ⟨_, rfl⟩

/-- The second reply and the first byte behind it come in one event; or the first reply
comes in two. -/
theorem negotiate_coalesced :
    .error .unexpectLength ∈ negotiate sampleRequest [methodReply, sampleReply ++ [7]] ∧
      .error .unexpectLength ∈ negotiate sampleRequest [[5], [0], sampleReply] ∧
      ¬ Negotiated (negotiate sampleRequest [methodReply, sampleReply ++ [7]]) [7] := by
  have reported : .error .unexpectLength ∈ negotiate sampleRequest [methodReply, sampleReply ++ [7]] := by decide
  refine ⟨reported, by decide, ?_⟩
  intro negotiated
  exact negotiated.noError _ reported

end SwitchLanPlay.Proxy.Socks5
