import SwitchLanPlay.Rpc.Handshake

/-!
# Frames are decoded as they were encoded

The encoding of RFC 6455 for frames whose payload is shorter than 65536 bytes, with
the length in its shortest form.  The stages of `WSConnection::onData` take an
encoded frame apart again, so `onFrame` is invoked once for each frame of a stream,
however the stream is cut.
-/

namespace SwitchLanPlay.Rpc

open Library

/-! ## Encoding -/

/-- A frame as its sender means it. -/
structure SentFrame where
  fin : Bool
  rsv1 : Bool
  rsv2 : Bool
  rsv3 : Bool
  opcode : Fin 16
  /-- The mask key, if the frame is masked. -/
  key : Option (Octets 4)
  payload : Bytes
  short : payload.length < 65536

def flag (set : Bool) (bit : UInt8) : UInt8 := if set then bit else 0

def maskWith (key : Octets 4) (payload : Bytes) : Bytes :=
  payload.mapIdx fun i byte => byte ^^^ key (Fin.ofNat 4 i)

namespace SentFrame

variable (sent : SentFrame)

def firstByte : UInt8 :=
  flag sent.fin 0x80 ||| flag sent.rsv1 0x40 ||| flag sent.rsv2 0x20 ||| flag sent.rsv3 0x10 |||
    UInt8.ofNat sent.opcode

/-- The length in the second byte. -/
def length7 : Nat := if sent.payload.length < 126 then sent.payload.length else 126

def secondByte : UInt8 := flag sent.key.isSome 0x80 ||| UInt8.ofNat sent.length7

def extendedLength : Bytes := if sent.payload.length < 126 then [] else net16 sent.payload.length

def keyBytes : Bytes := sent.key.elim [] List.ofFn

def payloadBytes : Bytes := sent.key.elim sent.payload fun key => maskWith key sent.payload

def encode : Bytes :=
  [sent.firstByte, sent.secondByte] ++ sent.extendedLength ++ sent.keyBytes ++ sent.payloadBytes

/-- The frame that `onFrame` should find. -/
def decoded : WSFrame where
  fin := sent.fin
  rsv1 := sent.rsv1
  rsv2 := sent.rsv2
  rsv3 := sent.rsv3
  mask := sent.key.isSome
  opcode := UInt8.ofNat sent.opcode
  length := sent.payload.length
  maskBytes := sent.key.elim WSFrame.clear.maskBytes List.ofFn
  data := sent.payload

/-- The frame that `sendText` means to send. -/
def text (str : Bytes) (short : str.length < 65536) : SentFrame :=
  ⟨true, false, false, false, 1, none, str, short⟩

end SentFrame

/-! ## Bytes -/

theorem firstByte_fields (fin rsv1 rsv2 rsv3 : Bool) (opcode : Fin 16) :
    let byte := flag fin 0x80 ||| flag rsv1 0x40 ||| flag rsv2 0x20 ||| flag rsv3 0x10 |||
      UInt8.ofNat opcode
    decide (byte &&& 0x80 ≠ 0) = fin ∧ decide (byte &&& 0x40 ≠ 0) = rsv1 ∧
      decide (byte &&& 0x20 ≠ 0) = rsv2 ∧ decide (byte &&& 0x10 ≠ 0) = rsv3 ∧
        byte &&& 0x0F = UInt8.ofNat opcode := by
  revert fin rsv1 rsv2 rsv3 opcode
  decide +kernel

theorem secondByte_fields (masked : Bool) (length : Fin 128) :
    let byte := flag masked 0x80 ||| UInt8.ofNat length
    decide (byte &&& 0x80 ≠ 0) = masked ∧ (byte &&& 0x7F).toNat = length := by
  revert masked length
  decide +kernel

theorem SentFrame.length7_lt (sent : SentFrame) : sent.length7 < 128 := by
  unfold length7
  split <;> omega

theorem headerFrame_encode (sent : SentFrame) :
    headerFrame sent.firstByte sent.secondByte =
      { sent.decoded with
        length := sent.length7
        maskBytes := WSFrame.clear.maskBytes
        data := [] } := by
  obtain ⟨fin, rsv1, rsv2, rsv3, opcode⟩ :=
    firstByte_fields sent.fin sent.rsv1 sent.rsv2 sent.rsv3 sent.opcode
  obtain ⟨masked, length⟩ := secondByte_fields sent.key.isSome ⟨sent.length7, sent.length7_lt⟩
  simp only [headerFrame, SentFrame.firstByte, SentFrame.secondByte, SentFrame.decoded, WSFrame.mk.injEq]
  exact ⟨fin, rsv1, rsv2, rsv3, masked, opcode, length, trivial, rfl⟩

theorem unmask_maskWith (key : Octets 4) (payload : Bytes) :
    unmask (List.ofFn key) (maskWith key payload) = payload := by
  have keyAt (i : Nat) : byteAt (List.ofFn key) (i % 4) = key (Fin.ofNat 4 i) := by
    have within : i % 4 < (List.ofFn key).length := by
      rw [List.length_ofFn]
      exact Nat.mod_lt _ (by decide)
    rw [byteAt_eq_getElem _ _ within, List.getElem_ofFn]
    rfl
  refine List.ext_getElem ?_ ?_
  · simp [unmask, maskWith]
  · intro i _ _
    simp only [unmask, maskWith, List.getElem_mapIdx, keyAt, UInt8.xor_assoc, UInt8.xor_self,
      UInt8.xor_zero]

theorem SentFrame.length_payloadBytes (sent : SentFrame) :
    sent.payloadBytes.length = sent.payload.length := by
  unfold payloadBytes
  cases sent.key with
  | none => rfl
  | some key => exact List.length_mapIdx

theorem copyTo_front (front rest : Bytes) : listQueue.copyTo (front ++ rest) front.length = front := by
  rw [copyTo_append rest (Nat.le_refl _)]
  have whole := slice_full front
  simp only [slice, Nat.zero_add] at whole
  exact whole

/-! ## Stages -/

section Stages

variable {σ : Type} (env : RpcEnv σ)

/-- The connection at a stage of a frame. -/
def WSConnection.staged (conn : Connection σ) (wsState : WSCState) (frame : WSFrame) (bl : Bytes) :
    Connection σ :=
  { conn with wsState, frame, bl }

variable (conn : Connection σ) (sent : SentFrame) (rest : Bytes)

theorem decodes_header (before : WSFrame) :
    Decodes env (conn.staged .waitDecodeHeader before (sent.encode ++ rest))
      (conn.staged (lengthState sent.length7)
        { sent.decoded with length := sent.length7, maskBytes := WSFrame.clear.maskBytes, data := [] }
        (sent.extendedLength ++ (sent.keyBytes ++ (sent.payloadBytes ++ rest)))) [] := by
  have bytes : sent.encode ++ rest = sent.firstByte :: sent.secondByte ::
      (sent.extendedLength ++ (sent.keyBytes ++ (sent.payloadBytes ++ rest))) := by
    simp only [SentFrame.encode, List.append_assoc, List.cons_append, List.nil_append]
  rw [bytes, ← headerFrame_encode]
  have taken : Decodes env (conn.staged .waitDecodeHeader before (sent.firstByte :: sent.secondByte ::
      (sent.extendedLength ++ (sent.keyBytes ++ (sent.payloadBytes ++ rest))))) _ _ :=
    .header rfl (Nat.le_add_left 2 _)
  have length : (headerFrame sent.firstByte sent.secondByte).length = sent.length7 := by
    rw [headerFrame_encode]
  rw [← length]
  exact taken

/-- The mask key, if there is one, and nothing otherwise. -/
theorem decodes_key :
    Decodes env
      (conn.staged .waitingForMaskKey { sent.decoded with maskBytes := WSFrame.clear.maskBytes, data := [] }
        (sent.keyBytes ++ (sent.payloadBytes ++ rest)))
      (conn.staged .waitingForPayload { sent.decoded with data := [] } (sent.payloadBytes ++ rest)) [] := by
  unfold SentFrame.keyBytes SentFrame.decoded
  cases sent.key with
  | none => exact .maskKey rfl nofun
  | some key =>
      have enough : 4 ≤ (List.ofFn key ++ (sent.payloadBytes ++ rest)).length := by
        rw [List.length_append, List.length_ofFn]
        exact Nat.le_add_right 4 _
      have taken : Decodes env
          (conn.staged .waitingForMaskKey
            { sent.decoded with mask := true, maskBytes := WSFrame.clear.maskBytes, data := [] }
            (List.ofFn key ++ (sent.payloadBytes ++ rest)))
          (conn.staged .waitingForPayload
            { sent.decoded with
              mask := true
              maskBytes := listQueue.copyTo (List.ofFn key ++ (sent.payloadBytes ++ rest)) 4
              data := [] }
            (sent.payloadBytes ++ rest)) [] :=
        .maskKey rfl fun short => absurd short.2 (Nat.not_lt.mpr enough)
      have copied := copyTo_front (List.ofFn key) (sent.payloadBytes ++ rest)
      rw [List.length_ofFn] at copied
      rw [copied] at taken
      exact taken

/-- The payload without its mask. -/
theorem payload_encode :
    (conn.staged .waitingForPayload { sent.decoded with data := [] }
      (sent.payloadBytes ++ rest)).payload listQueue = sent.payload := by
  have copied := copyTo_front sent.payloadBytes rest
  rw [sent.length_payloadBytes] at copied
  change (if sent.key.isSome then unmask (sent.key.elim WSFrame.clear.maskBytes List.ofFn)
    (listQueue.copyTo (sent.payloadBytes ++ rest) sent.payload.length)
    else listQueue.copyTo (sent.payloadBytes ++ rest) sent.payload.length) = _
  rw [copied]
  unfold SentFrame.payloadBytes
  cases sent.key with
  | none => rfl
  | some key => exact unmask_maskWith key sent.payload

theorem decodes_payload :
    Decodes env
      (conn.staged .waitingForPayload { sent.decoded with data := [] } (sent.payloadBytes ++ rest))
      (onFrame env (conn.staged .waitDecodeHeader sent.decoded rest)).state
      (onFrame env (conn.staged .waitDecodeHeader sent.decoded rest)).events := by
  have enough : sent.payload.length ≤ (sent.payloadBytes ++ rest).length := by
    rw [List.length_append, sent.length_payloadBytes]
    exact Nat.le_add_right _ _
  have framed : (conn.staged .waitingForPayload { sent.decoded with data := [] }
      (sent.payloadBytes ++ rest)).framed = conn.staged .waitDecodeHeader sent.decoded rest := by
    have dropped : (sent.payloadBytes ++ rest).drop sent.payload.length = rest :=
      List.drop_left' sent.length_payloadBytes
    rw [WSConnection.framed, payload_encode]
    exact congrArg (conn.staged .waitDecodeHeader sent.decoded) dropped
  rw [← framed]
  exact .payload rfl enough

/-- The length, if it is not in the second byte. -/
theorem rests_length {final : Connection σ} {events : List RpcEvent}
    (rests : Rests (decodeStep env)
      (conn.staged .waitingForMaskKey { sent.decoded with maskBytes := WSFrame.clear.maskBytes, data := [] }
        (sent.keyBytes ++ (sent.payloadBytes ++ rest))) final events) :
    Rests (decodeStep env)
      (conn.staged (lengthState sent.length7)
        { sent.decoded with length := sent.length7, maskBytes := WSFrame.clear.maskBytes, data := [] }
        (sent.extendedLength ++ (sent.keyBytes ++ (sent.payloadBytes ++ rest)))) final events := by
  unfold SentFrame.length7 SentFrame.extendedLength
  by_cases small : sent.payload.length < 126
  · have state : lengthState sent.payload.length = .waitingForMaskKey := by
      rw [lengthState, if_neg (by omega), if_neg (by omega)]
    rw [if_pos small, if_pos small, state]
    exact rests
  · rw [if_neg small, if_neg small]
    have length : 256 * (UInt8.ofNat (sent.payload.length / 256)).toNat +
        (UInt8.ofNat sent.payload.length).toNat = sent.payload.length := by
      rw [net16_toNat, Nat.mod_eq_of_lt sent.short]
    have taken : Decodes env
        (conn.staged .waitingFor16BitLength
          { sent.decoded with length := 126, maskBytes := WSFrame.clear.maskBytes, data := [] }
          (net16 sent.payload.length ++ (sent.keyBytes ++ (sent.payloadBytes ++ rest))))
        (conn.staged .waitingForMaskKey
          { sent.decoded with
            length := 256 * (UInt8.ofNat (sent.payload.length / 256)).toNat +
              (UInt8.ofNat sent.payload.length).toNat
            maskBytes := WSFrame.clear.maskBytes
            data := [] }
          (sent.keyBytes ++ (sent.payloadBytes ++ rest))) [] :=
      .length16 rfl (Nat.le_add_left 2 _)
    rw [length] at taken
    exact .move (decodeStep_of_decodes env taken) rests

/-- An encoded frame at the front of the queue is decoded, and `onFrame` is invoked
with it. -/
theorem rests_encode {conn final : Connection σ} {sent : SentFrame} {rest : Bytes} {events : List RpcEvent}
    (waiting : conn.progress = (.waitDecodeHeader, sent.encode ++ rest))
    (rests : Rests (decodeStep env) (onFrame env (conn.staged .waitDecodeHeader sent.decoded rest)).state
      final events) :
    Rests (decodeStep env) conn final
      ((onFrame env (conn.staged .waitDecodeHeader sent.decoded rest)).events ++ events) := by
  obtain ⟨here, front⟩ := Prod.mk.inj waiting
  have start : conn = conn.staged .waitDecodeHeader conn.frame (sent.encode ++ rest) := by
    rw [← here, ← front]
    rfl
  have payload := Rests.move (decodeStep_of_decodes env (decodes_payload env conn sent rest)) rests
  have key := Rests.move (decodeStep_of_decodes env (decodes_key env conn sent rest)) payload
  have length := rests_length env conn sent rest key
  have header := Rests.move (decodeStep_of_decodes env (decodes_header env conn sent rest conn.frame)) length
  rw [← start] at header
  exact header

end Stages

/-! ## Streams -/

variable {σ : Type} (env : RpcEnv σ)

theorem frames_answers {events : List RpcEvent} (answers : ∀ event ∈ events, Answers event) :
    frames events = [] := by
  apply List.filterMap_eq_nil_iff.mpr
  intro event member
  cases event with
  | frame frame => exact absurd (answers _ member) id
  | message | onMessage | write | add | close | openFile => rfl

theorem frames_onFrame (conn : Connection σ) : frames (onFrame env conn).events = [conn.frame] := by
  have others := frames_answers (handleFrame_progress env conn.frame conn).2
  rw [onFrame_eq]
  change conn.frame :: frames _ = _
  rw [others]

/-- The frames of a stream are decoded one after the other, up to its end. -/
theorem rests_stream (sent : List SentFrame) {conn : Connection σ}
    (waiting : conn.progress = (.waitDecodeHeader, (sent.map SentFrame.encode).flatten)) :
    ∃ final events, Rests (decodeStep env) conn final events ∧
      frames events = sent.map SentFrame.decoded ∧ final.progress = (.waitDecodeHeader, []) := by
  induction sent generalizing conn with
  | nil =>
      obtain ⟨here, nothing⟩ := Prod.mk.inj waiting
      have blocked : decodeStep env conn = none := by simp [decodeStep, here, nothing]
      exact ⟨conn, [], .stop blocked, rfl, waiting⟩
  | cons first others ih =>
      let framed := conn.staged .waitDecodeHeader first.decoded (others.map SentFrame.encode).flatten
      obtain ⟨kept, -⟩ := onFrame_progress env framed
      obtain ⟨final, events, rests, decoded, idle⟩ := ih kept
      refine ⟨final, _, rests_encode env waiting rests, ?_, idle⟩
      rw [frames_append, frames_onFrame, decoded]
      rfl

/-- The bytes that were written to the client. -/
def writtenBytes (events : List RpcEvent) : Bytes :=
  events.flatMap fun event =>
    match event with
    | .write data => data
    | _ => []

theorem sendText_encode (str : Bytes) (short : str.length < 65536) (conn : Connection σ) :
    writtenBytes (sendText str conn).events = (SentFrame.text str short).encode := by
  have first : (SentFrame.text str short).firstByte = 0x81 := by
    change flag true 0x80 ||| flag false 0x40 ||| flag false 0x20 ||| flag false 0x10 |||
      UInt8.ofNat (1 : Fin 16) = 0x81
    decide
  rw [SentFrame.encode, first]
  by_cases small : str.length < 126
  · simp [sendText, SentFrame.text, SentFrame.secondByte, SentFrame.length7, SentFrame.extendedLength,
      SentFrame.keyBytes, SentFrame.payloadBytes, flag, writtenBytes, small]
  · simp [sendText, SentFrame.text, SentFrame.secondByte, SentFrame.length7, SentFrame.extendedLength,
      SentFrame.keyBytes, SentFrame.payloadBytes, flag, writtenBytes, small, short]

/-- From the end of the handshake on, `onFrame` is invoked once for each frame of the
stream, in order and with what its sender meant, and every byte is consumed, however
the stream is cut.  The loop of `onData` ends on every event, and what `sendText`
writes is such a frame. -/
theorem decoding_inverts_encoding (sent : List SentFrame) (chunks : List Bytes)
    (cut : chunks.flatten = (sent.map SentFrame.encode).flatten) (conn : Connection σ)
    (ready : conn.progress = (.waitDecodeHeader, [])) :
    let run := Proc.runAll (wsOnData env listQueue) chunks conn
    frames run.events = sent.map SentFrame.decoded ∧ run.state.progress = (.waitDecodeHeader, []) ∧
      (∀ (before : Connection σ) (passes : Nat), listQueue.passes before.bl ≤ passes →
        decodeLoop env listQueue passes before =
          decodeLoop env listQueue (listQueue.passes before.bl) before) ∧
      ∀ (str : Bytes) (short : str.length < 65536) (before : Connection σ),
        writtenBytes (sendText str before).events = (SentFrame.text str short).encode := by
  obtain ⟨here, nothing⟩ := Prod.mk.inj ready
  have resting : decodeStep env conn = none := by simp [decodeStep, here, nothing]
  have waiting : (conn.behind conn.rl chunks.flatten).progress =
      (.waitDecodeHeader, (sent.map SentFrame.encode).flatten) := by
    simp [WSConnection.progress, WSConnection.behind, here, nothing, cut]
  obtain ⟨-, events, sameFrames, rests⟩ := upgraded_run env chunks (upgraded_of_waiting here) resting
  obtain ⟨final, others, rests', decoded, idle⟩ := rests_stream env sent waiting
  obtain ⟨sameState, rfl⟩ := (rests conn.rl).unique rests'
  refine ⟨sameFrames.trans decoded, ?_, ?_, ?_⟩
  · rw [← sameState] at idle
    simpa [WSConnection.progress, WSConnection.behind] using idle
  · intro before passes enough
    exact decodeLoop_passes env enough
  · intro str short before
    exact sendText_encode str short before

/-- A ping that is masked. -/
def maskedPing (payload : Bytes) (short : payload.length < 65536) : SentFrame :=
  ⟨true, false, false, false, 9, some fun i => UInt8.ofNat i, payload, short⟩

/-- Two frames that arrive byte by byte, right after a handshake. -/
theorem decoding_inverts_encoding_byByte :
    let sent := [SentFrame.text [65] (by decide), maskedPing [5, 6] (by decide)]
    let chunks := (sent.map SentFrame.encode).flatten.map ([·])
    frames (Proc.runAll (wsOnData plainEnv listQueue) chunks (opened plainEnv () upgradeLines)).events =
      sent.map SentFrame.decoded := by
  intro sent chunks
  have cut : chunks.flatten = (sent.map SentFrame.encode).flatten := by
    rw [List.flatten_eq_flatMap, List.flatMap_map]
    exact List.flatMap_singleton' _
  have ready : (opened plainEnv () upgradeLines).progress = (.waitDecodeHeader, []) := by
    obtain ⟨-, nothing, -⟩ := upgradeLines_accepted.silent (List.append_nil upgradeLines).symm
    exact congrArg (Prod.mk _) nothing
  exact (decoding_inverts_encoding plainEnv sent chunks cut _ ready).1

end SwitchLanPlay.Rpc
