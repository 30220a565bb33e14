import SwitchLanPlay.Digest.Context
import SwitchLanPlay.Rpc.Base64
import SwitchLanPlay.Rpc.Handshake

/-!
# Which requests open a WebSocket

The request as its client wrote it, and the answer a client checks: the key it
sent and a fixed identifier, hashed by `sha1.c` and encoded by `base64.hpp`.  What
the server makes of the method is nothing: any text in its place will do.
-/

namespace SwitchLanPlay.Rpc

open Library Digest

/-! ## Specification -/

/-- The name of a header, in lower case, and its value without the blanks in front of it. -/
def header? (line : Bytes) : Option (Bytes × Bytes) :=
  (cutAt colon line).map fun (key, value) => (toLower key, value.dropWhile (· = space))

/-- The value of the last header with the given name. -/
def headerValue (headers : List Bytes) (name : Bytes) : Bytes :=
  (headers.reverse.findSome? fun line =>
    match header? line with
    | some (key, value) => if key = name then some value else none
    | none => none).getD []

/-- A request line and headers that ask for the protocol of the server. -/
structure Requests (first : Bytes) (headers : List Bytes) : Prop where
  root : ∃ method, space ∉ method ∧ first = method ++ ascii " / HTTP/1.1"
  colons : ∀ line ∈ headers, colon ∈ line
  upgrade : headerValue headers (ascii "upgrade") = ascii "websocket"
  connection : headerValue headers (ascii "connection") = ascii "Upgrade"
  version : headerValue headers (ascii "sec-websocket-version") = ascii "13"
  protocol : headerValue headers (ascii "sec-websocket-protocol") = ascii "switch-lan-play-rpc"
  key : headerValue headers (ascii "sec-websocket-key") ≠ []

/-- A line as it is sent: a line feed ends it, or a carriage return and a line feed. -/
def SentAs (line piece : Bytes) : Prop :=
  lineFeed ∉ line ∧ (piece = line ++ [carriageReturn, lineFeed] ∨
    piece = line ++ [lineFeed] ∧ line.getLast? ≠ some carriageReturn)

/-- The bytes begin with these lines. -/
def BeginsWith (stream : Bytes) (lines : List Bytes) : Prop :=
  ∃ pieces rest, List.Forall₂ SentAs lines pieces ∧ stream = pieces.flatten ++ rest

/-- The bytes begin with a request for the protocol of the server, up to its blank line. -/
def Asks (stream first : Bytes) (headers : List Bytes) : Prop :=
  BeginsWith stream (first :: headers ++ [[]]) ∧ Requests first headers

/-- The response that a client with this key expects. -/
def expected (key : Bytes) : Bytes :=
  httpResp101Part ++ Base64.encoding (Standard.sha1 (key ++ webSocketGuid)) ++ ascii "\r\n\r\n"

/-- The digest and the encoding are those of `sha1.c` and `base64.hpp`, as `WSConnection` calls them. -/
structure Computes {σ : Type} (env : RpcEnv σ) (order : ByteOrder) : Prop where
  sha1 : ∀ (buffer : Bytes) (sized : buffer.length = 64) (text : Bytes), text.length + 64 ≤ 4294967296 →
    digest order buffer sized [text] = some (env.sha1 text)
  base64 : ∀ (stale3 : Octets 3) (stale4 : Octets 4) (digest : Bytes), digest.length = 20 →
    Base64.base64Encode stale3 stale4 digest 20 = env.base64Encode digest

/-! ## The request line -/

theorem cutAt_eq_some_iff {byte : UInt8} {text front rest : Bytes} :
    cutAt byte text = some (front, rest) ↔ text = front ++ byte :: rest ∧ byte ∉ front := by
  rw [cutAt, Option.map_eq_some_iff]
  constructor
  · rintro ⟨index, found, cut⟩
    obtain ⟨front', rest', rfl, free, rfl⟩ := findIdx?_eq_some_iff_cut.mp found
    rw [List.take_left, List.drop_length_add_append, List.drop_succ_cons, List.drop_zero] at cut
    cases cut
    exact ⟨rfl, free⟩
  · rintro ⟨rfl, free⟩
    refine ⟨front.length, findIdx?_separator free rest, ?_⟩
    rw [List.take_left, List.drop_length_add_append, List.drop_succ_cons, List.drop_zero]

theorem cutAt_cut {byte : UInt8} {front : Bytes} (free : byte ∉ front) (rest : Bytes) :
    cutAt byte (front ++ byte :: rest) = some (front, rest) :=
  cutAt_eq_some_iff.mpr ⟨rfl, free⟩

/-- The path of a request line; there is no other test of the method than that it ends. -/
theorem getPath_eq_iff {line path : Bytes} (filled : path ≠ []) :
    getPath line = path ↔
      ∃ method, space ∉ method ∧ space ∉ path ∧ line = method ++ space :: (path ++ space :: ascii "HTTP/1.1") := by
  constructor
  · intro found
    unfold getPath at found
    split at found
    · exact absurd found.symm filled
    · rename_i method behind cut
      split at found
      · exact absurd found.symm filled
      · rename_i path' version cut'
        split at found
        · exact absurd found.symm filled
        · rename_i http
          obtain ⟨rfl, methodFree⟩ := cutAt_eq_some_iff.mp cut
          obtain ⟨rfl, pathFree⟩ := cutAt_eq_some_iff.mp cut'
          obtain rfl := not_not.mp http
          subst found
          exact ⟨method, methodFree, pathFree, rfl⟩
  · rintro ⟨method, methodFree, pathFree, rfl⟩
    simp [getPath, cutAt_cut methodFree, cutAt_cut pathFree]

theorem getPath_eq_root_iff {line : Bytes} :
    getPath line = ascii "/" ↔ ∃ method, space ∉ method ∧ line = method ++ ascii " / HTTP/1.1" := by
  rw [getPath_eq_iff (by decide)]
  exact exists_congr fun method => and_congr_right fun _ => and_iff_right (by decide)

/-! ## Headers -/

theorem cutAt_eq_none_iff (byte : UInt8) (text : Bytes) : cutAt byte text = none ↔ byte ∉ text := by
  rw [cutAt, Option.map_eq_none_iff, List.findIdx?_eq_none_iff]
  constructor
  · intro absent member
    simpa using absent byte member
  · rintro absent other member
    simp only [decide_eq_false_iff_not]
    rintro rfl
    exact absent member

/-- A later header replaces an earlier one of the same name. -/
theorem headerValue_snoc (headers : List Bytes) {line key value : Bytes} (read : header? line = some (key, value)) :
    headerValue (headers ++ [line]) = Function.update (headerValue headers) key value := by
  funext name
  rw [headerValue, List.reverse_append, List.reverse_singleton, List.singleton_append, List.findSome?_cons, read]
  by_cases same : key = name
  · subst same
    simp
  · simp only [if_neg same]
    rw [Function.update_of_ne (Ne.symm same), headerValue]

/-! ## The lines of a request -/

section Lines

variable {σ : Type} {env : RpcEnv σ}

theorem wsLine_state (line : Bytes) (conn : Connection σ) :
    (wsLine env line conn).state = (httpLine env line conn).state := by
  rw [wsLine, Proc.bind_state, sendStr_state]

theorem wsLine_first (first : Bytes) (server : σ) (path : getPath first ≠ []) :
    (wsLine env first (fresh server)).state = { fresh server with path := getPath first, wsState := .waitHttp } := by
  have positive : ¬ (getPath first).length = 0 := fun empty => path (List.length_eq_zero_iff.mp empty)
  have here : (fresh server).wsState = .doHeader := rfl
  simp only [wsLine_state, httpLine, Proc.bind_state, Proc.read_state, Proc.read_value, here, positive, if_false,
    Proc.update_state, Proc.pure_state]

/-- A first line without a path. -/
theorem wsLine_unreadable {first : Bytes} {server : σ} (path : getPath first = []) :
    (wsLine env first (fresh server)).state.wsState = .dead := by
  simp [wsLine_state, httpLine, fresh, WSConnection.start, path]

variable {conn : Connection σ} (waits : conn.wsState = .waitHttp) {line : Bytes} (filled : line ≠ [])

include waits filled

theorem wsLine_header {key value : Bytes} (read : header? line = some (key, value)) :
    (wsLine env line conn).state = { conn with headers := Function.update conn.headers key value } := by
  have positive : line.length > 0 := List.length_pos_of_ne_nil filled
  obtain ⟨⟨name, text⟩, cut, same⟩ := Option.map_eq_some_iff.mp read
  cases same
  simp only [wsLine_state, httpLine, Proc.bind_state, Proc.read_state, Proc.read_value, waits, positive, if_true, cut,
    Proc.update_state, Proc.pure_state]

theorem wsLine_noColon (absent : colon ∉ line) : (wsLine env line conn).state.wsState = .dead := by
  have positive : line.length > 0 := List.length_pos_of_ne_nil filled
  have cut := (cutAt_eq_none_iff colon line).mpr absent
  simp only [wsLine_state, httpLine, Proc.bind_state, Proc.read_state, Proc.read_value, waits, positive, if_true, cut,
    Proc.update_state, Proc.pure_state]

omit filled in
theorem wsLine_blank : (wsLine env [] conn).state.wsState = .waitDecodeHeader ↔ conn.isUpgrade = true := by
  by_cases upgrade : conn.isUpgrade = true
  · simp [wsLine_state, httpLine, waits, upgrade]
  · simp [wsLine_state, httpLine, waits, upgrade, sendFile_state]

end Lines

section Request

variable {σ : Type} {env : RpcEnv σ} {server : σ} {first : Bytes} {headers : List Bytes}

/-- The connection once the headers are read. -/
theorem headed_eq (path : getPath first ≠ []) (filled : [] ∉ headers) (colons : ∀ line ∈ headers, colon ∈ line) :
    headed env server (first :: headers) =
      { fresh server with path := getPath first, wsState := .waitHttp, headers := headerValue headers } := by
  induction headers using List.reverseRecOn with
  | nil => exact wsLine_first first server path
  | append_singleton headers line ih =>
    simp only [List.mem_append, List.mem_singleton, not_or] at filled
    have read := ih filled.1 fun other member => colons other (List.mem_append_left _ member)
    obtain ⟨⟨key, value⟩, found⟩ : ∃ pair, header? line = some pair := by
      rw [← Option.isSome_iff_exists, header?, Option.isSome_map, Option.isSome_iff_ne_none, Ne, cutAt_eq_none_iff,
        not_not]
      exact colons line (by simp)
    rw [headed, ← List.cons_append, Proc.runAll_snoc_state]
    change (wsLine env line (headed env server (first :: headers))).state = _
    rw [read, wsLine_header rfl (Ne.symm filled.2) found, headerValue_snoc headers found]

/-- A header without a colon ends the request. -/
theorem headed_dead (path : getPath first ≠ []) (filled : [] ∉ headers) (missing : ∃ line ∈ headers, colon ∉ line) :
    (headed env server (first :: headers)).wsState = .dead := by
  induction headers using List.reverseRecOn with
  | nil => simp at missing
  | append_singleton headers line ih =>
    simp only [List.mem_append, List.mem_singleton, not_or] at filled
    rw [headed, ← List.cons_append, Proc.runAll_snoc_state]
    change (wsLine env line (headed env server (first :: headers))).state.wsState = _
    by_cases before : ∃ other ∈ headers, colon ∉ other
    · have dead := ih filled.1 before
      rw [show (wsLine env line _).state = _ from runAll_wsLine_ignored env [line] (not_inHeader_of_dead dead), dead]
    · push Not at before
      have absent : colon ∉ line := by
        obtain ⟨other, member, absent⟩ := missing
        rcases List.mem_append.mp member with member | last
        · exact absurd (before other member) absent
        · rwa [List.mem_singleton.mp last] at absent
      rw [headed_eq path filled.1 before]
      exact wsLine_noColon rfl (Ne.symm filled.2) absent

/-- The conditions of the blank line, on the headers as they were read. -/
theorem isUpgrade_iff (conn : Connection σ) : conn.isUpgrade = true ↔
    conn.path = ascii "/" ∧ conn.headers (ascii "upgrade") = ascii "websocket" ∧
      conn.headers (ascii "connection") = ascii "Upgrade" ∧ conn.headers (ascii "sec-websocket-version") = ascii "13" ∧
      conn.headers (ascii "sec-websocket-protocol") = ascii "switch-lan-play-rpc" ∧
      conn.headers (ascii "sec-websocket-key") ≠ [] := by
  simp only [WSConnection.isUpgrade, Bool.and_eq_true, decide_eq_true_eq, and_assoc, gt_iff_lt, List.length_pos_iff]

/-- Exactly the requests that ask for the protocol are accepted. -/
theorem accepted_iff (filled : [] ∉ headers) :
    (Proc.runAll (wsLine env) (first :: headers ++ [[]]) (fresh server)).state.wsState = .waitDecodeHeader ↔
      Requests first headers := by
  rw [Proc.runAll_snoc_state]
  change (wsLine env [] (headed env server (first :: headers))).state.wsState = _ ↔ _
  by_cases path : getPath first = []
  · -- the request line is refused, and the rest of the request is ignored
    have dead : (wsLine env first (fresh server)).state.wsState = .dead := wsLine_unreadable path
    have still : (headed env server (first :: headers)).wsState = .dead := by
      rw [headed, Proc.runAll_cons_state, runAll_wsLine_ignored env headers (not_inHeader_of_dead dead), dead]
    rw [show (wsLine env [] _).state = _ from runAll_wsLine_ignored env [[]] (not_inHeader_of_dead still), still]
    refine iff_of_false (by simp) fun requests => ?_
    have root := getPath_eq_root_iff.mpr requests.root
    rw [path] at root
    cases root
  by_cases colons : ∀ line ∈ headers, colon ∈ line
  · rw [headed_eq path filled colons, wsLine_blank rfl, isUpgrade_iff]
    constructor
    · rintro ⟨root, upgrade, connection, version, protocol, key⟩
      exact ⟨getPath_eq_root_iff.mp root, colons, upgrade, connection, version, protocol, key⟩
    · rintro ⟨root, -, upgrade, connection, version, protocol, key⟩
      exact ⟨getPath_eq_root_iff.mpr root, upgrade, connection, version, protocol, key⟩
  · have missing : ∃ line ∈ headers, colon ∉ line := by
      push Not at colons
      exact colons
    have dead : (headed env server (first :: headers)).wsState = .dead := headed_dead path filled missing
    rw [show (wsLine env [] _).state = _ from runAll_wsLine_ignored env [[]] (not_inHeader_of_dead dead), dead]
    exact iff_of_false (by simp) fun requests => colons requests.colons

theorem Computes.acceptance_eq {order : ByteOrder} (computes : Computes env order) {key : Bytes}
    (short : key.length + 100 ≤ 4294967296) : acceptance env key = expected key := by
  have fits : (key ++ webSocketGuid).length + 64 ≤ 4294967296 := by
    rw [List.length_append, show webSocketGuid.length = 36 from rfl]
    omega
  have hashed := computes.sha1 (List.replicate 64 0) List.length_replicate _ fits
  rw [digest_pieces _ _ _ (List.forall_mem_singleton.mpr fits), List.flatten_singleton, Option.some.injEq] at hashed
  have encoded := computes.base64 (fun _ => 0) (fun _ => 0) _ (Standard.length_sha1 (key ++ webSocketGuid))
  rw [Base64.base64Encode_digest (Standard.length_sha1 _)] at encoded
  rw [acceptance, expected, ← hashed, ← encoded]

end Request

/-! ## Streams -/

theorem stripCr_of_last {line : Bytes} (last : line.getLast? ≠ some carriageReturn) : stripCr line = line :=
  if_neg last

/-- What stands between two line feeds is a line as it is sent. -/
theorem sentAs_stripCr {raw : Bytes} (free : lineFeed ∉ raw) : SentAs (stripCr raw) (raw ++ [lineFeed]) := by
  by_cases last : raw.getLast? = some carriageReturn
  · obtain ⟨line, rfl⟩ := List.getLast?_eq_some_iff.mp last
    rw [stripCr_concat]
    refine ⟨fun member => free (List.mem_append_left _ member), .inl ?_⟩
    rw [List.append_assoc]
    rfl
  · rw [stripCr_of_last last]
    exact ⟨free, .inr ⟨rfl, last⟩⟩

theorem SentAs.raw {line piece : Bytes} (sent : SentAs line piece) :
    ∃ raw, piece = raw ++ [lineFeed] ∧ lineFeed ∉ raw ∧ stripCr raw = line := by
  obtain ⟨free, rfl | ⟨rfl, last⟩⟩ := sent
  · refine ⟨line ++ [carriageReturn], by simp, ?_, stripCr_concat line⟩
    simp [free, carriageReturn, lineFeed]
  · exact ⟨line, rfl, free, stripCr_of_last last⟩

theorem sent_raw {lines pieces : List Bytes} (sent : List.Forall₂ SentAs lines pieces) :
    ∃ raw, pieces.flatten = terminated lineFeed raw ∧ (∀ line ∈ raw, lineFeed ∉ line) ∧ raw.map stripCr = lines := by
  induction sent with
  | nil => exact ⟨[], rfl, List.forall_mem_nil _, rfl⟩
  | cons first others ih =>
      obtain ⟨line, rfl, free, rfl⟩ := first.raw
      obtain ⟨raw, flat, rawFree, rfl⟩ := ih
      refine ⟨line :: raw, ?_, List.forall_mem_cons.mpr ⟨free, rawFree⟩, rfl⟩
      rw [List.flatten_cons, flat, terminated_cons, List.append_assoc]
      rfl

/-- The lines a stream begins with are the first of those that the line reader finds. -/
theorem beginsWith_iff {stream tail : Bytes} {raw lines : List Bytes} (cut : CutInto lineFeed stream raw tail) :
    BeginsWith stream lines ↔ lines <+: raw.map stripCr := by
  constructor
  · rintro ⟨pieces, rest, sent, rfl⟩
    obtain ⟨first, flat, free, rfl⟩ := sent_raw sent
    obtain ⟨others, tail', later⟩ := CutInto.total lineFeed rest
    have front : CutInto lineFeed pieces.flatten first [] :=
      ⟨by rw [flat, List.append_nil], free, List.not_mem_nil⟩
    obtain ⟨rfl, -⟩ := cut.unique (front.append later)
    rw [List.map_append]
    exact List.prefix_append _ _
  · rintro ⟨after, split⟩
    obtain ⟨first, others, rfl, rfl, rfl⟩ := List.map_eq_append_iff.mp split.symm
    refine ⟨first.map (· ++ [lineFeed]), terminated lineFeed others ++ tail, ?_, ?_⟩
    · rw [List.forall₂_map_left_iff, List.forall₂_map_right_iff, List.forall₂_same]
      exact fun line member => sentAs_stripCr (cut.lines_free line (List.mem_append_left _ member))
    · rw [cut.text_eq, terminated, List.flatMap_append, List.append_assoc, ← List.flatMap_def]
      rfl

section Streams

variable {σ : Type} {env : RpcEnv σ} {server : σ}

/-- A request ends with its blank line, one way or the other. -/
theorem blank_ends {lines : List Bytes} (filled : [] ∉ lines) :
    let conn := (Proc.runAll (wsLine env) (lines ++ [[]]) (fresh server)).state
    conn.wsState = .waitDecodeHeader ∨ conn.wsState = .dead := by
  dsimp only
  rw [Proc.runAll_snoc_state]
  rcases runAll_wsLine_filled env filled (.inl rfl : (fresh server).InHeader) with ⟨inHeader, -, -⟩ | dead
  · have result := wsLine_result env [] (Proc.runAll (wsLine env) lines (fresh server)).state
    generalize (wsLine env [] (Proc.runAll (wsLine env) lines (fresh server)).state).state = next at result ⊢
    generalize (wsLine env [] (Proc.runAll (wsLine env) lines (fresh server)).state).events = events at result
    cases result with
    | goesOn _ filled => exact absurd rfl filled
    | fails => exact .inr rfl
    | accepts => exact .inl rfl
    | ignored notInHeader => exact absurd inHeader notInHeader
  · rw [show (wsLine env [] _).state = _ from runAll_wsLine_ignored env [[]] (not_inHeader_of_dead dead)]
    exact .inr dead

theorem not_inHeader_of_upgraded {conn : Connection σ} (upgraded : conn.Upgraded) : ¬ conn.InHeader := by
  rintro (here | here)
  · exact upgraded.1 here
  · exact upgraded.2.1 here

/-- The lines of an accepted request in front of any others. -/
theorem Requests.opens {first : Bytes} {headers : List Bytes} (requests : Requests first headers)
    (whole : ∀ line ∈ first :: headers, lineFeed ∉ line) : Upgrade env server (first :: headers) := by
  have filled : [] ∉ first :: headers := by
    rintro (_ | ⟨_, member⟩)
    · obtain ⟨method, -, same⟩ := requests.root
      cases method <;> cases same
    · exact absurd (requests.colons [] member) List.not_mem_nil
  exact ⟨whole, filled, (accepted_iff fun member => filled (.tail _ member)).mpr requests⟩

/-- Among any lines, a request opens the WebSocket if it is the first thing there is. -/
theorem upgraded_lines_iff {lines : List Bytes} (whole : ∀ line ∈ lines, lineFeed ∉ line) :
    (Proc.runAll (wsLine env) lines (fresh server)).state.Upgraded ↔
      ∃ first headers, first :: headers ++ [[]] <+: lines ∧ Requests first headers := by
  constructor
  · intro upgraded
    by_cases blank : [] ∈ lines
    · obtain ⟨before, after, rfl, filled⟩ := List.eq_append_cons_of_mem blank
      rw [List.append_cons, Proc.runAll_append_state] at upgraded
      have ends := @blank_ends _ env server _ filled
      have outside : ¬ (Proc.runAll (wsLine env) (before ++ [[]]) (fresh server)).state.InHeader := by
        rw [WSConnection.InHeader]
        rcases ends with ends | ends <;> simp [ends]
      rw [runAll_wsLine_ignored env after outside] at upgraded
      have accepted := ends.resolve_right upgraded.2.2
      cases before with
      | nil =>
          have dead : (wsLine env [] (fresh server)).state.wsState = .dead := wsLine_unreadable rfl
          cases dead.symm.trans accepted
      | cons first headers =>
          have requests := (accepted_iff fun member => filled (.tail _ member)).mp accepted
          exact ⟨first, headers, ⟨after, by simp⟩, requests⟩
    · rcases runAll_wsLine_filled env blank (.inl rfl : (fresh server).InHeader) with ⟨inHeader, -, -⟩ | dead
      · exact absurd inHeader (not_inHeader_of_upgraded upgraded)
      · exact absurd dead upgraded.2.2
  · rintro ⟨first, headers, ⟨after, rfl⟩, requests⟩
    have upgrade : Upgrade env server (first :: headers) := requests.opens fun line member =>
      whole line (List.mem_append_left _ (List.mem_append_left _ member))
    have upgraded := upgraded_of_waiting upgrade.accepted
    rw [Proc.runAll_append_state, runAll_wsLine_ignored env after (not_inHeader_of_upgraded upgraded)]
    exact upgraded

/-- Data events behind the header leave it behind. -/
theorem wsOnData_outside {conn : Connection σ} (outside : ¬ conn.InHeader) (data : Bytes) :
    let next := (wsOnData env listQueue data conn).state
    ¬ next.InHeader ∧ (next.Upgraded ↔ conn.Upgraded) := by
  by_cases dead : conn.wsState = .dead
  · have same : (wsOnData env listQueue data conn).state = conn := by
      simp [wsOnData, dead]
    dsimp only
    rw [same]
    exact ⟨outside, Iff.rfl⟩
  · have upgraded : conn.Upgraded := ⟨fun here => outside (.inl here), fun here => outside (.inr here), dead⟩
    have within : (conn.behind conn.rl data).Upgraded := upgraded
    have next := (rests_upgraded env within (settles_decodeLoop env _)).1
    dsimp only
    rw [wsOnData_upgraded env upgraded data]
    exact ⟨not_inHeader_of_upgraded next, iff_of_true next upgraded⟩

/-- What the data events so far have to do with the lines of the stream: they are the same up to the
end of the header, and behind it the connection is open if the lines opened it. -/
theorem runAll_wsOnData_lines (chunks : List Bytes) :
    let run := Proc.runAll (wsOnData env listQueue) chunks (fresh server)
    ∃ final events, Rests (lineStep env) ((fresh server).reading chunks.flatten) final events ∧
      ((final.InHeader ∧ run.state = final ∧ run.events = events) ∨
        (¬ final.InHeader ∧ ¬ run.state.InHeader ∧ (run.state.Upgraded ↔ final.Upgraded) ∧
          ∃ later, run.events = events ++ later)) := by
  induction chunks using List.reverseRecOn with
  | nil => exact ⟨fresh server, [], .stop rfl, .inl ⟨.inl rfl, rfl, rfl⟩⟩
  | append_singleton chunks data ih =>
      obtain ⟨final, events, rests, phase⟩ := ih
      have continued := Rests.append (fun _ _ _ moved => lineStep_append env data moved) rests
        (feedLoop_rests env (final.rl ++ data) final)
      dsimp only at continued ⊢
      rw [Proc.runAll_snoc_state, Proc.runAll_snoc_events, List.flatten_append, List.flatten_singleton]
      refine ⟨_, _, continued, ?_⟩
      rcases phase with ⟨inHeader, same, quiet⟩ | ⟨outside, outside', same, later, quiet⟩
      · rw [same, quiet, wsOnData_inHeader env inHeader data]
        by_cases still : ((feedLoop (wsLine env) (final.rl ++ data) final).state.reading
          (feedLoop (wsLine env) (final.rl ++ data) final).value).InHeader
        · exact .inl ⟨still, rfl, rfl⟩
        · exact .inr ⟨still, still, Iff.rfl, [], (List.append_nil _).symm⟩
      · obtain ⟨⟨rl, ignored⟩, silent⟩ := rests_ignored (by exact outside) (feedLoop_rests env (final.rl ++ data) final)
        obtain ⟨next, upgraded⟩ := @wsOnData_outside _ env _ outside' data
        rw [ignored, silent, List.append_nil, quiet, List.append_assoc]
        exact .inr ⟨outside, next, upgraded.trans same, _, rfl⟩

/-- The same for the lines that the stream is cut into. -/
theorem runAll_wsOnData_cut {chunks raw : List Bytes} {tail : Bytes} (cut : CutInto lineFeed chunks.flatten raw tail) :
    let run := Proc.runAll (wsOnData env listQueue) chunks (fresh server)
    let lines := Proc.runAll (wsLine env) (raw.map stripCr) (fresh server)
    (run.state.Upgraded ↔ lines.state.Upgraded) ∧ ∃ later, run.events = lines.events ++ later := by
  obtain ⟨final, events, rests, phase⟩ := @runAll_wsOnData_lines _ env server chunks
  have lines := feedLoop_rests env chunks.flatten (fresh server)
  rw [feedLoop_reads (wsLine env) cut] at lines
  obtain ⟨rfl, rfl⟩ := rests.unique lines
  rcases phase with ⟨-, same, events⟩ | ⟨-, -, same, later, events⟩
  · refine ⟨?_, [], events.trans (List.append_nil _).symm⟩
    rw [same]
    rfl
  · exact ⟨same, later, events⟩

/-- An accepted request is answered by the response, whatever lines follow it. -/
theorem Upgrade.answers {lines : List Bytes} (upgrade : Upgrade env server lines) (after : List Bytes) :
    (Proc.runAll (wsLine env) (lines ++ [[]] ++ after) (fresh server)).events.head? =
      some (.write (response env server lines)) := by
  obtain ⟨-, -, quiet⟩ := upgrade.silent (List.append_nil lines).symm
  have blank : (wsLine env [] (Proc.runAll (wsLine env) lines (fresh server)).state).events = _ := upgrade.blank.2
  rw [Proc.runAll_append_events, Proc.runAll_snoc_events, quiet, blank]
  rfl

end Streams

/-- A WebSocket is opened exactly if the bytes that came begin with a request for the protocol of the
server; and then, however they came in pieces, the first thing the server sends is the response its
client expects. -/
theorem websocket_opening {σ : Type} {env : RpcEnv σ} {order : ByteOrder} (computes : Computes env order) (server : σ)
    (chunks : List Bytes) :
    let run := Proc.runAll (wsOnData env listQueue) chunks (fresh server)
    (run.state.Upgraded ↔ ∃ first headers, Asks chunks.flatten first headers) ∧
    ∀ first headers, Asks chunks.flatten first headers →
      (headerValue headers (ascii "sec-websocket-key")).length + 100 ≤ 4294967296 →
      run.events.head? = some (.write (expected (headerValue headers (ascii "sec-websocket-key")))) := by
  obtain ⟨raw, tail, cut⟩ := CutInto.total lineFeed chunks.flatten
  have whole : ∀ line ∈ raw.map stripCr, lineFeed ∉ line := by
    rintro _ member
    obtain ⟨line, inside, rfl⟩ := List.mem_map.mp member
    exact (sentAs_stripCr (cut.lines_free line inside)).1
  obtain ⟨same, later, events⟩ := @runAll_wsOnData_cut _ env server _ _ _ cut
  constructor
  · simp only [Asks, beginsWith_iff cut]
    exact same.trans (upgraded_lines_iff whole)
  · intro first headers asks short
    obtain ⟨⟨after, split⟩, requests⟩ := And.imp_left (beginsWith_iff cut).mp asks
    have upgrade : Upgrade env server (first :: headers) := requests.opens fun line member =>
      whole line (split ▸ List.mem_append_left _ (List.mem_append_left _ member))
    have path : getPath first ≠ [] := by
      rw [getPath_eq_root_iff.mpr requests.root]
      decide
    have filled : [] ∉ headers := fun member => upgrade.filled (.tail _ member)
    have answers := upgrade.answers after
    rw [response, headed_eq path filled requests.colons, computes.acceptance_eq short, split] at answers
    rw [events, List.head?_append, answers]
    rfl

def hashingEnv : RpcEnv Unit := { plainEnv with sha1 := Standard.sha1, base64Encode := Base64.encoding }

theorem computes_hashingEnv (order : ByteOrder) : Computes hashingEnv order where
  sha1 buffer sized text fits := by
    rw [digest_pieces _ _ _ (List.forall_mem_singleton.mpr fits), List.flatten_singleton]
    rfl
  base64 _ _ _ size := Base64.base64Encode_digest size _ _

/-- The bytes of a request begin with its lines. -/
theorem beginsWith_request {lines : List Bytes} (whole : ∀ line ∈ lines, lineFeed ∉ line) :
    BeginsWith (request lines) (lines ++ [[]]) := by
  refine ⟨(lines ++ [[]]).map crlf, [], ?_, ?_⟩
  · rw [List.forall₂_map_right_iff, List.forall₂_same]
    intro line member
    refine ⟨?_, .inl rfl⟩
    rcases List.mem_append.mp member with inside | last
    · exact whole line inside
    · rw [List.mem_singleton.mp last]
      exact List.not_mem_nil
  · rw [List.append_nil, List.map_append, List.flatten_append, ← List.flatMap_def]
    rfl

/-- The request of `upgradeLines` with another method. -/
theorem deleteRequest_asks :
    Asks (request (ascii "DELETE / HTTP/1.1" :: upgradeLines.tail)) (ascii "DELETE / HTTP/1.1") upgradeLines.tail :=
  ⟨beginsWith_request (by decide +kernel), ⟨ascii "DELETE", by decide +kernel, by decide +kernel⟩, by decide +kernel,
    by decide +kernel, by decide +kernel, by decide +kernel, by decide +kernel, by decide +kernel⟩

/-- A request that arrives byte by byte. -/
theorem websocket_opening_bytewise :
    let run := Proc.runAll (wsOnData hashingEnv listQueue)
      ((request (ascii "DELETE / HTTP/1.1" :: upgradeLines.tail)).map fun byte => [byte]) (fresh ())
    run.state.Upgraded ∧ run.events.head? = some (.write (expected (ascii "key"))) := by
  have asks := deleteRequest_asks
  rw [← List.flatMap_singleton' (request _), List.flatMap_def] at asks
  have key : headerValue upgradeLines.tail (ascii "sec-websocket-key") = ascii "key" := by decide +kernel
  obtain ⟨opens, answers⟩ := websocket_opening (computes_hashingEnv .little) ()
    ((request (ascii "DELETE / HTTP/1.1" :: upgradeLines.tail)).map fun byte => [byte])
  have answered := answers _ _ asks (by rw [key]; decide +kernel)
  rw [key] at answered
  exact ⟨opens.mpr ⟨_, _, asks⟩, answered⟩

end SwitchLanPlay.Rpc
