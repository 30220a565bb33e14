import SwitchLanPlay.Rpc.Address

/-!
# The grammar of addresses

What `parse_ip_port` accepts, `host:port` and `[host]:port`, and that it stays within the
string and its buffers.
-/

namespace SwitchLanPlay.Rpc.Address

open Library Lifecycle

/-! ## The grammar -/

/-- `host:port` and `[host]:port`. -/
inductive Written : Bytes → Bool → Bytes → Bytes → Prop where
  | plain {host port : Bytes} (noBracket : host.head? ≠ some 91) (noColon : 58 ∉ host) :
      Written (host ++ 58 :: port) false host port
  | bracketed {host port : Bytes} (noBracket : 93 ∉ host) : Written (91 :: (host ++ 93 :: 58 :: port)) true host port

/-- An address with a port, for a buffer of `outAddrLen` bytes. -/
structure Accepted (text : Bytes) (outAddrLen : Nat) (bracket : Bool) (host port : Bytes) (value : Nat) : Prop where
  written : Written text bracket host port
  short : host.length < outAddrLen
  filled : 1 ≤ port.length
  fits : port.length ≤ 5
  consumed : strtol10 port = ((value : Int), [])
  range : value ≤ 65535

/-! ## The two forms -/

theorem locatePlain_state (str : Bytes) (len : Nat) (s : Outputs) :
    (locatePlain str len s).state = { s with isIpv6 := 0 } := by
  rw [locatePlain, Proc.bind_state, Proc.bind_state, scan_state]
  split <;> rfl

theorem locateBracketed_state (str : Bytes) (len : Nat) (s : Outputs) :
    (locateBracketed str len s).state = { s with isIpv6 := 1 } := by
  rw [locateBracketed, Proc.bind_state, Proc.bind_state, scan_state]
  split
  · rfl
  · split
    · rfl
    · rw [Proc.bind_state]
      split <;> rfl

theorem locatePlain_some_iff {text more : Bytes} {s : Outputs} {parts : Parts} :
    (locatePlain (text ++ more) text.length s).value = some parts ↔
      ∃ host port, text = host ++ 58 :: port ∧ 58 ∉ host ∧ parts = ⟨0, host.length, host.length + 1⟩ := by
  have scanned := scan_value 58 [] text more { s with isIpv6 := 0 }
  simp only [List.nil_append, List.length_nil, Nat.zero_add] at scanned
  rw [locatePlain, Proc.bind_value, Proc.update_state, Proc.bind_value, scanned]
  constructor
  · intro found
    split at found
    · cases found
    next inside =>
      obtain ⟨host, port, cut, free, length⟩ := findIdx_stop_iff.mp ⟨rfl, Nat.lt_of_not_ge inside⟩
      rw [length] at found
      exact ⟨host, port, cut, free, (Option.some.inj found).symm⟩
  · rintro ⟨host, port, cut, free, rfl⟩
    obtain ⟨index, inside⟩ := findIdx_stop_iff.mpr ⟨host, port, cut, free, rfl⟩
    rw [index, if_neg (Nat.not_le_of_lt inside)]
    rfl

theorem locateBracketed_some_iff {first : UInt8} {rest more : Bytes} {s : Outputs} {parts : Parts} :
    (locateBracketed (first :: rest ++ more) (first :: rest).length s).value = some parts ↔
      ∃ host port, rest = host ++ 93 :: 58 :: port ∧ 93 ∉ host ∧ parts = ⟨1, host.length, host.length + 3⟩ := by
  have scanned := scan_value 93 [first] rest more { s with isIpv6 := 1 }
  simp only [List.singleton_append, List.length_singleton] at scanned
  have length : (first :: rest).length = 1 + rest.length := by
    rw [List.length_cons, Nat.add_comm]
  rw [locateBracketed, Proc.bind_value, Proc.update_state, Proc.bind_value, length, List.cons_append, scanned]
  -- the byte behind the bracket
  have next {host behind : Bytes} (cut : rest = host ++ 93 :: behind) :
      byteAt (first :: (rest ++ more)) (1 + host.length + 1) = byteAt (behind ++ more) 0 := by
    have moved := byteAt_append_right (first :: host ++ [93]) (behind ++ more) 0
    rw [cut]
    simpa [Nat.add_comm, Nat.add_left_comm, Nat.add_assoc] using moved
  have position {host : Bytes} : 1 + host.length + 2 = host.length + 3 := by omega
  constructor
  · intro found
    split at found
    · cases found
    next inside =>
      have within : rest.findIdx (· = 93) < rest.length := by omega
      obtain ⟨host, behind, cut, free, index⟩ := findIdx_stop_iff.mp ⟨rfl, within⟩
      rw [index, next cut] at found
      split at found
      · cases found
      next longer =>
        cases behind with
        | nil =>
            rw [cut] at longer
            simp at longer
            omega
        | cons colon port =>
            rw [Proc.bind_value] at found
            split at found
            · cases found
            next same =>
              obtain rfl : colon = 58 := not_not.mp same
              refine ⟨host, port, cut, free, (Option.some.inj found).symm.trans ?_⟩
              rw [Nat.add_sub_cancel_left, position]
  · rintro ⟨host, port, cut, free, rfl⟩
    obtain ⟨index, inside⟩ := findIdx_stop_iff.mpr ⟨host, _, cut, free, rfl⟩
    have room : host.length + 2 ≤ rest.length := by
      rw [cut]
      simp
    rw [index, if_neg (by omega), if_neg (by omega), next cut, Proc.bind_value, if_neg (by exact not_not.mpr rfl)]
    change some _ = some _
    rw [Nat.add_sub_cancel_left, position]

/-- The parts of an address in one of the two forms. -/
def partsOf (bracket : Bool) (host : Bytes) : Parts :=
  if bracket then ⟨1, host.length, host.length + 3⟩ else ⟨0, host.length, host.length + 1⟩

theorem addrLen_partsOf (bracket : Bool) (host : Bytes) : (partsOf bracket host).addrLen = host.length := by
  cases bracket <;> rfl

theorem Written.first_iff {first : UInt8} {rest host port : Bytes} {bracket : Bool}
    (written : Written (first :: rest) bracket host port) : first = 91 ↔ bracket = true := by
  generalize text_eq : first :: rest = text at written
  cases written with
  | plain noBracket noColon =>
      refine iff_of_false ?_ Bool.false_ne_true
      rintro rfl
      cases host with
      | nil => cases text_eq
      | cons byte host => exact noBracket (congrArg some (List.cons.inj text_eq).1.symm)
  | bracketed noBracket => exact iff_of_true (List.cons.inj text_eq).1 rfl

/-- The parts are found if the text has one of the two forms. -/
theorem locate_some_iff {first : UInt8} {rest more : Bytes} {s : Outputs} {parts : Parts} :
    (locate (first :: rest ++ more) (first :: rest).length s).value = some parts ↔
      ∃ bracket host port, Written (first :: rest) bracket host port ∧ parts = partsOf bracket host := by
  have here : byteAt (first :: rest ++ more) 0 = first := rfl
  rw [locate, Proc.bind_value, Proc.emit_state, here]
  constructor
  · intro found
    split at found
    next opening =>
      obtain ⟨host, port, rfl, free, rfl⟩ := locateBracketed_some_iff.mp found
      rw [opening]
      exact ⟨true, host, port, .bracketed free, rfl⟩
    next other =>
      obtain ⟨host, port, cut, free, rfl⟩ := locatePlain_some_iff.mp found
      have noBracket : host.head? ≠ some 91 := by
        intro bracket
        obtain ⟨more, rfl⟩ := List.head?_eq_some_iff.mp bracket
        exact other (List.cons.inj cut).1
      rw [cut]
      exact ⟨false, host, port, .plain noBracket free, rfl⟩
  · rintro ⟨bracket, host, port, written, rfl⟩
    have opening := written.first_iff
    generalize text_eq : first :: rest = text at written
    cases written with
    | plain noBracket noColon =>
        rw [if_neg (mt opening.mp Bool.false_ne_true)]
        exact locatePlain_some_iff.mpr ⟨host, port, rfl, noColon, rfl⟩
    | bracketed noBracket =>
        obtain ⟨rfl, rfl⟩ := List.cons.inj text_eq
        rw [if_pos rfl]
        exact locateBracketed_some_iff.mpr ⟨host, port, rfl, noBracket, rfl⟩

namespace Written

variable {text host port : Bytes} {bracket : Bool}

theorem length_eq (written : Written text bracket host port) :
    text.length = (partsOf bracket host).portStart + port.length := by
  cases written with
  | plain _ _ =>
      simp [partsOf]
      omega
  | bracketed _ =>
      simp [partsOf]
      omega

theorem host_within (written : Written text bracket host port) :
    (partsOf bracket host).addrStart + host.length ≤ text.length := by
  rw [written.length_eq]
  cases bracket <;> simp [partsOf] <;> omega

theorem drop_portStart (written : Written text bracket host port) (more : Bytes) :
    (text ++ more).drop (partsOf bracket host).portStart = port ++ more := by
  cases written with
  | plain _ _ => simp [partsOf, List.drop_append]
  | bracketed _ => simp [partsOf, List.drop_append]

theorem byteAt_addrStart (written : Written text bracket host port) (more : Bytes) {index : Nat}
    (inside : index < host.length) :
    byteAt (text ++ more) ((partsOf bracket host).addrStart + index) = byteAt host index := by
  cases written with
  | plain _ _ =>
      rw [List.append_assoc]
      change byteAt _ (0 + index) = _
      rw [Nat.zero_add, byteAt_append_left _ _ _ inside]
  | bracketed _ =>
      rw [List.cons_append, List.append_assoc]
      change byteAt _ (1 + index) = _
      rw [Nat.add_comm, byteAt_cons_succ, byteAt_append_left _ _ _ inside]

theorem noNul (written : Written text bracket host port) (free : 0 ∉ text) : 0 ∉ port := by
  intro member
  have behind := written.drop_portStart []
  rw [List.append_nil, List.append_nil] at behind
  exact free (List.mem_of_mem_drop (behind ▸ member))

theorem locate_state {first : UInt8} {rest : Bytes} (written : Written (first :: rest) bracket host port)
    (more : Bytes) (s : Outputs) :
    (locate (first :: rest ++ more) (first :: rest).length s).state =
      { s with isIpv6 := if bracket then 1 else 0 } := by
  have here : byteAt (first :: rest ++ more) 0 = first := rfl
  rw [locate, Proc.bind_state, Proc.emit_state, here]
  have opening := written.first_iff
  cases bracket with
  | true =>
      rw [if_pos (opening.mpr rfl), locateBracketed_state]
      rfl
  | false =>
      rw [if_neg (mt opening.mp Bool.false_ne_true), locatePlain_state]
      rfl

end Written

/-! ## The result -/

/-- The caller's variables after an address was accepted. -/
def Outputs.accept (s : Outputs) (bracket : Bool) (host : Bytes) (value : Nat) : Outputs where
  outAddr := fun index =>
    if index < host.length then byteAt host index else if index = host.length then 0 else s.outAddr index
  outPort := value
  isIpv6 := if bracket then 1 else 0

section Result

variable {str : CString} {first : UInt8} {rest more : Bytes}

theorem copyAddr_state {text host port : Bytes} {bracket : Bool} (written : Written text bracket host port)
    (more : Bytes) (s : Outputs) :
    (copyAddr (text ++ more) (partsOf bracket host) s).state =
      { s with
        outAddr := fun index =>
          if index < host.length then byteAt host index
          else if index = host.length then 0
          else s.outAddr index } := by
  rw [copyAddr, Proc.bind_state, Proc.bind_state, Proc.update_state, addrLen_partsOf]
  congr 1
  funext index
  by_cases inside : index < host.length
  · rw [if_pos inside, if_pos inside, written.byteAt_addrStart more inside]
  · rw [if_neg inside, if_neg inside]
    rfl

theorem parsePort_rejects {str : Bytes} {portStart portLen : Nat}
    (none : portLen ≤ 5 → portOf ((str.drop portStart).take portLen ++ [0]) = none) (s : Outputs) :
    (parsePort str portStart portLen s).value = -1 := by
  by_cases fits : portLen ≤ 5
  · rw [parsePort, if_neg (by omega), none fits]
    rfl
  · rw [parsePort, if_pos (by omega)]
    rfl

theorem parsePort_of_some {str : Bytes} {portStart portLen port : Nat} (fits : portLen ≤ 5)
    (found : portOf ((str.drop portStart).take portLen ++ [0]) = some port) (s : Outputs) :
    (parsePort str portStart portLen s).value = 0 ∧
      (parsePort str portStart portLen s).state = { s with outPort := port } := by
  rw [parsePort, if_neg (by omega), found]
  exact ⟨rfl, rfl⟩

theorem CString.len_le (str : CString) : str.len ≤ str.bytes.length := by
  have length := Int.natCast_nonneg str.bytes.length
  unfold CString.len
  simp only [Int.bmod_def]
  split <;> omega

/-- The lengths that are not refused. -/
def CString.Measured (str : CString) : Prop := 1 ≤ str.len ∧ str.len ≤ 1000

/-- The string, up to the length that was computed. -/
def CString.taken (str : CString) : Bytes := str.bytes.take str.len.toNat

theorem CString.Measured.cut (measured : str.Measured) :
    ∃ first rest more, str.taken = first :: rest ∧ str.bytes = first :: rest ++ more ∧
      str.len.toNat = (first :: rest).length := by
  have within : str.len.toNat ≤ str.bytes.length := Int.toNat_le.mpr str.len_le
  have length : str.taken.length = str.len.toNat := List.length_take_of_le within
  have split : str.taken ++ _ = str.bytes := List.take_append_drop str.len.toNat str.bytes
  have positive := measured.1
  cases text_eq : str.taken with
  | nil =>
      rw [text_eq, List.length_nil] at length
      omega
  | cons first rest =>
      rw [text_eq] at length split
      exact ⟨first, rest, _, rfl, split.symm, length.symm⟩

variable {outAddrLen : Nat} {bracket : Bool} {host port : Bytes} {value : Nat}

/-- An address in one of the two forms. -/
theorem parseParts_written (written : Written (first :: rest) bracket host port) (s : Outputs) :
    parseParts (first :: rest ++ more) (first :: rest).length outAddrLen s =
      (locate (first :: rest ++ more) (first :: rest).length >>= fun _ =>
        if host.length ≥ outAddrLen then pure (-1)
        else do
          copyAddr (first :: rest ++ more) (partsOf bracket host)
          parsePort (first :: rest ++ more) (partsOf bracket host).portStart port.length) s := by
  have located : (locate (first :: rest ++ more) (first :: rest).length s).value = some (partsOf bracket host) :=
    locate_some_iff.mpr ⟨bracket, host, port, written, rfl⟩
  have length : (first :: rest).length - (partsOf bracket host).portStart = port.length := by
    rw [written.length_eq, Nat.add_sub_cancel_left]
  refine Proc.bind_congr_at s rfl ?_
  rw [located]
  dsimp only
  rw [addrLen_partsOf, length]

theorem Accepted.parseParts (accepted : Accepted (first :: rest) outAddrLen bracket host port value)
    (noNul : 0 ∉ first :: rest) (s : Outputs) :
    (parseParts (first :: rest ++ more) (first :: rest).length outAddrLen s).value = 0 ∧
      (parseParts (first :: rest ++ more) (first :: rest).length outAddrLen s).state = s.accept bracket host value := by
  have written := accepted.written
  have found : portOf (((first :: rest ++ more).drop (partsOf bracket host).portStart).take port.length ++ [0]) =
      some value := by
    rw [written.drop_portStart, List.take_left, portOf_eq_some (written.noNul noNul)]
    exact ⟨accepted.filled, accepted.consumed, accepted.range⟩
  rw [parseParts_written written, if_neg (Nat.not_le_of_lt accepted.short)]
  constructor
  · rw [Proc.bind_value, Proc.bind_value]
    exact (parsePort_of_some accepted.fits found _).1
  · rw [Proc.bind_state, Proc.bind_state, (parsePort_of_some accepted.fits found _).2, copyAddr_state written,
      written.locate_state]
    rfl

/-- No other text is accepted. -/
theorem parseParts_rejects (noNul : 0 ∉ first :: rest)
    (none : ∀ bracket host port value, ¬ Accepted (first :: rest) outAddrLen bracket host port value) (s : Outputs) :
    (parseParts (first :: rest ++ more) (first :: rest).length outAddrLen s).value = -1 := by
  cases located : (locate (first :: rest ++ more) (first :: rest).length s).value with
  | none =>
      rw [parseParts, Proc.bind_value, located]
      rfl
  | some parts =>
      obtain ⟨bracket, host, port, written, rfl⟩ := locate_some_iff.mp located
      rw [parseParts_written written, Proc.bind_value]
      split
      · rfl
      next short =>
        rw [Proc.bind_value]
        refine parsePort_rejects (fun fits => ?_) _
        rw [written.drop_portStart, List.take_left]
        cases found : portOf (port ++ [0]) with
        | none => rfl
        | some value =>
            obtain ⟨filled, consumed, range⟩ := (portOf_eq_some (written.noNul noNul)).mp found
            exact absurd ⟨written, Nat.lt_of_not_ge short, filled, fits, consumed, range⟩ (none bracket host port value)

theorem not_refused_iff : ¬ (str.len < 1 ∨ str.len > 1000) ↔ str.Measured := by
  rw [CString.Measured]
  omega

theorem parseIpPort_measured (measured : str.Measured) (s : Outputs) :
    parseIpPort str outAddrLen s =
      (Proc.emitAll ((List.range (str.bytes.length + 1)).map .str) >>= fun _ =>
        parseParts str.bytes str.len.toNat outAddrLen : Proc Outputs Access Int) s := by
  rw [parseIpPort, if_neg (not_refused_iff.mpr measured)]

theorem parseIpPort_refused (unmeasured : ¬ str.Measured) (s : Outputs) :
    parseIpPort str outAddrLen s =
      (Proc.emitAll ((List.range (str.bytes.length + 1)).map .str) >>= fun _ =>
        pure (-1) : Proc Outputs Access Int) s := by
  rw [parseIpPort, if_pos (not_not.mp (mt not_refused_iff.mp unmeasured))]

theorem parseIpPort_accepted (measured : str.Measured)
    (accepted : Accepted str.taken outAddrLen bracket host port value) (s : Outputs) :
    (parseIpPort str outAddrLen s).value = 0 ∧ (parseIpPort str outAddrLen s).state = s.accept bracket host value := by
  rw [parseIpPort_measured measured, Proc.bind_value, Proc.bind_state, Proc.emitAll_state]
  obtain ⟨first, rest, more, taken, bytes, length⟩ := measured.cut
  have noNul : 0 ∉ first :: rest := fun member => str.noNul (bytes ▸ List.mem_append_left more member)
  rw [taken] at accepted
  rw [bytes, length]
  exact accepted.parseParts noNul s

theorem parseIpPort_rejected
    (none : str.Measured → ∀ bracket host port value, ¬ Accepted str.taken outAddrLen bracket host port value)
    (s : Outputs) : (parseIpPort str outAddrLen s).value = -1 := by
  by_cases measured : str.Measured
  · rw [parseIpPort_measured measured, Proc.bind_value, Proc.emitAll_state]
    obtain ⟨first, rest, more, taken, bytes, length⟩ := measured.cut
    have noNul : 0 ∉ first :: rest := fun member => str.noNul (bytes ▸ List.mem_append_left more member)
    rw [bytes, length]
    exact parseParts_rejects noNul (taken ▸ none measured) s
  · rw [parseIpPort_refused measured]
    rfl

end Result

/-! ## Accesses -/

section Accesses

variable {Q : Access → Prop} {str : Bytes} {len : Nat} (s : Outputs)

theorem emits_locate (filled : 0 < len) (allowed : ∀ index < len, Q (.str index)) :
    Proc.Emits Q (locate str len) s := by
  rw [locate, Proc.emits_emit_bind]
  refine ⟨allowed 0 filled, ?_⟩
  rw [Proc.emits_ite]
  constructor
  · intro _
    rw [locateBracketed, Proc.emits_update_bind, Proc.emits_bind]
    refine ⟨emits_scan str 93 len _ allowed 1, ?_⟩
    rw [Proc.emits_ite]
    refine ⟨fun _ => Proc.emits_pure _, fun _ => ?_⟩
    rw [Proc.emits_ite]
    refine ⟨fun _ => Proc.emits_pure _, fun longer => ?_⟩
    rw [Proc.emits_emit_bind, Proc.emits_ite]
    exact ⟨allowed _ (Nat.lt_of_not_ge longer), fun _ => Proc.emits_pure _, fun _ => Proc.emits_pure _⟩
  · intro _
    rw [locatePlain, Proc.emits_update_bind, Proc.emits_bind]
    refine ⟨emits_scan str 58 len _ allowed 0, ?_⟩
    rw [Proc.emits_ite]
    exact ⟨fun _ => Proc.emits_pure _, fun _ => Proc.emits_pure _⟩

/-- The accesses of a `memcpy` out of the string. -/
theorem forall_copies {start count : Nat} {target : Nat → Access} (strs : ∀ index < count, Q (.str (start + index)))
    (targets : ∀ index < count, Q (target index)) :
    ∀ access ∈ (List.range count).flatMap fun index => [.str (start + index), target index], Q access := by
  intro access member
  obtain ⟨index, inside, either⟩ := List.mem_flatMap.mp member
  have within := List.mem_range.mp inside
  simp only [List.mem_cons, List.not_mem_nil, or_false] at either
  rcases either with rfl | rfl
  · exact strs index within
  · exact targets index within

theorem emits_copyAddr {parts : Parts} (strs : ∀ index < parts.addrLen, Q (.str (parts.addrStart + index)))
    (addrs : ∀ index ≤ parts.addrLen, Q (.outAddr index)) : Proc.Emits Q (copyAddr str parts) s := by
  rw [copyAddr, Proc.emits_bind, Proc.emits_emit_bind]
  exact ⟨forall_copies strs fun index inside => addrs index inside.le, addrs _ le_rfl, Proc.emits_update _⟩

theorem emits_parsePort {portStart portLen : Nat} (strs : ∀ index < portLen, Q (.str (portStart + index)))
    (ports : ∀ index < 6, Q (.portStr index)) : Proc.Emits Q (parsePort str portStart portLen) s := by
  rw [parsePort, Proc.emits_ite]
  refine ⟨fun _ => Proc.emits_pure _, fun fits => ?_⟩
  rw [Proc.emits_bind, Proc.emits_emit_bind]
  have short : portLen < 6 := Nat.lt_of_not_ge fits
  refine ⟨forall_copies strs fun index inside => ports index (inside.trans short), ports _ short, ?_⟩
  cases portOf ((str.drop portStart).take portLen ++ [0]) with
  | none => exact Proc.emits_pure _
  | some port => simp

theorem emits_parseParts {first : UInt8} {rest more : Bytes} {outAddrLen : Nat}
    (strs : ∀ index < (first :: rest).length, Q (.str index)) (addrs : ∀ index < outAddrLen, Q (.outAddr index))
    (ports : ∀ index < 6, Q (.portStr index)) :
    Proc.Emits Q (parseParts (first :: rest ++ more) (first :: rest).length outAddrLen) s := by
  have located : Proc.Emits Q (locate (first :: rest ++ more) (first :: rest).length) s :=
    emits_locate s (Nat.succ_pos _) strs
  cases found : (locate (first :: rest ++ more) (first :: rest).length s).value with
  | none =>
      rw [parseParts, Proc.emits_bind, found]
      exact ⟨located, Proc.emits_pure _⟩
  | some parts =>
      obtain ⟨bracket, host, port, written, rfl⟩ := locate_some_iff.mp found
      rw [Proc.Emits, parseParts_written written]
      refine (Proc.emits_bind _ _).mpr ⟨located, ?_⟩
      rw [Proc.emits_ite]
      refine ⟨fun _ => Proc.emits_pure _, fun short => ?_⟩
      rw [Proc.emits_bind]
      have hostEnd := written.host_within
      have portEnd := written.length_eq
      constructor
      · refine emits_copyAddr _ (fun index inside => strs _ ?_) fun index inside => addrs _ ?_
        · rw [addrLen_partsOf] at inside
          omega
        · rw [addrLen_partsOf] at inside
          omega
      · exact emits_parsePort _ (fun index inside => strs _ (by omega)) ports

/-- The accesses within the string and its terminating zero, within `out_addr`, and within
`char port_str[6]`. -/
def CString.InBounds (str : CString) (outAddrLen : Nat) : Access → Prop
  | .str index => index ≤ str.bytes.length
  | .outAddr index => index < outAddrLen
  | .portStr index => index < 6

theorem emits_parseIpPort (str : CString) (outAddrLen : Nat) :
    Proc.Emits (str.InBounds outAddrLen) (parseIpPort str outAddrLen) s := by
  have lengths : Proc.Emits (str.InBounds outAddrLen)
      (Proc.emitAll ((List.range (str.bytes.length + 1)).map .str) : Proc Outputs Access Unit) s := by
    intro access member
    obtain ⟨index, inside, rfl⟩ := List.mem_map.mp member
    exact Nat.le_of_lt_succ (List.mem_range.mp inside)
  by_cases measured : str.Measured
  · rw [Proc.Emits, parseIpPort_measured measured]
    refine (Proc.emits_bind _ _).mpr ⟨lengths, ?_⟩
    obtain ⟨first, rest, more, taken, bytes, length⟩ := measured.cut
    have within : (first :: rest).length ≤ str.bytes.length := by
      rw [bytes, List.length_append]
      exact Nat.le_add_right _ _
    rw [bytes, length]
    refine emits_parseParts _ (fun index inside => ?_) (fun _ inside => inside) fun _ inside => inside
    exact inside.le.trans within
  · rw [Proc.Emits, parseIpPort_refused measured]
    exact (Proc.emits_bind _ _).mpr ⟨lengths, Proc.emits_pure _⟩

end Accesses

/-! ## Exactness -/

/-- The addresses of at most 1000 characters are accepted, and nothing else, with the right
outputs and without an access out of bounds. -/
structure AcceptsExactly (str : CString) (outAddrLen : Nat) (s : Outputs) : Prop where
  accepts : (parseIpPort str outAddrLen s).value = 0 ↔
    (1 ≤ str.bytes.length ∧ str.bytes.length ≤ 1000) ∧
      ∃ bracket host port value, Accepted str.bytes outAddrLen bracket host port value
  outputs : ∀ bracket host port value, str.bytes.length ≤ 1000 →
    Accepted str.bytes outAddrLen bracket host port value →
      (parseIpPort str outAddrLen s).state = s.accept bracket host value
  rejects : (parseIpPort str outAddrLen s).value ≠ 0 → (parseIpPort str outAddrLen s).value = -1
  inBounds : ∀ access ∈ (parseIpPort str outAddrLen s).events, str.InBounds outAddrLen access

/-- A length of at most 1000 is computed as it is. -/
theorem CString.len_of_le {str : CString} (short : str.bytes.length ≤ 1000) : str.len = str.bytes.length := by
  unfold CString.len
  simp only [Int.bmod_def]
  split <;> omega

theorem CString.taken_of_le {str : CString} (short : str.bytes.length ≤ 1000) : str.taken = str.bytes := by
  rw [CString.taken, CString.len_of_le short, Int.toNat_natCast, List.take_length]

theorem Accepted.one_le {text : Bytes} {outAddrLen : Nat} {bracket : Bool} {host port : Bytes} {value : Nat}
    (accepted : Accepted text outAddrLen bracket host port value) : 1 ≤ text.length := by
  have filled := accepted.filled
  rw [accepted.written.length_eq]
  omega

theorem parseIpPort_zero_iff (str : CString) (outAddrLen : Nat) (s : Outputs) :
    (parseIpPort str outAddrLen s).value = 0 ↔
      str.Measured ∧ ∃ bracket host port value, Accepted str.taken outAddrLen bracket host port value := by
  constructor
  · intro zero
    by_contra none
    have refused := parseIpPort_rejected (fun measured bracket host port value accepted =>
      none ⟨measured, bracket, host, port, value, accepted⟩) s
    rw [zero] at refused
    cases refused
  · rintro ⟨measured, bracket, host, port, value, accepted⟩
    exact (parseIpPort_accepted measured accepted s).1

/-- `parse_ip_port` is exact, unless the string is longer than 1000 characters and the
characters that the low bits of its length cut off are an address. -/
theorem parseIpPort_exact_iff (str : CString) (outAddrLen : Nat) (s : Outputs) :
    AcceptsExactly str outAddrLen s ↔
      str.bytes.length ≤ 1000 ∨
        ¬ (str.Measured ∧ ∃ bracket host port value, Accepted str.taken outAddrLen bracket host port value) := by
  -- up to 1000 characters the computed length is the real one
  have whole (short : str.bytes.length ≤ 1000) :
      (str.Measured ∧ ∃ bracket host port value, Accepted str.taken outAddrLen bracket host port value) ↔
        (1 ≤ str.bytes.length ∧ str.bytes.length ≤ 1000) ∧
          ∃ bracket host port value, Accepted str.bytes outAddrLen bracket host port value := by
    rw [CString.taken_of_le short, CString.Measured, CString.len_of_le short]
    exact and_congr_left fun _ => by omega
  constructor
  · intro exactly
    by_contra wraps
    obtain ⟨long, wrapped⟩ := not_or.mp wraps
    have zero := (parseIpPort_zero_iff str outAddrLen s).mpr (not_not.mp wrapped)
    exact long (exactly.accepts.mp zero).1.2
  · intro condition
    refine ⟨?_, fun bracket host port value short accepted => ?_, fun nonzero => ?_, emits_parseIpPort s str outAddrLen⟩
    · rw [parseIpPort_zero_iff]
      by_cases short : str.bytes.length ≤ 1000
      · exact whole short
      · exact iff_of_false (condition.resolve_left short) fun accepted => short accepted.1.2
    · have measured := ((whole short).mpr ⟨⟨accepted.one_le, short⟩, _, _, _, _, accepted⟩).1
      rw [← CString.taken_of_le short] at accepted
      exact (parseIpPort_accepted measured accepted s).2
    · refine parseIpPort_rejected (fun measured bracket host port value accepted => nonzero ?_) s
      exact (parseIpPort_accepted measured accepted s).1

/-- An address with 4 GiB behind it. -/
def longAddress : CString where
  bytes := ascii "a:1" ++ List.replicate (2 ^ 32) 120
  noNul := by
    intro member
    rcases List.mem_append.mp member with inside | behind
    · exact absurd inside (by decide)
    · exact absurd (List.eq_of_mem_replicate behind) (by decide)

theorem length_longAddress : longAddress.bytes.length = 2 ^ 32 + 3 := by
  rw [longAddress, List.length_append, List.length_replicate, Nat.add_comm]
  rfl

theorem len_longAddress : longAddress.len = 3 := by
  unfold CString.len
  rw [length_longAddress]
  rfl

/-- Its length is taken for 3, and it is accepted. -/
theorem parseIpPort_accepts_longAddress :
    1000 < longAddress.bytes.length ∧ (parseIpPort longAddress 128 ⟨fun _ => 0, 0, 0⟩).value = 0 ∧
      ¬ AcceptsExactly longAddress 128 ⟨fun _ => 0, 0, 0⟩ := by
  have long : 1000 < longAddress.bytes.length := by
    rw [length_longAddress]
    decide
  have taken : longAddress.taken = [97] ++ 58 :: [49] := by
    rw [CString.taken, len_longAddress, longAddress]
    exact List.take_left' rfl
  have accepted : Accepted longAddress.taken 128 false [97] [49] 1 := by
    rw [taken]
    exact ⟨.plain (by decide) (by decide), by decide, by decide, by decide, by decide, by decide⟩
  have measured : longAddress.Measured := by
    rw [CString.Measured, len_longAddress]
    decide
  have zero := (parseIpPort_accepted measured accepted ⟨fun _ => 0, 0, 0⟩).1
  refine ⟨long, zero, fun exactly => ?_⟩
  exact absurd long (not_lt_of_ge (exactly.accepts.mp zero).1.2)

end SwitchLanPlay.Rpc.Address
