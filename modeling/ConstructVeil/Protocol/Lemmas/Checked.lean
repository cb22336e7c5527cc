import ConstructVeil.Protocol.Impl.Checked
import ConstructVeil.Protocol.Lemmas.Framing
import ConstructVeil.Protocol.Lemmas.Capability

/-!
This module contains the proof that the decoders do not fault on the level of the machine: no input
makes them read outside of it, and their arithmetic does not overflow on either target. There they
compute what the functions on lists of bytes compute.
-/

namespace Veil

namespace Raw

open Checked Except

variable (target : Target)

namespace encodeVarint

theorem go_eq_ok (value : UInt64) (buf : Bytes) (len : Nat)
    (h : len + (Veil.encodeVarint.go value).length < 2 ^ 32)
    : go target value buf len
        =
      .ok (buf ++ Veil.encodeVarint.go value, len + (Veil.encodeVarint.go value).length) := by
  rw [go]
  rw [Veil.encodeVarint.go] at h ⊢
  split
  . next hpos =>
    have := UInt64.toNat_shiftRight_7_lt hpos
    simp only [hpos, ↓reduceDIte, List.length_cons] at h ⊢
    rw [add_eq_ok (Target.lt_usize (by omega)), ok_bind, go_eq_ok _ _ _ (by omega)]
    rw [List.append_assoc, List.singleton_append, Nat.add_assoc, Nat.add_comm 1]
  . simp
termination_by value.toNat

end encodeVarint

theorem encodeVarint_eq_ok (value : UInt64) (buf : Bytes)
    : encodeVarint target value buf
        =
      .ok (buf ++ Veil.encodeVarint value, (Veil.encodeVarint value).length) := by
  unfold encodeVarint Veil.encodeVarint
  split
  . rfl
  . have := Veil.encodeVarint.length_go_le value
    rw [encodeVarint.go_eq_ok target value buf 0 (by omega), Nat.zero_add]

namespace decodeVarintChecked

theorem shiftLeft_low7 {byte : UInt8} {k : Nat} (hk : k < 10)
    (hten : ¬ (k + 1 = varintMaxBytes ∧ 1 < (byte &&& 0x7F).toUInt64))
    : Checked.shiftLeft (byte &&& 0x7F).toUInt64 (7 * k)
        =
      .ok ((byte &&& 0x7F).toUInt64 <<< UInt64.ofNat (7 * k)) := by
  rw [decodeVarintChecked.one_lt_low7_iff] at hten
  simp only [varintMaxBytes] at hten
  apply shiftLeft_eq_ok
  . omega
  . rw [decodeVarintChecked.toNat_low7]
    apply decodeVarintChecked.group_lt byte hk
    omega

theorem go_eq_ok (buf : Bytes) (result : UInt64) (k : Nat) (hk : k ≤ 10)
    : go target buf result k = .ok (Veil.decodeVarintChecked.go buf result k) := by
  induction buf generalizing result k with
  | nil =>
    rw [go, Veil.decodeVarintChecked.go]
    split
    . rfl
    . rfl
  | cons byte buf ih =>
    rw [go, Veil.decodeVarintChecked.go]
    split
    . rfl
    . next hmax =>
      simp only [varintMaxBytes] at hmax
      have hmul : Checked.mul 32 7 k = .ok (7 * k) := by
        apply mul_eq_ok
        omega
      have hadd : Checked.add target.usizeBits k 1 = .ok (k + 1) := by
        apply add_eq_ok
        apply Target.lt_usize
        omega
      simp only [List.isEmpty_cons, Bool.false_eq_true, ↓reduceIte, Checked.get, hmul, hadd,
        ok_bind, pure_eq_ok]
      split
      . rfl
      . next hten =>
        rw [shiftLeft_low7 (by omega) hten, ok_bind]
        split
        . split
          . rfl
          . rfl
        . apply ih
          omega

end decodeVarintChecked

theorem decodeVarintChecked_eq_ok (buf : Bytes)
    : decodeVarintChecked target buf = .ok (Veil.decodeVarintChecked buf) := by
  apply decodeVarintChecked.go_eq_ok
  omega

theorem decodeLen_eq_ok (max : Nat) (field : LengthField) (buf : Bytes)
    : decodeLen target max field buf = .ok (VeilFrontCodec.decodeLen target max field buf) := by
  unfold decodeLen VeilFrontCodec.decodeLen
  rw [decodeVarintChecked_eq_ok, ok_bind]
  cases Veil.decodeVarintChecked buf with
  | incomplete => rfl
  | malformed => rfl
  | value v n =>
    dsimp only
    cases VeilFrontCodec.boundedLen target v max field with
    | ok len => rfl
    | error e => rfl

theorem decode_eq_ok (codec : VeilFrontCodec) (src : Bytes)
    : decode target codec src = .ok (codec.decodeOn target src) := by
  rcases src with _ | ⟨ver, tail⟩
  . rfl
  unfold decode VeilFrontCodec.decodeOn
  simp only [List.isEmpty_cons, Bool.false_eq_true, ↓reduceIte, index_cons_zero, ok_bind,
    pure_eq_ok]
  split
  . rfl
  rcases tail with _ | ⟨frameType, body⟩
  . rfl
  have hdrop : Checked.advance (ver :: frameType :: body) 2 = .ok body := advance_eq_ok (by simp)
  have hshort : ¬ (ver :: frameType :: body).length < 2 := by simp
  rw [if_neg hshort, index_cons_one, ok_bind, hdrop, ok_bind, decodeLen_eq_ok, ok_bind]
  dsimp only
  cases hpayload : VeilFrontCodec.decodeLen target codec.maxPayload .payload body with
  | error e => rfl
  | ok res =>
    rcases res with _ | ⟨payloadLen, vbPayload⟩
    . rfl
    have hvbPayload := VeilFrontCodec.length_of_decodeLen_some hpayload
    have hlength : (ver :: frameType :: body).length = body.length + 2 := rfl
    generalize ver :: frameType :: body = src at hlength ⊢
    dsimp only
    rw [add_eq_ok (Target.lt_usize (by omega)), ok_bind]
    split
    . rfl
    rw [advance_eq_ok (by omega), ok_bind, decodeLen_eq_ok, ok_bind]
    cases hpad : VeilFrontCodec.decodeLen target codec.maxPayload .pad (src.drop (2 + vbPayload))
      with
    | error e => rfl
    | ok res =>
      rcases res with _ | ⟨padLen, vbPad⟩
      . rfl
      have hvbPad := VeilFrontCodec.length_of_decodeLen_some hpad
      rw [List.length_drop] at hvbPad
      dsimp only
      rw [add_eq_ok (Target.lt_usize (by omega)), ok_bind]
      cases hsum : (VeilFrontCodec.checkedAdd target (2 + vbPayload + vbPad) payloadLen).bind
          (VeilFrontCodec.checkedAdd target · padLen) with
      | none => rfl
      | some totalLen =>
        rw [VeilFrontCodec.checkedAdd_bind_eq_some_iff] at hsum
        dsimp only
        split
        . rfl
        -- the frame is complete, so the three cuts stay inside the buffer
        rw [advance_eq_ok (by omega), ok_bind]
        rw [splitTo_eq_ok (by rw [List.length_drop]; omega), ok_bind]
        rw [advance_eq_ok (by rw [List.length_drop, List.length_drop]; omega), ok_bind]

open ByteArr in
theorem copyToSlice_drop (data : Bytes) (off n next : Nat) (h : off + n ≤ data.length)
    (hnext : off + n = next)
    : copyToSlice n (data.drop off) = .ok (slice data off n h, data.drop next) := by
  have hle : n ≤ (data.drop off).length := by
    rw [List.length_drop]
    omega
  unfold copyToSlice
  rw [dif_pos hle, List.drop_drop, hnext]
  rfl

open ByteArr in
theorem getU64Le_drop (data : Bytes) (off next : Nat) (h : off + 8 ≤ data.length)
    (hnext : off + 8 = next)
    : getU64Le (data.drop off) = .ok (u64FromLeBytes (slice data off 8 h), data.drop next) := by
  unfold getU64Le
  rw [copyToSlice_drop data off 8 next h hnext]
  rfl

open ByteArr in
theorem get_drop (data : Bytes) (off next : Nat) (h : off < data.length) (hnext : off + 1 = next)
    : Checked.get (data.drop off) = .ok (getU8 data off h, data.drop next) := by
  rw [drop_eq_getU8_cons data off next h hnext]
  rfl

open ByteArr in
theorem decodeFields_eq_ok (k : Nat) (data : Bytes)
    : decodeFields k data = .ok (CapFields.decode k data) := by
  unfold decodeFields CapFields.decode
  split
  . rfl
  next hfixed =>
  have hlen : 66 + k ≤ data.length := by
    simp only [CapFields.fixedLen, ticketIdLen] at hfixed
    omega
  -- the reads in the order of the source, each from where the last one ended
  have h0 := copyToSlice_drop data 0 16 16 (by omega) rfl
  have h1 := copyToSlice_drop data 16 32 48 (by omega) rfl
  have h2 := copyToSlice_drop data 48 k (48 + k) (by omega) rfl
  have h3 := getU64Le_drop data (48 + k) (56 + k) (by omega) (by omega)
  have h4 := getU64Le_drop data (56 + k) (64 + k) (by omega) (by omega)
  have h5 := get_drop data (64 + k) (65 + k) (by omega) (by omega)
  have h6 := get_drop data (65 + k) (66 + k) (by omega) (by omega)
  rw [List.drop_zero] at h0
  simp only [ticketIdLen, capSigLen, h0, h1, h2, h3, h4, h5, h6, ok_bind, List.length_drop]
  split
  . rfl
  next hvar =>
  have h7 := copyToSlice_drop data (66 + k) (getU8 data (65 + k) (by omega)).toNat _ (by omega) rfl
  have h8 := copyToSlice_drop data (66 + k + (getU8 data (65 + k) (by omega)).toNat) 64 _
    (by omega) rfl
  simp only [h7, h8, ok_bind]
  cases fromUtf8 (slice data (66 + k) (getU8 data (65 + k) (by omega)).toNat (by omega)).val with
  | none => rfl
  | some scope => rfl

theorem copyToSlice_of_length {data : Bytes} {n : Nat} (h : data.length = n)
    : copyToSlice n data = .ok (⟨data, h⟩, []) := by
  subst h
  unfold copyToSlice
  rw [dif_pos (Nat.le_refl _), List.drop_length]
  simp [ByteArr.slice]

theorem decodeCapability_eq_ok (data : Bytes)
    : decodeCapability data = .ok (Capability.decode data) := by
  unfold decodeCapability
  rw [decodeFields_eq_ok]
  rfl

theorem decodeCapabilityV2_eq_ok (data : Bytes)
    : decodeCapabilityV2 data = .ok (CapabilityV2.decode data) := by
  unfold decodeCapabilityV2
  rw [decodeFields_eq_ok]
  rfl

theorem decodePayloadV2_eq_ok (payload : Bytes)
    : decodePayloadV2 payload = .ok (AuthRecordV2.decodePayload payload) := by
  unfold decodePayloadV2 AuthRecordV2.decodePayload
  rw [decodeCapability_eq_ok, ok_bind]
  rcases Capability.decode payload with _ | ⟨capability, buf⟩
  . rfl
  dsimp only
  split
  . rfl
  . next hlen =>
    have hlen : buf.length = authcodeLen := by
      rw [ne_eq, not_not] at hlen
      exact hlen
    rw [copyToSlice_of_length hlen, ok_bind, dif_pos hlen, pure_eq_ok]

theorem decodePayloadV3_eq_ok (payload : Bytes)
    : decodePayloadV3 payload = .ok (AuthRecordV3.decodePayload payload) := by
  unfold decodePayloadV3 AuthRecordV3.decodePayload
  rw [decodeCapabilityV2_eq_ok, ok_bind]
  rcases CapabilityV2.decode payload with _ | ⟨capability, buf⟩
  . rfl
  dsimp only
  split
  . rfl
  . next hlen =>
    have hlen : buf.length = clientSigLen := by
      rw [ne_eq, not_not] at hlen
      exact hlen
    rw [copyToSlice_of_length hlen, ok_bind, dif_pos hlen, pure_eq_ok]

end Raw

namespace decodeVarintChecked

/--
The loop takes the byte that it has read into its accumulator.
-/
def Accumulates (vars : LoopVars) (byte : UInt8) : Prop :=
  vars.bytesRead ≠ varintMaxBytes ∧
    ¬ (vars.bytesRead + 1 = varintMaxBytes ∧ 1 < (byte &&& 0x7F).toUInt64)

/--
The shift pushes no bit out of the word, and or-ing the shifted group into the accumulator is an
addition of `u64` that does not overflow.
-/
def AccumulatorFits (vars : LoopVars) (byte : UInt8) : Prop :=
  let low7 := (byte &&& 0x7F).toUInt64
  let group := low7 <<< UInt64.ofNat (7 * vars.bytesRead)
  Checked.shiftLeft low7 (7 * vars.bytesRead) = .ok group ∧
    Checked.add 64 vars.result.toNat group.toNat = .ok (vars.result ||| group).toNat

theorem accumulatorFits {vars : LoopVars} {byte : UInt8} (h : loop.Reachable vars)
    (hbyte : Accumulates vars byte) : AccumulatorFits vars byte := by
  rcases hbyte with ⟨hmax, hten⟩
  rcases bounds_of_loop_reachable h with ⟨hle, hresult⟩
  have hlt : vars.bytesRead < 10 := by
    simp only [varintMaxBytes] at hmax
    omega
  refine ⟨Raw.decodeVarintChecked.shiftLeft_low7 hlt hten, ?_⟩
  rw [one_lt_low7_iff] at hten
  simp only [varintMaxBytes] at hten
  have hten' : ¬ (vars.bytesRead = 9 ∧ 1 < byte.toNat % 128) := by omega
  have hsum := toNat_acc byte hlt hresult hten'
  rw [UInt64.toNat_shiftLeft_ofNat (by omega), toNat_low7, hsum]
  . apply Checked.add_eq_ok
    rw [← hsum]
    apply UInt64.toNat_lt
  . rw [toNat_low7]
    exact group_lt byte hlt hten'

end decodeVarintChecked

/--
A varint codec whose decoder tells apart the buffers that start with an encoding, those that more
bytes can still turn into one, and those that no bytes can.
-/
structure VarintCodecExact (encode : UInt64 → Bytes) (decode : Bytes → Varint) : Prop where
  length_encode : ∀ v, 1 ≤ (encode v).length ∧ (encode v).length ≤ 10
  value_iff : ∀ b v n, decode b = .value v n ↔ b.take n = encode v ∧ n = (encode v).length
  incomplete_iff : ∀ b, decode b = .incomplete ↔ ∃ v, b <+: encode v ∧ b ≠ encode v
  malformed_iff : ∀ b,
    decode b = .malformed
      ↔
    (¬ ∃ v, encode v <+: b) ∧ ¬ ∃ v, b <+: encode v ∧ b ≠ encode v
  malformed_iff_no_extension : ∀ b, decode b = .malformed ↔ ¬ ∃ ext v, encode v <+: b ++ ext

theorem varintCodecExact : VarintCodecExact encodeVarint decodeVarintChecked where
  length_encode v := ⟨length_encodeVarint_pos v, length_encodeVarint_le v⟩
  value_iff b v n := by
    rw [decodeVarintChecked_eq_value_iff, ← encodeVarint_eq_leb128, List.prefix_iff_eq_take]
    constructor
    . rintro ⟨hpre, rfl⟩
      exact ⟨hpre.symm, rfl⟩
    . rintro ⟨htake, rfl⟩
      exact ⟨htake.symm, rfl⟩
  incomplete_iff b := decodeVarintChecked_eq_incomplete_iff b
  malformed_iff b := by
    rw [← decodeVarintChecked_eq_incomplete_iff, exists_encodeVarint_prefix_iff]
    cases decodeVarintChecked b with
    | value v n => simp
    | incomplete => simp
    | malformed => simp
  malformed_iff_no_extension b := decodeVarintChecked_eq_malformed_iff b

section Verdicts

open decodeVarintChecked

/--
The varint decoder accepts exactly the encodings, waits exactly inside of one and rejects exactly
what cannot become one. The encoder reports how many bytes it wrote. Nothing in either overflows:
not the counters, not the shifts, and not the accumulator wherever the loop of the decoder gets to.
-/
theorem varint_verdicts_exact
    : VarintCodecExact encodeVarint decodeVarintChecked ∧
      (∀ target v buf,
        Raw.encodeVarint target v buf = .ok (buf ++ encodeVarint v, (encodeVarint v).length)) ∧
      (∀ target buf, Raw.decodeVarintChecked target buf = .ok (decodeVarintChecked buf)) ∧
      -- the loop is back at its top after the bytes that it has a run for
      (∀ read,
        decodeVarintChecked read = .incomplete
          ↔
        ∃ vars, loop.run loop.init read = some vars ∧ vars.bytesRead ≠ varintMaxBytes) ∧
      (∀ read vars, loop.run loop.init read = some vars →
        (∀ rest, decodeVarintChecked (read ++ rest) = go rest vars.result vars.bytesRead) ∧
        (∀ byte, Accumulates vars byte → AccumulatorFits vars byte)) := by
  refine ⟨varintCodecExact, Raw.encodeVarint_eq_ok, Raw.decodeVarintChecked_eq_ok,
    fun _ => incomplete_iff_loop_run, ?_⟩
  intro read vars hrun
  constructor
  . intro rest
    apply decodeVarintChecked_of_loop_run rest hrun
  . intro byte
    apply accumulatorFits ⟨read, hrun⟩

end Verdicts

/--
A codec of blobs that are followed by something else: it takes exactly the encodings off the front,
every value whose scope fits has one, and no read leaves the input.
-/
structure BlobCodecExact {α : Type} (scope : α → String) (encode : α → Except String Bytes)
    (decode : Bytes → Option (α × Bytes)) (raw : Bytes → Checked (Option (α × Bytes))) : Prop where
  decode_iff : ∀ b c n,
    (∃ rest, decode b = some (c, rest) ∧ b.length = n + rest.length)
      ↔
    n ≤ b.length ∧ encode c = .ok (b.take n)
  encode_iff : ∀ c, (∃ b, encode c = .ok b) ↔ (asBytes (scope c)).length ≤ maxScopeLen
  no_fault : ∀ b, raw b = .ok (decode b)

/--
A codec of whole payloads.
-/
structure PayloadCodecExact {α : Type} (scope : α → String) (encode : α → Except String Bytes)
    (decode : Bytes → Option α) (raw : Bytes → Checked (Option α)) : Prop where
  decode_iff : ∀ p r,
    decode p = some r ↔ encode r = .ok p ∧ (asBytes (scope r)).length ≤ maxScopeLen
  no_fault : ∀ p, raw p = .ok (decode p)

/--
What an issuer gets for a scope: an error if the scope does not fit, otherwise a capability that can
be encoded and comes back from its encoding.
-/
structure SignExact {α : Type} (encode : α → Except String Bytes)
    (decode : Bytes → Option (α × Bytes))
    (scope : String) (signed : Except CapabilityError α) : Prop where
  error_iff : (∃ e, signed = .error e) ↔ maxScopeLen < (asBytes scope).length
  round_trip : ∀ cap, signed = .ok cap → ∃ enc, encode cap = .ok enc ∧ decode enc = some (cap, [])

theorem prefix_iff_take {α : Type} {encode : α → Except String Bytes} {b : Bytes} {c : α} {n : Nat}
    : (∃ rest, (∃ enc, encode c = .ok enc ∧ b = enc ++ rest) ∧ b.length = n + rest.length)
        ↔
      n ≤ b.length ∧ encode c = .ok (b.take n) := by
  constructor
  . rintro ⟨rest, ⟨enc, henc, rfl⟩, hlen⟩
    rw [List.length_append] at hlen ⊢
    have hn : n = enc.length := by omega
    rw [hn, List.take_left]
    exact ⟨by omega, henc⟩
  . intro ⟨hle, henc⟩
    refine ⟨b.drop n, ⟨b.take n, henc, (List.take_append_drop n b).symm⟩, ?_⟩
    rw [List.length_drop]
    omega

theorem CapFields.exists_encode_iff {k : Nat} (f : CapFields k) (sig : ByteArr capSigLen)
    : (∃ b, f.encode sig = .ok b) ↔ (asBytes f.scope).length ≤ maxScopeLen := by
  simp only [encode_eq_ok_iff, exists_and_left, exists_eq, and_true]

theorem exists_of_map_append {enc : Except String Bytes} {trailer p : Bytes}
    (h : enc.map (· ++ trailer) = .ok p) : ∃ b, enc = .ok b := by
  rcases map_append_eq_ok_iff.mp h with ⟨b, hb, _⟩
  exact ⟨b, hb⟩

theorem Capability.blobCodecExact
    : BlobCodecExact Capability.scope encode decode Raw.decodeCapability where
  decode_iff b c n := by
    simp only [decode_eq_some_iff]
    exact prefix_iff_take
  encode_iff c := CapFields.exists_encode_iff (fields c.ticket c.scope) c.sig
  no_fault := Raw.decodeCapability_eq_ok

theorem CapabilityV2.blobCodecExact
    : BlobCodecExact CapabilityV2.scope encode decode Raw.decodeCapabilityV2 where
  decode_iff b c n := by
    simp only [decode_eq_some_iff]
    exact prefix_iff_take
  encode_iff c := CapFields.exists_encode_iff c.toFields c.sig
  no_fault := Raw.decodeCapabilityV2_eq_ok

theorem AuthRecordV2.payloadCodecExact
    : PayloadCodecExact (·.capability.scope) encodePayload decodePayload Raw.decodePayloadV2 where
  decode_iff p r := by
    rw [decodePayload_eq_some_iff, iff_self_and, ← Capability.blobCodecExact.encode_iff]
    exact exists_of_map_append
  no_fault := Raw.decodePayloadV2_eq_ok

theorem AuthRecordV3.payloadCodecExact
    : PayloadCodecExact (·.capability.scope) encodePayload decodePayload Raw.decodePayloadV3 where
  decode_iff p r := by
    rw [decodePayload_eq_some_iff, iff_self_and, ← CapabilityV2.blobCodecExact.encode_iff]
    exact exists_of_map_append
  no_fault := Raw.decodePayloadV3_eq_ok

theorem checkScopeLen_eq_error_iff {scope : String}
    : (∃ e, checkScopeLen scope = .error e) ↔ maxScopeLen < (asBytes scope).length := by
  unfold checkScopeLen
  split
  . next h => simpa using h
  . next h => simpa using h

theorem BlobCodecExact.signExact {α : Type} {scope : α → String} {encode : α → Except String Bytes}
    {decode : Bytes → Option (α × Bytes)} {raw : Bytes → Checked (Option (α × Bytes))}
    (hcodec : BlobCodecExact scope encode decode raw) {s : String} {cap : α}
    {signed : Except CapabilityError α} (hsigned : signed = (checkScopeLen s).map fun _ => cap)
    (hscope : scope cap = s) : SignExact encode decode s signed where
  error_iff := by
    rw [hsigned, ← checkScopeLen_eq_error_iff]
    cases checkScopeLen s with
    | ok _ => simp [Except.map]
    | error e => simp [Except.map]
  round_trip := by
    intro cap' hok
    rw [hsigned, map_checkScopeLen_eq_ok_iff, ← hscope, ← hcodec.encode_iff] at hok
    rcases hok with ⟨⟨enc, henc⟩, hcap⟩
    rw [← hcap]
    refine ⟨enc, henc, ?_⟩
    rcases (hcodec.decode_iff enc cap enc.length).mpr ⟨Nat.le_refl _, by rwa [List.take_length]⟩
      with ⟨rest, hdec, hrest⟩
    have hnil : rest = [] := List.length_eq_zero_iff.mp (by omega)
    rw [hdec, hnil]

/--
The AUTH payloads of both formats: a payload is accepted iff it is the encoding of a record, a
capability is taken off the front of a buffer iff it is encoded there, no read leaves the input, and
what an issuer signs can be encoded and read back.
-/
theorem auth_codecs_exact
    : PayloadCodecExact (·.capability.scope) AuthRecordV2.encodePayload AuthRecordV2.decodePayload
        Raw.decodePayloadV2 ∧
      PayloadCodecExact (·.capability.scope) AuthRecordV3.encodePayload AuthRecordV3.decodePayload
        Raw.decodePayloadV3 ∧
      BlobCodecExact Capability.scope Capability.encode Capability.decode Raw.decodeCapability ∧
      BlobCodecExact CapabilityV2.scope CapabilityV2.encode CapabilityV2.decode
        Raw.decodeCapabilityV2 ∧
      (∀ (c : Crypto) (ticket : Ticket) (scope : String) (issuerSeed : ByteArr 32),
        SignExact Capability.encode Capability.decode scope
          (Capability.sign c ticket scope issuerSeed)) ∧
      (∀ (c : Crypto) (ticketId : ByteArr ticketIdLen) (veilPk : ByteArr veilPkLen) (role : UInt8)
        (notBefore notAfter : UInt64) (suiteId : UInt8) (scope : String) (issuerSeed : ByteArr 32),
        SignExact CapabilityV2.encode CapabilityV2.decode scope
          (CapabilityV2.sign c ticketId veilPk role notBefore notAfter suiteId scope
            issuerSeed)) := by
  refine ⟨AuthRecordV2.payloadCodecExact, AuthRecordV3.payloadCodecExact, Capability.blobCodecExact,
    CapabilityV2.blobCodecExact, ?_, ?_⟩
  . intro c ticket scope issuerSeed
    apply Capability.blobCodecExact.signExact (Capability.sign_eq_map c ticket scope issuerSeed)
    rfl
  . intro c ticketId veilPk role notBefore notAfter suiteId scope issuerSeed
    apply CapabilityV2.blobCodecExact.signExact (CapabilityV2.sign_eq_map c ticketId veilPk role
      notBefore notAfter suiteId scope issuerSeed)
    rfl

/--
With a cap below `2 ^ 31 - 22` the decoder does the same on a 32 bit machine as on a 64 bit one,
down to the error, and nothing in it overflows or reads outside of the buffer on either.
-/
theorem decode_same_on_both_targets (codec : VeilFrontCodec) (hmax : codec.maxPayload < 2 ^ 31 - 22)
    (src : Bytes)
    : codec.decodeOn .bits32 src = codec.decodeOn .bits64 src ∧
      ∀ target, Raw.decode target codec src = .ok (codec.decodeOn target src) := by
  constructor
  . apply VeilFrontCodec.decodeOn_target
    exact hmax
  . intro target
    apply Raw.decode_eq_ok

theorem decode_same_on_both_targets_default
    : VeilFrontCodec.default.maxPayload < 2 ^ 31 - 22 ∧
      VeilFrontCodec.default.decodeOn .bits32 [wireVer, frameTypeData, 0x85, 0x80, 0x80, 0x80, 0x10]
          =
        (.error (.tooLarge .payload 4294967301 1048576),
          [wireVer, frameTypeData, 0x85, 0x80, 0x80, 0x80, 0x10]) := by
  refine ⟨by decide, ?_⟩
  rw [(decode_same_on_both_targets .default (by decide) _).1]
  decide

end Veil
