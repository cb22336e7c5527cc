import ConstructVeil.Protocol.Impl.Capability

/-!
This module contains the verification of the capability formats: the codecs are exact, the signed
messages determine the signed fields, and `verify` is the conjunction of its checks.
-/

namespace Veil

namespace CapFields

variable {k : Nat}

theorem encode_eq_ok_iff {f : CapFields k} {sig : ByteArr capSigLen} {enc : Bytes}
    : f.encode sig = .ok enc
        ↔
      (asBytes f.scope).length ≤ maxScopeLen ∧
      enc = f.ticketId.val ++ (f.key.val ++ (f.extra.val ++ ((u64ToLeBytes f.notBefore).val ++
        ((u64ToLeBytes f.notAfter).val ++ (f.suiteId :: UInt8.ofNat (asBytes f.scope).length ::
        (asBytes f.scope ++ sig.val)))))) := by
  unfold encode
  dsimp only
  split
  . next h => simp [h, eq_comm]
  . next h => simp [h]

theorem length_of_encode {f : CapFields k} {sig : ByteArr capSigLen} {enc : Bytes}
    (h : f.encode sig = .ok enc) : enc.length ≤ 66 + k + 255 + 64 := by
  rcases encode_eq_ok_iff.mp h with ⟨hscope, rfl⟩
  simp only [maxScopeLen] at hscope
  simp only [List.length_append, List.length_cons, ByteArr.length_val, ticketIdLen, capSigLen]
  omega

open ByteArr in
theorem encode_of_decode {f : CapFields k} {sig : ByteArr capSigLen} {data rest : Bytes}
    (h : decode k data = some (f, sig, rest))
    : ∃ enc, f.encode sig = .ok enc ∧ data = enc ++ rest := by
  unfold decode at h
  split at h
  . cases h
  . next hfixed =>
    dsimp only at h
    split at h
    . cases h
    . next hvar =>
      split at h
      . cases h
      . next scope hscope =>
        simp only [Option.some.injEq, Prod.mk.injEq] at h
        rcases h with ⟨rfl, rfl, rfl⟩
        have hbytes := asBytes_of_fromUtf8 hscope
        have hlen := congrArg List.length hbytes
        rw [length_val] at hlen
        have hfixed' : 66 + k ≤ data.length := by
          simp only [fixedLen, ticketIdLen] at hfixed
          omega
        have hvar' : 66 + k + (getU8 data (65 + k) (by omega)).toNat + 64 ≤ data.length := by
          simp only [capSigLen] at hvar
          omega
        refine ⟨_, encode_eq_ok_iff.mpr ⟨?_, rfl⟩, ?_⟩
        . have := (getU8 data (65 + k) (by omega)).toNat_lt
          simp only [maxScopeLen]
          omega
        . -- the reads tile the buffer
          have h0 := drop_eq_slice_append data 0 16 16 (by omega) rfl
          have h1 := drop_eq_slice_append data 16 32 48 (by omega) rfl
          have h2 := drop_eq_slice_append data 48 k (48 + k) (by omega) rfl
          have h3 := drop_eq_slice_append data (48 + k) 8 (56 + k) (by omega) (by omega)
          have h4 := drop_eq_slice_append data (56 + k) 8 (64 + k) (by omega) (by omega)
          have h5 := drop_eq_getU8_cons data (64 + k) (65 + k) (by omega) (by omega)
          have h6 := drop_eq_getU8_cons data (65 + k) (66 + k) (by omega) (by omega)
          have h7 := drop_eq_slice_append data (66 + k)
            (getU8 data (65 + k) (by omega)).toNat _ (by omega) rfl
          have h8 := drop_eq_slice_append data
            (66 + k + (getU8 data (65 + k) (by omega)).toNat) 64 _ (by omega) rfl
          rw [hlen, hbytes]
          simp only [u64ToLeBytes_fromLeBytes, UInt8.ofNat_toNat, List.append_assoc,
            List.cons_append]
          rw [← h8, ← h7, ← h6, ← h5, ← h4, ← h3, ← h2, ← h1, ← h0]
          rfl

open ByteArr in
theorem decode_append {f : CapFields k} {sig : ByteArr capSigLen} {enc : Bytes} (rest : Bytes)
    (h : f.encode sig = .ok enc) : decode k (enc ++ rest) = some (f, sig, rest) := by
  rcases encode_eq_ok_iff.mp h with ⟨hscope, henc⟩
  have hlen : (enc ++ rest).length = 66 + k + (asBytes f.scope).length + 64 + rest.length := by
    simp only [henc, List.length_append, List.length_cons, length_val, ticketIdLen, capSigLen]
    omega
  generalize hdata : enc ++ rest = data at hlen
  -- follow the cursor through the fields
  have h0 : data.drop 0 = _ := hdata.symm
  rw [henc] at h0
  simp only [List.append_assoc, List.cons_append] at h0
  have h1 := drop_of_drop_append 16 f.ticketId h0 (by rfl)
  have h2 := drop_of_drop_append 48 f.key h1 (by rfl)
  have h3 := drop_of_drop_append (48 + k) f.extra h2 (by rfl)
  have h4 := drop_of_drop_append (56 + k) _ h3 (by omega)
  have h5 := drop_of_drop_append (64 + k) _ h4 (by omega)
  have h6 := drop_of_drop_cons (65 + k) h5 (by omega)
  have h7 := drop_of_drop_cons (66 + k) h6 (by omega)
  have h8 := drop_of_drop_append _ ⟨asBytes f.scope, rfl⟩ h7 (by rfl)
  have h9 := drop_of_drop_append _ sig h8 (by rfl)
  simp only [maxScopeLen] at hscope
  have hscopeLen : (getU8 data (65 + k) (by omega)).toNat = (asBytes f.scope).length := by
    rw [getU8_of_drop h6, UInt8.toNat_ofNat']
    omega
  have hutf8 : fromUtf8 (slice data (66 + k) (getU8 data (65 + k) (by omega)).toNat (by omega)).val
      = some f.scope := by
    rw [val_slice, hscopeLen, h7, List.take_left, fromUtf8_asBytes]
  unfold decode
  rw [dif_neg (by simp only [fixedLen, ticketIdLen]; omega)]
  dsimp only
  rw [dif_neg (by simp only [capSigLen]; omega)]
  simp only [hutf8, hscopeLen]
  rw [slice_of_drop f.ticketId h0, slice_of_drop f.key h1, slice_of_drop f.extra h2,
    slice_of_drop (u64ToLeBytes f.notBefore) h3, slice_of_drop (u64ToLeBytes f.notAfter) h4,
    getU8_of_drop h5, slice_of_drop sig h8, u64FromLeBytes_toLeBytes, u64FromLeBytes_toLeBytes]
  rw [show data.drop (66 + k + (asBytes f.scope).length + 64) = rest from h9]

theorem decode_eq_some_iff {f : CapFields k} {sig : ByteArr capSigLen} {data rest : Bytes}
    : decode k data = some (f, sig, rest) ↔ ∃ enc, f.encode sig = .ok enc ∧ data = enc ++ rest := by
  constructor
  . exact encode_of_decode
  . rintro ⟨enc, henc, rfl⟩
    exact decode_append rest henc

/--
The signed message determines every field: all of them but the last have a fixed length.
-/
theorem signingMessage_injective {domain : Bytes} {f g : CapFields k}
    (h : f.signingMessage domain = g.signingMessage domain) : f = g := by
  simp only [signingMessage, List.append_assoc, List.append_cancel_left_eq] at h
  have ⟨hid, h⟩ := List.append_inj h (by simp)
  have ⟨hkey, h⟩ := List.append_inj h (by simp)
  have ⟨hextra, h⟩ := List.append_inj h (by simp)
  have ⟨hbefore, h⟩ := List.append_inj h (by simp)
  have ⟨hafter, h⟩ := List.append_inj h (by simp)
  have ⟨hsuite, hscope⟩ := List.append_inj h (by simp)
  rcases f with ⟨fid, fkey, fextra, fbefore, fafter, fsuite, fscope⟩
  rcases g with ⟨gid, gkey, gextra, gbefore, gafter, gsuite, gscope⟩
  simp only [mk.injEq]
  refine ⟨ByteArr.ext hid, ByteArr.ext hkey, ByteArr.ext hextra, ?_, ?_, ?_, ?_⟩
  . exact u64ToLeBytes_injective (ByteArr.ext hbefore)
  . exact u64ToLeBytes_injective (ByteArr.ext hafter)
  . exact List.head_eq_of_cons_eq hsuite
  . exact asBytes_injective hscope

end CapFields

theorem scopeMatches_iff {capabilityScope relayScope : String}
    : scopeMatches capabilityScope relayScope = true
        ↔
      capabilityScope = "" ∨ relayScope = "" ∨ capabilityScope = relayScope := by
  simp [scopeMatches, or_assoc]

theorem checkScopeLen_eq_ok_iff {scope : String}
    : checkScopeLen scope = .ok () ↔ (asBytes scope).length ≤ maxScopeLen := by
  unfold checkScopeLen
  split
  . next h =>
    simp only [reduceCtorEq, false_iff]
    omega
  . next h =>
    simp only [true_iff]
    omega

theorem map_checkScopeLen_eq_ok_iff {α : Type} {scope : String} {a b : α}
    : (checkScopeLen scope).map (fun _ => a) = .ok b
        ↔
      (asBytes scope).length ≤ maxScopeLen ∧ a = b := by
  rw [← checkScopeLen_eq_ok_iff]
  cases checkScopeLen scope with
  | ok _ => simp [Except.map]
  | error e => simp [Except.map]

namespace Capability

@[simp]
theorem fields_ofFields (f : CapFields 0) (sig : ByteArr capSigLen)
    : fields (ofFields f sig).ticket (ofFields f sig).scope = f := by
  have hextra : f.extra = ⟨[], rfl⟩ := ByteArr.ext (List.length_eq_zero_iff.mp f.extra.property)
  rcases f with ⟨_, _, extra, _, _, _, _⟩
  cases hextra
  rfl

theorem isValidAt_iff {cap : Capability} {nowSecs : UInt64}
    : cap.isValidAt nowSecs = true
        ↔
      cap.ticket.notBefore ≤ nowSecs ∧ nowSecs ≤ cap.ticket.notAfter := by
  simp [isValidAt, Ticket.isValidAt]

theorem decode_eq_some_iff {cap : Capability} {data rest : Bytes}
    : decode data = some (cap, rest) ↔ ∃ enc, cap.encode = .ok enc ∧ data = enc ++ rest := by
  simp only [decode, Option.map_eq_some_iff, Prod.exists, Prod.mk.injEq]
  constructor
  . rintro ⟨f, sig, rest, hf, rfl, rfl⟩
    rw [CapFields.decode_eq_some_iff] at hf
    unfold encode
    rw [fields_ofFields]
    exact hf
  . rintro henc
    refine ⟨fields cap.ticket cap.scope, cap.sig, rest, ?_, rfl, rfl⟩
    rw [CapFields.decode_eq_some_iff]
    exact henc

theorem decode_of_encode {cap : Capability} {encoded : Bytes} (h : cap.encode = .ok encoded)
    : decode encoded = some (cap, []) :=
  decode_eq_some_iff.mpr ⟨encoded, h, (List.append_nil encoded).symm⟩

theorem sign_eq_map (c : Crypto) (ticket : Ticket) (scope : String) (issuerSeed : ByteArr 32)
    : sign c ticket scope issuerSeed
        =
      (checkScopeLen scope).map fun _ =>
        ⟨ticket, scope, c.sign issuerSeed (signingMessage ticket scope)⟩ := by
  unfold sign
  cases checkScopeLen scope <;> rfl

end Capability

namespace CapabilityV2

def toFields (cap : CapabilityV2) : CapFields 1 :=
  fields cap.ticketId cap.veilPk cap.role cap.notBefore cap.notAfter cap.suiteId cap.scope

@[simp]
theorem toFields_ofFields (f : CapFields 1) (sig : ByteArr capSigLen)
    : (ofFields f sig).toFields = f := by
  rcases f with ⟨_, _, ⟨extra, hextra⟩, _, _, _, _⟩
  rcases List.length_eq_one_iff.mp hextra with ⟨role, rfl⟩
  rfl

theorem isValidAt_iff {cap : CapabilityV2} {nowSecs : UInt64}
    : cap.isValidAt nowSecs = true ↔ cap.notBefore ≤ nowSecs ∧ nowSecs ≤ cap.notAfter := by
  simp [isValidAt]

theorem decode_eq_some_iff {cap : CapabilityV2} {data rest : Bytes}
    : decode data = some (cap, rest) ↔ ∃ enc, cap.encode = .ok enc ∧ data = enc ++ rest := by
  simp only [decode, Option.map_eq_some_iff, Prod.exists, Prod.mk.injEq]
  constructor
  . rintro ⟨f, sig, rest, hf, rfl, rfl⟩
    rw [CapFields.decode_eq_some_iff] at hf
    have hfields := toFields_ofFields f sig
    unfold toFields at hfields
    unfold encode
    rw [hfields]
    exact hf
  . rintro henc
    refine ⟨cap.toFields, cap.sig, rest, ?_, rfl, rfl⟩
    rw [CapFields.decode_eq_some_iff]
    exact henc

theorem decode_of_encode {cap : CapabilityV2} {encoded : Bytes} (h : cap.encode = .ok encoded)
    : decode encoded = some (cap, []) :=
  decode_eq_some_iff.mpr ⟨encoded, h, (List.append_nil encoded).symm⟩

theorem sign_eq_map (c : Crypto) (ticketId : ByteArr ticketIdLen)
    (veilPk : ByteArr veilPkLen) (role : UInt8) (notBefore notAfter : UInt64) (suiteId : UInt8)
    (scope : String) (issuerSeed : ByteArr 32)
    : sign c ticketId veilPk role notBefore notAfter suiteId scope issuerSeed
        =
      (checkScopeLen scope).map fun _ =>
        ⟨ticketId, veilPk, role, notBefore, notAfter, suiteId, scope, c.sign issuerSeed
          (signingMessage ticketId veilPk role notBefore notAfter suiteId scope)⟩ := by
  unfold sign
  cases checkScopeLen scope <;> rfl

end CapabilityV2

theorem map_append_eq_ok_iff {enc : Except String Bytes} {trailer payload : Bytes}
    : enc.map (· ++ trailer) = .ok payload ↔ ∃ blob, enc = .ok blob ∧
        payload = blob ++ trailer := by
  cases enc with
  | ok blob => simp [Except.map, eq_comm]
  | error e => simp [Except.map]

namespace AuthRecordV2

theorem decodePayload_eq_some_iff {rec : AuthRecordV2} {payload : Bytes}
    : decodePayload payload = some rec ↔ rec.encodePayload = .ok payload := by
  unfold decodePayload encodePayload
  rw [map_append_eq_ok_iff]
  constructor
  . intro h
    split at h
    . cases h
    . next capability buf hcap =>
      rw [Capability.decode_eq_some_iff] at hcap
      split at h
      . injection h with h
        rw [← h]
        exact hcap
      . cases h
  . intro h
    rw [Capability.decode_eq_some_iff.mpr h]
    simp

theorem length_of_encodePayload {rec : AuthRecordV2} {payload : Bytes}
    (h : rec.encodePayload = .ok payload) : payload.length ≤ 417 := by
  rcases map_append_eq_ok_iff.mp h with ⟨blob, hblob, rfl⟩
  have := CapFields.length_of_encode hblob
  simp only [List.length_append, ByteArr.length_val, authcodeLen]
  omega

theorem verify_iff {c : Crypto} {rec : AuthRecordV2} {issuerPubkey exporter : ByteArr 32}
    {relayScope : String} {nowSecs : UInt64}
    : rec.verify c issuerPubkey relayScope exporter nowSecs = true
        ↔
      rec.capability.isValidAt nowSecs = true ∧
      rec.capability.ticket.suiteId = suiteClassicV1 ∧
      scopeMatches rec.capability.scope relayScope = true ∧
      rec.capability.verifySignature c issuerPubkey = true ∧
      rec.authcode = (AuthRecord.fromTicket c rec.capability.ticket exporter).authcode := by
  simp [verify, and_assoc, eq_comm (a := rec.authcode)]

end AuthRecordV2

namespace AuthRecordV3

theorem decodePayload_eq_some_iff {rec : AuthRecordV3} {payload : Bytes}
    : decodePayload payload = some rec ↔ rec.encodePayload = .ok payload := by
  unfold decodePayload encodePayload
  rw [map_append_eq_ok_iff]
  constructor
  . intro h
    split at h
    . cases h
    . next capability buf hcap =>
      rw [CapabilityV2.decode_eq_some_iff] at hcap
      split at h
      . injection h with h
        rw [← h]
        exact hcap
      . cases h
  . intro h
    rw [CapabilityV2.decode_eq_some_iff.mpr h]
    simp

theorem length_of_encodePayload {rec : AuthRecordV3} {payload : Bytes}
    (h : rec.encodePayload = .ok payload) : payload.length ≤ 450 := by
  rcases map_append_eq_ok_iff.mp h with ⟨blob, hblob, rfl⟩
  have := CapFields.length_of_encode hblob
  simp only [List.length_append, ByteArr.length_val, clientSigLen]
  omega

theorem verify_iff {c : Crypto} {rec : AuthRecordV3} {issuerPubkey exporter : ByteArr 32}
    {relayScope : String} {expectedRole : UInt8} {nowSecs : UInt64}
    : rec.verify c issuerPubkey relayScope expectedRole exporter nowSecs = true
        ↔
      rec.capability.role = expectedRole ∧
      rec.capability.isValidAt nowSecs = true ∧
      rec.capability.suiteId = suiteClassicV1 ∧
      scopeMatches rec.capability.scope relayScope = true ∧
      rec.capability.verifySignature c issuerPubkey = true ∧
      c.verify rec.capability.veilPk (signingMessage rec.capability exporter) rec.clientSig
        = true := by
  simp [verify, and_assoc]

end AuthRecordV3

end Veil
