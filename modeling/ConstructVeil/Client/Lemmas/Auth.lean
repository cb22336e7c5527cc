import ConstructVeil.Client.Impl.Adapter
import ConstructVeil.Relay.Lemmas.Gate
import ConstructVeil.Util.Checked

/-!
This module contains the verification of the client's AUTH frame: with a capability from the relay's
issuer the client builds a frame that the gate of this relay finds authentic.
-/

namespace Veil

open Except

/--
What the signature scheme promises to honest users: a signature verifies under the public key of the
seed it was made with.
-/
structure Crypto.SignVerifies (c : Crypto) : Prop where
  validKey : ∀ seed, c.validKey (c.publicKey seed) = true
  verifyStrict : ∀ seed msg, c.verifyStrict (c.publicKey seed) msg (c.sign seed msg) = true

theorem Crypto.SignVerifies.verify_sign {c : Crypto} (h : c.SignVerifies) (seed : ByteArr 32)
    (msg : Bytes) : c.verify (c.publicKey seed) msg (c.sign seed msg) = true := by
  simp [Crypto.verify, h.validKey, h.verifyStrict]

/--
The configuration of the client holds a capability that the issuer of this relay has signed and that
is good for this relay at all of the given times.
-/
inductive Accredited (env : GateEnv) (texts : TextCodecs) (capabilityB64 : String)
    (authV3 : VeilFrontAuthV3) (clocks : List UInt64) : Prop where
  | v2 (cap : Capability) (issuerSeed : ByteArr 32)
    (hconf : ¬(authV3.capabilityV2B64 ≠ "" ∧ authV3.veilSkHex ≠ ""))
    (hparse : parseCapability texts capabilityB64 = .ok cap)
    (hissuer : env.issuerPubkey = env.crypto.publicKey issuerSeed)
    (hsign : Capability.sign env.crypto cap.ticket cap.scope issuerSeed = .ok cap)
    (hsuite : cap.ticket.suiteId = suiteClassicV1)
    (hscope : scopeMatches cap.scope env.relayScope = true)
    (hwindow : ∀ now ∈ clocks, cap.isValidAt now = true)
  | v3 (cap : CapabilityV2) (issuerSeed veilSk : ByteArr 32)
    (hconf : authV3.capabilityV2B64 ≠ "" ∧ authV3.veilSkHex ≠ "")
    (hparse : parseCapabilityV2 texts authV3.capabilityV2B64 = .ok cap)
    (hsk : parseVeilSk texts authV3.veilSkHex = .ok veilSk)
    (hbound : cap.veilPk = env.crypto.publicKey veilSk)
    (hissuer : env.issuerPubkey = env.crypto.publicKey issuerSeed)
    (hsign : CapabilityV2.sign env.crypto cap.ticketId cap.veilPk cap.role cap.notBefore
      cap.notAfter cap.suiteId cap.scope issuerSeed = .ok cap)
    (hrole : cap.role = roleUser ∨ cap.role = roleRelay)
    (hsuite : cap.suiteId = suiteClassicV1)
    (hscope : scopeMatches cap.scope env.relayScope = true)
    (hwindow : ∀ now ∈ clocks, cap.isValidAt now = true)

theorem Capability.encode_of_sign {c : Crypto} {cap : Capability} {issuerSeed : ByteArr 32}
    (h : sign c cap.ticket cap.scope issuerSeed = .ok cap)
    : (∃ enc, cap.encode = .ok enc) ∧
      cap.sig = c.sign issuerSeed (signingMessage cap.ticket cap.scope) := by
  rw [sign_eq_map, map_checkScopeLen_eq_ok_iff] at h
  rcases h with ⟨hscope, hcap⟩
  refine ⟨⟨_, CapFields.encode_eq_ok_iff.mpr ⟨hscope, rfl⟩⟩, ?_⟩
  conv => lhs; rw [← hcap]

theorem CapabilityV2.encode_of_sign {c : Crypto} {cap : CapabilityV2} {issuerSeed : ByteArr 32}
    (h : sign c cap.ticketId cap.veilPk cap.role cap.notBefore cap.notAfter cap.suiteId cap.scope
      issuerSeed = .ok cap)
    : (∃ enc, cap.encode = .ok enc) ∧
      cap.sig
          =
        c.sign issuerSeed
          (signingMessage cap.ticketId cap.veilPk cap.role cap.notBefore cap.notAfter
          cap.suiteId cap.scope) := by
  rw [sign_eq_map, map_checkScopeLen_eq_ok_iff] at h
  rcases h with ⟨hscope, hcap⟩
  refine ⟨⟨_, CapFields.encode_eq_ok_iff.mpr ⟨hscope, rfl⟩⟩, ?_⟩
  conv => lhs; rw [← hcap]

theorem ensureValidNow_true : ensureValidNow true = .ok () := rfl

/--
An accredited client gets its AUTH frame, and the gate accepts it at any of the times.
-/
theorem authFrame_authentic {env : GateEnv} {texts : TextCodecs} {capabilityB64 : String}
    {authV3 : VeilFrontAuthV3} {clocks : List UInt64} {unixNow : UInt64}
    (hcrypto : env.crypto.SignVerifies) (hcred : Accredited env texts capabilityB64 authV3 clocks)
    (hnow : unixNow ∈ clocks)
    : ∃ frame, authFrame env.crypto texts unixNow env.exporter capabilityB64 authV3 = .ok frame ∧
        ∀ now ∈ clocks, Authentic env now frame := by
  cases hcred with
  | v2 cap issuerSeed hconf hparse hissuer hsign hsuite hscope hwindow =>
    rcases Capability.encode_of_sign hsign with ⟨⟨enc, henc⟩, hsig⟩
    have hencode : ∃ payload,
        (AuthRecordV2.fromCapability env.crypto cap env.exporter).encodePayload = .ok payload :=
      ⟨_, map_append_eq_ok_iff.mpr ⟨enc, henc, rfl⟩⟩
    rcases hencode with ⟨payload, hpayload⟩
    refine ⟨.authV2 payload, ?_, ?_⟩
    . rw [authFrame, if_neg hconf, hparse]
      simp only [mapError_ok, ok_bind, hwindow unixNow hnow, ensureValidNow_true, hpayload]
      rfl
    . intro now hmem
      refine .inl ⟨rfl, _, hpayload, ?_⟩
      rw [authenticV2_iff, AuthRecordV2.verify_iff]
      refine ⟨hwindow now hmem, hsuite, hscope, ?_, rfl⟩
      rw [Capability.verifySignature, hissuer]
      dsimp only [AuthRecordV2.fromCapability]
      rw [hsig]
      exact hcrypto.verify_sign _ _
  | v3 cap issuerSeed veilSk hconf hparse hsk hbound hissuer hsign hrole hsuite hscope hwindow =>
    rcases CapabilityV2.encode_of_sign hsign with ⟨⟨enc, henc⟩, hsig⟩
    have hencode : ∃ payload,
        (AuthRecordV3.fromCapability env.crypto cap veilSk env.exporter).encodePayload
          = .ok payload :=
      ⟨_, map_append_eq_ok_iff.mpr ⟨enc, henc, rfl⟩⟩
    rcases hencode with ⟨payload, hpayload⟩
    refine ⟨.authV3 payload, ?_, ?_⟩
    . rw [authFrame, if_pos hconf, hparse, hsk]
      simp only [mapError_ok, ok_bind, hwindow unixNow hnow, ensureValidNow_true, hpayload]
      rfl
    . intro now hmem
      refine .inr ⟨rfl, _, hpayload, ?_⟩
      rw [authenticV3_iff, AuthRecordV3.verify_iff]
      refine ⟨hrole, rfl, hwindow now hmem, hsuite, hscope, ?_, ?_⟩
      . rw [CapabilityV2.verifySignature, hissuer]
        dsimp only [AuthRecordV3.fromCapability]
        rw [hsig]
        exact hcrypto.verify_sign _ _
      . dsimp only [AuthRecordV3.fromCapability]
        rw [hbound]
        exact hcrypto.verify_sign _ _

theorem authFrame_of_parse {crypto : Crypto} {texts : TextCodecs} {b64 : String} {cap : Capability}
    {key : ByteArr 32} {now : UInt64} {frame : Frame}
    (hparse : parseCapability texts b64 = .ok cap)
    (h : authFrame crypto texts now key b64 ⟨"", ""⟩ = .ok frame)
    : cap.isValidAt now = true ∧ frame.frameType = frameTypeAuthV2 ∧
        (AuthRecordV2.fromCapability crypto cap key).encodePayload = .ok frame.payload := by
  rw [authFrame, if_neg (by simp)] at h
  rcases bind_eq_ok h with ⟨cap', hcap, h⟩
  rcases bind_eq_ok h with ⟨_, hvalid, h⟩
  rcases bind_eq_ok h with ⟨payload, hpayload, h⟩
  cases h
  rw [mapError_eq_ok hcap, Except.ok.injEq] at hparse
  subst hparse
  have hvalid := mapError_eq_ok hvalid
  refine ⟨?_, rfl, mapError_eq_ok hpayload⟩
  rw [ensureValidNow] at hvalid
  split at hvalid
  . next hv => exact hv
  . cases hvalid

theorem authFrame_of_parseV2 {crypto : Crypto} {texts : TextCodecs} {authV3 : VeilFrontAuthV3}
    {capabilityB64 : String} {cap : CapabilityV2} {veilSk key : ByteArr 32} {now : UInt64}
    {frame : Frame}
    (hconf : authV3.capabilityV2B64 ≠ "" ∧ authV3.veilSkHex ≠ "")
    (hparse : parseCapabilityV2 texts authV3.capabilityV2B64 = .ok cap)
    (hsk : parseVeilSk texts authV3.veilSkHex = .ok veilSk)
    (h : authFrame crypto texts now key capabilityB64 authV3 = .ok frame)
    : (AuthRecordV3.fromCapability crypto cap veilSk key).encodePayload.map .authV3
        = .ok frame := by
  rw [authFrame, if_pos hconf] at h
  rcases bind_eq_ok h with ⟨cap', hcap, h⟩
  rcases bind_eq_ok h with ⟨_, _, h⟩
  rcases bind_eq_ok h with ⟨veilSk', hsk', h⟩
  rcases bind_eq_ok h with ⟨payload, hpayload, h⟩
  cases h
  rw [mapError_eq_ok hcap, Except.ok.injEq] at hparse
  rw [mapError_eq_ok hsk', Except.ok.injEq] at hsk
  subst hparse hsk
  rw [mapError_eq_ok hpayload]
  rfl

/--
A frame that was built with a capability is good for no relay outside of its validity window.
-/
theorem Authentic.isValidAt {crypto : Crypto} {cap : CapabilityV2} {veilSk key : ByteArr 32}
    {frame : Frame} {env : GateEnv} {now : UInt64} (h : Authentic env now frame)
    (hframe
      : (AuthRecordV3.fromCapability crypto cap veilSk key).encodePayload.map .authV3 = .ok frame)
    : cap.isValidAt now = true := by
  cases hpayload : (AuthRecordV3.fromCapability crypto cap veilSk key).encodePayload with
  | error e =>
    rw [hpayload] at hframe
    cases hframe
  | ok payload =>
    rw [hpayload] at hframe
    cases hframe
    rcases h with ⟨htype, _⟩ | ⟨_, rec, hrec, hauth⟩
    . cases htype
    . -- The payload determines the record
      have hsame : some (AuthRecordV3.fromCapability crypto cap veilSk key) = some rec := by
        rw [← AuthRecordV3.decodePayload_eq_some_iff.mpr hpayload]
        exact AuthRecordV3.decodePayload_eq_some_iff.mpr hrec
      cases hsame
      rw [authenticV3_iff, AuthRecordV3.verify_iff] at hauth
      exact hauth.2.2.1

end Veil
