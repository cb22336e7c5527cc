import ConstructVeil.Relay.Lemmas.Gate

/-!
This module contains the verification of what the authcode of AUTH v2 is for: a record opens the
session that it was made for, and no other one.
-/

namespace Veil

open VeilFrontCodec

/--
Under one key and for one ticket, different exporters have different codes. The codes are as long as
the exporters, so this is less than injectivity on the whole messages, which are longer.
-/
def BindsExporter (c : Crypto) : Prop :=
  ∀ (key : ByteArr authKeyLen) (ticketId : ByteArr ticketIdLen) (notAfter : UInt64)
    (exporter exporter' : ByteArr 32),
    c.hmacSha256 key (exporter.val ++ ticketId.val ++ (u64ToLeBytes notAfter).val)
        = c.hmacSha256 key (exporter'.val ++ ticketId.val ++ (u64ToLeBytes notAfter).val)
      → exporter = exporter'

theorem Authentic.exporter_eq {env env' : GateEnv} {now now' : UInt64} {frame : Frame}
    (hbinds : BindsExporter env.crypto) (hcrypto : env'.crypto = env.crypto)
    (htype : frame.isAuthV2 = true) (h : Authentic env now frame) (h' : Authentic env' now' frame)
    : env'.exporter = env.exporter := by
  have hv3 : frame.frameType ≠ frameTypeAuthV3 := by
    simp only [Frame.isAuthV2, beq_iff_eq] at htype
    rw [htype]
    decide
  rcases h with ⟨_, rec, hrec, hauth⟩ | ⟨htype', _⟩
  . rcases h' with ⟨_, rec', hrec', hauth'⟩ | ⟨htype', _⟩
    . -- The payload is the encoding of one record only
      rw [← AuthRecordV2.decodePayload_eq_some_iff] at hrec hrec'
      rw [hrec] at hrec'
      injection hrec' with heq
      subst heq
      have hsession := hauth'.session
      rw [hauth.session, hcrypto] at hsession
      exact (hbinds _ _ _ _ _ hsession).symm
    . exact absurd htype' hv3
  . exact absurd htype' hv3

theorem tryDecodeAuth_other_session {env env' : GateEnv} {now now' : UInt64} {frame : Frame}
    {buf leftover buf' leftover' rest : Bytes}
    (hbinds : BindsExporter env.crypto) (hcrypto : env'.crypto = env.crypto)
    (hexporter : env'.exporter ≠ env.exporter) (htype : frame.isAuthV2 = true)
    (hframe : attempt env.target .default buf = .item frame leftover)
    (htunnel : tryDecodeAuth env buf now = some (.tunnel rest))
    (hframe' : attempt env'.target .default buf' = .item frame leftover')
    : tryDecodeAuth env' buf' now' = some .site := by
  rcases tryDecodeAuth_item now hframe with ⟨hauth, _⟩ | ⟨_, hsite⟩
  . rcases tryDecodeAuth_item now' hframe' with ⟨hauth', _⟩ | ⟨_, hsite'⟩
    . exact absurd (hauth.exporter_eq hbinds hcrypto htype hauth') hexporter
    . exact hsite'
  . rw [htunnel] at hsite
    cases hsite

/--
The ways to frame a record: with the bucket table, without buckets, or by the frame alone.
-/
inductive Frames (frame : Frame) : Bytes → Prop where
  | codec (codec : VeilFrontCodec) (h : codec.buckets = none ∨ codec.buckets = some lengthBuckets)
      : Frames frame (codec.encode frame [])
  | alone : Frames frame frame.encodeToBytes

theorem attempt_of_frames {frame : Frame} {framed : Bytes} (target : Target) (rest : Bytes)
    (hpayload : frame.payload.length ≤ defaultMaxPayload) (h : Frames frame framed)
    : attempt target .default (framed ++ rest) = .item frame rest := by
  cases h with
  | codec codec h =>
    apply attempt_encode_of_padLen_le target codec frame rest hpayload
    rcases h with h | h
    . simp [padLen, h]
    . have hpad := padLen_le frame.payload.length
      have hmax : defaultMaxPayload = 1048576 := rfl
      rw [padLen_bucketCodec] at hpad
      simp only [padLen, h]
      omega
  | alone =>
    have hmax : defaultMaxPayload = 1048576 := rfl
    rw [attempt_default_eq_item_iff]
    refine ⟨[], ?_, hpayload, by simp⟩
    have hlen : encodeVarint (UInt64.ofNat frame.payload.length) = leb128 frame.payload.length :=
      encodeVarint_ofNat (by omega)
    have hzero : encodeVarint 0 = leb128 0 := encodeVarint_eq_leb128 0
    simp [Frame.encodeToBytes, wireFrame, hlen, hzero]

theorem AuthRecordV2.encodePayload_fromCapability (c : Crypto) (cap : Capability)
    (exporter : ByteArr 32) (hscope : (asBytes cap.scope).length ≤ maxScopeLen)
    : ∃ payload, (fromCapability c cap exporter).encodePayload = .ok payload := by
  have henc : ∃ enc, cap.encode = .ok enc := ⟨_, CapFields.encode_eq_ok_iff.mpr ⟨hscope, rfl⟩⟩
  rcases henc with ⟨enc, henc⟩
  exact ⟨enc ++ _, map_append_eq_ok_iff.mpr ⟨enc, henc, rfl⟩⟩

theorem tryDecodeAuth_own_session {env : GateEnv} {cap : Capability} {now : UInt64}
    {payload framed : Bytes} (tail : Bytes)
    (hpayload : (AuthRecordV2.fromCapability env.crypto cap env.exporter).encodePayload
      = .ok payload)
    (hframed : Frames (.authV2 payload) framed)
    (hsig : cap.verifySignature env.crypto env.issuerPubkey = true)
    (hvalid : cap.isValidAt now = true) (hsuite : cap.ticket.suiteId = suiteClassicV1)
    (hscope : scopeMatches cap.scope env.relayScope = true)
    : tryDecodeAuth env (framed ++ tail) now = some (.tunnel tail) := by
  have hauth : Authentic env now (.authV2 payload) := by
    refine .inl ⟨rfl, _, hpayload, ?_⟩
    rw [authenticV2_iff, AuthRecordV2.verify_iff]
    exact ⟨hvalid, hsuite, hscope, hsig, rfl⟩
  have hitem := attempt_of_frames env.target tail hauth.length_payload_le hframed
  rcases tryDecodeAuth_item now hitem with ⟨_, htunnel⟩ | ⟨hnot, _⟩
  . exact htunnel
  . exact absurd hauth hnot

/--
A recorded AUTH v2 record is useless on another connection, and its holder is let in on its own one.
-/
theorem auth_v2_bound_to_session (c : Crypto) (hbinds : BindsExporter c)
    : (∀ (env env' : GateEnv) (buf leftover rest : Bytes) (frame : Frame) (now : UInt64),
        env.crypto = c → env'.crypto = c → env'.exporter ≠ env.exporter
        → VeilFrontCodec.default.decodeOn env.target buf = (.ok (some frame), leftover)
        → frame.isAuthV2 = true
        → tryDecodeAuth env buf now = some (.tunnel rest)
        → (∃ recorded, buf = recorded ++ leftover
            ∧ ∀ tail now', tryDecodeAuth env' (recorded ++ tail) now' = some .site)
          ∧ ∀ buf' leftover' now',
              VeilFrontCodec.default.decodeOn env'.target buf' = (.ok (some frame), leftover')
              → tryDecodeAuth env' buf' now' = some .site)
      ∧ ∀ (env : GateEnv) (cap : Capability) (now : UInt64),
          env.crypto = c → (asBytes cap.scope).length ≤ maxScopeLen
          → cap.verifySignature c env.issuerPubkey = true → cap.isValidAt now = true
          → cap.ticket.suiteId = suiteClassicV1 → scopeMatches cap.scope env.relayScope = true
          → ∃ payload, (AuthRecordV2.fromCapability c cap env.exporter).encodePayload = .ok payload
              ∧ ∀ framed tail, Frames (.authV2 payload) framed
                  → tryDecodeAuth env (framed ++ tail) now = some (.tunnel tail) := by
  constructor
  . rintro env env' buf leftover rest frame now rfl hcrypto hexporter hframe htype htunnel
    rw [← attempt_eq_item_iff] at hframe
    have hsite : ∀ buf' leftover' now', attempt env'.target .default buf' = .item frame leftover'
        → tryDecodeAuth env' buf' now' = some .site := by
      intro buf' leftover' now' hframe'
      exact tryDecodeAuth_other_session hbinds hcrypto hexporter htype hframe htunnel hframe'
    constructor
    . rw [attempt_default_eq_item_iff] at hframe
      rcases hframe with ⟨pad, hbuf, hpayload, hpad⟩
      refine ⟨wireFrame frame pad, hbuf, ?_⟩
      intro tail now'
      apply hsite _ tail
      rw [attempt_default_eq_item_iff]
      exact ⟨pad, rfl, hpayload, hpad⟩
    . intro buf' leftover' now' hframe'
      rw [← attempt_eq_item_iff] at hframe'
      exact hsite buf' leftover' now' hframe'
  . rintro env cap now rfl hlen hsig hvalid hsuite hscope
    rcases AuthRecordV2.encodePayload_fromCapability env.crypto cap env.exporter hlen
      with ⟨payload, hpayload⟩
    refine ⟨payload, hpayload, ?_⟩
    intro framed tail hframed
    exact tryDecodeAuth_own_session tail hpayload hframed hsig hvalid hsuite hscope

def exporterAsCode : Crypto where
  publicKey seed := seed
  sign _ _ := .fill 64 7
  validKey _ := true
  verifyStrict _ _ _ := true
  hmacSha256 _ msg := ⟨(msg ++ List.replicate 32 0).take 32, by simp⟩

theorem bindsExporter_exporterAsCode : BindsExporter exporterAsCode := by
  intro key ticketId notAfter exporter exporter' h
  have h := congrArg ByteArr.val h
  simp only [exporterAsCode, List.append_assoc] at h
  rw [List.take_left' exporter.property, List.take_left' exporter'.property] at h
  exact ByteArr.ext h

/--
A record that is accepted on the session with the exporter `5..5` and recorded there goes to the
site on the session with the exporter `6..6`.
-/
theorem auth_v2_bound_to_session_recorded
    : ∃ buf, tryDecodeAuth ⟨exporterAsCode, .bits64, .fill 32 5, .fill 32 3, "relay"⟩ buf 50
          = some (.tunnel [])
        ∧ tryDecodeAuth ⟨exporterAsCode, .bits64, .fill 32 6, .fill 32 3, "relay"⟩ buf 50
          = some .site := by
  rcases auth_v2_bound_to_session exporterAsCode bindsExporter_exporterAsCode with ⟨hother, hown⟩
  rcases hown ⟨exporterAsCode, .bits64, .fill 32 5, .fill 32 3, "relay"⟩
      ⟨⟨.fill 16 1, .fill 32 2, 0, 100, suiteClassicV1⟩, "", .fill 64 7⟩ 50
      rfl (by decide) rfl (by decide) rfl (by decide)
    with ⟨payload, hpayload, hown⟩
  have hframes : Frames (.authV2 payload) _ := .codec bucketCodec (.inr rfl)
  have htunnel := hown _ [] hframes
  refine ⟨_, htunnel, ?_⟩
  have hlen : payload.length ≤ defaultMaxPayload :=
    Nat.le_trans (AuthRecordV2.length_of_encodePayload hpayload) (by decide)
  have hframe := attempt_of_frames .bits64 [] hlen hframes
  rw [attempt_eq_item_iff] at hframe
  have hne : ByteArr.fill 32 6 ≠ ByteArr.fill 32 5 := by decide
  exact (hother _ _ _ _ _ _ _ rfl rfl hne hframe rfl htunnel).2 _ _ _ hframe

end Veil
