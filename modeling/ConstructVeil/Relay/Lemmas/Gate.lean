import ConstructVeil.Relay.Impl.Gate
import ConstructVeil.Protocol.Lemmas.Stream
import ConstructVeil.Protocol.Lemmas.Capability

/-!
This module contains the verification of the gate: it lets a connection into the tunnel exactly when
its first frame is an authentic AUTH frame, and hands everything it read to whoever comes next.
-/

namespace Veil

open VeilFrontCodec

structure AuthenticV2 (env : GateEnv) (now : UInt64) (rec : AuthRecordV2) : Prop where
  notBefore : rec.capability.ticket.notBefore ≤ now
  notAfter : now ≤ rec.capability.ticket.notAfter
  suite : rec.capability.ticket.suiteId = suiteClassicV1
  scope : rec.capability.scope = "" ∨ env.relayScope = "" ∨ rec.capability.scope = env.relayScope
  issuer : env.crypto.verify env.issuerPubkey
    (Capability.signingMessage rec.capability.ticket rec.capability.scope) rec.capability.sig = true
  session : rec.authcode
    = (AuthRecord.fromTicket env.crypto rec.capability.ticket env.exporter).authcode

structure AuthenticV3 (env : GateEnv) (now : UInt64) (rec : AuthRecordV3) : Prop where
  role : rec.capability.role = roleUser ∨ rec.capability.role = roleRelay
  notBefore : rec.capability.notBefore ≤ now
  notAfter : now ≤ rec.capability.notAfter
  suite : rec.capability.suiteId = suiteClassicV1
  scope : rec.capability.scope = "" ∨ env.relayScope = "" ∨ rec.capability.scope = env.relayScope
  issuer : env.crypto.verify env.issuerPubkey (CapabilityV2.signingMessage rec.capability.ticketId
    rec.capability.veilPk rec.capability.role rec.capability.notBefore rec.capability.notAfter
    rec.capability.suiteId rec.capability.scope) rec.capability.sig = true
  session : env.crypto.verify rec.capability.veilPk
    (AuthRecordV3.signingMessage rec.capability env.exporter) rec.clientSig = true

/--
A frame that carries exactly the encoding of an authentic record of its type.
-/
def Authentic (env : GateEnv) (now : UInt64) (frame : Frame) : Prop :=
  (frame.frameType = frameTypeAuthV2 ∧
    ∃ rec : AuthRecordV2, rec.encodePayload = .ok frame.payload ∧ AuthenticV2 env now rec) ∨
  (frame.frameType = frameTypeAuthV3 ∧
    ∃ rec : AuthRecordV3, rec.encodePayload = .ok frame.payload ∧ AuthenticV3 env now rec)

theorem Authentic.length_payload_le {env : GateEnv} {now : UInt64} {frame : Frame}
    (h : Authentic env now frame) : frame.payload.length ≤ defaultMaxPayload := by
  have hmax : defaultMaxPayload = 1048576 := rfl
  rcases h with ⟨_, rec, hrec, _⟩ | ⟨_, rec, hrec, _⟩
  . have := AuthRecordV2.length_of_encodePayload hrec
    omega
  . have := AuthRecordV3.length_of_encodePayload hrec
    omega

theorem authenticV2_iff {env : GateEnv} {now : UInt64} {rec : AuthRecordV2}
    : AuthenticV2 env now rec
        ↔
      rec.verify env.crypto env.issuerPubkey env.relayScope env.exporter now = true := by
  rw [AuthRecordV2.verify_iff, Capability.isValidAt_iff, scopeMatches_iff]
  constructor
  . intro h
    exact ⟨⟨h.notBefore, h.notAfter⟩, h.suite, h.scope, h.issuer, h.session⟩
  . rintro ⟨⟨hbefore, hafter⟩, hsuite, hscope, hissuer, hsession⟩
    exact ⟨hbefore, hafter, hsuite, hscope, hissuer, hsession⟩

theorem authenticV3_iff {env : GateEnv} {now : UInt64} {rec : AuthRecordV3}
    : AuthenticV3 env now rec
        ↔
      (rec.capability.role = roleUser ∨ rec.capability.role = roleRelay) ∧
      rec.verify env.crypto env.issuerPubkey env.relayScope rec.capability.role env.exporter now
        = true := by
  rw [AuthRecordV3.verify_iff, CapabilityV2.isValidAt_iff, scopeMatches_iff]
  constructor
  . intro h
    exact ⟨h.role, rfl, ⟨h.notBefore, h.notAfter⟩, h.suite, h.scope, h.issuer, h.session⟩
  . rintro ⟨hrole, _, ⟨hbefore, hafter⟩, hsuite, hscope, hissuer, hsession⟩
    exact ⟨hrole, hbefore, hafter, hsuite, hscope, hissuer, hsession⟩

theorem tryDecodeAuth_wait {env : GateEnv} {buf : Bytes} (now : UInt64)
    (h : attempt env.target .default buf = .wait) : tryDecodeAuth env buf now = none := by
  rw [attempt_eq_wait_iff] at h
  simp [tryDecodeAuth, h]

theorem tryDecodeAuth_fail {env : GateEnv} {buf : Bytes} {e : DecodeError} (now : UInt64)
    (h : attempt env.target .default buf = .fail e) : tryDecodeAuth env buf now = some .site := by
  rw [attempt_eq_fail_iff] at h
  simp [tryDecodeAuth, h]

theorem tryDecodeAuth_item {env : GateEnv} {buf rest : Bytes} {frame : Frame} (now : UInt64)
    (h : attempt env.target .default buf = .item frame rest)
    : (Authentic env now frame ∧ tryDecodeAuth env buf now = some (.tunnel rest)) ∨
      (¬Authentic env now frame ∧ tryDecodeAuth env buf now = some .site) := by
  rw [attempt_eq_item_iff] at h
  unfold tryDecodeAuth Authentic
  simp only [h, Frame.isAuthV2, Frame.isAuthV3, beq_iff_eq,
    ← AuthRecordV2.decodePayload_eq_some_iff,
    ← AuthRecordV3.decodePayload_eq_some_iff, authenticV2_iff, authenticV3_iff]
  have hne : frameTypeAuthV2 ≠ frameTypeAuthV3 := by decide
  split
  . next hv2 =>
    cases AuthRecordV2.decodePayload frame.payload with
    | none => simp [hv2, hne]
    | some rec =>
      by_cases hverify :
          rec.verify env.crypto env.issuerPubkey env.relayScope env.exporter now = true
      . simp [hv2, hverify]
      . simp [hv2, hverify, hne]
  . next hv2 =>
    split
    . next hv3 =>
      cases AuthRecordV3.decodePayload frame.payload with
      | none => simp [hv2]
      | some rec =>
        by_cases hvalid : (rec.capability.role = roleUser ∨ rec.capability.role = roleRelay) ∧
            rec.verify env.crypto env.issuerPubkey env.relayScope rec.capability.role env.exporter
              now = true
        . simp [hv3, hvalid]
        . simp [hv2, hvalid]
    . next hv3 => simp [hv2, hv3]

theorem tryDecodeAuth_eq_none_iff {env : GateEnv} {buf : Bytes} {now : UInt64}
    : tryDecodeAuth env buf now = none ↔ attempt env.target .default buf = .wait := by
  cases h : attempt env.target .default buf with
  | item frame rest =>
    rcases tryDecodeAuth_item now h with ⟨_, hd⟩ | ⟨_, hd⟩
    all_goals simp [hd]
  | wait => simp [tryDecodeAuth_wait now h]
  | fail e => simp [tryDecodeAuth_fail now h]

def Accepts (env : GateEnv) (now : UInt64) (buf leftover : Bytes) : Prop :=
  ∃ frame pad, buf = wireFrame frame pad ++ leftover ∧ pad.length ≤ defaultMaxPayload ∧
    Authentic env now frame

theorem tryDecodeAuth_eq_tunnel_iff {env : GateEnv} {buf leftover : Bytes} {now : UInt64}
    : tryDecodeAuth env buf now = some (.tunnel leftover) ↔ Accepts env now buf leftover := by
  constructor
  . intro hd
    cases h : attempt env.target .default buf with
    | item frame rest =>
      rcases tryDecodeAuth_item now h with ⟨hauth, hd'⟩ | ⟨_, hd'⟩
      . simp only [hd, Option.some.injEq, GateDecision.tunnel.injEq] at hd'
        rcases (attempt_default_eq_item_iff _).mp h with ⟨pad, hbuf, _, hpad⟩
        exact ⟨frame, pad, by rw [hbuf, hd'], hpad, hauth⟩
      . simp [hd] at hd'
    | wait => simp [tryDecodeAuth_wait now h] at hd
    | fail e => simp [tryDecodeAuth_fail now h] at hd
  . rintro ⟨frame, pad, hbuf, hpad, hauth⟩
    have h := (attempt_default_eq_item_iff env.target).mpr
      ⟨pad, hbuf, hauth.length_payload_le, hpad⟩
    rcases tryDecodeAuth_item now h with ⟨_, hd⟩ | ⟨hnot, _⟩
    . exact hd
    . exact absurd hauth hnot

section gateStream

variable {env : GateEnv} {now₁ now₂ : UInt64} {buf more : Bytes} {hbuf : buf ≠ []}
  {hmore : more ≠ []} {stream : List ReadEvent}

theorem gateStream_some {decision : GateDecision} (h : tryDecodeAuth env buf now₁ = some decision)
    : gateStream env now₁ now₂ (.data buf hbuf :: stream)
        = (.ok (decision.consume buf), stream) := by
  simp [gateStream, nextRead, h]

theorem gateStream_none (h : tryDecodeAuth env buf now₁ = none)
    : gateStream env now₁ now₂ (.data buf hbuf :: .data more hmore :: stream)
        =
      (.ok (((tryDecodeAuth env (buf ++ more) now₂).getD .site).consume (buf ++ more)),
        stream) := by
  simp only [gateStream, nextRead, h]
  cases tryDecodeAuth env (buf ++ more) now₂ with
  | some decision => rfl
  | none => rfl

end gateStream

@[simp]
theorem GateDecision.consume_eq_tunnel_iff {decision : GateDecision} {buf leftover : Bytes}
    : decision.consume buf = .tunnel leftover ↔ decision = .tunnel leftover := by
  cases decision <;> simp [consume]

theorem GateDecision.consume_tunnel_or_site (decision : GateDecision) (buf : Bytes)
    : (∃ leftover, decision.consume buf = .tunnel leftover) ∨ decision.consume buf = .site buf := by
  cases decision <;> simp [consume]

theorem gateStream_tunnel_cases {env : GateEnv} {now₁ now₂ : UInt64} {stream rest : List ReadEvent}
    {leftover : Bytes} (h : gateStream env now₁ now₂ stream = (.ok (.tunnel leftover), rest))
    : (∃ b hb, stream = .data b hb :: rest ∧ tryDecodeAuth env b now₁ = some (.tunnel leftover)) ∨
      (∃ b hb b' hb', stream = .data b hb :: .data b' hb' :: rest ∧ tryDecodeAuth env b now₁
        = none ∧ tryDecodeAuth env (b ++ b') now₂ = some (.tunnel leftover)) := by
  rcases stream with _ | ⟨first, stream⟩
  . simp [gateStream, nextRead] at h
  cases first with
  | eof => simp [gateStream, nextRead] at h
  | err e => simp [gateStream, nextRead] at h
  | timeout => simp [gateStream, nextRead] at h
  | data b hb =>
    cases hd : tryDecodeAuth env b now₁ with
    | some decision =>
      rw [gateStream_some hd] at h
      simp only [Prod.mk.injEq, Except.ok.injEq, GateDecision.consume_eq_tunnel_iff] at h
      rw [← h.2, ← h.1]
      exact Or.inl ⟨b, hb, rfl, hd⟩
    | none =>
      rcases stream with _ | ⟨second, stream⟩
      . simp [gateStream, nextRead, hd] at h
      cases second with
      | eof => simp [gateStream, nextRead, hd] at h
      | err e => simp [gateStream, nextRead, hd] at h
      | timeout => simp [gateStream, nextRead, hd] at h
      | data b' hb' =>
        rw [gateStream_none hd] at h
        simp only [Prod.mk.injEq, Except.ok.injEq, GateDecision.consume_eq_tunnel_iff] at h
        rw [← h.2]
        refine Or.inr ⟨b, hb, b', hb', rfl, hd, ?_⟩
        cases hd' : tryDecodeAuth env (b ++ b') now₂ with
        | some decision =>
          rw [hd'] at h
          rw [← h.1]
          rfl
        | none =>
          rw [hd'] at h
          cases h.1

def Incomplete (env : GateEnv) (buf : Bytes) : Prop :=
  VeilFrontCodec.default.decodeOn env.target buf = (.ok none, buf)

theorem incomplete_iff {env : GateEnv} {buf : Bytes} (now : UInt64)
    : Incomplete env buf ↔ tryDecodeAuth env buf now = none := by
  rw [tryDecodeAuth_eq_none_iff, attempt_eq_wait_iff, Incomplete]

section gateStream

variable (env : GateEnv) (now₁ now₂ : UInt64) (first second : ReadEvent) (more : List ReadEvent)

theorem gateStream_eq_tunnel_iff (leftover : Bytes)
    : (gateStream env now₁ now₂ (first :: second :: more)).1 = .ok (.tunnel leftover)
        ↔
      (∃ b, first.bytes = some b ∧ Accepts env now₁ b leftover) ∨
      (∃ b b', first.bytes = some b ∧ Incomplete env b ∧ second.bytes = some b' ∧
        Accepts env now₂ (b ++ b') leftover) := by
  simp only [← tryDecodeAuth_eq_tunnel_iff, incomplete_iff now₁]
  cases first with
  | data b hb =>
    cases hd : tryDecodeAuth env b now₁ with
    | some decision => simp [gateStream_some hd, ReadEvent.bytes, hd]
    | none =>
      cases second with
      | data b' hb' =>
        rw [gateStream_none hd]
        cases hd' : tryDecodeAuth env (b ++ b') now₂ with
        | some decision => simp [ReadEvent.bytes, hd, hd']
        | none => simp [ReadEvent.bytes, hd, hd']
      | eof => simp [gateStream, nextRead, ReadEvent.bytes, hd]
      | err e => simp [gateStream, nextRead, ReadEvent.bytes, hd]
      | timeout => simp [gateStream, nextRead, ReadEvent.bytes, hd]
  | eof => simp [gateStream, nextRead, ReadEvent.bytes]
  | err e => simp [gateStream, nextRead, ReadEvent.bytes]
  | timeout => simp [gateStream, nextRead, ReadEvent.bytes]

theorem gateStream_otherwise
    : (∃ e, first = .err e ∧ (gateStream env now₁ now₂ (first :: second :: more)).1 = .error e) ∨
      (∃ leftover,
        (gateStream env now₁ now₂ (first :: second :: more)).1 = .ok (.tunnel leftover)) ∨
      (∃ consumed, first :: second :: more
            =
          consumed ++ (gateStream env now₁ now₂ (first :: second :: more)).2 ∧
        (gateStream env now₁ now₂ (first :: second :: more)).1
            =
          .ok (.site (ReadEvent.received consumed))) := by
  cases first with
  | data b hb =>
    right
    cases hd : tryDecodeAuth env b now₁ with
    | some decision =>
      rw [gateStream_some hd]
      rcases decision.consume_tunnel_or_site b with ⟨leftover, h⟩ | h
      . exact .inl ⟨leftover, by rw [h]⟩
      . exact .inr ⟨[.data b hb], rfl, by simp [h, ReadEvent.received]⟩
    | none =>
      cases second with
      | data b' hb' =>
        rw [gateStream_none hd]
        rcases ((tryDecodeAuth env (b ++ b') now₂).getD .site).consume_tunnel_or_site (b ++ b')
          with ⟨leftover, h⟩ | h
        . exact .inl ⟨leftover, by rw [h]⟩
        . exact .inr ⟨[.data b hb, .data b' hb'], rfl, by simp [h, ReadEvent.received]⟩
      | eof =>
        exact .inr ⟨[.data b hb, .eof], by simp [gateStream, nextRead, hd, ReadEvent.received]⟩
      | err e =>
        exact .inr ⟨[.data b hb, .err e], by simp [gateStream, nextRead, hd, ReadEvent.received]⟩
      | timeout =>
        exact .inr ⟨[.data b hb, .timeout], by simp [gateStream, nextRead, hd, ReadEvent.received]⟩
  | eof => exact .inr (.inr ⟨[.eof], by simp [gateStream, nextRead, ReadEvent.received]⟩)
  | err e => exact .inl ⟨e, rfl, rfl⟩
  | timeout => exact .inr (.inr ⟨[.timeout], by simp [gateStream, nextRead, ReadEvent.received]⟩)

theorem gateStream_eq_error_iff (e : IoError)
    : (gateStream env now₁ now₂ (first :: second :: more)).1 = .error e ↔ first = .err e := by
  constructor
  . intro h
    rcases gateStream_otherwise env now₁ now₂ first second more
      with ⟨e', hfirst, h'⟩ | ⟨_, h'⟩ | ⟨_, _, h'⟩
    . rw [h] at h'
      injection h' with he
      rw [hfirst, he]
    . rw [h] at h'
      cases h'
    . rw [h] at h'
      cases h'
  . rintro rfl
    rfl

end gateStream

/--
The verdict together with the bytes that whoever takes over gets to see: what the gate read ahead
and what is still to be read.
-/
def gateOutcome : Except IoError GateResult × List ReadEvent → Except IoError (Bool × Bytes)
  | (.error e, _) => .error e
  | (.ok (.tunnel leftover), stream) => .ok (true, leftover ++ ReadEvent.received stream)
  | (.ok (.site firstBytes), stream) => .ok (false, firstBytes ++ ReadEvent.received stream)

theorem gateOutcome_cut (env : GateEnv) (now : UInt64) (stream : List ReadEvent) {frame : Frame}
    {rest b b' : Bytes} (hb : b ≠ []) (hb' : b' ≠ []) (hbb' : b ++ b' ≠ [])
    (h : attempt env.target .default (b ++ b') = .item frame rest)
    : gateOutcome (gateStream env now now (.data b hb :: .data b' hb' :: stream))
        =
      gateOutcome (gateStream env now now (.data (b ++ b') hbb' :: stream)) := by
  cases hcut : attempt env.target .default b with
  | item frame' rest' =>
    -- the frame is complete in the first read, the second read stays on the stream
    have happ := (decoder env.target .default).item_append b' hcut
    rw [decoder_attempt, h] at happ
    injection happ with hframe hrest
    subst hframe hrest
    rcases tryDecodeAuth_item now h with ⟨hauth, hd⟩ | ⟨hauth, hd⟩
    . rcases tryDecodeAuth_item now hcut with ⟨_, hd'⟩ | ⟨hnot, _⟩
      . rw [gateStream_some hd, gateStream_some hd']
        simp [gateOutcome, GateDecision.consume, ReadEvent.received]
      . exact absurd hauth hnot
    . rcases tryDecodeAuth_item now hcut with ⟨hauth', _⟩ | ⟨_, hd'⟩
      . exact absurd hauth' hauth
      . rw [gateStream_some hd, gateStream_some hd']
        simp [gateOutcome, GateDecision.consume, ReadEvent.received]
  | wait =>
    have hnone := tryDecodeAuth_wait now hcut
    rcases tryDecodeAuth_item now h with ⟨_, hd⟩ | ⟨_, hd⟩
    all_goals rw [gateStream_none hnone, gateStream_some hd, hd]; rfl
  | fail e =>
    have happ := (decoder env.target .default).fail_append b' hcut
    rw [decoder_attempt, h] at happ
    cases happ

/--
The gate lets a connection into the tunnel if and only if its first read, or its first two reads
together when the first one ends inside a frame, are an authentic AUTH frame and the leftover. An
error of the first read is passed on, and in every other case the site gets all bytes that were
read. Where the bytes of a complete frame are cut plays no role.
-/
theorem gateStream_accepts_authentic (env : GateEnv) (now₁ now₂ : UInt64) (first second : ReadEvent)
    (more : List ReadEvent)
    : ∃ res rest, gateStream env now₁ now₂ (first :: second :: more) = (res, rest) ∧
        (∀ leftover, res = .ok (.tunnel leftover)
            ↔
          (∃ b, first.bytes = some b ∧ Accepts env now₁ b leftover) ∨
          (∃ b b', first.bytes = some b ∧ Incomplete env b ∧ second.bytes = some b' ∧
            Accepts env now₂ (b ++ b') leftover)) ∧
        (∀ e, res = .error e ↔ first = .err e) ∧
        ((∀ leftover, res ≠ .ok (.tunnel leftover)) → (∀ e, res ≠ .error e) →
          ∃ consumed, first :: second :: more = consumed ++ rest ∧
            res = .ok (.site (ReadEvent.received consumed))) ∧
        (∀ (frame : Frame) (pad tail b b' : Bytes) (hb : b ≠ []) (hb' : b' ≠ [])
          (hbb' : b ++ b' ≠ []),
          b ++ b' = wireFrame frame pad ++ tail → frame.payload.length ≤ defaultMaxPayload →
          pad.length ≤ defaultMaxPayload →
            gateOutcome (gateStream env now₁ now₁ (.data b hb :: .data b' hb' :: more))
              =
            gateOutcome (gateStream env now₁ now₁ (.data (b ++ b') hbb' :: more))) := by
  refine ⟨(gateStream env now₁ now₂ (first :: second :: more)).1, _, rfl, ?_, ?_, ?_, ?_⟩
  . exact gateStream_eq_tunnel_iff env now₁ now₂ first second more
  . exact gateStream_eq_error_iff env now₁ now₂ first second more
  . intro htunnel herror
    rcases gateStream_otherwise env now₁ now₂ first second more with ⟨e, _, h⟩ | ⟨leftover, h⟩ | h
    . exact absurd h (herror e)
    . exact absurd h (htunnel leftover)
    . exact h
  . intro frame pad tail b b' hb hb' hbb' hbuf hpayload hpad
    exact gateOutcome_cut env now₁ more hb hb' hbb'
      ((attempt_default_eq_item_iff _).mpr ⟨pad, hbuf, hpayload, hpad⟩)

end Veil
