import ConstructVeil.Relay.Lemmas.Gate
import ConstructVeil.Relay.Lemmas.Signing

/-!
This module contains the verification of what AUTH v3 is for: whoever sees AUTH records, relays and
chain hops included, learns nothing that opens another session. Runs are traces of signing events of
honest parties and of byte strings that anybody presents to a relay.
-/

namespace Veil

open VeilFrontCodec

/--
The events of a run. Parties are named by their public key.
-/
inductive AuthEvent where
  -- An issuer signs a bearer capability
  | issueV1 (issuer : ByteArr 32) (ticket : Ticket) (scope : String)
  -- An issuer signs a key-bound capability
  | issueV2 (issuer : ByteArr 32) (fields : CapFields 1)
  -- An issuer signs a relay configuration, which is a JSON object without its opening brace
  | signConfig (issuer : ByteArr 32) (json : Bytes)
  -- The holder of a key builds an AUTH v3 record on a session with the given exporter
  | authenticate (holder : ByteArr 32) (capability : CapabilityV2) (exporter : ByteArr 32)
  -- Somebody sends bytes to a relay
  | present (relay : GateEnv) (buf : Bytes) (now : UInt64)

def AuthEvent.Signs (pubkey : ByteArr 32) (msg : Bytes) : AuthEvent → Prop
  | .issueV1 issuer ticket scope => issuer = pubkey ∧ msg = Capability.signingMessage ticket scope
  | .issueV2 issuer fields => issuer = pubkey ∧ msg = fields.signingMessage capV2Domain
  | .signConfig issuer json => issuer = pubkey ∧ msg = asBytes "\x7b" ++ json
  | .authenticate holder capability exporter =>
    holder = pubkey ∧ msg = AuthRecordV3.signingMessage capability exporter
  | .present _ _ _ => False

/--
What is assumed of the signature scheme: if bytes that are presented to a relay contain a signature
that verifies under the key of an honest party, that party has signed the message before.
-/
def Unforgeable (honest : ByteArr 32 → Prop) (trace : List AuthEvent) : Prop :=
  ∀ past relay buf now future, trace = past ++ .present relay buf now :: future →
    ∀ (pubkey : ByteArr 32) (msg : Bytes) (sig : ByteArr 64), honest pubkey → sig.val <:+: buf →
      relay.crypto.verify pubkey msg sig = true → ∃ event ∈ past, event.Signs pubkey msg

theorem issueV2_of_signs {event : AuthEvent} {issuer : ByteArr 32} {fields : CapFields 1}
    (h : event.Signs issuer (fields.signingMessage capV2Domain))
    : event = .issueV2 issuer fields := by
  have hmsg := IsMessage.ofFields fields
  cases event with
  | issueV1 issuer' ticket scope =>
    rw [h.2] at hmsg
    cases hmsg.kind_eq (.capability ticket scope)
  | issueV2 issuer' fields' =>
    rcases h with ⟨rfl, heq⟩
    rw [CapFields.signingMessage_injective heq]
  | signConfig issuer' json =>
    rw [h.2] at hmsg
    cases hmsg.kind_eq (.config json)
  | authenticate holder capability exporter =>
    rw [h.2] at hmsg
    cases hmsg.kind_eq (.authV3 capability exporter)
  | present relay buf now => exact absurd h id

theorem authenticate_of_signs {event : AuthEvent} {holder exporter : ByteArr 32}
    {cap : CapabilityV2} (h : event.Signs holder (AuthRecordV3.signingMessage cap exporter))
    : ∃ cap', event = .authenticate holder cap' exporter ∧ cap'.ticketId = cap.ticketId ∧
        cap'.notAfter = cap.notAfter := by
  have hmsg := IsMessage.authV3 cap exporter
  cases event with
  | issueV1 issuer ticket scope =>
    rw [h.2] at hmsg
    cases hmsg.kind_eq (.capability ticket scope)
  | issueV2 issuer fields =>
    rw [h.2] at hmsg
    cases hmsg.kind_eq (.ofFields fields)
  | signConfig issuer json =>
    rw [h.2] at hmsg
    cases hmsg.kind_eq (.config json)
  | authenticate holder' cap' exporter' =>
    rcases h with ⟨rfl, heq⟩
    rcases AuthRecordV3.signingMessage_injective heq with ⟨rfl, hid, hafter⟩
    exact ⟨cap', rfl, hid.symm, hafter.symm⟩
  | present relay buf now => exact absurd h id

theorem AuthRecordV3.sigs_infix {rec : AuthRecordV3} {frame : Frame} (pad leftover : Bytes)
    (h : rec.encodePayload = .ok frame.payload)
    : rec.capability.sig.val <:+: wireFrame frame pad ++ leftover ∧
      rec.clientSig.val <:+: wireFrame frame pad ++ leftover := by
  rcases map_append_eq_ok_iff.mp h with ⟨blob, hblob, hpayload⟩
  rcases CapFields.encode_eq_ok_iff.mp hblob with ⟨_, hblob⟩
  have hframe : frame.payload <:+: wireFrame frame pad ++ leftover := by
    refine ⟨wireVer :: frame.frameType :: (leb128 frame.payload.length ++ leb128 pad.length),
      pad ++ leftover, ?_⟩
    simp [wireFrame]
  have hsig : rec.capability.sig.val <:+ blob := by
    rw [hblob]
    iterate 5 apply List.IsSuffix.trans _ (List.suffix_append _ _)
    iterate 2 apply List.IsSuffix.trans _ (List.suffix_cons _ _)
    exact List.suffix_append _ _
  have hclient : rec.clientSig.val <:+ frame.payload := by
    rw [hpayload]
    exact List.suffix_append blob _
  refine ⟨?_, hclient.isInfix.trans hframe⟩
  have : blob <+: frame.payload := by
    rw [hpayload]
    exact List.prefix_append blob _
  exact (hsig.isInfix.trans this.isInfix).trans hframe

/--
An AUTH v3 record gives its observers nothing reusable. Whenever a relay lets an AUTH v3 connection
into the tunnel, the holder of the presented key has authenticated on this very session with the
presented ticket, and the issuer has signed exactly the presented capability. This holds at every
point of every run, for arbitrary presented bytes.
-/
theorem auth_v3_not_reusable (honest : ByteArr 32 → Prop) (trace past future : List AuthEvent)
    (relay : GateEnv) (buf leftover : Bytes) (now : UInt64) (frame : Frame) (rec : AuthRecordV3)
    (hunforgeable : Unforgeable honest trace)
    (htrace : trace = past ++ .present relay buf now :: future)
    (hframe : VeilFrontCodec.default.decodeOn relay.target buf = (.ok (some frame), leftover))
    (htype : frame.isAuthV3 = true)
    (hrec : AuthRecordV3.decodePayload frame.payload = some rec)
    (hissuer : honest relay.issuerPubkey)
    (hholder : honest rec.capability.veilPk)
    (htunnel : tryDecodeAuth relay buf now = some (.tunnel leftover))
    : (∃ cap, .authenticate rec.capability.veilPk cap relay.exporter ∈ past ∧
        cap.ticketId = rec.capability.ticketId ∧ cap.notAfter = rec.capability.notAfter) ∧
      .issueV2 relay.issuerPubkey (CapabilityV2.fields rec.capability.ticketId rec.capability.veilPk
        rec.capability.role rec.capability.notBefore rec.capability.notAfter rec.capability.suiteId
        rec.capability.scope) ∈ past := by
  rw [← attempt_eq_item_iff] at hframe
  have hauth : AuthenticV3 relay now rec := by
    rcases tryDecodeAuth_item now hframe with ⟨hauth, _⟩ | ⟨_, hsite⟩
    . rcases hauth with ⟨hv2, _⟩ | ⟨_, rec', hrec', hauth⟩
      . simp only [Frame.isAuthV3, hv2] at htype
        exact absurd htype (by decide)
      . rw [← AuthRecordV3.decodePayload_eq_some_iff, hrec] at hrec'
        injection hrec' with hrec'
        rw [hrec']
        exact hauth
    . rw [htunnel] at hsite
      cases hsite
  rcases (attempt_default_eq_item_iff _).mp hframe with ⟨pad, hbuf, _⟩
  rw [AuthRecordV3.decodePayload_eq_some_iff] at hrec
  have hsigs := AuthRecordV3.sigs_infix pad leftover hrec
  rw [← hbuf] at hsigs
  -- both signatures stand in the presented bytes, so their owners have signed before
  have hsigned := hunforgeable past relay buf now future htrace
  constructor
  . rcases hsigned _ _ _ hholder hsigs.2 hauth.session with ⟨event, hmem, hsigns⟩
    rcases authenticate_of_signs hsigns with ⟨cap, rfl, hid, hafter⟩
    exact ⟨cap, hmem, hid, hafter⟩
  . rcases hsigned _ _ _ hissuer hsigs.1 hauth.issuer with ⟨event, hmem, hsigns⟩
    rw [issueV2_of_signs hsigns] at hmem
    exact hmem

def boundCapability : CapabilityV2 :=
  ⟨.fill 16 1, .fill 32 2, roleUser, 0, 100, suiteClassicV1, "", .fill 64 7⟩

/--
Signatures verify for two messages only: the issuer's over that capability, and the holder's over
the session with the exporter `5..5`.
-/
def twoMessages : Crypto where
  publicKey seed := seed
  sign _ _ := .fill 64 7
  validKey _ := true
  verifyStrict pubkey msg _ :=
    (pubkey = .fill 32 3 ∧ msg = boundCapability.toFields.signingMessage capV2Domain) ∨
    (pubkey = .fill 32 2 ∧ msg = AuthRecordV3.signingMessage boundCapability (.fill 32 5))
  hmacSha256 _ _ := .fill 32 0

def twoMessagesRelay : GateEnv := ⟨twoMessages, .bits64, .fill 32 5, .fill 32 3, "relay"⟩

theorem unforgeable_twoMessages (buf : Bytes)
    : Unforgeable (fun _ => True) [.issueV2 (.fill 32 3) boundCapability.toFields,
        .authenticate (.fill 32 2) boundCapability (.fill 32 5),
          .present twoMessagesRelay buf 50] := by
  intro past relay buf' now future htrace pubkey msg sig _ _ hverify
  match past with
  | [] => simp at htrace
  | [_] => simp at htrace
  | [_, _] =>
    simp only [List.cons_append, List.nil_append, List.cons.injEq,
      AuthEvent.present.injEq] at htrace
    rcases htrace with ⟨rfl, rfl, ⟨rfl, _⟩, _⟩
    simp only [Crypto.verify, twoMessagesRelay, twoMessages, ↓reduceIte,
      decide_eq_true_eq] at hverify
    rcases hverify with ⟨rfl, rfl⟩ | ⟨rfl, rfl⟩
    . exact ⟨_, List.mem_cons_self, rfl, rfl⟩
    . exact ⟨_, List.mem_cons_of_mem _ List.mem_cons_self, rfl, rfl⟩
  | _ :: _ :: _ :: _ => simp at htrace

theorem authenticV3_twoMessages
    : AuthenticV3 twoMessagesRelay 50 ⟨boundCapability, .fill 64 7⟩ where
  role := .inl rfl
  notBefore := by decide
  notAfter := by decide
  suite := rfl
  scope := .inl rfl
  issuer := by
    simp only [Crypto.verify, twoMessagesRelay, twoMessages, ↓reduceIte, decide_eq_true_eq]
    exact .inl ⟨trivial, rfl⟩
  session := by
    simp [Crypto.verify, twoMessagesRelay, twoMessages, boundCapability]

/--
The holder of a capability authenticates on a session, and the relay at its other end accepts.
-/
theorem auth_v3_not_reusable_honest
    : ∃ (past : List AuthEvent) (buf : Bytes),
        Unforgeable (fun _ => True) (past ++ [.present twoMessagesRelay buf 50]) ∧
        tryDecodeAuth twoMessagesRelay buf 50 = some (.tunnel []) ∧
        ∃ cap, .authenticate (.fill 32 2) cap (.fill 32 5) ∈ past ∧ cap.ticketId = .fill 16 1 := by
  have hencode : ∃ payload,
      (⟨boundCapability, .fill 64 7⟩ : AuthRecordV3).encodePayload = .ok payload :=
    ⟨_, map_append_eq_ok_iff.mpr ⟨_, CapFields.encode_eq_ok_iff.mpr ⟨by decide, rfl⟩, rfl⟩⟩
  rcases hencode with ⟨payload, hpayload⟩
  have hauth : Authentic twoMessagesRelay 50 (.authV3 payload) :=
    .inr ⟨rfl, _, hpayload, authenticV3_twoMessages⟩
  have hitem : attempt .bits64 .default (wireFrame (.authV3 payload) [] ++ [])
      = .item (.authV3 payload) [] :=
    (attempt_default_eq_item_iff _).mpr ⟨[], rfl, hauth.length_payload_le, by decide⟩
  have htunnel : tryDecodeAuth twoMessagesRelay (wireFrame (.authV3 payload) [] ++ []) 50
      = some (.tunnel []) :=
    tryDecodeAuth_eq_tunnel_iff.mpr ⟨_, [], rfl, by decide, hauth⟩
  have h := auth_v3_not_reusable (fun _ => True) _ _ [] twoMessagesRelay _ [] 50 (.authV3 payload) _
    (unforgeable_twoMessages _) (List.append_cons [_] _ [_]) (attempt_eq_item_iff.mp hitem) rfl
    (AuthRecordV3.decodePayload_eq_some_iff.mpr hpayload) trivial trivial htunnel
  rcases h.1 with ⟨cap, hmem, hid, _⟩
  exact ⟨_, _, unforgeable_twoMessages _, htunnel, cap, hmem, hid⟩

end Veil
